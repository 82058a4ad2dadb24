import Chip8.Instruction.Word
import Chip8.Memory.Basic
import Chip8.Proofs.Scrolling
import Mathlib.Data.Nat.ModEq

/-!
# When nothing changes

When do the operations that instructions are made of leave registers, memory and screen as
they are? Each of them does so exactly if what it would put there is there already:

> `setNibble_eq_self_iff`, `Memory.writeBytes_eq_self_iff`, `Screen.Redrawn.eq_self_iff`.

For the screen this has two consequences that are not read off the operations at once. A
scroll by some rows or columns changes every picture but the dark one
(`Screen.scrollDown_eq_self_iff`, `Screen.scrollRight_eq_self_iff`,
`Screen.scrollLeft_eq_self_iff`), and a sprite that is no larger than the screen changes every
screen unless it is empty (`Screen.draw_eq_self_iff`), since it turns no pixel over twice.
-/

namespace Chip8

theorem setNibble_eq_self_iff {α : Type} (things : Vector α 16) (d : Nibble) (a : α) :
    setNibble things d a = things ↔ things.get d = a := by
  constructor
  · intro h
    rw [← h, get_setNibble, if_pos rfl]
  · intro h
    rw [← h]
    exact Vector.set_getElem_self d.isLt

/-- A thing and then a last one are put into place in vain if the last one is there already
and so is the other, unless the last one covers it. -/
theorem setNibble_setNibble_eq_self_iff {α : Type} (things : Vector α 16) (d e : Nibble)
    (a b : α) :
    setNibble (setNibble things d a) e b = things ↔
      things.get e = b ∧ (d = e ∨ things.get d = a) := by
  by_cases hde : d = e
  · subst hde
    have hset : setNibble (setNibble things d a) d b = setNibble things d b := by
      simp [setNibble]
    rw [hset, setNibble_eq_self_iff]
    simp
  · constructor
    · intro h
      refine ⟨?_, Or.inr ?_⟩
      · rw [← h, get_setNibble, if_pos rfl]
      · rw [← h, get_setNibble, if_neg (Ne.symm hde), get_setNibble, if_pos rfl]
    · intro h
      obtain ⟨he, hd⟩ := h
      rw [(setNibble_eq_self_iff things d a).mpr (hd.resolve_left hde),
        (setNibble_eq_self_iff things e b).mpr he]

/-! ## Memory -/

namespace Memory

theorem poke_peek (m : Memory) (a : Nat) : m.poke a (m.peek a) = m := by
  simp [poke, peek]

theorem writeBytes_eq_self {m : Memory} {a : Nat} {data : List UInt8}
    (h : ∀ k (hk : k < data.length), m.peek (a + k) = data[k]) : m.writeBytes a data = m := by
  induction data generalizing a with
  | nil => rfl
  | cons b rest ih =>
    have h0 : m.peek a = b := h 0 (Nat.zero_lt_succ _)
    rw [writeBytes, ← h0, poke_peek]
    refine ih fun k hk => ?_
    rw [Nat.add_assoc, Nat.add_comm 1 k]
    exact h (k + 1) (Nat.succ_lt_succ hk)

theorem writeBytes_eq_self_iff {m : Memory} {a : Nat} {data : List UInt8}
    (hlen : data.length ≤ 4096) :
    m.writeBytes a data = m ↔ ∀ k (hk : k < data.length), m.peek (a + k) = data[k] := by
  refine ⟨fun h k hk => ?_, writeBytes_eq_self⟩
  rw [← peek_writeBytes_add (m := m) hlen hk, h]

end Memory

/-! ## Sprites -/

namespace Sprite

theorem setBits_eq_nil_iff (b : UInt8) : setBits b = [] ↔ b = 0 := by
  constructor
  · intro h
    have hbits : ∀ bit < 8, b.toNat.testBit (7 - bit) = false := by
      simpa [setBits, List.filter_eq_nil_iff] using h
    have hzero : b.toNat = 0 := by
      refine Nat.eq_of_testBit_eq fun k => ?_
      rw [Nat.zero_testBit]
      by_cases hk : k < 8
      · have hbit := hbits (7 - k) (by omega)
        rwa [show 7 - (7 - k) = k by omega] at hbit
      · refine Nat.testBit_lt_two_pow (Nat.lt_of_lt_of_le b.toNat_lt ?_)
        exact Nat.pow_le_pow_right (by decide) (Nat.not_lt.mp hk)
    exact UInt8.toNat_inj.mp hzero
  · intro h
    rw [h]
    decide

theorem lit_eq_nil_iff (s : Sprite) : s.lit = [] ↔ ∀ b ∈ s.bytes, b = 0 := by
  unfold lit
  rw [List.flatMap_eq_nil_iff]
  constructor
  · intro h b hb
    obtain ⟨k, hk, rfl⟩ := List.getElem_of_mem hb
    have hk := h (s.bytes[k], k) (by simp [List.mem_zipIdx_iff_getElem?, hk])
    exact (setBits_eq_nil_iff _).mp (List.map_eq_nil_iff.mp hk)
  · intro h indexed hmem
    obtain ⟨b, k⟩ := indexed
    obtain rfl := h b (List.fst_mem_of_mem_zipIdx hmem)
    rfl

/-- The number of a lit point in reading order. -/
def order (s : Sprite) (point : Nat × Nat) : Nat := point.2 * (8 * s.stride) + point.1

/-- The lit points come in reading order, so none comes twice. -/
theorem lit_pairwise (s : Sprite) : s.lit.Pairwise fun p q => s.order p < s.order q := by
  have horder : ∀ k bit, s.order (8 * (k % s.stride) + bit, k / s.stride) = 8 * k + bit := by
    intro k bit
    have hk := Nat.div_add_mod k s.stride
    unfold order
    dsimp only
    rw [← Nat.add_assoc, Nat.mul_left_comm, ← Nat.mul_add, Nat.mul_comm (k / s.stride), hk]
  unfold lit
  rw [List.pairwise_flatMap]
  constructor
  · intro indexed _
    obtain ⟨b, k⟩ := indexed
    rw [List.pairwise_map]
    refine (List.Pairwise.filter _ List.pairwise_lt_range).imp fun hlt => ?_
    rw [horder, horder]
    exact Nat.add_lt_add_left hlt _
  · have hidx : (s.bytes.zipIdx.map Prod.snd).Pairwise (· < ·) := by
      rw [List.zipIdx_map_snd]
      exact List.pairwise_lt_range'
    refine (List.pairwise_map.mp hidx).imp ?_
    intro indexed indexed' hlt p hp q hq
    obtain ⟨b, k⟩ := indexed
    obtain ⟨c, l⟩ := indexed'
    obtain ⟨bit, hbit, rfl⟩ := List.mem_map.mp hp
    obtain ⟨bit', -, rfl⟩ := List.mem_map.mp hq
    have h8 := mem_setBits hbit
    rw [horder, horder]
    dsimp only at hlt ⊢
    omega

end Sprite

/-! ## The screen -/

namespace Screen

/-- Every cell is off, whether or not the mode uses it. -/
def Cleared (s : Screen) : Prop := ∀ i, i < 8192 → s.cell i = false

theorem blank_eq_iff (s : Screen) (mode : ScreenMode) :
    blank mode = s ↔ s.mode = mode ∧ s.Cleared := by
  constructor
  · intro h
    subst h
    exact ⟨rfl, fun i _ => cell_blank mode i⟩
  · intro h
    obtain ⟨rfl, hcleared⟩ := h
    refine ext_cell rfl fun i hi => ?_
    rw [cell_blank, hcleared i hi]

/-! ### Scrolling -/

/-- What equals itself moved up by `n`, with nothing coming in, is nothing. -/
theorem eq_false_of_shift {f : Nat → Bool} {n bound : Nat} (hn : n ≠ 0)
    (h : ∀ k < bound, (decide (n ≤ k) && f (k - n)) = f k) : ∀ k < bound, f k = false := by
  intro k hk
  induction k using Nat.strongRecOn with
  | ind k ih =>
    rw [← h k hk]
    by_cases hnk : n ≤ k
    · rw [ih (k - n) (by omega) (by omega), Bool.and_false]
    · rw [decide_eq_false hnk, Bool.false_and]

/-- What equals itself moved down by `n`, and is nothing from `bound` on, is nothing. -/
theorem eq_false_of_unshift {f : Nat → Bool} {n bound : Nat} (hn : n ≠ 0)
    (hbound : ∀ k, bound ≤ k → f k = false) (h : ∀ k < bound, f (k + n) = f k) :
    ∀ k, f k = false := by
  intro k
  -- The distance to the bound decreases.
  induction hleft : bound - k using Nat.strongRecOn generalizing k with
  | ind left ih =>
    by_cases hk : k < bound
    · rw [← h k hk]
      exact ih (bound - (k + n)) (by omega) (k + n) rfl
    · exact hbound k (Nat.not_lt.mp hk)

theorem scrollDown_eq_self_iff (s : Screen) (n : Nat) :
    s.scrollDown n = s ↔ n = 0 ∨ s.Dark := by
  rw [(s.scrollDown_redrawn n).eq_self_iff]
  constructor
  · intro h
    refine or_iff_not_imp_left.mpr fun hn => dark_of_lt fun x hx y hy => ?_
    exact eq_false_of_shift hn (f := fun y => s.get x y) (h x hx) y hy
  · intro h x _ y _
    rcases h with rfl | hdark
    · simp
    · rw [hdark, hdark, Bool.and_false]

theorem scrollRight_eq_self_iff (s : Screen) (n : Nat) :
    s.scrollRight n = s ↔ n = 0 ∨ s.Dark := by
  rw [(s.scrollRight_redrawn n).eq_self_iff]
  constructor
  · intro h
    refine or_iff_not_imp_left.mpr fun hn => dark_of_lt fun x hx y hy => ?_
    exact eq_false_of_shift hn (f := fun x => s.get x y) (fun k hk => h k hk y hy) x hx
  · intro h x _ y _
    rcases h with rfl | hdark
    · simp
    · rw [hdark, hdark, Bool.and_false]

theorem scrollLeft_eq_self_iff (s : Screen) (n : Nat) :
    s.scrollLeft n = s ↔ n = 0 ∨ s.Dark := by
  rw [(s.scrollLeft_redrawn n).eq_self_iff]
  constructor
  · intro h
    refine or_iff_not_imp_left.mpr fun hn => dark_of_lt fun x _ y hy => ?_
    exact eq_false_of_unshift hn (f := fun x => s.get x y) (fun k hk => get_of_width_le hk y)
      (fun k hk => h k hk y hy) x
  · intro h x _ y _
    rcases h with rfl | hdark
    · rfl
    · rw [hdark, hdark]

/-! ### Drawing -/

theorem mod_add_left_inj (a : Nat) {b c w : Nat} (hb : b < w) (hc : c < w)
    (h : (a + b) % w = (a + c) % w) : b = c := by
  have hmod : b % w = c % w := Nat.ModEq.add_left_cancel' a h
  rwa [Nat.mod_eq_of_lt hb, Nat.mod_eq_of_lt hc] at hmod

/-- Two points within the size of the screen are above the same cell only if they are one. -/
theorem under_inj {s : Screen} {x y : Nat} {p q : Nat × Nat} (hp : p.1 < s.width)
    (hp' : p.2 < s.height) (hq : q.1 < s.width) (hq' : q.2 < s.height)
    (h : s.under x y p = s.under x y q) : p = q := by
  have hw := s.width_pos
  obtain ⟨hcol, hrow⟩ := (cellNumber_inj (Nat.mod_lt _ hw) (Nat.mod_lt _ hw)).mp h
  exact Prod.ext (mod_add_left_inj x hp hq hcol) (mod_add_left_inj y hp' hq' hrow)

theorem draw_of_empty {sprite : Sprite} (h : ∀ b ∈ sprite.bytes, b = 0) (s : Screen) (x y : Nat) :
    s.draw x y sprite = (s, false) := by
  rw [draw, (Sprite.lit_eq_nil_iff sprite).mpr h]
  rfl

/-- A sprite no larger than the screen leaves it as it is only if it is empty: the first lit
point turns a cell over that no later one is above. -/
theorem draw_eq_self_iff {s : Screen} {sprite : Sprite} (hwidth : 8 * sprite.stride ≤ s.width)
    (hheight : sprite.bytes.length ≤ s.height) (x y : Nat) :
    (s.draw x y sprite).1 = s ↔ ∀ b ∈ sprite.bytes, b = 0 := by
  constructor
  · intro h
    rw [← Sprite.lit_eq_nil_iff]
    by_contra hne
    obtain ⟨p, rest, hlit⟩ := List.exists_cons_of_ne_nil hne
    have hlt : ∀ point ∈ sprite.lit, point.1 < s.width ∧ point.2 < s.height := fun point hpoint =>
      have hmem := Sprite.mem_lit hpoint
      ⟨Nat.lt_of_lt_of_le hmem.1 hwidth, Nat.lt_of_lt_of_le hmem.2 hheight⟩
    have hp := hlt p (hlit ▸ List.mem_cons_self ..)
    have hpair := sprite.lit_pairwise
    rw [hlit, List.pairwise_cons] at hpair
    -- The first lit point comes before all others, so it is none of them.
    have hrest : ∀ q ∈ rest, s.under x y q ≠ s.under x y p := by
      intro q hq heq
      have hq' := hlt q (hlit ▸ List.mem_cons_of_mem _ hq)
      obtain rfl := under_inj hq'.1 hq'.2 hp.1 hp.2 heq
      exact Nat.lt_irrefl _ (hpair.1 q hq)
    have hflip := cell_toggle (s, false) x y p (s.under x y p)
    rw [if_pos rfl] at hflip
    have hunder : (toggle (s, false) (x + p.1) (y + p.2)).1.under = s.under :=
      under_eq_of_mode (mode_toggle ..)
    have hkeep := (foldl_toggle x y rest (toggle (s, false) (x + p.1) (y + p.2))).2
      (s.under x y p) (hunder ▸ hrest)
    have hdraw : (s.draw x y sprite).1.cell (s.under x y p) = !s.cell (s.under x y p) := by
      rw [draw, hlit, List.foldl_cons, hkeep, hflip]
    rw [h] at hdraw
    exact (Bool.not_eq_self _).mp hdraw.symm
  · intro h
    rw [draw_of_empty h]

end Screen

end Chip8
