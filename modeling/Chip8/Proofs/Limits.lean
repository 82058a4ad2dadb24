import Chip8.Proofs.Drawing
import Chip8.Proofs.Words

/-!
# Sums that cannot be counted

Addresses and coordinates are counted in 64 bits. An access to memory adds up its address and its
length before it compares the sum with the size of memory, and drawing adds up coordinates before it
wraps them around. Where such a sum reaches the limit, nothing comes after it.

Below the limit all is well: bytes that are not there are refused, and the corner of a sprite may as
well be wrapped beforehand (`draw_wrapped`). How close to the limit one may come depends on the
access and on the sprite.

> `crash_iff_limit`: an access crashes at the last one or two addresses that can be counted and
> nowhere else, and drawing crashes where a row or a set bit is at the limit or past it. Only a
> sprite that is its corner point at most can be drawn everywhere.
-/

namespace Chip8

namespace Sprite

variable {s : Sprite} {x y : Nat}

theorem countable_of_fitsAt (h : s.fitsAt x y = true) : s.Countable x y := by
  unfold Sprite.fitsAt at h
  rw [Bool.and_eq_true, Bool.or_eq_true, decide_eq_true_eq, decide_eq_true_eq,
    List.all_eq_true] at h
  obtain ⟨hrows, hlit⟩ := h
  refine ⟨fun line hline => ?_, fun line col bit hset => ?_⟩
  · have hlast := hrows.resolve_left (Nat.ne_zero_of_lt hline)
    omega
  · have hlt := hlit _ (mem_lit_of_hasBit hset)
    rw [decide_eq_true_eq] at hlt
    omega

theorem fitsAt_iff : s.fitsAt x y = true ↔ s.Countable x y :=
  ⟨countable_of_fitsAt, Countable.fitsAt⟩

/-- Nearer to the origin there is no less room. -/
theorem Countable.mono {x' y' : Nat} (h : s.Countable x y) (hx : x' ≤ x) (hy : y' ≤ y) :
    s.Countable x' y' := by
  refine ⟨fun line hline => ?_, fun line col bit hset => ?_⟩
  · exact Nat.lt_of_le_of_lt (Nat.add_le_add_right hy line) (h.1 line hline)
  · have hlt := h.2 line col bit hset
    omega

theorem not_countable_iff : ¬ s.Countable x y ↔
    (∃ line < s.rows, countLimit ≤ y + line) ∨
      ∃ line col bit, s.hasBit line col bit = true ∧ countLimit ≤ x + 8 * col + bit := by
  unfold Countable
  rw [not_and_or]
  push Not
  rfl

/-- A sprite is no wider and no higher than the number of its bytes. -/
theorem countable_of_length_le (hx : x + 8 * s.bytes.length ≤ countLimit)
    (hy : y + s.bytes.length ≤ countLimit) : s.Countable x y := by
  refine ⟨fun line hline => ?_, fun line col bit hset => ?_⟩
  · have hrows := s.rows_le
    omega
  · obtain ⟨-, hbit, b, hb, -⟩ := hasBit_iff.mp hset
    obtain ⟨hlt, -⟩ := List.getElem?_eq_some_iff.mp hb
    have hcol : col ≤ s.stride * line + col := Nat.le_add_left _ _
    omega

/-- Only what lies in the corner is in range of every corner. -/
theorem forall_countable_iff :
    (∀ x < countLimit, ∀ y < countLimit, s.Countable x y) ↔
      s.rows ≤ 1 ∧ ∀ line col bit, s.hasBit line col bit = true → col = 0 ∧ bit = 0 := by
  have hlimit : countLimit = 18446744073709551616 := rfl
  constructor
  · intro hall
    have hcorner := hall (countLimit - 1) (by omega) (countLimit - 1) (by omega)
    refine ⟨?_, fun line col bit hset => ?_⟩
    · by_contra hrows
      have hsecond := hcorner.1 1 (Nat.not_le.mp hrows)
      omega
    · have hlt := hcorner.2 line col bit hset
      omega
  · rintro ⟨hrows, hbits⟩ x hx y hy
    refine ⟨fun line hline => ?_, fun line col bit hset => ?_⟩
    · obtain rfl : line = 0 := by omega
      exact hy
    · obtain ⟨rfl, rfl⟩ := hbits line col bit hset
      exact hx

end Sprite

namespace Screen

theorem toggle_wrapped (drawn : Screen × Bool) (x y px py : Nat) :
    toggle drawn (x % drawn.1.width + px) (y % drawn.1.height + py) =
      toggle drawn (x + px) (y + py) := by
  have hsame : toggle? drawn (x % drawn.1.width + px) (y % drawn.1.height + py) =
      toggle? drawn (x + px) (y + py) := by
    obtain ⟨s, hit⟩ := drawn
    simp only [toggle?, Nat.mod_add_mod]
  rw [toggle?_eq, toggle?_eq] at hsame
  exact Option.some.inj hsame

/-- The induction goes through since a turn keeps the mode, and with it what wraps around. -/
theorem foldl_toggle_wrapped (x y : Nat) (points : List (Nat × Nat)) (drawn : Screen × Bool) :
    points.foldl (fun drawn' p =>
        toggle drawn' (x % drawn.1.width + p.1) (y % drawn.1.height + p.2)) drawn =
      points.foldl (fun drawn' p => toggle drawn' (x + p.1) (y + p.2)) drawn := by
  induction points generalizing drawn with
  | nil => rfl
  | cons p rest ih =>
    have hrest := ih (toggle drawn (x + p.1) (y + p.2))
    rw [width, height, mode_toggle] at hrest
    rw [List.foldl_cons, List.foldl_cons, toggle_wrapped]
    exact hrest

/-- The corner of a sprite may be wrapped beforehand. -/
theorem draw_wrapped (s : Screen) (x y : Nat) (sprite : Sprite) :
    s.draw (x % s.width) (y % s.height) sprite = s.draw x y sprite :=
  foldl_toggle_wrapped x y sprite.lit (s, false)

theorem draw?_eq_none_iff {s : Screen} {x y : Nat} {sprite : Sprite} :
    s.draw? x y sprite = none ↔ ¬ sprite.Countable x y := by
  rw [← Sprite.fitsAt_iff]
  by_cases hfits : sprite.fitsAt x y = true
  · rw [s.draw?_of_fitsAt hfits]
    exact iff_of_false nofun (not_not_intro hfits)
  · exact iff_of_true (if_neg hfits) hfits

theorem draw?_wrapped {s : Screen} {x y : Nat} {sprite : Sprite} (h : sprite.Countable x y) :
    s.draw? x y sprite = s.draw? (x % s.width) (y % s.height) sprite := by
  rw [draw?_of_countable s h,
    draw?_of_countable s (h.mono (Nat.mod_le x s.width) (Nat.mod_le y s.height)), draw_wrapped]

end Screen

/-- An access to memory crashes exactly if the end of its bytes cannot be counted. Everywhere else
it gives what it is for if its bytes are all in memory, and is refused with its address and its
length if they are not; lenient access gives its default then.

Drawing crashes exactly if a row of the sprite or one of its set bits has a coordinate that cannot
be counted. Everywhere else it does what it does with the corner wrapped to the screen. As many
columns and rows as the sprite has bytes, eight to a byte, are always enough room for it, but a
corner that can be counted is not: only a sprite of a single row with no set bit but its first can
be drawn at every one. -/
theorem crash_iff_limit (m : Memory) (a : Nat) (b : UInt8) (w : UInt16) (s : Screen) (x y : Nat)
    (sprite : Sprite) :
    (Memory.Answers a 1 0 (m.readByte a) (m.byteOrZero a) ∧
      Memory.Answers a 2 0 (m.readWord a) (m.wordOrZero a) ∧
      Memory.Answers a 1 m (m.writeByte a b) (m.tryWriteByte a b) ∧
      Memory.Answers a 2 m (m.writeWord a w) (m.tryWriteWord a w)) ∧
    (s.draw? x y sprite = none ↔
      (∃ line < sprite.rows, countLimit ≤ y + line) ∨
        ∃ line col bit, sprite.hasBit line col bit = true ∧ countLimit ≤ x + 8 * col + bit) ∧
    (s.draw? x y sprite ≠ none →
      s.draw? x y sprite = s.draw? (x % s.width) (y % s.height) sprite) ∧
    (x + 8 * sprite.bytes.length ≤ countLimit → y + sprite.bytes.length ≤ countLimit →
      s.draw? x y sprite ≠ none) ∧
    ((∀ x < countLimit, ∀ y < countLimit, s.draw? x y sprite ≠ none) ↔
      sprite.rows ≤ 1 ∧ ∀ line col bit, sprite.hasBit line col bit = true → col = 0 ∧ bit = 0) := by
  have hdrawn : ∀ x y, s.draw? x y sprite ≠ none ↔ sprite.Countable x y := by
    intro x y
    rw [ne_eq, Screen.draw?_eq_none_iff, not_not]
  refine ⟨⟨Memory.answers_check .., Memory.answers_check .., Memory.answers_check ..,
    Memory.answers_check ..⟩, ?_, fun hcounted => ?_, fun hx hy => ?_, ?_⟩
  · rw [Screen.draw?_eq_none_iff, Sprite.not_countable_iff]
  · exact Screen.draw?_wrapped ((hdrawn x y).mp hcounted)
  · exact (hdrawn x y).mpr (Sprite.countable_of_length_le hx hy)
  · simp only [hdrawn]
    exact Sprite.forall_countable_iff

/-- The last address is that of no byte, and yet reading there is not refused, as it is one address
before. Two points side by side cannot be drawn in the last column that can be counted, although
there is room for them where this column is on the screen. -/
theorem last_that_counts :
    Memory.blank.readByte (countLimit - 1) = .error .crash ∧
      Memory.blank.byteOrZero (countLimit - 1) = .error .crash ∧
      Memory.blank.readByte (countLimit - 2) =
        .error (.fault (.invalidAddressRange (countLimit - 2) 1)) ∧
      (Screen.blank .standard).draw? (countLimit - 1) 0 ⟨[0xc0], 1⟩ = none ∧
      (Screen.blank .standard).draw? ((countLimit - 1) % 64) 0 ⟨[0xc0], 1⟩ ≠ none := by
  obtain ⟨⟨hlast, -⟩, hdraw, -⟩ := crash_iff_limit .blank (countLimit - 1) 0 0
    (.blank .standard) (countLimit - 1) 0 ⟨[0xc0], 1⟩
  obtain ⟨⟨hbefore, -⟩, -, -, hroom, -⟩ := crash_iff_limit .blank (countLimit - 2) 0 0
    (.blank .standard) ((countLimit - 1) % 64) 0 ⟨[0xc0], 1⟩
  exact ⟨hlast.crashed.mpr (by decide), hlast.lenient_crashed.mpr (by decide),
    hbefore.refused.mpr (by decide), hdraw.mpr (Or.inr ⟨0, 0, 1, by decide, by decide⟩),
    hroom (by decide) (by decide)⟩

end Chip8
