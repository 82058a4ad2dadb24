import Chip8.Proofs.Unchanged
import Mathlib.Data.Finset.Card
import Mathlib.Data.Finset.Prod

/-!
# What drawing does to a pixel

A set bit of a sprite lands on the pixel whose coordinates, wrapped around at both edges, are its
own. `Sprite.hits` counts the bits that land on a pixel, by row, byte and bit of the sprite; the
lit points of the sprite say the same as a list (`hits_eq_countP`).

Drawing turns over one cell for each set bit, so what it does to a pixel depends on the number of
hits alone. One turn is `goesOff_succ`, and all of them are two inductions on the list:

> `cell_foldl_toggle`: a cell is turned over if it is hit an odd number of times;
>
> `hit_foldl_toggle`: a lit pixel went off on the way if some pixel was lit and is hit, or was not
> lit and is hit at least twice.

> `draw_by_hits`: this is all that drawing does. So the order in which sprites are drawn makes no
> difference to the screen, and a sprite drawn twice is gone.
-/

namespace Chip8

/-! ## Bits and hits -/

namespace Sprite

/-- Whether bit `bit` is set, counted from the high one, in byte `col` of row `line`. Bytes that
a short last row does not have count as zero. -/
def hasBit (s : Sprite) (line col bit : Nat) : Bool :=
  (col < s.stride && bit < 8) &&
    (s.bytes[s.stride * line + col]?).any fun b => b.toNat.testBit (7 - bit)

/-- The set bits, by row, byte and bit, that land on the pixel `(px, py)` of a mode if the corner is
at `(x, y)`. -/
def landing (s : Sprite) (mode : ScreenMode) (x y px py : Nat) : Finset (Nat × Nat × Nat) :=
  (Finset.range s.rows ×ˢ Finset.range s.stride ×ˢ Finset.range 8).filter
    fun (line, col, bit) => s.hasBit line col bit = true ∧
      (x + 8 * col + bit) % mode.width = px ∧ (y + line) % mode.height = py

/-- How many set bits land on a pixel. -/
def hits (s : Sprite) (mode : ScreenMode) (x y px py : Nat) : Nat := (s.landing mode x y px py).card

variable {s : Sprite} {line col bit : Nat}

theorem hasBit_iff :
    s.hasBit line col bit = true ↔ col < s.stride ∧ bit < 8 ∧
      ∃ b, s.bytes[s.stride * line + col]? = some b ∧ b.toNat.testBit (7 - bit) = true := by
  simp [hasBit, Option.any_eq_true, and_assoc]

theorem hasBit_line_lt (h : s.hasBit line col bit = true) : line < s.rows := by
  obtain ⟨-, -, b, hb, -⟩ := hasBit_iff.mp h
  obtain ⟨hlt, -⟩ := List.getElem?_eq_some_iff.mp hb
  have hpos := s.stride_pos
  show line + 1 ≤ (s.bytes.length + s.stride - 1) / s.stride
  rw [Nat.le_div_iff_mul_le hpos, Nat.add_mul, Nat.mul_comm line]
  omega

theorem mem_landing {mode : ScreenMode} {x y px py : Nat} :
    (line, col, bit) ∈ s.landing mode x y px py ↔ s.hasBit line col bit = true ∧
      (x + 8 * col + bit) % mode.width = px ∧ (y + line) % mode.height = py := by
  simp only [landing, Finset.mem_filter, Finset.mem_product, Finset.mem_range]
  refine and_iff_right_of_imp fun h => ?_
  obtain ⟨hcol, hbit, -⟩ := hasBit_iff.mp h.1
  exact ⟨hasBit_line_lt h.1, hcol, hbit⟩

theorem hasBit_of_mem_lit {point : Nat × Nat} (h : point ∈ s.lit) :
    s.hasBit point.2 (point.1 / 8) (point.1 % 8) = true := by
  obtain ⟨⟨b, k⟩, hb, hpoint⟩ := List.mem_flatMap.mp h
  obtain ⟨bit, hbit, rfl⟩ := List.mem_map.mp hpoint
  obtain ⟨hrange, hset⟩ := List.mem_filter.mp hbit
  have hlt : bit < 8 := List.mem_range.mp hrange
  have hcol : (8 * (k % s.stride) + bit) / 8 = k % s.stride := by omega
  have hbit : (8 * (k % s.stride) + bit) % 8 = bit := by omega
  have hk : s.bytes[k]? = some b := List.mem_zipIdx_iff_getElem?.mp hb
  dsimp only
  rw [hcol, hbit, hasBit_iff]
  refine ⟨Nat.mod_lt _ s.stride_pos, hlt, b, ?_, hset⟩
  rw [Nat.div_add_mod, hk]

theorem mem_lit_of_hasBit (h : s.hasBit line col bit = true) : (8 * col + bit, line) ∈ s.lit := by
  obtain ⟨hcol, hbit, b, hb, hset⟩ := hasBit_iff.mp h
  have hpos := s.stride_pos
  have hmod : (s.stride * line + col) % s.stride = col := by
    rw [Nat.mul_add_mod, Nat.mod_eq_of_lt hcol]
  have hdiv : (s.stride * line + col) / s.stride = line := by
    rw [Nat.mul_add_div hpos, Nat.div_eq_of_lt hcol, Nat.add_zero]
  refine List.mem_flatMap.mpr ⟨(b, s.stride * line + col), List.mem_zipIdx_iff_getElem?.mpr hb, ?_⟩
  refine List.mem_map.mpr ⟨bit, List.mem_filter.mpr ⟨List.mem_range.mpr hbit, hset⟩, ?_⟩
  rw [hmod, hdiv]

/-- With the corner at `(x, y)`, the coordinates of all rows and all set bits can be counted. -/
def Countable (s : Sprite) (x y : Nat) : Prop :=
  (∀ line < s.rows, y + line < countLimit) ∧
    ∀ line col bit, s.hasBit line col bit = true → x + 8 * col + bit < countLimit

theorem Countable.fitsAt {x y : Nat} (h : s.Countable x y) : s.fitsAt x y = true := by
  unfold Sprite.fitsAt
  rw [Bool.and_eq_true, Bool.or_eq_true, decide_eq_true_eq, decide_eq_true_eq, List.all_eq_true]
  refine ⟨?_, fun point hpoint => ?_⟩
  · by_cases h0 : s.rows = 0
    · exact Or.inl h0
    · exact Or.inr (h.1 _ (by omega))
  · have hlt := h.2 _ _ _ (hasBit_of_mem_lit hpoint)
    rw [decide_eq_true_eq]
    omega

theorem lit_nodup (s : Sprite) : s.lit.Nodup := by
  refine s.lit_pairwise.imp ?_
  rintro p _ hlt rfl
  exact Nat.lt_irrefl _ hlt

/-- The hits on a pixel are the lit points that come to lie on it. -/
theorem hits_eq_countP (s : Sprite) (mode : ScreenMode) (x y px py : Nat) :
    s.hits mode x y px py = s.lit.countP fun point =>
      (x + point.1) % mode.width = px ∧ (y + point.2) % mode.height = py := by
  rw [List.countP_eq_length_filter, ← List.toFinset_card_of_nodup (s.lit_nodup.filter _), hits]
  refine Finset.card_bij' (fun place _ => (8 * place.2.1 + place.2.2, place.1))
    (fun point _ => (point.2, point.1 / 8, point.1 % 8)) ?_ ?_ ?_ ?_
  · rintro ⟨line, col, bit⟩ h
    obtain ⟨hset, hland⟩ := mem_landing.mp h
    rw [List.mem_toFinset, List.mem_filter, decide_eq_true_eq, ← Nat.add_assoc]
    exact ⟨mem_lit_of_hasBit hset, hland⟩
  · intro point h
    rw [List.mem_toFinset, List.mem_filter, decide_eq_true_eq] at h
    rw [mem_landing, Nat.add_assoc, Nat.div_add_mod]
    exact ⟨hasBit_of_mem_lit h.1, h.2⟩
  · rintro ⟨line, col, bit⟩ h
    obtain ⟨-, hbit, -⟩ := hasBit_iff.mp (mem_landing.mp h).1
    refine Prod.ext rfl (Prod.ext ?_ ?_)
    · show (8 * col + bit) / 8 = col
      omega
    · show (8 * col + bit) % 8 = bit
      omega
  · intro point _
    refine Prod.ext ?_ rfl
    show 8 * (point.1 / 8) + point.1 % 8 = point.1
    exact Nat.div_add_mod _ _

end Sprite

namespace Screen

/-! ## Turning over -/

/-- Whether a pixel goes off at some time while it is turned over `n` times. -/
def GoesOff (lit : Bool) (n : Nat) : Prop := lit = true ∧ 1 ≤ n ∨ lit = false ∧ 2 ≤ n

theorem not_goesOff_zero (lit : Bool) : ¬ GoesOff lit 0 := by
  rintro (⟨-, h⟩ | ⟨-, h⟩) <;> omega

/-- The first turn puts a lit pixel out and lights a dark one. -/
theorem goesOff_succ (lit : Bool) (n : Nat) :
    GoesOff lit (n + 1) ↔ lit = true ∨ GoesOff (!lit) n := by
  cases lit <;> simp [GoesOff]

/-- How many of some points are above a cell if the corner is at `(x, y)`. -/
def above (s : Screen) (x y : Nat) (points : List (Nat × Nat)) (i : Nat) : Nat :=
  points.countP fun point => s.under x y point = i

theorem above_eq_of_mode {s s' : Screen} (h : s'.mode = s.mode) : s'.above = s.above := by
  unfold above
  rw [under_eq_of_mode h]

theorem above_cons (s : Screen) (x y : Nat) (p : Nat × Nat) (rest : List (Nat × Nat)) (i : Nat) :
    s.above x y (p :: rest) i = s.above x y rest i + if s.under x y p = i then 1 else 0 := by
  simp [above, List.countP_cons]

theorem cell_foldl_toggle (x y : Nat) (points : List (Nat × Nat)) (drawn : Screen × Bool)
    (i : Nat) :
    (points.foldl (fun drawn p => toggle drawn (x + p.1) (y + p.2)) drawn).1.cell i =
      (drawn.1.cell i ^^ decide (drawn.1.above x y points i % 2 = 1)) := by
  induction points generalizing drawn with
  | nil => simp [above]
  | cons p rest ih =>
    rw [List.foldl_cons, ih, cell_toggle drawn x y p i, above_eq_of_mode (mode_toggle ..),
      above_cons]
    by_cases hp : drawn.1.under x y p = i
    · rw [if_pos hp, if_pos hp]
      rcases Nat.mod_two_eq_zero_or_one (drawn.1.above x y rest i) with heven | hodd
      · simp [heven, Nat.add_mod]
      · simp [hodd, Nat.add_mod]
    · rw [if_neg hp, if_neg hp, Nat.add_zero]

theorem hit_foldl_toggle (x y : Nat) (points : List (Nat × Nat)) (drawn : Screen × Bool) :
    (points.foldl (fun drawn p => toggle drawn (x + p.1) (y + p.2)) drawn).2 = true ↔
      drawn.2 = true ∨
        ∃ i < drawn.1.area, GoesOff (drawn.1.cell i) (drawn.1.above x y points i) := by
  induction points generalizing drawn with
  | nil => simp [above, not_goesOff_zero]
  | cons p rest ih =>
    have harea : (toggle drawn (x + p.1) (y + p.2)).1.area = drawn.1.area :=
      area_eq_of_mode (mode_toggle ..)
    have hflag : (toggle drawn (x + p.1) (y + p.2)).2 = true ↔
        drawn.2 = true ∨ drawn.1.cell (drawn.1.under x y p) = true := by
      rw [hit_toggle, Bool.or_eq_true]
    -- The first turn is a turn of the cell under `p`. The other cells do not notice it.
    have hcell : ∀ i,
        (GoesOff (drawn.1.cell i) (drawn.1.above x y (p :: rest) i) ↔
          (drawn.1.under x y p = i ∧ drawn.1.cell i = true) ∨
            GoesOff ((toggle drawn (x + p.1) (y + p.2)).1.cell i)
              (drawn.1.above x y rest i)) := by
      intro i
      rw [above_cons, cell_toggle drawn x y p i]
      by_cases hp : drawn.1.under x y p = i
      · rw [if_pos hp, if_pos hp, goesOff_succ, and_iff_right hp]
      · rw [if_neg hp, if_neg hp, Nat.add_zero, or_iff_right (fun h => hp h.1)]
    rw [List.foldl_cons, ih, hflag, harea, above_eq_of_mode (mode_toggle ..), or_assoc]
    refine or_congr_right ⟨?_, ?_⟩
    · rintro (hlit | ⟨i, hi, hoff⟩)
      · have hp := drawn.1.under_lt_area x y p
        exact ⟨_, hp, (hcell _).mpr (Or.inl ⟨rfl, hlit⟩)⟩
      · exact ⟨i, hi, (hcell i).mpr (Or.inr hoff)⟩
    · rintro ⟨i, hi, hoff⟩
      rcases (hcell i).mp hoff with ⟨rfl, hlit⟩ | hrest
      · exact Or.inl hlit
      · exact Or.inr ⟨i, hi, hrest⟩

/-! ## Drawing -/

variable {s : Screen} {sprite : Sprite} {x y : Nat}

theorem above_eq_hits {px py : Nat} (hx : px < s.width) :
    s.above x y sprite.lit (s.cellNumber px py) = sprite.hits s.mode x y px py := by
  rw [above, Sprite.hits_eq_countP]
  refine List.countP_congr fun point _ => ?_
  rw [decide_eq_true_eq, decide_eq_true_eq, under, cellNumber_inj (Nat.mod_lt _ s.width_pos) hx]
  exact Iff.rfl

theorem cell_draw (s : Screen) (x y : Nat) (sprite : Sprite) (i : Nat) :
    (s.draw x y sprite).1.cell i =
      (s.cell i ^^ decide (s.above x y sprite.lit i % 2 = 1)) :=
  cell_foldl_toggle x y sprite.lit (s, false) i

theorem get_draw {px py : Nat} (hx : px < s.width) (hy : py < s.height) :
    (s.draw x y sprite).1.get px py =
      (s.get px py ^^ decide (sprite.hits s.mode x y px py % 2 = 1)) := by
  rw [get_of_mode (mode_draw s x y sprite) hx hy, get_of_lt hx hy, cell_draw, above_eq_hits hx]

theorem hit_draw : (s.draw x y sprite).2 = true ↔
    ∃ px < s.width, ∃ py < s.height,
      GoesOff (s.get px py) (sprite.hits s.mode x y px py) := by
  refine (hit_foldl_toggle x y sprite.lit (s, false)).trans ?_
  rw [or_iff_right (by simp)]
  constructor
  · rintro ⟨i, hi, hoff⟩
    obtain ⟨px, hx, py, hy, rfl⟩ := exists_cellNumber hi
    refine ⟨px, hx, py, hy, ?_⟩
    rwa [get_of_lt hx hy, ← above_eq_hits hx]
  · rintro ⟨px, hx, py, hy, hoff⟩
    refine ⟨_, cellNumber_lt_area hx hy, ?_⟩
    rwa [get_of_lt hx hy, ← above_eq_hits hx] at hoff

/-- Sprites may be drawn in either order. -/
theorem draw_comm (s : Screen) (x y x' y' : Nat) (sprite sprite' : Sprite) :
    ((s.draw x y sprite).1.draw x' y' sprite').1 =
      ((s.draw x' y' sprite').1.draw x y sprite).1 := by
  refine ext_cell (by simp only [mode_draw]) fun i _ => ?_
  rw [cell_draw, cell_draw, cell_draw, cell_draw, above_eq_of_mode (mode_draw ..),
    above_eq_of_mode (mode_draw ..), Bool.xor_right_comm]

/-- A sprite drawn twice is gone. -/
theorem draw_draw (s : Screen) (x y : Nat) (sprite : Sprite) :
    ((s.draw x y sprite).1.draw x y sprite).1 = s := by
  refine ext_cell (by simp only [mode_draw]) fun i _ => ?_
  rw [cell_draw, cell_draw, above_eq_of_mode (mode_draw ..), Bool.xor_assoc, Bool.xor_self,
    Bool.xor_false]

/-! ## Sprites no larger than the screen -/

/-- A sprite no larger than the screen does not come around to where it began, so no pixel is hit
twice. -/
theorem hits_le_one (hwidth : 8 * sprite.stride ≤ s.width) (hheight : sprite.rows ≤ s.height)
    (x y px py : Nat) : sprite.hits s.mode x y px py ≤ 1 := by
  refine Finset.card_le_one.mpr ?_
  rintro ⟨line, col, bit⟩ h ⟨line', col', bit'⟩ h'
  obtain ⟨hset, hx, hy⟩ := Sprite.mem_landing.mp h
  obtain ⟨hset', hx', hy'⟩ := Sprite.mem_landing.mp h'
  obtain ⟨hcol, hbit, -⟩ := Sprite.hasBit_iff.mp hset
  obtain ⟨hcol', hbit', -⟩ := Sprite.hasBit_iff.mp hset'
  have hline : line = line' := mod_add_left_inj y
    (Nat.lt_of_lt_of_le (Sprite.hasBit_line_lt hset) hheight)
    (Nat.lt_of_lt_of_le (Sprite.hasBit_line_lt hset') hheight) (hy.trans hy'.symm)
  have hplace : 8 * col + bit = 8 * col' + bit' := by
    refine mod_add_left_inj (w := s.width) x (by omega) (by omega) ?_
    rw [← Nat.add_assoc, ← Nat.add_assoc]
    exact hx.trans hx'.symm
  obtain ⟨rfl, rfl⟩ : col = col' ∧ bit = bit' := by omega
  rw [hline]

/-- Such a sprite turns over what it hits. -/
theorem get_draw_of_fits (hwidth : 8 * sprite.stride ≤ s.width) (hheight : sprite.rows ≤ s.height)
    {px py : Nat} (hx : px < s.width) (hy : py < s.height) :
    (s.draw x y sprite).1.get px py =
      (s.get px py ^^ decide (0 < sprite.hits s.mode x y px py)) := by
  have hle := hits_le_one hwidth hheight x y px py
  rw [get_draw hx hy]
  congr 2
  exact propext (by omega)

/-- It reports that a lit pixel went off if one is off then. -/
theorem hit_draw_of_fits (hwidth : 8 * sprite.stride ≤ s.width)
    (hheight : sprite.rows ≤ s.height) : (s.draw x y sprite).2 = true ↔
      ∃ px py, s.get px py = true ∧ (s.draw x y sprite).1.get px py = false := by
  rw [hit_draw]
  constructor
  · rintro ⟨px, hx, py, hy, ⟨hlit, hhit⟩ | ⟨-, htwice⟩⟩
    · refine ⟨px, py, hlit, ?_⟩
      rw [get_draw_of_fits hwidth hheight hx hy, hlit, decide_eq_true (Nat.lt_of_succ_le hhit)]
      rfl
    · have hle := hits_le_one hwidth hheight x y px py
      omega
  · rintro ⟨px, py, hlit, hoff⟩
    obtain ⟨hx, hy⟩ := get_lt hlit
    rw [get_draw_of_fits hwidth hheight hx hy, hlit, Bool.true_xor, Bool.not_eq_false',
      decide_eq_true_eq] at hoff
    exact ⟨px, hx, py, hy, Or.inl ⟨hlit, hoff⟩⟩

/-- Drawn twice, such a sprite puts each pixel that it hits out once. -/
theorem hit_draw_twice (hwidth : 8 * sprite.stride ≤ s.width) (hheight : sprite.rows ≤ s.height) :
    (s.draw x y sprite).2 = true ∨ ((s.draw x y sprite).1.draw x y sprite).2 = true ↔
      ∃ line col bit, sprite.hasBit line col bit = true := by
  have hmode := mode_draw s x y sprite
  rw [hit_draw_of_fits hwidth hheight, hit_draw_of_fits (by rwa [width, hmode])
    (by rwa [height, hmode]), draw_draw]
  constructor
  · -- Either way some pixel is not what it was, so a bit landed there.
    intro hchanged
    by_contra hnone
    have hempty : s.draw x y sprite = (s, false) := by
      have hlit : sprite.lit = [] := by
        refine List.eq_nil_iff_forall_not_mem.mpr fun point hpoint => hnone ?_
        exact ⟨_, _, _, Sprite.hasBit_of_mem_lit hpoint⟩
      rw [draw, hlit]
      rfl
    rw [hempty] at hchanged
    rcases hchanged with ⟨px, py, hlit, hoff⟩ | ⟨px, py, hlit, hoff⟩ <;>
      exact absurd (hlit.symm.trans hoff) (by decide)
  · rintro ⟨line, col, bit, hset⟩
    have hx : (x + 8 * col + bit) % s.width < s.width := Nat.mod_lt _ s.width_pos
    have hy : (y + line) % s.height < s.height := Nat.mod_lt _ s.height_pos
    have hhit : 0 < sprite.hits s.mode x y ((x + 8 * col + bit) % s.width)
        ((y + line) % s.height) :=
      Finset.card_pos.mpr ⟨(line, col, bit), Sprite.mem_landing.mpr ⟨hset, rfl, rfl⟩⟩
    have hturned := get_draw_of_fits (x := x) (y := y) hwidth hheight hx hy
    rw [decide_eq_true hhit, Bool.xor_true] at hturned
    cases hlit : s.get ((x + 8 * col + bit) % s.width) ((y + line) % s.height) with
    | true => exact Or.inl ⟨_, _, hlit, by rw [hturned, hlit]; rfl⟩
    | false => exact Or.inr ⟨_, _, by rw [hturned, hlit]; rfl, hlit⟩

/-! ## What drawing does -/

theorem draw?_of_countable (s : Screen) (h : sprite.Countable x y) :
    s.draw? x y sprite = some (s.draw x y sprite) := s.draw?_of_fitsAt h.fitsAt

/-- A sprite can be drawn wherever its coordinates can be counted. Each pixel that is hit an odd
number of times is turned over; all other pixels, the cells that the mode does not use and the mode
stay as they are. A lit pixel is reported to have gone off if some pixel was lit and is hit, or was
not lit and is hit at least twice.

So the same sprite drawn again is gone, and two sprites may be drawn in either order. -/
theorem draw_by_hits (s : Screen) (sprite : Sprite) (x y : Nat) (h : sprite.Countable x y) :
    ∃ s' hit, s.draw? x y sprite = some (s', hit) ∧
      (∀ px < s.width, ∀ py < s.height, s'.get px py =
        (s.get px py ^^ decide (sprite.hits s.mode x y px py % 2 = 1))) ∧
      (∀ i, s.area ≤ i → i < 8192 → s'.cell i = s.cell i) ∧ s'.mode = s.mode ∧
      (hit = true ↔ ∃ px < s.width, ∃ py < s.height,
        s.get px py = true ∧ 1 ≤ sprite.hits s.mode x y px py ∨
          s.get px py = false ∧ 2 ≤ sprite.hits s.mode x y px py) ∧
      (∃ hit', s'.draw? x y sprite = some (s, hit')) ∧
      ∀ other x' y', other.Countable x' y' → ∃ s₂ t hit₁ hit₂ hit₃,
        s'.draw? x' y' other = some (t, hit₁) ∧
        s.draw? x' y' other = some (s₂, hit₂) ∧ s₂.draw? x y sprite = some (t, hit₃) := by
  have hdraw := fun (s : Screen) => draw?_of_countable s h
  refine ⟨(s.draw x y sprite).1, (s.draw x y sprite).2, hdraw s, fun px hx py hy => get_draw hx hy,
    fun i hi _ => cell_draw_of_area_le s x y sprite hi, mode_draw .., hit_draw, ?_, ?_⟩
  · refine ⟨((s.draw x y sprite).1.draw x y sprite).2, (hdraw _).trans ?_⟩
    exact congrArg some (Prod.ext (draw_draw s x y sprite) rfl)
  · intro other x' y' h'
    have hdraw' := fun (s : Screen) => draw?_of_countable s h'
    refine ⟨(s.draw x' y' other).1, ((s.draw x y sprite).1.draw x' y' other).1,
      ((s.draw x y sprite).1.draw x' y' other).2, (s.draw x' y' other).2,
      ((s.draw x' y' other).1.draw x y sprite).2, hdraw' _, hdraw' _, (hdraw _).trans ?_⟩
    exact congrArg some (Prod.ext (draw_comm s x y x' y' sprite other).symm rfl)

/-- On the small screen a row of nine bytes comes around to where it began. Its first and its last
bit turn the same pixel over twice, so the pixel is dark again, and yet a lit pixel went off. -/
theorem row_over_itself :
    let row : Sprite := ⟨[0x80, 0, 0, 0, 0, 0, 0, 0, 0x80], 9⟩
    row.Countable 60 31 ∧ row.hits .standard 60 31 60 31 = 2 ∧
      ∃ s', (blank .standard).draw? 60 31 row = some (s', true) ∧ s'.get 60 31 = false := by
  intro row
  have hcountable : row.Countable 60 31 := by
    have hlimit : countLimit = 18446744073709551616 := rfl
    refine ⟨fun line hline => ?_, fun line col bit hset => ?_⟩
    · have hrows : row.rows = 1 := by decide
      omega
    · obtain ⟨hcol, hbit, -⟩ := Sprite.hasBit_iff.mp hset
      have hstride : row.stride = 9 := by decide
      omega
  have hhits : row.hits .standard 60 31 60 31 = 2 := by decide +kernel
  have hdark : (blank .standard).get 60 31 = false := blank_dark .standard 60 31
  obtain ⟨s', hit, hdraw, hpixel, -, -, hhit, -⟩ :=
    draw_by_hits (blank .standard) row 60 31 hcountable
  have hoff : hit = true :=
    hhit.mpr ⟨60, by decide, 31, by decide, Or.inr ⟨hdark, Nat.le_of_eq hhits.symm⟩⟩
  refine ⟨hcountable, hhits, s', hoff ▸ hdraw, ?_⟩
  have htwice : row.hits (blank .standard).mode 60 31 60 31 = 2 := hhits
  rw [hpixel 60 (by decide) 31 (by decide), hdark, htwice]
  rfl

end Screen

end Chip8
