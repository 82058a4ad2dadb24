import Chip8.Screen.Sprite

/-!
# Which cells of the screen are reached

A mode uses the first `area` of the 8192 cells, each for one pixel. So a screen is given by its
mode, its pixels and the cells that the mode does not use (`ext_pixels`). Drawing goes through the
cell number of a pixel of the mode:

> `cellNumber_mod_lt`: the cell that drawing turns over is one of the mode's, wherever the
> sprite is;
>
> `exists_toggle?`: so there always is a cell to turn over, and no other one changes;
>
> `draw?_of_fitsAt`: what keeps a sprite from being drawn is the count of its coordinates and
> nothing else;
>
> `cell_draw_of_area_le`: the cells that the mode does not use stay as they were.

Hence a screen whose unused cells are dark keeps them dark (`UnusedDark`). Sprites of a sane
size never come near the limit for coordinates (`fitsAt_of_le`).
-/

namespace Chip8

namespace Sprite

theorem stride_pos (s : Sprite) : 0 < s.stride :=
  Nat.lt_of_lt_of_le Nat.zero_lt_one (Nat.le_max_right _ _)

theorem mem_setBits {b : UInt8} {bit : Nat} (h : bit ∈ setBits b) : bit < 8 :=
  List.mem_range.mp (List.mem_filter.mp h).1

/-- Lit points lie within the rows and columns that the bytes span. -/
theorem mem_lit {s : Sprite} {point : Nat × Nat} (h : point ∈ s.lit) :
    point.1 < 8 * s.stride ∧ point.2 < s.bytes.length := by
  obtain ⟨⟨b, k⟩, hb, hpoint⟩ := List.mem_flatMap.mp h
  obtain ⟨bit, hbit, rfl⟩ := List.mem_map.mp hpoint
  have hk : k < s.bytes.length := by
    have := (List.mem_zipIdx hb).2.1
    omega
  have hcol : k % s.stride < s.stride := Nat.mod_lt _ s.stride_pos
  have hrow : k / s.stride ≤ k := Nat.div_le_self _ _
  have hlt := mem_setBits hbit
  dsimp only
  omega

theorem rows_le (s : Sprite) : s.rows ≤ s.bytes.length := by
  have hpos := s.stride_pos
  unfold rows
  rw [Nat.div_le_iff_le_mul_add_pred hpos]
  have : s.bytes.length ≤ s.stride * s.bytes.length := Nat.le_mul_of_pos_left _ hpos
  omega

/-- Where corner and size together stay below the limit, the sprite can be drawn. -/
theorem fitsAt_of_le {s : Sprite} {x y : Nat} (hx : x + 8 * s.stride ≤ countLimit)
    (hy : y + s.bytes.length ≤ countLimit) (hy' : y < countLimit) : s.fitsAt x y = true := by
  have hrows := s.rows_le
  unfold fitsAt
  rw [Bool.and_eq_true, Bool.or_eq_true, decide_eq_true_eq, decide_eq_true_eq, List.all_eq_true]
  refine ⟨?_, fun point hpoint => ?_⟩
  · by_cases h0 : s.rows = 0
    · exact Or.inl h0
    · right
      omega
  · have hlit := mem_lit hpoint
    rw [decide_eq_true_eq]
    omega

end Sprite

namespace Screen

/-! ## Cells -/

/-- The cell with number `i`, off if there is none. Nothing that runs looks at cells in this way. -/
def cell (s : Screen) (i : Nat) : Bool := (s.cell? i).getD false

theorem cell?_of_lt (s : Screen) {i : Nat} (hi : i < 8192) : s.cell? i = some (s.cell i) := by
  rw [cell, cell?, Vector.getElem?_eq_getElem hi, Option.getD_some]

/-- One cell is written, and no other changes. -/
theorem cell_of_setCell? {s s' : Screen} {i : Nat} {lit : Bool} (h : s.setCell? i lit = some s')
    (j : Nat) : s'.cell j = if i = j then lit else s.cell j := by
  unfold setCell? at h
  split at h
  next hi =>
    obtain rfl := Option.some.inj h
    rw [cell, cell?, cell, cell?, Vector.getElem?_set]
    by_cases hj : i = j
    · rw [if_pos hj, if_pos hj, Option.getD_some]
    · rw [if_neg hj, if_neg hj]
  next => exact nomatch h

theorem mode_of_setCell? {s s' : Screen} {i : Nat} {lit : Bool} (h : s.setCell? i lit = some s') :
    s'.mode = s.mode := by
  unfold setCell? at h
  split at h
  next =>
    obtain rfl := Option.some.inj h
    rfl
  next => exact nomatch h

theorem get_of_lt {s : Screen} {x y : Nat} (hx : x < s.width) (hy : y < s.height) :
    s.get x y = s.cell (s.cellNumber x y) := by
  have hlt := Nat.lt_of_lt_of_le (cellNumber_lt_area hx hy) s.area_le
  rw [get, dif_pos ⟨hx, hy⟩, cell, cell?, Vector.getElem?_eq_getElem hlt]
  rfl

theorem width_pos (s : Screen) : 0 < s.width := s.mode.width_pos

theorem height_pos (s : Screen) : 0 < s.height := s.mode.height_pos

/-- Wrapped coordinates have a cell that the mode uses. -/
theorem cellNumber_mod_lt (s : Screen) (x y : Nat) :
    s.cellNumber (x % s.width) (y % s.height) < s.area :=
  cellNumber_lt_area (Nat.mod_lt _ s.width_pos) (Nat.mod_lt _ s.height_pos)

theorem cellNumber_mod_width {s : Screen} {x : Nat} (hx : x < s.width) (y : Nat) :
    s.cellNumber x y % s.width = x := by
  rw [cellNumber, Nat.mul_comm, Nat.mul_add_mod, Nat.mod_eq_of_lt hx]

theorem cellNumber_div_width {s : Screen} {x : Nat} (hx : x < s.width) (y : Nat) :
    s.cellNumber x y / s.width = y := by
  rw [cellNumber, Nat.mul_comm, Nat.mul_add_div s.width_pos, Nat.div_eq_of_lt hx, Nat.add_zero]

theorem cellNumber_inj {s : Screen} {x x' y y' : Nat} (hx : x < s.width) (hx' : x' < s.width) :
    s.cellNumber x y = s.cellNumber x' y' ↔ x = x' ∧ y = y' := by
  constructor
  · intro h
    refine ⟨?_, ?_⟩
    · rw [← cellNumber_mod_width hx y, h, cellNumber_mod_width hx']
    · rw [← cellNumber_div_width hx y, h, cellNumber_div_width hx']
  · rintro ⟨rfl, rfl⟩
    rfl

/-- Every cell that the mode uses is that of a pixel. -/
theorem exists_cellNumber {s : Screen} {i : Nat} (hi : i < s.area) :
    ∃ x < s.width, ∃ y < s.height, s.cellNumber x y = i := by
  refine ⟨i % s.width, Nat.mod_lt _ s.width_pos, i / s.width, ?_, Nat.div_add_mod' ..⟩
  rw [Nat.div_lt_iff_lt_mul s.width_pos, Nat.mul_comm]
  exact hi

theorem get_of_width_le {s : Screen} {x : Nat} (h : s.width ≤ x) (y : Nat) :
    s.get x y = false := dif_neg fun hin => Nat.not_lt.mpr h hin.1

theorem get_of_height_le {s : Screen} {y : Nat} (x : Nat) (h : s.height ≤ y) :
    s.get x y = false := dif_neg fun hin => Nat.not_lt.mpr h hin.2

theorem get_lt {s : Screen} {x y : Nat} (h : s.get x y = true) : x < s.width ∧ y < s.height := by
  unfold get at h
  split at h
  next hin => exact hin
  next => exact nomatch h

/-- Every pixel is off. -/
def Dark (s : Screen) : Prop := ∀ x y, s.get x y = false

theorem dark_of_lt {s : Screen} (h : ∀ x < s.width, ∀ y < s.height, s.get x y = false) :
    s.Dark := by
  intro x y
  by_cases hx : x < s.width
  · by_cases hy : y < s.height
    · exact h x hx y hy
    · exact get_of_height_le x (Nat.not_lt.mp hy)
  · exact get_of_width_le (Nat.not_lt.mp hx) y

/-- In a screen of the same mode a pixel has the same cell. -/
theorem get_of_mode {s s' : Screen} (hmode : s'.mode = s.mode) {x y : Nat} (hx : x < s.width)
    (hy : y < s.height) : s'.get x y = s'.cell (s.cellNumber x y) := by
  have hwidth : s'.width = s.width := congrArg ScreenMode.width hmode
  have hheight : s'.height = s.height := congrArg ScreenMode.height hmode
  rw [get_of_lt (hwidth ▸ hx) (hheight ▸ hy), cellNumber, hwidth]
  rfl

theorem ext_cell {s s' : Screen} (hmode : s.mode = s'.mode)
    (hcell : ∀ i, i < 8192 → s.cell i = s'.cell i) : s = s' := by
  obtain ⟨mode, cells⟩ := s
  obtain ⟨mode', cells'⟩ := s'
  obtain rfl : mode = mode' := hmode
  have hcells : cells = cells' := by
    refine Vector.ext fun i hi => ?_
    have h := hcell i hi
    simpa only [cell, cell?, Vector.getElem?_eq_getElem hi, Option.getD_some] using h
  rw [hcells]

/-- Screens of one mode are equal if they have the same pixels and the same unused cells. -/
theorem ext_pixels {s s' : Screen} (hmode : s'.mode = s.mode)
    (hpixels : ∀ x < s.width, ∀ y < s.height, s'.get x y = s.get x y)
    (hunused : ∀ i, s.area ≤ i → i < 8192 → s'.cell i = s.cell i) : s' = s := by
  refine ext_cell hmode fun i hi => ?_
  by_cases harea : i < s.area
  · obtain ⟨x, hx, y, hy, rfl⟩ := exists_cellNumber harea
    rw [← get_of_mode hmode hx hy, ← get_of_lt hx hy, hpixels x hx y hy]
  · exact hunused i (Nat.not_lt.mp harea) hi

/-! ## Drawing -/

theorem area_eq_of_mode {s s' : Screen} (h : s'.mode = s.mode) : s'.area = s.area := by
  unfold area width height
  rw [h]

/-- The cell that a lit point turns over if the corner is at `(x, y)`. -/
def under (s : Screen) (x y : Nat) (point : Nat × Nat) : Nat :=
  s.cellNumber ((x + point.1) % s.width) ((y + point.2) % s.height)

theorem under_lt_area (s : Screen) (x y : Nat) (point : Nat × Nat) : s.under x y point < s.area :=
  s.cellNumber_mod_lt _ _

theorem under_eq_of_mode {s s' : Screen} (h : s'.mode = s.mode) : s'.under = s.under := by
  unfold under cellNumber width height
  rw [h]

/-- Wrapped to the mode, a point is above a cell. So it can be turned over, and this is all that
changes. -/
theorem exists_toggle? (drawn : Screen × Bool) (x y : Nat) :
    let i := drawn.1.cellNumber (x % drawn.1.width) (y % drawn.1.height)
    ∃ s', toggle? drawn x y = some (s', drawn.2 || drawn.1.cell i) ∧ s'.mode = drawn.1.mode ∧
      ∀ j, s'.cell j = if i = j then !drawn.1.cell j else drawn.1.cell j := by
  obtain ⟨s, hit⟩ := drawn
  intro i
  have hi : i < 8192 := Nat.lt_of_lt_of_le (s.cellNumber_mod_lt x y) s.area_le
  obtain ⟨s', hset⟩ : ∃ s', s.setCell? i (!s.cell i) = some s' := ⟨_, dif_pos hi⟩
  refine ⟨s', ?_, mode_of_setCell? hset, fun j => ?_⟩
  · show (s.cell? i).bind _ = _
    rw [s.cell?_of_lt hi, Option.bind_some, hset]
    rfl
  · rw [cell_of_setCell? hset]
    by_cases hj : i = j
    · rw [if_pos hj, if_pos hj, hj]
    · rw [if_neg hj, if_neg hj]

theorem isSome_toggle? (drawn : Screen × Bool) (x y : Nat) :
    (toggle? drawn x y).isSome = true := by
  obtain ⟨s', htoggle, -⟩ := exists_toggle? drawn x y
  rw [htoggle]
  rfl

/-- What turning a point over makes of the screen and the report. -/
def toggle (drawn : Screen × Bool) (x y : Nat) : Screen × Bool :=
  (toggle? drawn x y).get (isSome_toggle? drawn x y)

theorem toggle?_eq (drawn : Screen × Bool) (x y : Nat) :
    toggle? drawn x y = some (toggle drawn x y) := (Option.some_get _).symm

@[simp] theorem mode_toggle (drawn : Screen × Bool) (x y : Nat) :
    (toggle drawn x y).1.mode = drawn.1.mode := by
  obtain ⟨s', htoggle, hmode, -⟩ := exists_toggle? drawn x y
  rw [Option.some.inj ((toggle?_eq drawn x y).symm.trans htoggle), hmode]

theorem cell_toggle (drawn : Screen × Bool) (x y : Nat) (point : Nat × Nat) (i : Nat) :
    (toggle drawn (x + point.1) (y + point.2)).1.cell i =
      if drawn.1.under x y point = i then !drawn.1.cell i else drawn.1.cell i := by
  obtain ⟨s', htoggle, -, hcell⟩ := exists_toggle? drawn (x + point.1) (y + point.2)
  rw [Option.some.inj ((toggle?_eq ..).symm.trans htoggle)]
  exact hcell i

theorem hit_toggle (drawn : Screen × Bool) (x y : Nat) (point : Nat × Nat) :
    (toggle drawn (x + point.1) (y + point.2)).2 =
      (drawn.2 || drawn.1.cell (drawn.1.under x y point)) := by
  obtain ⟨s', htoggle, -⟩ := exists_toggle? drawn (x + point.1) (y + point.2)
  rw [Option.some.inj ((toggle?_eq ..).symm.trans htoggle), under]

/-- The screen with a sprite drawn, and whether a lit pixel went off, wherever the corner is. -/
def draw (s : Screen) (x y : Nat) (sprite : Sprite) : Screen × Bool :=
  sprite.lit.foldl (fun drawn point => toggle drawn (x + point.1) (y + point.2)) (s, false)

/-- Nothing but the count of its coordinates keeps a sprite from being drawn. -/
theorem draw?_of_fitsAt (s : Screen) {x y : Nat} {sprite : Sprite}
    (h : sprite.fitsAt x y = true) : s.draw? x y sprite = some (s.draw x y sprite) := by
  rw [draw?, if_pos h]
  simp only [toggle?_eq]
  exact List.foldlM_pure

/-- Turning points over keeps the mode and every cell that none of them is above. -/
theorem foldl_toggle (x y : Nat) : ∀ (points : List (Nat × Nat)) (drawn : Screen × Bool),
    let drawn' := points.foldl (fun drawn point => toggle drawn (x + point.1) (y + point.2)) drawn
    drawn'.1.mode = drawn.1.mode ∧
      ∀ i, (∀ point ∈ points, drawn.1.under x y point ≠ i) →
        drawn'.1.cell i = drawn.1.cell i
  | [], _ => ⟨rfl, fun _ _ => rfl⟩
  | point :: points, drawn => by
    obtain ⟨hmode, hcell⟩ := foldl_toggle x y points (toggle drawn (x + point.1) (y + point.2))
    refine ⟨hmode.trans (mode_toggle ..), fun i hne => ?_⟩
    rw [List.foldl_cons, hcell i, cell_toggle drawn x y point i,
      if_neg (hne _ List.mem_cons_self)]
    rw [under_eq_of_mode (mode_toggle ..)]
    exact fun q hq => hne q (List.mem_cons_of_mem _ hq)

@[simp] theorem mode_draw (s : Screen) (x y : Nat) (sprite : Sprite) :
    (s.draw x y sprite).1.mode = s.mode :=
  (foldl_toggle x y sprite.lit (s, false)).1

/-- Drawing keeps the cells that the mode does not use, whatever is drawn. -/
theorem cell_draw_of_area_le (s : Screen) (x y : Nat) (sprite : Sprite) {i : Nat}
    (hi : s.area ≤ i) : (s.draw x y sprite).1.cell i = s.cell i :=
  (foldl_toggle x y sprite.lit (s, false)).2 i fun point _ =>
    Nat.ne_of_lt (Nat.lt_of_lt_of_le (s.under_lt_area x y point) hi)

/-! ## Unused cells -/

@[simp] theorem cell_blank (mode : ScreenMode) (i : Nat) : (blank mode).cell i = false := by
  rw [cell, cell?, blank, Vector.getElem?_replicate]
  split <;> rfl

/-- A dark screen has no lit pixel. -/
theorem blank_dark (mode : ScreenMode) : (blank mode).Dark :=
  dark_of_lt fun x hx y hy => by rw [get_of_lt hx hy, cell_blank]

/-- The cells that the mode does not use are off. -/
def UnusedDark (s : Screen) : Prop := ∀ i, s.area ≤ i → i < 8192 → s.cell i = false

theorem UnusedDark.of_eq {s s' : Screen} (hs : s.UnusedDark) (hmode : s'.mode = s.mode)
    (hcell : ∀ i, s.area ≤ i → i < 8192 → s'.cell i = s.cell i) : s'.UnusedDark := by
  intro i hi hi'
  rw [area_eq_of_mode hmode] at hi
  rw [hcell i hi hi', hs i hi hi']

theorem blank_unusedDark (mode : ScreenMode) : (blank mode).UnusedDark :=
  fun i _ _ => cell_blank mode i

theorem UnusedDark.draw {s : Screen} (hs : s.UnusedDark) (x y : Nat) (sprite : Sprite) :
    (s.draw x y sprite).1.UnusedDark :=
  hs.of_eq (mode_draw ..) fun _ hi _ => cell_draw_of_area_le s x y sprite hi

/-- In the small mode the unused cells are those from 2048 on. -/
theorem UnusedDark.of_standard {s : Screen} (hs : s.UnusedDark) (hmode : s.mode = .standard)
    {i : Nat} (hi : 2048 ≤ i) (hi' : i < 8192) : s.cell i = false := by
  refine hs i ?_ hi'
  have harea : s.area = (blank .standard).area := area_eq_of_mode hmode
  rw [harea]
  exact hi

end Screen

end Chip8
