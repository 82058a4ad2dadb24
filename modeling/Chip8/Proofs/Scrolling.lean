import Chip8.Proofs.Screen
import Chip8.Screen.Scroll
import Mathlib.Data.List.GetD

/-!
# Scrolling

A scroll copies a block of cells within a part of the screen and turns off what becomes free.
`cell_of_writeCells?` says what is in a cell after a block was written, and so
`cell_of_copyWithin?` and `cell_of_darken?` say it of the two halves of a scroll. Downwards that is
all. Sideways there is one such step for each row, which changes this row and no other cell
(`RowRedrawn`), and row by row the picture becomes what the scroll is to make of it
(`eachRow_redrawn`).

> `scrollDown_redrawn`, `scrollRight_redrawn`, `scrollLeft_redrawn`: the pixels after a scroll. The
> cells that the mode does not use stay as they were.
>
> `scroll_shifts`: a scroll moves pixels by so many rows or so many columns. Nothing comes in, and
> sideways no pixel goes to another row.
-/

namespace Chip8.Screen

variable {s s' : Screen} {i n x y : Nat}

/-! ## Blocks of cells -/

variable {first count source target free : Nat} {values block : List Bool} {part : Stretch}

/-- What is read are the cells from number `first` on. -/
theorem getElem?_of_readCells? (h : s.readCells? first count = some block) :
    block.length = count ∧ ∀ k < count, block[k]? = some (s.cell (first + k)) := by
  induction count generalizing first block with
  | zero =>
    obtain rfl := Option.some.inj h
    exact ⟨rfl, fun k hk => absurd hk (Nat.not_lt_zero k)⟩
  | succ count ih =>
    obtain ⟨lit, hlit, hbind⟩ := Option.bind_eq_some_iff.mp h
    obtain ⟨rest, hrest, hblock⟩ := Option.bind_eq_some_iff.mp hbind
    obtain rfl := Option.some.inj hblock
    obtain ⟨hlength, hcells⟩ := ih hrest
    refine ⟨congrArg (· + 1) hlength, fun k hk => ?_⟩
    cases k with
    | zero => rw [List.getElem?_cons_zero, Nat.add_zero, cell, hlit, Option.getD_some]
    | succ k =>
      rw [List.getElem?_cons_succ, hcells k (Nat.lt_of_succ_lt_succ hk), Nat.add_assoc,
        Nat.add_comm 1]

theorem mode_of_writeCells? (h : s.writeCells? first values = some s') : s'.mode = s.mode := by
  induction values generalizing s first with
  | nil =>
    obtain rfl := Option.some.inj h
    rfl
  | cons lit rest ih =>
    obtain ⟨written, hset, hrest⟩ := Option.bind_eq_some_iff.mp h
    rw [ih hrest, mode_of_setCell? hset]

/-- What is written is found again cell by cell, and no other cell changes. -/
theorem cell_of_writeCells? (h : s.writeCells? first values = some s') (i : Nat) :
    s'.cell i = if first ≤ i then values.getD (i - first) (s.cell i) else s.cell i := by
  induction values generalizing s first with
  | nil =>
    obtain rfl := Option.some.inj h
    rw [List.getD_nil, ite_self]
  | cons lit rest ih =>
    obtain ⟨written, hset, hrest⟩ := Option.bind_eq_some_iff.mp h
    rw [ih hrest, cell_of_setCell? hset]
    rcases Nat.lt_trichotomy first i with below | rfl | above
    · have hnext : i - first = (i - (first + 1)) + 1 := by omega
      rw [if_pos (show first + 1 ≤ i from below), if_neg (Nat.ne_of_lt below),
        if_pos (Nat.le_of_lt below), hnext, List.getD_cons_succ]
    · rw [if_neg (Nat.not_succ_le_self first), if_pos rfl, if_pos (Nat.le_refl first),
        Nat.sub_self, List.getD_cons_zero]
    · rw [if_neg (show ¬ first + 1 ≤ i by omega), if_neg (Nat.ne_of_gt above),
        if_neg (show ¬ first ≤ i by omega)]

theorem cell_of_copyWithin? (h : s.copyWithin? part source target count = some s') :
    s'.mode = s.mode ∧ ∀ i, s'.cell i =
      if part.first + target ≤ i ∧ i < part.first + target + count then
        s.cell (part.first + source + (i - (part.first + target)))
      else s.cell i := by
  unfold copyWithin? at h
  split at h
  case isFalse => exact nomatch h
  obtain ⟨block, hread, hwrite⟩ := Option.bind_eq_some_iff.mp h
  obtain ⟨hlength, hblock⟩ := getElem?_of_readCells? hread
  refine ⟨mode_of_writeCells? hwrite, fun i => ?_⟩
  rw [cell_of_writeCells? hwrite]
  by_cases htarget : part.first + target ≤ i
  · rw [if_pos htarget]
    by_cases hcount : i < part.first + target + count
    · rw [if_pos ⟨htarget, hcount⟩, List.getD_eq_getElem?_getD, hblock _ (by omega),
        Option.getD_some]
    · rw [if_neg (fun h => hcount h.2), List.getD_eq_default _ _ (by omega)]
  · rw [if_neg htarget, if_neg (fun h => htarget h.1)]

theorem cell_of_darken? (h : s.darken? part first count = some s') :
    s'.mode = s.mode ∧ ∀ i, s'.cell i =
      if part.first + first ≤ i ∧ i < part.first + first + count then false else s.cell i := by
  unfold darken? at h
  split at h
  case isFalse => exact nomatch h
  refine ⟨mode_of_writeCells? h, fun i => ?_⟩
  rw [cell_of_writeCells? h]
  by_cases hfirst : part.first + first ≤ i
  · rw [if_pos hfirst]
    by_cases hcount : i < part.first + first + count
    · rw [if_pos ⟨hfirst, hcount⟩, List.getD_replicate _ (by omega)]
    · rw [if_neg (fun h => hcount h.2),
        List.getD_eq_default _ _ (by rw [List.length_replicate]; omega)]
  · rw [if_neg hfirst, if_neg (fun h => hfirst h.1)]

/-- What is in a cell after one block was copied and another one was turned off. -/
theorem cell_of_shift? (h : s.shift? part source target count free n = some s') :
    s'.mode = s.mode ∧ ∀ i, s'.cell i =
      if part.first + free ≤ i ∧ i < part.first + free + n then false
      else if part.first + target ≤ i ∧ i < part.first + target + count then
        s.cell (part.first + source + (i - (part.first + target)))
      else s.cell i := by
  obtain ⟨moved, hmoved, hdark⟩ := Option.bind_eq_some_iff.mp h
  obtain ⟨hmode, hcopied⟩ := cell_of_copyWithin? hmoved
  obtain ⟨hmode', hdarkened⟩ := cell_of_darken? hdark
  exact ⟨hmode'.trans hmode, fun i => by rw [hdarkened, hcopied]⟩

/-! ## A new picture -/

/-- The pixels of a screen have become those that `pixel` gives, and nothing else has changed. -/
structure Redrawn (s s' : Screen) (pixel : Nat → Nat → Bool) : Prop where
  mode_eq : s'.mode = s.mode
  get_eq : ∀ x < s.width, ∀ y < s.height, s'.get x y = pixel x y
  unused_eq : ∀ i, s.area ≤ i → i < 8192 → s'.cell i = s.cell i

/-- The pixels of row `y` have become those that `row` gives, and no other cell has changed. -/
structure RowRedrawn (s s' : Screen) (y : Nat) (row : Nat → Bool) : Prop where
  mode_eq : s'.mode = s.mode
  get_eq : ∀ x < s.width, s'.get x y = row x
  other_eq : ∀ i < 8192, i / s.width ≠ y → s'.cell i = s.cell i

theorem RowRedrawn.congr {row row' : Nat → Bool} (h : s.RowRedrawn s' y row)
    (hrow : ∀ x < s.width, row x = row' x) : s.RowRedrawn s' y row' :=
  ⟨h.mode_eq, fun x hx => (h.get_eq x hx).trans (hrow x hx), h.other_eq⟩

theorem Redrawn.eq_self_iff {pixel : Nat → Nat → Bool} (h : s.Redrawn s' pixel) :
    s' = s ↔ ∀ x < s.width, ∀ y < s.height, pixel x y = s.get x y := by
  constructor
  · rintro rfl x hx y hy
    exact (h.get_eq x hx y hy).symm
  · intro hsame
    refine ext_pixels h.mode_eq (fun x hx y hy => ?_) h.unused_eq
    rw [h.get_eq x hx y hy, hsame x hx y hy]

theorem Redrawn.dark {pixel : Nat → Nat → Bool} (h : s.Redrawn s' pixel)
    (hpixel : ∀ x < s.width, ∀ y < s.height, pixel x y = false) : s'.Dark := by
  have hwidth : s'.width = s.width := congrArg ScreenMode.width h.mode_eq
  have hheight : s'.height = s.height := congrArg ScreenMode.height h.mode_eq
  refine dark_of_lt fun x hx y hy => ?_
  rw [hwidth] at hx
  rw [hheight] at hy
  rw [h.get_eq x hx y hy, hpixel x hx y hy]

theorem UnusedDark.redrawn {pixel : Nat → Nat → Bool} (hs : s.UnusedDark)
    (h : s.Redrawn s' pixel) : s'.UnusedDark :=
  hs.of_eq h.mode_eq h.unused_eq

/-! ## Down -/

theorem cellNumber_lt_mul (hx : x < s.width) : s.cellNumber x y < n * s.width ↔ y < n := by
  rw [← Nat.div_lt_iff_lt_mul s.width_pos, cellNumber_div_width hx]

theorem cellNumber_sub_mul (h : n ≤ y) :
    s.cellNumber x y - n * s.width = s.cellNumber x (y - n) := by
  have hle : n * s.width ≤ y * s.width := Nat.mul_le_mul_right _ h
  unfold cellNumber
  rw [Nat.sub_mul]
  omega

theorem scrollDown_redrawn (s : Screen) (n : Nat) :
    s.Redrawn (s.scrollDown n) fun x y => decide (n ≤ y) && s.get x (y - n) := by
  have hn := Nat.min_le_right n s.height
  have hscroll := s.scrollDown?_eq n
  rw [scrollDown?, less?_eq hn] at hscroll
  obtain ⟨hmode, hcell⟩ := cell_of_shift? hscroll
  have hfirst : allCells.first = 0 := rfl
  simp only [hfirst, Nat.zero_add] at hcell
  -- The rows that become free and the rows that stay are all rows.
  have hrows : min n s.height * s.width + (s.height - min n s.height) * s.width = s.area := by
    rw [← Nat.add_mul, Nat.add_sub_of_le hn, area, Nat.mul_comm]
  refine ⟨hmode, fun x hx y hy => ?_, fun i hi _ => ?_⟩
  · have hlt := cellNumber_lt_area hx hy
    rw [get_of_mode hmode hx hy, hcell]
    by_cases hfree : y < n
    · have hfirst : s.cellNumber x y < min n s.height * s.width :=
        (cellNumber_lt_mul hx).mpr (Nat.lt_min.mpr ⟨hfree, hy⟩)
      rw [if_pos ⟨Nat.zero_le _, hfirst⟩, decide_eq_false (Nat.not_le.mpr hfree), Bool.false_and]
    · have hle := Nat.not_lt.mp hfree
      have hmin : min n s.height = n := Nat.min_eq_left (Nat.le_trans hle (Nat.le_of_lt hy))
      rw [hmin] at hrows ⊢
      have hlast : ¬ s.cellNumber x y < n * s.width := mt (cellNumber_lt_mul hx).mp hfree
      rw [if_neg (by omega), if_pos (by omega), cellNumber_sub_mul hle, decide_eq_true hle,
        Bool.true_and, get_of_lt hx (by omega)]
  · rw [hcell i, if_neg (by omega), if_neg (by omega)]

/-! ## Row by row -/

/-- Whether the first `k` rows of a picture have become what `shift` makes of them, while the cells
behind them are as they were. -/
structure RowsRedrawn (shift : (Nat → Bool) → Nat → Bool) (k : Nat) (s s' : Screen) : Prop where
  mode_eq : s'.mode = s.mode
  get_eq : ∀ x < s.width, ∀ y < k, s'.get x y = shift (fun x => s.get x y) x
  rest_eq : ∀ i < 8192, k ≤ i / s.width → s'.cell i = s.cell i

variable {shift : (Nat → Bool) → Nat → Bool} {k : Nat}
  {change : Screen → Stretch → Option Screen}

/-- The next row is still as it was. -/
theorem RowsRedrawn.row_eq (h : RowsRedrawn shift k s s') (hk : k < s.height) :
    (fun x => s'.get x k) = fun x => s.get x k := by
  funext x
  by_cases hx : x < s.width
  · have hlt := Nat.lt_of_lt_of_le (cellNumber_lt_area hx hk) s.area_le
    rw [get_of_mode h.mode_eq hx hk, get_of_lt hx hk,
      h.rest_eq _ hlt (Nat.le_of_eq (cellNumber_div_width hx k).symm)]
  · have hwidth : s'.width = s.width := congrArg ScreenMode.width h.mode_eq
    rw [get_of_width_le (Nat.not_lt.mp hx), get_of_width_le (hwidth ▸ Nat.not_lt.mp hx)]

theorem RowsRedrawn.next {t : Screen} (h : RowsRedrawn shift k s s') (hk : k < s.height)
    (hrow : s'.RowRedrawn t k (shift fun x => s'.get x k)) : RowsRedrawn shift (k + 1) s t := by
  have hwidth : s'.width = s.width := congrArg ScreenMode.width h.mode_eq
  have hmode : t.mode = s.mode := hrow.mode_eq.trans h.mode_eq
  have hother : ∀ i < 8192, i / s.width ≠ k → t.cell i = s'.cell i := hwidth ▸ hrow.other_eq
  refine ⟨hmode, fun x hx y hy => ?_, fun i hi hle => ?_⟩
  · rcases Nat.lt_succ_iff_lt_or_eq.mp hy with hlt | rfl
    · have hy' : y < s.height := Nat.lt_trans hlt hk
      have hcell := Nat.lt_of_lt_of_le (cellNumber_lt_area hx hy') s.area_le
      have hne : s.cellNumber x y / s.width ≠ k := by
        rw [cellNumber_div_width hx]
        exact Nat.ne_of_lt hlt
      rw [← h.get_eq x hx y hlt, get_of_mode hmode hx hy', get_of_mode h.mode_eq hx hy',
        hother _ hcell hne]
    · rw [hrow.get_eq x (hwidth ▸ hx), h.row_eq hk]
  · rw [hother i hi (Nat.ne_of_gt hle), h.rest_eq i hi (Nat.le_of_succ_le hle)]

/-- If the step of a row makes of the row what `shift` makes of it, and touches no other cell, then
all steps together do so to the picture. -/
theorem eachRow_redrawn (shift : (Nat → Bool) → Nat → Bool) (hrows : s.eachRow? change = some s')
    (hchange : ∀ t t' : Screen, t.mode = s.mode → ∀ y < s.height,
      change t (s.row y) = some t' → t.RowRedrawn t' y (shift fun x => t.get x y)) :
    s.Redrawn s' fun x y => shift (fun x => s.get x y) x := by
  have hfirst : ∀ k ≤ s.height, ∀ t,
      (List.range k).foldlM (fun t y => change t (s.row y)) s = some t →
        RowsRedrawn shift k s t := by
    intro k hk
    induction k with
    | zero =>
      intro t ht
      obtain rfl := Option.some.inj ht
      exact ⟨rfl, fun _ _ y hy => absurd hy (Nat.not_lt_zero y), fun _ _ _ => rfl⟩
    | succ k ih =>
      intro t' ht'
      rw [List.range_succ, List.foldlM_append] at ht'
      obtain ⟨t, ht, hlast⟩ := Option.bind_eq_some_iff.mp ht'
      obtain ⟨u, hchanged, hnone⟩ := Option.bind_eq_some_iff.mp hlast
      obtain rfl := Option.some.inj hnone
      have hbefore := ih (Nat.le_of_succ_le hk) t ht
      exact hbefore.next hk (hchange t u hbefore.mode_eq k hk hchanged)
  rw [eachRow?, if_pos s.area_le] at hrows
  obtain ⟨hmode, hget, hrest⟩ := hfirst s.height (Nat.le_refl _) s' hrows
  refine ⟨hmode, hget, fun i hi hi' => hrest i hi' ?_⟩
  rw [Nat.le_div_iff_mul_le s.width_pos, Nat.mul_comm]
  exact hi

/-! ## Sideways -/

/-- The cells of row `y` are those with this quotient by the width. -/
theorem div_width_eq_iff : i / s.width = y ↔ y * s.width ≤ i ∧ i < y * s.width + s.width := by
  rw [Nat.div_eq_iff s.width_pos]
  have := s.width_pos
  omega

/-- The step of a row: a block within the row is copied within the row, and another one is turned
off. -/
theorem shift_row {t t' : Screen} (hmode : t.mode = s.mode) (hy : y < s.height)
    (htarget : target + count ≤ s.width) (hfree : free + n ≤ s.width)
    (h : t.shift? (s.row y) source target count free n = some t') :
    t.RowRedrawn t' y fun x =>
      if free ≤ x ∧ x < free + n then false
      else if target ≤ x ∧ x < target + count then t.cell (t.cellNumber (source + (x - target)) y)
      else t.get x y := by
  have hwidth : t.width = s.width := congrArg ScreenMode.width hmode
  have hheight : t.height = s.height := congrArg ScreenMode.height hmode
  have hrow : (s.row y).first = y * t.width := by rw [hwidth]; rfl
  obtain ⟨hmode', hcell⟩ := cell_of_shift? h
  rw [hrow] at hcell
  rw [← hwidth] at htarget hfree
  refine ⟨hmode', fun x hx => ?_, fun i _ hne => ?_⟩
  · rw [get_of_mode hmode' hx (hheight ▸ hy), hcell, get_of_lt hx (hheight ▸ hy)]
    unfold cellNumber
    by_cases hout : free ≤ x ∧ x < free + n
    · rw [if_pos (by omega), if_pos hout]
    · rw [if_neg (by omega), if_neg hout]
      by_cases hcopied : target ≤ x ∧ x < target + count
      · rw [if_pos (by omega), if_pos hcopied, Nat.add_sub_add_left, Nat.add_assoc]
      · rw [if_neg (by omega), if_neg hcopied]
  · rw [ne_eq, div_width_eq_iff] at hne
    rw [hcell i, if_neg (by omega), if_neg (by omega)]

theorem scrollRight_redrawn (s : Screen) (n : Nat) :
    s.Redrawn (s.scrollRight n) fun x y => decide (n ≤ x) && s.get (x - n) y := by
  have hn := Nat.min_le_right n s.width
  have hscroll := s.scrollRight?_eq n
  dsimp only [scrollRight?] at hscroll
  refine eachRow_redrawn (fun row x => decide (n ≤ x) && row (x - n)) hscroll
    fun t t' hmode y hy hchange => ?_
  rw [less?_eq hn] at hchange
  have hwidth : t.width = s.width := congrArg ScreenMode.width hmode
  have hheight : t.height = s.height := congrArg ScreenMode.height hmode
  refine (shift_row hmode hy (by omega) (by omega) hchange).congr fun x hx => ?_
  dsimp only
  rw [hwidth] at hx
  by_cases hfree : x < n
  · rw [if_pos (by omega), decide_eq_false (Nat.not_le.mpr hfree), Bool.false_and]
  · have hmin : min n s.width = n := Nat.min_eq_left (by omega)
    rw [hmin, if_neg (by omega), if_pos (by omega), decide_eq_true (Nat.not_lt.mp hfree),
      Bool.true_and, get_of_lt (by omega) (hheight ▸ hy), Nat.zero_add]

theorem scrollLeft_redrawn (s : Screen) (n : Nat) :
    s.Redrawn (s.scrollLeft n) fun x y => s.get (x + n) y := by
  have hn := Nat.min_le_right n s.width
  have hscroll := s.scrollLeft?_eq n
  dsimp only [scrollLeft?] at hscroll
  refine eachRow_redrawn (fun row x => row (x + n)) hscroll
    fun t t' hmode y hy hchange => ?_
  rw [less?_eq hn] at hchange
  have hwidth : t.width = s.width := congrArg ScreenMode.width hmode
  have hheight : t.height = s.height := congrArg ScreenMode.height hmode
  refine (shift_row hmode hy (by omega) (by omega) hchange).congr fun x hx => ?_
  dsimp only
  rw [hwidth] at hx
  by_cases hfree : x + n < s.width
  · have hmin : min n s.width = n := Nat.min_eq_left (by omega)
    rw [hmin, if_neg (by omega), if_pos (by omega), get_of_lt (by omega) (hheight ▸ hy),
      Nat.sub_zero, Nat.add_comm]
  · rw [if_pos (by omega), get_of_width_le (by omega)]

/-! ## All three -/

/-- Scrolling moves the pixels of the mode, whatever the number is by which it does.

* After a scroll down a pixel is off in the rows that come in, and elsewhere it is the one that was
  so many rows above it. After a scroll to the right or to the left it is the one that was so many
  columns before or behind it in its row, and off where there was none.
* The mode stays, and so do the cells that it does not use.
* A scroll by all rows, or all columns, or more leaves no pixel on. -/
theorem scroll_shifts (s : Screen) (n : Nat) :
    (∀ x < s.width, ∀ y < s.height,
      (s.scrollDown n).get x y = (if y < n then false else s.get x (y - n)) ∧
      (s.scrollRight n).get x y = (if x < n then false else s.get (x - n) y) ∧
      (s.scrollLeft n).get x y = (if x + n < s.width then s.get (x + n) y else false)) ∧
    (∀ s' ∈ [s.scrollDown n, s.scrollRight n, s.scrollLeft n],
      s'.mode = s.mode ∧ ∀ i, s.area ≤ i → i < 8192 → s'.cell i = s.cell i) ∧
    (s.height ≤ n → (s.scrollDown n).Dark) ∧
    (s.width ≤ n → (s.scrollRight n).Dark ∧ (s.scrollLeft n).Dark) := by
  have hdown := s.scrollDown_redrawn n
  have hright := s.scrollRight_redrawn n
  have hleft := s.scrollLeft_redrawn n
  refine ⟨fun x hx y hy => ⟨?_, ?_, ?_⟩, ?_, fun hn => hdown.dark fun x _ y hy => ?_,
    fun hn => ⟨?_, ?_⟩⟩
  · rw [hdown.get_eq x hx y hy]
    by_cases hfree : y < n
    · rw [if_pos hfree, decide_eq_false (Nat.not_le.mpr hfree), Bool.false_and]
    · rw [if_neg hfree, decide_eq_true (Nat.not_lt.mp hfree), Bool.true_and]
  · rw [hright.get_eq x hx y hy]
    by_cases hfree : x < n
    · rw [if_pos hfree, decide_eq_false (Nat.not_le.mpr hfree), Bool.false_and]
    · rw [if_neg hfree, decide_eq_true (Nat.not_lt.mp hfree), Bool.true_and]
  · rw [hleft.get_eq x hx y hy]
    split
    next => rfl
    next hfree => exact get_of_width_le (Nat.not_lt.mp hfree) y
  · intro s' hmem
    rcases List.mem_cons.mp hmem with rfl | hmem
    · exact ⟨hdown.mode_eq, hdown.unused_eq⟩
    rcases List.mem_cons.mp hmem with rfl | hmem
    · exact ⟨hright.mode_eq, hright.unused_eq⟩
    · rw [List.mem_singleton.mp hmem]
      exact ⟨hleft.mode_eq, hleft.unused_eq⟩
  · rw [decide_eq_false (Nat.not_le.mpr (Nat.lt_of_lt_of_le hy hn)), Bool.false_and]
  · refine hright.dark fun x hx y _ => ?_
    rw [decide_eq_false (Nat.not_le.mpr (Nat.lt_of_lt_of_le hx hn)), Bool.false_and]
  · exact hleft.dark fun x _ y _ => get_of_width_le (Nat.le_add_left_of_le hn) y

/-- A pixel in row 3 goes four columns to the right. Eleven columns to the left take it off the
screen, and it does not come in again at the end of row 2. A scroll by 64 rows leaves nothing. -/
theorem pixel_off_the_edge :
    ∃ s, (blank .extended).setCell? (3 * 128 + 10) true = some s ∧
      14 < s.width ∧ 127 < s.width ∧ 3 < s.height ∧ s.get 10 3 = true ∧
      (s.scrollRight 4).get 14 3 = true ∧ (s.scrollLeft 11).get 127 2 = false ∧
      s.height ≤ 64 ∧ (s.scrollDown 64).get 10 3 = false := by
  obtain ⟨s, hset⟩ := (blank .extended).exists_setCell? (3 * 128 + 10) true (by decide)
  have hwidth : s.width = 128 := congrArg ScreenMode.width (mode_of_setCell? hset)
  have hheight : s.height = 64 := congrArg ScreenMode.height (mode_of_setCell? hset)
  have hx : 14 < s.width := by omega
  have hx' : 127 < s.width := by omega
  have hy : 3 < s.height := by omega
  have hlit : s.get 10 3 = true := by
    rw [get_of_lt (by omega) hy, cellNumber, hwidth, cell_of_setCell? hset, if_pos rfl]
  obtain ⟨-, hright, -⟩ := (scroll_shifts s 4).1 14 hx 3 hy
  obtain ⟨-, -, hleft⟩ := (scroll_shifts s 11).1 127 hx' 2 (by omega)
  obtain ⟨-, -, hdark, -⟩ := scroll_shifts s 64
  refine ⟨s, hset, hx, hx', hy, hlit, ?_, ?_, Nat.le_of_eq hheight,
    hdark (Nat.le_of_eq hheight) 10 3⟩
  · rw [hright, if_neg (by decide)]
    exact hlit
  · rw [hleft, if_neg (by omega)]

end Chip8.Screen
