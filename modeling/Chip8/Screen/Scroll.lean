import Chip8.Screen.Basic

/-!
# Scrolling

A scroll moves a block of cells and turns off the cells that become free. Down, the block is all
rows that stay on the screen; sideways, each row has a block of its own. What leaves the screen is
lost, and more rows or columns than there are count as all of them.

Cells are moved and turned off within a part of all cells. A block that does not lie in it, and a
number taken off a smaller one, give nothing (`scrollDown?`, `scrollRight?`, `scrollLeft?`). It does
not come to that, whatever the number is by which one scrolls, so there always is a screen after it
(`scrollDown`, `scrollRight`, `scrollLeft`).
-/

namespace Chip8

/-- Some cells next to each other: the number of the first one, and how many they are. -/
structure Stretch where
  first : Nat
  length : Nat

namespace Screen

/-- The `count` cells from number `first` on, if they are all there. -/
def readCells? (s : Screen) (first : Nat) : Nat → Option (List Bool)
  | 0 => some []
  | count + 1 => do
    let lit ← s.cell? first
    let rest ← s.readCells? (first + 1) count
    return lit :: rest

/-- Puts values into the cells from number `first` on, if they are all there. -/
def writeCells? (s : Screen) (first : Nat) : List Bool → Option Screen
  | [] => some s
  | lit :: rest => do
    let written ← s.setCell? first lit
    written.writeCells? (first + 1) rest

/-- Copies `count` cells within a part of all cells, from `source` to `target`, both counted from
the first cell of the part. All are read before any is written, so the two blocks may overlap. -/
def copyWithin? (s : Screen) (part : Stretch) (source target count : Nat) : Option Screen :=
  if source + count ≤ part.length ∧ target + count ≤ part.length then do
    let block ← s.readCells? (part.first + source) count
    s.writeCells? (part.first + target) block
  else none

/-- Turns off the `count` cells from `first` on, counted from the first cell of the part. -/
def darken? (s : Screen) (part : Stretch) (first count : Nat) : Option Screen :=
  if first + count ≤ part.length then
    s.writeCells? (part.first + first) (List.replicate count false)
  else none

/-- What is left of a number, if there is so much to take off. -/
def less? (n taken : Nat) : Option Nat := if taken ≤ n then some (n - taken) else none

/-- All cells. -/
def allCells : Stretch := ⟨0, 8192⟩

/-- The cells of row `y`. -/
def row (s : Screen) (y : Nat) : Stretch := ⟨y * s.width, s.width⟩

/-- Changes the rows of the mode, one after the other. -/
def eachRow? (s : Screen) (change : Screen → Stretch → Option Screen) : Option Screen :=
  if s.area ≤ 8192 then (List.range s.height).foldlM (fun t y => change t (s.row y)) s else none

/-- Copies a block within a part and turns off the `n` cells from `free` on. -/
def shift? (s : Screen) (part : Stretch) (source target count free n : Nat) : Option Screen := do
  let moved ← s.copyWithin? part source target count
  moved.darken? part free n

/-- Moves the picture down by `n` rows. -/
def scrollDown? (s : Screen) (n : Nat) : Option Screen := do
  let n := min n s.height
  let kept ← less? s.height n
  s.shift? allCells 0 (n * s.width) (kept * s.width) 0 (n * s.width)

/-- Moves the picture right by `n` columns. -/
def scrollRight? (s : Screen) (n : Nat) : Option Screen :=
  let n := min n s.width
  s.eachRow? fun t row => do
    let kept ← less? s.width n
    t.shift? row 0 n kept 0 n

/-- Moves the picture left by `n` columns. -/
def scrollLeft? (s : Screen) (n : Nat) : Option Screen :=
  let n := min n s.width
  s.eachRow? fun t row => do
    let kept ← less? s.width n
    t.shift? row n 0 kept kept n

/-! ## There always is a screen -/

variable {part : Stretch} {count : Nat}

theorem exists_setCell? (s : Screen) (i : Nat) (lit : Bool) (hi : i < 8192) :
    ∃ s', s.setCell? i lit = some s' := ⟨_, dif_pos hi⟩

theorem exists_readCells? (s : Screen) (first count : Nat) (h : first + count ≤ 8192) :
    ∃ block, s.readCells? first count = some block ∧ block.length = count := by
  induction count generalizing first with
  | zero => exact ⟨[], rfl, rfl⟩
  | succ count ih =>
    obtain ⟨rest, hrest, hlength⟩ := ih (first + 1) (by omega)
    have hlit : s.cell? first = some s.cells[first] := Vector.getElem?_eq_getElem (by omega)
    refine ⟨s.cells[first] :: rest, ?_, congrArg (· + 1) hlength⟩
    rw [readCells?, hlit, hrest]
    rfl

theorem exists_writeCells? (s : Screen) (first : Nat) (values : List Bool)
    (h : first + values.length ≤ 8192) : ∃ s', s.writeCells? first values = some s' := by
  induction values generalizing s first with
  | nil => exact ⟨s, rfl⟩
  | cons lit rest ih =>
    rw [List.length_cons] at h
    obtain ⟨written, hwritten⟩ := s.exists_setCell? first lit (by omega)
    obtain ⟨s', hrest⟩ := ih written (first + 1) (by omega)
    refine ⟨s', ?_⟩
    rw [writeCells?, hwritten]
    exact hrest

/-- Blocks may be copied within a part if they lie in it. -/
theorem exists_copyWithin? (s : Screen) (hpart : part.first + part.length ≤ 8192)
    {source target : Nat} (hsource : source + count ≤ part.length)
    (htarget : target + count ≤ part.length) :
    ∃ s', s.copyWithin? part source target count = some s' := by
  obtain ⟨block, hblock, hlength⟩ :=
    s.exists_readCells? (part.first + source) count (by omega)
  obtain ⟨s', hwritten⟩ :=
    s.exists_writeCells? (part.first + target) block (by omega)
  refine ⟨s', ?_⟩
  rw [copyWithin?, if_pos ⟨hsource, htarget⟩, hblock]
  exact hwritten

theorem exists_darken? (s : Screen) (hpart : part.first + part.length ≤ 8192)
    (h : first + count ≤ part.length) : ∃ s', s.darken? part first count = some s' := by
  rw [darken?, if_pos h]
  refine s.exists_writeCells? _ _ ?_
  rw [List.length_replicate]
  omega

/-- So a part can be shifted if both blocks and the free cells lie in it. -/
theorem exists_shift? (s : Screen) (part : Stretch) (hpart : part.first + part.length ≤ 8192)
    {source target free n : Nat} (hsource : source + count ≤ part.length)
    (htarget : target + count ≤ part.length) (hfree : free + n ≤ part.length) :
    ∃ s', s.shift? part source target count free n = some s' := by
  obtain ⟨moved, hmoved⟩ := s.exists_copyWithin? hpart hsource htarget
  rw [shift?, hmoved]
  exact moved.exists_darken? hpart hfree

theorem less?_eq {n taken : Nat} (h : taken ≤ n) : less? n taken = some (n - taken) := if_pos h

/-- A row lies among the cells that the mode uses. -/
theorem row_le (s : Screen) {y : Nat} (hy : y < s.height) :
    (s.row y).first + (s.row y).length ≤ s.area := by
  have hrow : (y + 1) * s.width ≤ s.height * s.width := Nat.mul_le_mul_right _ hy
  rw [Nat.succ_mul, Nat.mul_comm s.height] at hrow
  exact hrow

theorem exists_foldlM {α β : Type} {f : α → β → Option α} {l : List β}
    (h : ∀ a, ∀ b ∈ l, ∃ a', f a b = some a') (a : α) : ∃ a', l.foldlM f a = some a' := by
  induction l generalizing a with
  | nil => exact ⟨a, rfl⟩
  | cons b rest ih =>
    obtain ⟨next, hnext⟩ := h a b List.mem_cons_self
    rw [List.foldlM_cons, hnext]
    exact ih (fun a b hb => h a b (List.mem_cons_of_mem _ hb)) next

/-- All rows can be changed if each of them can. -/
theorem exists_eachRow? (s : Screen) {change : Screen → Stretch → Option Screen}
    (h : ∀ t, ∀ y < s.height, ∃ t', change t (s.row y) = some t') :
    ∃ s', s.eachRow? change = some s' := by
  rw [eachRow?, if_pos s.area_le]
  exact exists_foldlM (fun t y hy => h t y (List.mem_range.mp hy)) s

theorem isSome_scrollDown? (s : Screen) (n : Nat) : (s.scrollDown? n).isSome = true := by
  have hn := Nat.min_le_right n s.height
  -- The rows that become free and the rows that stay are all rows.
  have hrows : min n s.height * s.width + (s.height - min n s.height) * s.width ≤ 8192 := by
    rw [← Nat.add_mul, Nat.add_sub_of_le hn, Nat.mul_comm]
    exact s.area_le
  rw [scrollDown?, less?_eq hn]
  refine Option.isSome_iff_exists.mpr (s.exists_shift? allCells (Nat.le_refl 8192) ?_ hrows ?_)
  · exact Nat.le_trans (Nat.add_le_add_right (Nat.zero_le _) _) hrows
  · exact Nat.le_trans (Nat.zero_add _ ▸ Nat.le_add_right _ _) hrows

/-- The same blocks can be copied and turned off in all rows if they lie in a row. -/
theorem exists_shiftRows? (s : Screen) {source target free n : Nat}
    (hsource : source + count ≤ s.width) (htarget : target + count ≤ s.width)
    (hfree : free + n ≤ s.width) :
    ∃ s', (s.eachRow? fun t row => t.shift? row source target count free n) = some s' :=
  s.exists_eachRow? fun t _ hy =>
    t.exists_shift? _ (Nat.le_trans (s.row_le hy) s.area_le) hsource htarget hfree

theorem isSome_scrollRight? (s : Screen) (n : Nat) : (s.scrollRight? n).isSome = true := by
  have hn := Nat.min_le_right n s.width
  simp only [scrollRight?, less?_eq hn, Option.bind_eq_bind, Option.bind_some]
  exact Option.isSome_iff_exists.mpr (s.exists_shiftRows? (by omega) (by omega) (by omega))

theorem isSome_scrollLeft? (s : Screen) (n : Nat) : (s.scrollLeft? n).isSome = true := by
  have hn := Nat.min_le_right n s.width
  simp only [scrollLeft?, less?_eq hn, Option.bind_eq_bind, Option.bind_some]
  exact Option.isSome_iff_exists.mpr (s.exists_shiftRows? (by omega) (by omega) (by omega))

/-- The screen with the picture moved down by `n` rows. -/
def scrollDown (s : Screen) (n : Nat) : Screen := (s.scrollDown? n).get (s.isSome_scrollDown? n)

/-- The screen with the picture moved right by `n` columns. -/
def scrollRight (s : Screen) (n : Nat) : Screen := (s.scrollRight? n).get (s.isSome_scrollRight? n)

/-- The screen with the picture moved left by `n` columns. -/
def scrollLeft (s : Screen) (n : Nat) : Screen := (s.scrollLeft? n).get (s.isSome_scrollLeft? n)

@[simp] theorem scrollDown?_eq (s : Screen) (n : Nat) : s.scrollDown? n = some (s.scrollDown n) :=
  (Option.some_get _).symm

@[simp] theorem scrollRight?_eq (s : Screen) (n : Nat) :
    s.scrollRight? n = some (s.scrollRight n) :=
  (Option.some_get _).symm

@[simp] theorem scrollLeft?_eq (s : Screen) (n : Nat) : s.scrollLeft? n = some (s.scrollLeft n) :=
  (Option.some_get _).symm

end Screen

end Chip8
