import Chip8.Text.Record

/-!
# The screen

A screen is black and white and has two modes, 64 by 32 and 128 by 64 pixels. Both modes
use one array of 8192 cells, laid out row by row with the width of the current mode as
row length, so the small mode uses the first 2048 cells only.

`Screen.get` is the view of a screen: the pixel at any pair of coordinates, off outside
the mode. Cells are found by their numbers, and there are no cells with other numbers: what is to
read or write one gives nothing then (`cell?`, `setCell?`).
-/

namespace Chip8

/-- The two sizes of screen. -/
inductive ScreenMode where
  /-- 64 by 32 pixels. -/
  | standard
  /-- 128 by 64 pixels. -/
  | extended
  deriving DecidableEq, Repr

namespace ScreenMode

/-- Pixels in a row. -/
def width : ScreenMode → Nat
  | standard => 64
  | extended => 128

/-- Rows. -/
def height : ScreenMode → Nat
  | standard => 32
  | extended => 64

/-- Both modes, the small one first. -/
def all : List ScreenMode := [standard, extended]

/-- The name of a mode. -/
def name : ScreenMode → String
  | standard => "Standard"
  | extended => "Extended"

/-- The size of a mode as text, as in `64x32`. -/
def sizeText (mode : ScreenMode) : String :=
  Text.decimal mode.width ++ "x" ++ Text.decimal mode.height

theorem width_pos (mode : ScreenMode) : 0 < mode.width := by
  cases mode <;> decide

theorem height_pos (mode : ScreenMode) : 0 < mode.height := by
  cases mode <;> decide

theorem area_le (mode : ScreenMode) : mode.width * mode.height ≤ 8192 := by
  cases mode <;> decide

end ScreenMode

/-- A mode and the 8192 cells, of which a mode uses as many as it has pixels. -/
structure Screen where
  mode : ScreenMode
  cells : Vector Bool 8192
  deriving DecidableEq

namespace Screen

/-- A dark screen. -/
def blank (mode : ScreenMode) : Screen := ⟨mode, Vector.replicate 8192 false⟩

/-- Pixels in a row of the current mode. -/
def width (s : Screen) : Nat := s.mode.width

/-- Rows of the current mode. -/
def height (s : Screen) : Nat := s.mode.height

/-- Number of cells that the current mode uses. -/
def area (s : Screen) : Nat := s.width * s.height

/-- Turns every cell off. -/
def clear (s : Screen) : Screen := blank s.mode

/-- Goes over to a mode, with a dark screen. -/
def setMode (_ : Screen) (mode : ScreenMode) : Screen := blank mode

/-- The cell with number `i`, if there is one. -/
def cell? (s : Screen) (i : Nat) : Option Bool := s.cells[i]?

/-- Puts a value into the cell with number `i`, if there is one. -/
def setCell? (s : Screen) (i : Nat) (lit : Bool) : Option Screen :=
  if h : i < 8192 then some { s with cells := s.cells.set i lit h } else none

/-- The number of the cell that holds the pixel in column `x` of row `y`. -/
def cellNumber (s : Screen) (x y : Nat) : Nat := y * s.width + x

theorem area_le (s : Screen) : s.area ≤ 8192 := s.mode.area_le

/-- The cell of a pixel of the mode is one of those that the mode uses. -/
theorem cellNumber_lt_area {s : Screen} {x y : Nat} (hx : x < s.width) (hy : y < s.height) :
    s.cellNumber x y < s.area := by
  unfold cellNumber area
  have row : (y + 1) * s.width ≤ s.height * s.width := Nat.mul_le_mul_right _ hy
  rw [Nat.succ_mul, Nat.mul_comm s.height] at row
  omega

/-- The pixel in column `x` of row `y`, off outside the mode. -/
def get (s : Screen) (x y : Nat) : Bool :=
  if h : x < s.width ∧ y < s.height then
    s.cells.get ⟨s.cellNumber x y, Nat.lt_of_lt_of_le (cellNumber_lt_area h.1 h.2) s.area_le⟩
  else false

/-- How many cells are lit. -/
def litCount (s : Screen) : Nat := s.cells.toList.countP id

/-- The one-line description: mode and number of lit cells. -/
def describe (s : Screen) : String :=
  Text.openRecord "Screen" [("mode", s.mode.name), ("lit", Text.decimal s.litCount)]

end Screen

end Chip8
