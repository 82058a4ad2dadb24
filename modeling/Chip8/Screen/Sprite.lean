import Chip8.Fault
import Chip8.Screen.Basic

/-!
# Sprites

A sprite is a list of bytes, cut into rows of a given number of bytes, the last of which
may be short. Its lit points are the set bits, counted from the high bit of the first byte
of a row. Drawing turns over the pixel under each lit point, wraps around at both edges of
the mode, and reports whether a lit pixel went off.
-/

namespace Chip8

/-- The bytes of a sprite and the number of bytes in a row. -/
structure Sprite where
  bytes : List UInt8
  rowBytes : Nat

namespace Sprite

/-- Bytes in a row; no bytes count as one. -/
def stride (s : Sprite) : Nat := max s.rowBytes 1

/-- The columns of the set bits of a byte, counted from its high bit. -/
def setBits (b : UInt8) : List Nat :=
  (List.range 8).filter fun bit => b.toNat.testBit (7 - bit)

/-- The lit points, column and row, in reading order. -/
def lit (s : Sprite) : List (Nat × Nat) :=
  s.bytes.zipIdx.flatMap fun (b, k) =>
    (setBits b).map fun bit => (8 * (k % s.stride) + bit, k / s.stride)

/-- The number of rows, a short one included. -/
def rows (s : Sprite) : Nat := (s.bytes.length + s.stride - 1) / s.stride

/-- Whether every row and every lit point, seen from `(x, y)`, has coordinates below the
limit for counts. -/
def fitsAt (s : Sprite) (x y : Nat) : Bool :=
  (s.rows = 0 || y + (s.rows - 1) < countLimit) && s.lit.all fun point => x + point.1 < countLimit

end Sprite

namespace Screen

/-- Turns over the pixel at `(x, y)`, wrapped to the mode, and adds to `hit` whether it was lit.
Gives nothing if there is no such cell. -/
def toggle? (drawn : Screen × Bool) (x y : Nat) : Option (Screen × Bool) := do
  let (s, hit) := drawn
  let i := s.cellNumber (x % s.width) (y % s.height)
  let lit ← s.cell? i
  let turned ← s.setCell? i (!lit)
  return (turned, hit || lit)

/-- Draws a sprite with its corner at `(x, y)`. The truth value tells of a lit pixel that
went off. Gives nothing if a coordinate cannot be counted, or there is no cell for a pixel. -/
def draw? (s : Screen) (x y : Nat) (sprite : Sprite) : Option (Screen × Bool) :=
  if sprite.fitsAt x y then
    sprite.lit.foldlM (fun drawn point => toggle? drawn (x + point.1) (y + point.2)) (s, false)
  else none

end Screen

end Chip8
