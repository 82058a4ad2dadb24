import Chip8.Floating.Basic
import Chip8.Text.Numeral

/-!
# The shortest numeral of a floating number

A floating number is written with the fewest decimal digits that lead back to it. A numeral
with its last digit in a given place is one of the points of a grid; `Floating.shortest` goes
through the grids from the coarsest on, with one digit, two, and so on, and on each it tries the
two neighbours of the number, the closer one first. The first that `Ratio.nearest` takes back to
the number is the answer. Seventeen digits always suffice, so the grids are a fixed range.

Numbers of ordinary size are written out with a point, the others with a power of ten.
-/

namespace Chip8

open Text

/-- The number `digits * 10 ^ place`, its last digit in the given place. -/
structure Decimal where
  digits : Nat
  place : Int
  deriving DecidableEq, Repr

namespace Floating

/-- The neighbours of a number on the grid with the given last place, the closer one first. -/
def neighbours (f : Floating) (place : Int) : List Decimal :=
  let r := f.ratio.scaled 10 (-place)
  if r.round = r.floor then [⟨r.floor, place⟩, ⟨r.floor + 1, place⟩]
  else [⟨r.floor + 1, place⟩, ⟨r.floor, place⟩]

/-- Whether a decimal leads back to the number. -/
def isReadFrom (f : Floating) (d : Decimal) : Bool :=
  (Ratio.scaled ⟨d.digits, 1⟩ 10 d.place).nearest == f

/-- The neighbours of a number on its grids, from one digit to seventeen. -/
def candidates (f : Floating) : List Decimal :=
  let first := f.ratio.leading 10
  (List.range 17).flatMap fun more : Nat => f.neighbours (first - more)

/-- The fewest decimal digits that lead back to the number. -/
def shortest (f : Floating) : Decimal :=
  (f.candidates.find? f.isReadFrom).getD ⟨0, 0⟩

end Floating

/-- Digits without the zeros at their end. -/
def withoutTrailingZeros (digits : List Char) : List Char :=
  (digits.reverse.dropWhile (· == '0')).reverse

/-- Digits with their first in the place of ones, and a power of ten. -/
def scientific (digits : List Char) (first : Int) : List Char :=
  let fraction := if digits.length ≤ 1 then [] else '.' :: digits.drop 1
  let sign := if first < 0 then '-' else '+'
  digits.take 1 ++ fraction ++ ['e', sign] ++ decimalDigits first.natAbs

/-- Digits with their first in the given place, written out with a point. There is always a digit
on either side of the point. -/
def positional (digits : List Char) (first : Int) : List Char :=
  if first < 0 then ['0', '.'] ++ List.replicate (first.natAbs - 1) '0' ++ digits
  else
    let count := first.toNat + 1
    let fraction := digits.drop count
    (digits.take count).rightpad count '0' ++ ['.'] ++ if fraction.isEmpty then ['0'] else fraction

/-- A decimal as it is written: with a power of ten if it is below a hundred-thousandth or has
more than sixteen places before the point. -/
def Decimal.text (d : Decimal) : List Char :=
  let digits := decimalDigits d.digits
  let first := d.place + digits.length - 1
  let shown := withoutTrailingZeros digits
  if first < -5 ∨ 15 < first then scientific shown first else positional shown first

/-- A floating number as it is written. -/
def Floating.text (f : Floating) : List Char :=
  if f.isZero then ['0', '.', '0'] else f.shortest.text

end Chip8
