import Chip8.Data.Basic

/-!
# Numerals in data

A numeral has a sign, digits before the point, perhaps digits behind it, and perhaps a power of
ten. Without the last two it is a whole number if it fits into sixty-four bits, with or without a
sign; everything else, minus zero included, is a floating number.

A floating number is read in two roundings. The first digits, as many as fit into sixty-four
bits, make a whole number; that number and the power of ten are rounded each by itself, and their
product or quotient once more. So a numeral does not always lead to the floating number that is
closest to it.
-/

namespace Chip8

namespace Data

/-- The parts of a numeral. -/
structure Numeral where
  negative : Bool
  whole : List Char
  /-- The digits behind the point, if there is a point. -/
  fraction : Option (List Char)
  /-- The power of ten, if there is one. -/
  power : Option Int
  deriving DecidableEq, Repr

/-- The value of a digit. -/
def digitValue (c : Char) : Nat := c.toNat - '0'.toNat

/-- The number that digits stand for. -/
def digitsValue (digits : List Char) : Nat :=
  digits.foldl (fun n c => 10 * n + digitValue c) 0

/-- Continues a number with digits as long as it stays below `2 ^ 64`: the number, and the digits
that are left over. -/
def fitDigits (n : Nat) : List Char → Nat × List Char
  | [] => (n, [])
  | c :: rest =>
    let next := 10 * n + digitValue c
    if next < UInt64.size then fitDigits next rest else (n, c :: rest)

/-- The digits at the start of a text, if there are any, and what follows them. -/
def takeDigits? (text : List Char) : Option (List Char × List Char) :=
  match text.takeWhile Char.isDigit, text.dropWhile Char.isDigit with
  | [], _ => none
  | digits, rest => some (digits, rest)

/-- A power of ten at the start of a text, if there is one. -/
def takePower? : List Char → Option (Option Int × List Char)
  | c :: rest =>
    if c = 'e' ∨ c = 'E' then do
      let (negative, rest) := match rest with
        | '-' :: rest => (true, rest)
        | '+' :: rest => (false, rest)
        | rest => (false, rest)
      let (digits, rest) ← takeDigits? rest
      let n : Int := digitsValue digits
      return (some (if negative then -n else n), rest)
    else some (none, c :: rest)
  | [] => some (none, [])

/-- Digits behind a point at the start of a text, if there is a point. -/
def takeFraction? : List Char → Option (Option (List Char) × List Char)
  | '.' :: rest => do
    let (digits, rest) ← takeDigits? rest
    return (some digits, rest)
  | rest => some (none, rest)

/-- The parts of a numeral. A number of several digits does not start with zero. -/
def Numeral.parse? (text : List Char) : Option Numeral := do
  let (negative, text) := match text with
    | '-' :: rest => (true, rest)
    | rest => (false, rest)
  let (whole, text) ← takeDigits? text
  let (fraction, text) ← takeFraction? text
  let (power, text) ← takePower? text
  if text.isEmpty ∧ (whole.head? ≠ some '0' ∨ whole.length = 1) then
    return { negative, whole, fraction, power }
  else none

/-- The number `f / 10 ^ k`. Powers above the three hundred and eighth are divided off first. -/
def downByTenTo (f : Floating) (k : Nat) : Floating :=
  if 308 < k ∧ ¬ f.isZero then downByTenTo (f.dividedBy (Floating.tenTo 308)) (k - 308)
  else if f.isZero then f
  else f.dividedBy (Floating.tenTo k)
  termination_by k

/-- The floating number read from a whole number and a power of ten, unless it is too large. -/
def readScaled? (n : Nat) (power : Int) : Option Floating :=
  let f := Floating.ofNat n
  if power < 0 then some (downByTenTo f power.natAbs)
  else if f.isZero then some f
  else if 308 < power then none
  else
    let product := f.times (Floating.tenTo power.toNat)
    if product.isFinite then some product else none

namespace Numeral

/-- The floating number that a numeral stands for, without its sign, unless it is too large. -/
def floating? (m : Numeral) : Option Floating :=
  let fraction := m.fraction.getD []
  let (n, cut) := fitDigits 0 m.whole
  let (n, rest) := fitDigits n fraction
  let taken := fraction.length - rest.length
  readScaled? n (m.power.getD 0 + cut.length - taken)

/-- The whole number that a numeral stands for, if it is written as one and fits into sixty-four
bits. -/
def integer? (m : Numeral) : Option Int :=
  match m.fraction, m.power, fitDigits 0 m.whole with
  | none, none, (n, []) =>
    if m.negative then if 0 < n ∧ 2 * n ≤ UInt64.size then some (-(n : Int)) else none
    else some n
  | _, _, _ => none

/-- The data that a numeral stands for, unless it is too large for a floating number. -/
def data? (m : Numeral) : Option Data :=
  match m.integer? with
  | some n => some (integer n)
  | none => m.floating?.map (real m.negative)

end Numeral

/-- The data that a text stands for as a numeral. -/
def ofNumeral? (text : String) : Option Data :=
  (Numeral.parse? text.toList).bind Numeral.data?

end Data

end Chip8
