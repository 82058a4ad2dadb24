/-!
# Floating point

A floating number is a whole number of at most fifty-three binary digits times a power of two.
Fractions are exact; `nearest` is the one place where a number is rounded:

* it keeps the closest floating number, and of two that are equally close the even one;
* products and quotients are exact as fractions and rounded once.

Numbers are not negative here: a sign stands beside a number and never changes its digits.
-/

namespace Chip8

/-- The number `num / den`. -/
structure Ratio where
  num : Nat
  den : Nat
  deriving DecidableEq, Repr

/-- The number `significand * 2 ^ exponent`. -/
structure Floating where
  significand : Nat
  exponent : Int
  deriving DecidableEq, Repr

namespace Ratio

/-- The number times a power of `base`. -/
def scaled (r : Ratio) (base : Nat) : Int → Ratio
  | .ofNat k => ⟨r.num * Nat.pow base k, r.den⟩
  | .negSucc k => ⟨r.num, r.den * Nat.pow base (k + 1)⟩

/-- The greatest whole number that is not above the number. -/
def floor (r : Ratio) : Nat := r.num / r.den

/-- The closest whole number; halfway between two it is the even one. -/
def round (r : Ratio) : Nat :=
  if 2 * (r.num % r.den) < r.den ∨ (2 * (r.num % r.den) = r.den ∧ r.floor % 2 = 0) then r.floor
  else r.floor + 1

/-- The place of the first digit in `base`: the greatest power that is not above the number. -/
def leading (r : Ratio) (base : Nat) : Int :=
  let guess : Int := (Nat.toDigits base r.num).length - (Nat.toDigits base r.den).length
  let rest := r.scaled base (-guess)
  if rest.num < rest.den then guess - 1 else guess

/-- The closest floating number: it has fifty-three digits, and fewer only if the last of them
would stand below the place `-1074`. -/
def nearest (r : Ratio) : Floating :=
  let place := r.leading 2 - 52
  let exponent := if place < -1074 then -1074 else place
  let significand := (r.scaled 2 (-exponent)).round
  if significand = 1 <<< 53 then ⟨1 <<< 52, exponent + 1⟩ else ⟨significand, exponent⟩

end Ratio

namespace Floating

/-- The floating number closest to a whole number. -/
def ofNat (n : Nat) : Floating := Ratio.nearest ⟨n, 1⟩

/-- The same number as a fraction. -/
def ratio (f : Floating) : Ratio := Ratio.scaled ⟨f.significand, 1⟩ 2 f.exponent

/-- Whether the number is zero. -/
def isZero (f : Floating) : Bool := f.significand == 0

/-- Whether the number is below `2 ^ 1024`. -/
def isFinite (f : Floating) : Bool := f.exponent ≤ 971

/-- The product, rounded. -/
def times (f g : Floating) : Floating :=
  Ratio.nearest ⟨f.ratio.num * g.ratio.num, f.ratio.den * g.ratio.den⟩

/-- The quotient, rounded. -/
def dividedBy (f g : Floating) : Floating :=
  Ratio.nearest ⟨f.ratio.num * g.ratio.den, f.ratio.den * g.ratio.num⟩

/-- The floating number closest to a power of ten. -/
def tenTo (k : Nat) : Floating := ofNat (Nat.pow 10 k)

end Floating

end Chip8
