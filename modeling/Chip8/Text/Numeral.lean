/-!
# Numerals

Numbers appear in three forms: in decimal, and in hexadecimal with small or with
capital letters. A hexadecimal numeral has a least width and is filled up with
zeros on the left; a number that needs more digits is written in full, never cut.
-/

namespace Chip8.Text

/-- The decimal digits of `n`, without leading zeros. -/
def decimalDigits (n : Nat) : List Char := Nat.toDigits 10 n

/-- The hexadecimal digits of `n` with small letters, at least `width` of them. -/
def hexDigits (width n : Nat) : List Char := (Nat.toDigits 16 n).leftpad width '0'

/-- `n` in decimal. -/
def decimal (n : Nat) : String := String.ofList (decimalDigits n)

/-- `n` in hexadecimal with small letters, at least `width` digits. -/
def lowerHex (width n : Nat) : String := String.ofList (hexDigits width n)

/-- `n` in hexadecimal with capital letters, at least `width` digits. -/
def upperHex (width n : Nat) : String := String.ofList ((hexDigits width n).map Char.toUpper)

/-- Base sixteen has a digit zero. -/
instance neZero_sixteen : @NeZero Nat Zero.ofOfNat0 16 := ⟨Nat.succ_ne_zero 15⟩

/-- The digit that a character stands for, in either case of letter. -/
def digit? (c : Char) : Option (Fin 16) :=
  if '0' ≤ c ∧ c ≤ '9' then some (Fin.ofNat 16 (c.toNat - '0'.toNat))
  else if 'a' ≤ c ∧ c ≤ 'f' then some (Fin.ofNat 16 (c.toNat - 'a'.toNat + 10))
  else if 'A' ≤ c ∧ c ≤ 'F' then some (Fin.ofNat 16 (c.toNat - 'A'.toNat + 10))
  else none

theorem le_length_hexDigits (width n : Nat) : width ≤ (hexDigits width n).length := by
  simp [hexDigits, List.leftpad]
  omega

end Chip8.Text
