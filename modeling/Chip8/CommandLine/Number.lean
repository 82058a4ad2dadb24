import Chip8.Text.Numeral

/-!
# Numbers in arguments

A number in an argument is a row of digits, perhaps after a plus sign, and below a limit.
It is read from left to right up to the first thing that is wrong with it.
-/

namespace Chip8.CommandLine

/-- What is wrong with a number. -/
inductive NumberError where
  | empty
  | invalidDigit
  | tooLarge
  deriving DecidableEq, Repr

/-- The message for people. -/
def NumberError.message : NumberError → String
  | empty => "cannot parse integer from empty string"
  | invalidDigit => "invalid digit found in string"
  | tooLarge => "number too large to fit in target type"

/-- The number that `sofar` becomes with more digits behind it. -/
def readDigits (base limit sofar : Nat) : List Char → Except NumberError Nat
  | [] => .ok sofar
  | c :: rest =>
    match Text.digit? c with
    | none => .error .invalidDigit
    | some d =>
      if base ≤ d.val then .error .invalidDigit
      else if limit ≤ base * sofar + d.val then .error .tooLarge
      else readDigits base limit (base * sofar + d.val) rest

/-- The number below `limit` that a word stands for. A sign alone is no number. -/
def readNumber (base limit : Nat) (word : String) : Except NumberError Nat :=
  match word.toList with
  | [] => .error .empty
  | ['+'] => .error .invalidDigit
  | '+' :: digits => readDigits base limit 0 digits
  | digits => readDigits base limit 0 digits

end Chip8.CommandLine
