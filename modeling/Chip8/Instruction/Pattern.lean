import Chip8.Instruction.Word
import Chip8.Text.Numeral

/-!
# Patterns

A pattern gives for each of the four digits of a word either the digit or nothing, and
matches the words that agree with it where it gives a digit. It is written as four
characters, of which the hexadecimal digits stand for themselves and all others for
operands; printed, an operand is an underscore.
-/

namespace Chip8

/-- A digit or nothing for each of four places. -/
structure Pattern where
  slots : Vector (Option Nibble) 4
  deriving DecidableEq, Repr

namespace Pattern

open Text

/-- The pattern that a text of four characters stands for. -/
def parse? (text : String) : Option Pattern :=
  match text.toList with
  | [a, b, c, d] => some ⟨#v[digit? a, digit? b, digit? c, digit? d]⟩
  | _ => none

/-- The four places in order. -/
def toList (p : Pattern) : List (Option Nibble) := p.slots.toList

/-- Whether a word agrees with the pattern. -/
def accepts (p : Pattern) (word : UInt16) : Bool :=
  (p.toList.zip (nibbles word)).all fun (slot, digit) => slot.all (· == digit)

/-- The word with `filler` for every operand. -/
def fill (p : Pattern) (filler : Nibble) : UInt16 :=
  (p.toList.foldl (fun (number : Nat) slot => 16 * number + (slot.getD filler).val) 0).toUInt16

/-- The word with all operands zero. -/
def least (p : Pattern) : UInt16 := p.fill 0

/-- The word with all operands `F`. -/
def greatest (p : Pattern) : UInt16 := p.fill 15

/-- The character for one place. -/
def slotText : Option Nibble → String
  | some digit => upperHex 1 digit.val
  | none => "_"

/-- The pattern as four characters. -/
def text (p : Pattern) : String := String.join (p.toList.map slotText)

end Pattern

end Chip8
