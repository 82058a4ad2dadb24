import Chip8.Instruction.Op
import Chip8.Text.Column

/-!
# Mnemonics

The text of an instruction is its mnemonic, alone or at the left of a column of five
characters with its operands behind it. Registers are one capital digit after `V`,
numbers are hexadecimal after `0x`. The two shifts show the second register of the word
as well, which they do not use.
-/

namespace Chip8

open Text

namespace Operands

/-- A register's name. -/
def registerText (r : Nibble) : String := "V" ++ upperHex 1 r.val

/-- The address, three digits. -/
def nnnText (o : Operands) : String := "0x" ++ upperHex 3 o.nnn.toNat

/-- The first register. -/
def xText (o : Operands) : String := registerText o.x

/-- The second register. -/
def yText (o : Operands) : String := registerText o.y

/-- The byte, two digits. -/
def kkText (o : Operands) : String := "0x" ++ upperHex 2 o.kk.toNat

/-- The small number, one digit. -/
def nText (o : Operands) : String := "0x" ++ upperHex 1 o.n.toNat

end Operands

/-- A mnemonic with operands. -/
def instructionText (mnemonic : String) (operands : List String) : String :=
  atLeft 5 mnemonic ++ String.intercalate ", " operands

/-- A shift, with the unused register in braces. -/
def shiftText (mnemonic : String) (o : Operands) : String :=
  atLeft 5 mnemonic ++ o.xText ++ " \x7b, " ++ o.yText ++ "\x7d"

/-- The text of an instruction with its operands. -/
def Op.mnemonic (op : Op) (o : Operands) : String :=
  match op with
  | cls => "CLS"
  | ret => "RET"
  | sys => instructionText "SYS" [o.nnnText]
  | jp => instructionText "JP" [o.nnnText]
  | call => instructionText "CALL" [o.nnnText]
  | seVxKk => instructionText "SE" [o.xText, o.kkText]
  | sneVxKk => instructionText "SNE" [o.xText, o.kkText]
  | seVxVy => instructionText "SE" [o.xText, o.yText]
  | ldVxKk => instructionText "LD" [o.xText, o.kkText]
  | addVxKk => instructionText "ADD" [o.xText, o.kkText]
  | ldVxVy => instructionText "LD" [o.xText, o.yText]
  | orVxVy => instructionText "OR" [o.xText, o.yText]
  | andVxVy => instructionText "AND" [o.xText, o.yText]
  | xorVxVy => instructionText "XOR" [o.xText, o.yText]
  | addVxVy => instructionText "ADD" [o.xText, o.yText]
  | subVxVy => instructionText "SUB" [o.xText, o.yText]
  | shrVx => shiftText "SHR" o
  | subnVxVy => instructionText "SUBN" [o.xText, o.yText]
  | shlVx => shiftText "SHL" o
  | sneVxVy => instructionText "SNE" [o.xText, o.yText]
  | ldIAddr => instructionText "LD" ["I", o.nnnText]
  | jpV0Addr => instructionText "JP" ["V0", o.nnnText]
  | rndVxKk => instructionText "RND" [o.xText, o.kkText]
  | drwVxVyN => instructionText "DRW" [o.xText, o.yText, o.nText]
  | skpVx => instructionText "SKP" [o.xText]
  | sknpVx => instructionText "SKNP" [o.xText]
  | ldVxDt => instructionText "LD" [o.xText, "DT"]
  | ldVxK => instructionText "LD" [o.xText, "K"]
  | ldDtVx => instructionText "LD" ["DT", o.xText]
  | ldStVx => instructionText "LD" ["ST", o.xText]
  | addIVx => instructionText "ADD" ["I", o.xText]
  | ldFVx => instructionText "LD" ["F", o.xText]
  | ldBVx => instructionText "LD" ["B", o.xText]
  | ldMemVx => instructionText "LD" ["[I]", o.xText]
  | ldVxMem => instructionText "LD" [o.xText, "[I]"]
  | scd => instructionText "SCD" [o.nText]
  | scr => "SCR"
  | scl => "SCL"
  | exit => "EXIT"
  | low => "LOW"
  | high => "HIGH"
  | ldHfVx => instructionText "LD" ["HF", o.xText]
  | ldRVx => instructionText "LD" ["R", o.xText]
  | ldVxR => instructionText "LD" [o.xText, "R"]

end Chip8
