import Chip8.Text.Numeral

/-!
# Instruction words

An instruction is a word of 16 bits, that is, four hexadecimal digits. Some digits name
the instruction, the others are its operands. Every operand form is read from every word,
and an instruction uses those that it knows.
-/

namespace Chip8

/-- A hexadecimal digit, which also numbers a register or a key. -/
abbrev Nibble := Fin 16

/-- Sixteen things with the one that a digit stands for replaced. -/
def setNibble {α : Type} (things : Vector α 16) (d : Nibble) (a : α) : Vector α 16 :=
  things.set d.val a d.isLt

/-- Of sixteen things, the one that a digit stands for. -/
theorem get_nibble {α : Type} (things : Vector α 16) (d : Nibble) :
    things.get d = things[d.val] := rfl

theorem get_setNibble {α : Type} (things : Vector α 16) (d e : Nibble) (a : α) :
    (setNibble things d a).get e = if d = e then a else things.get e := by
  simp [setNibble, get_nibble, Vector.getElem_set, Fin.ext_iff]

/-- The digit of `word` at `place`, counted from 0 for the last one. -/
def nibble (word : UInt16) (place : Nat) : Nibble := Fin.ofNat 16 (word.toNat >>> (4 * place))

/-- The four digits of a word, first digit first. -/
def nibbles (word : UInt16) : List Nibble :=
  [nibble word 3, nibble word 2, nibble word 1, nibble word 0]

theorem nibble_val (word : UInt16) (place : Nat) :
    (nibble word place).val = word.toNat >>> (4 * place) % 16 := rfl

/-- A word is made of its digits. -/
theorem toNat_eq_nibbles (word : UInt16) :
    word.toNat = 4096 * (nibble word 3).val + 256 * (nibble word 2).val +
      16 * (nibble word 1).val + (nibble word 0).val := by
  have hlt : word.toNat < 65536 := word.toNat_lt
  simp only [nibble_val, Nat.shiftRight_eq_div_pow]
  omega

/-- What an instruction may work on. -/
structure Operands where
  /-- An address: the last three digits. -/
  nnn : UInt16 := 0
  /-- A register: the second digit. -/
  x : Nibble := 0
  /-- A register: the third digit. -/
  y : Nibble := 0
  /-- A byte: the last two digits. -/
  kk : UInt8 := 0
  /-- A small number: the last digit. -/
  n : UInt8 := 0
  deriving DecidableEq, Repr

/-- The operands in a word. -/
def Operands.ofWord (word : UInt16) : Operands where
  nnn := word &&& 0xfff
  x := nibble word 2
  y := nibble word 1
  kk := word.toUInt8
  n := (nibble word 0).val.toUInt8

theorem Operands.nnn_toNat (word : UInt16) : (ofWord word).nnn.toNat = word.toNat % 4096 := by
  have hmask : (0xfff : UInt16).toNat = 2 ^ 12 - 1 := rfl
  change (word &&& 0xfff).toNat = _
  rw [UInt16.toNat_and, hmask, Nat.and_two_pow_sub_one_eq_mod]

theorem Operands.kk_toNat (word : UInt16) : (ofWord word).kk.toNat = word.toNat % 256 :=
  UInt16.toNat_toUInt8 word

end Chip8
