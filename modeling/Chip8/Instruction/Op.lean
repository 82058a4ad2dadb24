import Chip8.Instruction.Pattern

/-!
# The instruction set

There are 44 instructions, 35 of the first machine and nine of its larger successor,
each with a name and the pattern of the words that stand for it. Patterns may overlap:
every word that begins with `0` is a machine call unless a more definite pattern claims it.
-/

namespace Chip8

/-- The instructions, in the order in which they are usually listed. -/
inductive Op where
  /-- Turns every pixel off. -/
  | cls
  /-- Returns from a subroutine. -/
  | ret
  /-- Calls a machine routine, of which there are none: does nothing. -/
  | sys
  /-- Jumps to an address. -/
  | jp
  /-- Calls the subroutine at an address. -/
  | call
  /-- Skips an instruction if a register equals a byte. -/
  | seVxKk
  /-- Skips an instruction if a register differs from a byte. -/
  | sneVxKk
  /-- Skips an instruction if two registers are equal. -/
  | seVxVy
  /-- Puts a byte into a register. -/
  | ldVxKk
  /-- Adds a byte to a register, without a flag. -/
  | addVxKk
  /-- Copies a register. -/
  | ldVxVy
  /-- Joins two registers bit by bit. -/
  | orVxVy
  /-- Meets two registers bit by bit. -/
  | andVxVy
  /-- Tells two registers apart bit by bit. -/
  | xorVxVy
  /-- Adds two registers; the flag is the carry. -/
  | addVxVy
  /-- Subtracts the second register; the flag tells that nothing was borrowed. -/
  | subVxVy
  /-- Halves a register; the flag is the bit shifted out. -/
  | shrVx
  /-- Subtracts the first register from the second; the flag tells that nothing was borrowed. -/
  | subnVxVy
  /-- Doubles a register; the flag is the bit shifted out. -/
  | shlVx
  /-- Skips an instruction if two registers differ. -/
  | sneVxVy
  /-- Puts an address into the index register. -/
  | ldIAddr
  /-- Jumps to an address plus register 0. -/
  | jpV0Addr
  /-- Puts a random byte, masked, into a register. -/
  | rndVxKk
  /-- Draws a sprite from memory; the flag tells of a lit pixel that went off. -/
  | drwVxVyN
  /-- Skips an instruction if a key is held. -/
  | skpVx
  /-- Skips an instruction if a key is not held. -/
  | sknpVx
  /-- Reads the delay timer. -/
  | ldVxDt
  /-- Waits for a key. -/
  | ldVxK
  /-- Sets the delay timer. -/
  | ldDtVx
  /-- Sets the sound timer. -/
  | ldStVx
  /-- Adds a register to the index register. -/
  | addIVx
  /-- Points the index register at a small digit. -/
  | ldFVx
  /-- Writes a register as three decimal digits. -/
  | ldBVx
  /-- Writes registers to memory. -/
  | ldMemVx
  /-- Reads registers from memory. -/
  | ldVxMem
  /-- Scrolls down. -/
  | scd
  /-- Scrolls right by four columns. -/
  | scr
  /-- Scrolls left by four columns. -/
  | scl
  /-- Ends the program. -/
  | exit
  /-- Goes over to the small screen. -/
  | low
  /-- Goes over to the large screen. -/
  | high
  /-- Points the index register at a large digit. -/
  | ldHfVx
  /-- Saves registers as flags. -/
  | ldRVx
  /-- Restores registers from flags. -/
  | ldVxR
  deriving DecidableEq, Repr

namespace Op

/-- Every instruction, in order. -/
def all : List Op :=
  [.cls, .ret, .sys, .jp, .call, .seVxKk, .sneVxKk, .seVxVy, .ldVxKk, .addVxKk, .ldVxVy, .orVxVy,
   .andVxVy, .xorVxVy, .addVxVy, .subVxVy, .shrVx, .subnVxVy, .shlVx, .sneVxVy, .ldIAddr,
   .jpV0Addr, .rndVxKk, .drwVxVyN, .skpVx, .sknpVx, .ldVxDt, .ldVxK, .ldDtVx, .ldStVx, .addIVx,
   .ldFVx, .ldBVx, .ldMemVx, .ldVxMem, .scd, .scr, .scl, .exit, .low, .high, .ldHfVx, .ldRVx,
   .ldVxR]

/-- The name of an instruction. -/
def name : Op → String
  | cls => "Cls"
  | ret => "Ret"
  | sys => "Sys"
  | jp => "Jp"
  | call => "Call"
  | seVxKk => "SeVxKk"
  | sneVxKk => "SneVxKk"
  | seVxVy => "SeVxVy"
  | ldVxKk => "LdVxKk"
  | addVxKk => "AddVxKk"
  | ldVxVy => "LdVxVy"
  | orVxVy => "OrVxVy"
  | andVxVy => "AndVxVy"
  | xorVxVy => "XorVxVy"
  | addVxVy => "AddVxVy"
  | subVxVy => "SubVxVy"
  | shrVx => "ShrVx"
  | subnVxVy => "SubnVxVy"
  | shlVx => "ShlVx"
  | sneVxVy => "SneVxVy"
  | ldIAddr => "LdIAddr"
  | jpV0Addr => "JpV0Addr"
  | rndVxKk => "RndVxKk"
  | drwVxVyN => "DrwVxVyN"
  | skpVx => "SkpVx"
  | sknpVx => "SknpVx"
  | ldVxDt => "LdVxDt"
  | ldVxK => "LdVxK"
  | ldDtVx => "LdDtVx"
  | ldStVx => "LdStVx"
  | addIVx => "AddIVx"
  | ldFVx => "LdFVx"
  | ldBVx => "LdBVx"
  | ldMemVx => "LdMemVx"
  | ldVxMem => "LdVxMem"
  | scd => "Scd"
  | scr => "Scr"
  | scl => "Scl"
  | exit => "Exit"
  | low => "Low"
  | high => "High"
  | ldHfVx => "LdHfVx"
  | ldRVx => "LdRVx"
  | ldVxR => "LdVxR"

/-- The instruction with a given name. -/
def ofName? (name : String) : Option Op := all.find? fun op => op.name == name

/-- The words that stand for an instruction: its fixed digits. -/
def pattern : Op → Pattern
  | cls => ⟨#v[some 0x0, some 0x0, some 0xe, some 0x0]⟩
  | ret => ⟨#v[some 0x0, some 0x0, some 0xe, some 0xe]⟩
  | sys => ⟨#v[some 0x0, none, none, none]⟩
  | jp => ⟨#v[some 0x1, none, none, none]⟩
  | call => ⟨#v[some 0x2, none, none, none]⟩
  | seVxKk => ⟨#v[some 0x3, none, none, none]⟩
  | sneVxKk => ⟨#v[some 0x4, none, none, none]⟩
  | seVxVy => ⟨#v[some 0x5, none, none, some 0x0]⟩
  | ldVxKk => ⟨#v[some 0x6, none, none, none]⟩
  | addVxKk => ⟨#v[some 0x7, none, none, none]⟩
  | ldVxVy => ⟨#v[some 0x8, none, none, some 0x0]⟩
  | orVxVy => ⟨#v[some 0x8, none, none, some 0x1]⟩
  | andVxVy => ⟨#v[some 0x8, none, none, some 0x2]⟩
  | xorVxVy => ⟨#v[some 0x8, none, none, some 0x3]⟩
  | addVxVy => ⟨#v[some 0x8, none, none, some 0x4]⟩
  | subVxVy => ⟨#v[some 0x8, none, none, some 0x5]⟩
  | shrVx => ⟨#v[some 0x8, none, none, some 0x6]⟩
  | subnVxVy => ⟨#v[some 0x8, none, none, some 0x7]⟩
  | shlVx => ⟨#v[some 0x8, none, none, some 0xe]⟩
  | sneVxVy => ⟨#v[some 0x9, none, none, some 0x0]⟩
  | ldIAddr => ⟨#v[some 0xa, none, none, none]⟩
  | jpV0Addr => ⟨#v[some 0xb, none, none, none]⟩
  | rndVxKk => ⟨#v[some 0xc, none, none, none]⟩
  | drwVxVyN => ⟨#v[some 0xd, none, none, none]⟩
  | skpVx => ⟨#v[some 0xe, none, some 0x9, some 0xe]⟩
  | sknpVx => ⟨#v[some 0xe, none, some 0xa, some 0x1]⟩
  | ldVxDt => ⟨#v[some 0xf, none, some 0x0, some 0x7]⟩
  | ldVxK => ⟨#v[some 0xf, none, some 0x0, some 0xa]⟩
  | ldDtVx => ⟨#v[some 0xf, none, some 0x1, some 0x5]⟩
  | ldStVx => ⟨#v[some 0xf, none, some 0x1, some 0x8]⟩
  | addIVx => ⟨#v[some 0xf, none, some 0x1, some 0xe]⟩
  | ldFVx => ⟨#v[some 0xf, none, some 0x2, some 0x9]⟩
  | ldBVx => ⟨#v[some 0xf, none, some 0x3, some 0x3]⟩
  | ldMemVx => ⟨#v[some 0xf, none, some 0x5, some 0x5]⟩
  | ldVxMem => ⟨#v[some 0xf, none, some 0x6, some 0x5]⟩
  | scd => ⟨#v[some 0x0, some 0x0, some 0xc, none]⟩
  | scr => ⟨#v[some 0x0, some 0x0, some 0xf, some 0xb]⟩
  | scl => ⟨#v[some 0x0, some 0x0, some 0xf, some 0xc]⟩
  | exit => ⟨#v[some 0x0, some 0x0, some 0xf, some 0xd]⟩
  | low => ⟨#v[some 0x0, some 0x0, some 0xf, some 0xe]⟩
  | high => ⟨#v[some 0x0, some 0x0, some 0xf, some 0xf]⟩
  | ldHfVx => ⟨#v[some 0xf, none, some 0x3, some 0x0]⟩
  | ldRVx => ⟨#v[some 0xf, none, some 0x7, some 0x5]⟩
  | ldVxR => ⟨#v[some 0xf, none, some 0x8, some 0x5]⟩

end Op

end Chip8
