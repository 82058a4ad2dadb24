import Chip8.Instruction.Word
import Chip8.Memory.Font
import Chip8.Screen.Basic

/-!
# The machine

The machine has memory, a stack of sixteen return addresses, sixteen byte registers, an
index register, a program counter, two timers, a screen, sixteen keys, eight saved
registers, and a count of the instructions that it carried out. While it waits for a key
it knows the register that the key will go to.

`sp` is the number of addresses on the stack. Slots from `sp` on keep what they held.
-/

namespace Chip8

/-- The whole state of a machine. -/
structure Machine where
  memory : Memory
  stack : Vector UInt16 16
  sp : Nat
  pc : UInt16
  i : UInt16
  v : Vector UInt8 16
  delay : UInt8
  sound : UInt8
  rpl : Vector UInt8 8
  screen : Screen
  keys : Vector Bool 16
  waiting : Option Nibble
  cycle : Nat
  deriving DecidableEq

/-- Where programs begin unless told otherwise. -/
def programStart : UInt16 := 0x200

/-- The highest address at which a whole instruction fits into memory. -/
def lastInstruction : UInt16 := 0xffe

namespace Machine

/-- A machine with nothing loaded and given keys and saved registers. -/
def idle (keys : Vector Bool 16) (rpl : Vector UInt8 8) : Machine where
  memory := Memory.fresh
  stack := Vector.replicate 16 0
  sp := 0
  pc := programStart
  i := 0
  v := Vector.replicate 16 0
  delay := 0
  sound := 0
  rpl := rpl
  screen := Screen.blank .standard
  keys := keys
  waiting := none
  cycle := 0

/-- A new machine: no key is held and no register is saved. -/
def fresh : Machine := idle (Vector.replicate 16 false) (Vector.replicate 8 0)

/-- Starts over. Held keys and saved registers stay. -/
def reset (m : Machine) : Machine := idle m.keys m.rpl

/-- Copies a program into memory at `address`. A program that would reach past the end of
memory is refused before memory is asked. -/
def load (m : Machine) (program : List UInt8) (address : UInt16) : Except Fault Machine := do
  if 4096 < program.length + address.toNat then
    throw (.romTooLarge program.length address)
  let memory ← m.memory.load address program
  return { m with memory }

/-! ## Keys -/

/-- Presses a key and tells whether that changed anything. A fresh press ends a wait for a
key: the key's number goes to the register that waits. -/
def press (m : Machine) (key : Nat) : Except Fault (Machine × Bool) :=
  if h : key < 16 then
    if m.keys[key] then .ok (m, false)
    else
      let held := { m with keys := m.keys.set key true }
      match m.waiting with
      | none => .ok (held, true)
      | some r => .ok ({ held with v := setNibble m.v r key.toUInt8, waiting := none }, true)
  else .error (.invalidKey key)

/-- Lets go of a key and tells whether that changed anything. -/
def release (m : Machine) (key : Nat) : Except Fault (Machine × Bool) :=
  if h : key < 16 then .ok ({ m with keys := m.keys.set key false }, m.keys[key])
  else .error (.invalidKey key)

/-- Whether the machine waits for a key. -/
def isWaiting (m : Machine) : Bool := m.waiting.isSome

/-! ## Registers, memory and timers -/

/-- Puts a byte into the register that the last digit of `r` numbers. -/
def setV (m : Machine) (r : Nat) (b : UInt8) : Machine :=
  { m with v := setNibble m.v (Fin.ofNat 16 r) b }

/-- The word at an address. -/
def readWord (m : Machine) (address : UInt16) : Except Stop UInt16 :=
  m.memory.readWord address.toNat

/-- Puts a word at an address. -/
def writeWord (m : Machine) (address word : UInt16) : Except Stop Machine := do
  let memory ← m.memory.writeWord address.toNat word
  return { m with memory }

/-- A timer after `n` ticks. It stops at zero. -/
def countDown (n : Nat) (timer : UInt8) : UInt8 := (timer.toNat - n).toUInt8

/-- Both timers after `n` ticks. -/
def passTime (m : Machine) (n : Nat) : Machine :=
  { m with delay := countDown n m.delay, sound := countDown n m.sound }

/-- Both timers one tick later. -/
def tickTimers (m : Machine) : Machine := m.passTime 1

end Machine

end Chip8
