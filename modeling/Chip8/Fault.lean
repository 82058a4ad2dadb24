import Chip8.Text.Numeral
import Chip8.Text.Record

/-!
# Faults

A fault is something that a program or a caller asked for and the machine does not
carry out. Every fault has a message for people, a one-line description that shows its
parts, and a weight: a *fatal* fault ends the running program, the others are
complaints about a request from outside.

Apart from faults there is the `crash`: a sum that no longer fits the bits it is held in, or
an index or a block outside its array. Nothing sensible comes after it, so it carries nothing.
-/

namespace Chip8

/-- What a program or a caller asked for in vain. -/
inductive Fault where
  /-- A program of `length` bytes does not fit into memory at `address`. -/
  | romTooLarge (length : Nat) (address : UInt16)
  /-- No instruction matches `word`, fetched from `address`. -/
  | unimplementedInstruction (word address : UInt16)
  /-- A call at `address` found all sixteen stack slots taken. -/
  | stackOverflow (address : UInt16)
  /-- A return at `address` found the stack empty. -/
  | stackUnderflow (address : UInt16)
  /-- The instruction at `address` set the program counter to `counter`, where none fits. -/
  | programCounterOutOfRange (counter address : UInt16)
  /-- The program ended itself at `address`. -/
  | exited (address : UInt16)
  /-- There is no key with this number. -/
  | invalidKey (key : Nat)
  /-- No clock runs at this many instructions a second. -/
  | invalidClockSpeed (speed : UInt32)
  /-- The `length` bytes from `address` on are not all in memory. -/
  | invalidAddressRange (address length : Nat)
  deriving DecidableEq, Repr

namespace Fault

open Text

/-- The message for people. -/
def message : Fault → String
  | romTooLarge length address =>
    "rom of " ++ decimal length ++ " bytes does not fit in memory at " ++ lowerHex 3 address.toNat
  | unimplementedInstruction word address =>
    "opcode " ++ lowerHex 4 word.toNat ++ " at " ++ lowerHex 3 address.toNat ++ " not recognized"
  | stackOverflow address =>
    "stack overflow: call at " ++ lowerHex 3 address.toNat ++ " with a full stack"
  | stackUnderflow address =>
    "stack underflow: ret at " ++ lowerHex 3 address.toNat ++ " with an empty stack"
  | programCounterOutOfRange counter address =>
    "program counter " ++ lowerHex 4 counter.toNat ++ " out of range after instruction at "
      ++ lowerHex 3 address.toNat
  | exited address => "program exited at " ++ lowerHex 3 address.toNat
  | invalidKey key => "tried to press key " ++ upperHex 1 key ++ " which does not exist"
  | invalidClockSpeed speed =>
    "clock speed " ++ decimal speed.toNat ++ " is not a valid number of cycles per second"
  | invalidAddressRange address length =>
    "range " ++ lowerHex 4 address ++ "+" ++ decimal length ++ " is not present in memory"

/-- The one-line description, with every part in decimal. -/
def describe : Fault → String
  | romTooLarge length address =>
    record "RomTooLarge" [("len", decimal length), ("addr", decimal address.toNat)]
  | unimplementedInstruction word address =>
    record "UnimplementedInstruction"
      [("word", decimal word.toNat), ("addr", decimal address.toNat)]
  | stackOverflow address => record "StackOverflow" [("addr", decimal address.toNat)]
  | stackUnderflow address => record "StackUnderflow" [("addr", decimal address.toNat)]
  | programCounterOutOfRange counter address =>
    record "ProgramCounterOutOfRange"
      [("pc", decimal counter.toNat), ("addr", decimal address.toNat)]
  | exited address => record "Exited" [("addr", decimal address.toNat)]
  | invalidKey key => record "InvalidKey" [("key", decimal key)]
  | invalidClockSpeed speed => record "InvalidClockSpeed" [("speed", decimal speed.toNat)]
  | invalidAddressRange address length =>
    record "InvalidAddressRange" [("addr", decimal address), ("len", decimal length)]

/-- Whether the fault ends the running program. Requests for a key, a clock speed or a
place for a program can be refused without harm to what runs. -/
def isFatal : Fault → Bool
  | romTooLarge .. | invalidKey .. | invalidClockSpeed .. => false
  | _ => true

end Fault

/-- One more than the largest count, address or coordinate: they are held in 64 bits. -/
def countLimit : Nat := UInt64.size

/-- Why an operation that gives a value gave none. -/
inductive Stop where
  | fault (f : Fault)
  | crash
  deriving DecidableEq, Repr

/-- How an operation on a state ended. A fault leaves a state behind, a crash does not. -/
inductive Outcome (σ : Type) where
  | done (state : σ)
  | fault (f : Fault) (state : σ)
  | crash
  deriving Repr

namespace Outcome

variable {σ τ : Type}

/-- The state left behind, if there is one. -/
def state? : Outcome σ → Option σ
  | done s => some s
  | fault _ s => some s
  | crash => none

/-- The fault, if it ended with one. -/
def fault? : Outcome σ → Option Fault
  | fault f _ => some f
  | _ => none

/-- A change of the state left behind, whether or not there was a fault. -/
def map (f : σ → τ) : Outcome σ → Outcome τ
  | done s => done (f s)
  | fault e s => fault e (f s)
  | crash => crash

end Outcome

/-- An operation that gives a new state or stops, on a state that it leaves alone when it stops. -/
def Outcome.ofExcept {σ : Type} (s : σ) : Except Stop σ → Outcome σ
  | .ok t => .done t
  | .error (.fault f) => .fault f s
  | .error .crash => .crash

end Chip8
