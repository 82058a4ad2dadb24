import Chip8.Machine.Execute
import Chip8.Table.Basic

/-!
# Carrying out one instruction

A machine that waits for a key does nothing. Otherwise it fetches the word at the program
counter, finds its handler, moves the program counter on, and lets the handler act. After
any fault the program counter is back on the instruction at fault. An instruction that
leaves the program counter where no instruction fits is at fault too.
-/

namespace Chip8.Machine

/-- Puts the program counter back. -/
def withPc (m : Machine) (pc : UInt16) : Machine := { m with pc }

/-- Counts an instruction that was carried out. The count is held in 64 bits. -/
def count (m : Machine) : Outcome Machine :=
  if m.cycle + 1 < countLimit then .done { m with cycle := m.cycle + 1 } else .crash

/-- What follows when the handler of the instruction at `address` has acted. -/
def conclude (address : UInt16) : Outcome Machine → Outcome Machine
  | .crash => .crash
  | .fault f m => .fault f (m.withPc address)
  | .done m =>
    if lastInstruction < m.pc then
      .fault (.programCounterOutOfRange m.pc address) (m.withPc address)
    else m.count

/-- Carries out the instruction `word`, found at `address`. -/
def perform (m : Machine) (table : Table) (noise : UInt8) (address word : UInt16) :
    Outcome Machine :=
  match table.decode word with
  | none => .fault (.unimplementedInstruction word address) m
  | some (h, operands) => conclude address (h.execute noise operands (m.withPc (address + 2)))

/-- Carries out one instruction. -/
def tick (m : Machine) (table : Table) (noise : UInt8) : Outcome Machine :=
  if m.isWaiting then .done m
  else
    match m.readWord m.pc with
    | .error .crash => .crash
    | .error (.fault f) => .fault f m
    | .ok word => m.perform table noise m.pc word

/-- The text of the instruction at an address, if there is one. -/
def disassemble (m : Machine) (table : Table) (address : UInt16) : Option String :=
  match m.readWord address with
  | .ok word => table.disassemble word
  | .error _ => none

end Chip8.Machine
