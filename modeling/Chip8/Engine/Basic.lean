import Chip8.Engine.Config
import Chip8.Engine.Noise
import Chip8.Journal
import Chip8.Machine.Dump
import Chip8.Machine.Tick
import Chip8.Table.Standard

/-!
# The engine

An engine is a machine with all that is known about running it: the table it works with,
whether it runs and how fast, the fault that stopped it, the program to start over with,
and the journal. A fault that ends the program pauses the engine and is remembered until
the engine is told to run, gets a program, or is reset.
-/

namespace Chip8

open Text

/-- A machine and what is known about running it. -/
structure Engine where
  machine : Machine
  table : Table
  state : RunState
  clockSpeed : UInt32
  timerRate : UInt32
  traced : Bool
  fault : Option Fault
  program : Option (List UInt8 × UInt16)
  journal : Journal
  noise : Noise

namespace Engine

/-- A paused engine with a new machine and the standard table. -/
def start (config : Config) (journal : Journal) (noise : Noise) : Engine where
  machine := Machine.fresh
  table := Table.standard
  state := .paused
  clockSpeed := max config.clockSpeed 1
  timerRate := config.timerRate
  traced := config.trace
  fault := none
  program := none
  journal := journal
  noise := noise

/-- Adds an entry to the journal. -/
def log (e : Engine) (level : Journal.Level) (source message : String) : Engine :=
  { e with journal := e.journal.log level source message }

/-- Pauses the engine or lets it run. To run, it forgets the fault that it knows. -/
def setState (e : Engine) (state : RunState) : Engine :=
  { e with state, fault := if state = .running then none else e.fault }

/-- Sets the number of instructions a second, which is not zero. -/
def setClockSpeed (e : Engine) (speed : UInt32) : Except Fault Engine :=
  if speed = 0 then .error (.invalidClockSpeed speed) else .ok { e with clockSpeed := speed }

/-- Starts over with a program and remembers it. A program that does not fit leaves the
machine empty and is not remembered. -/
def load (e : Engine) (program : List UInt8) (address : UInt16) : Outcome Engine :=
  let cleared := { e with machine := e.machine.reset, fault := none }
  match cleared.machine.load program address with
  | .ok machine => .done { cleared with machine, program := some (program, address) }
  | .error f => .fault f cleared

/-- Starts over with the program last remembered. -/
def reset (e : Engine) : Engine :=
  let machine := e.machine.reset
  let loaded :=
    match e.program with
    | none => machine
    | some (program, address) => (machine.load program address).toOption.getD machine
  { e with machine := loaded, fault := none }

/-- What the journal says about the instruction that comes next. -/
def traceText (e : Engine) : String :=
  lowerHex 3 e.machine.pc.toNat ++ ": "
    ++ (e.machine.disassemble e.table e.machine.pc).getD "inval"

/-- Logs the instruction that comes next, if that is asked for and there is one. -/
def logNext (e : Engine) : Engine :=
  if e.traced && !e.machine.isWaiting then e.log .trace "cpu" e.traceText else e

/-- Takes note of a fault. If it ends the program it is logged and remembered, and the
engine pauses. -/
def noteFault (e : Engine) (f : Fault) : Engine :=
  if f.isFatal then { e.log .error "cpu" f.message with state := .paused, fault := some f } else e

/-- Carries out one instruction. -/
def step (e : Engine) : Outcome Engine :=
  let logged := e.logNext
  let noise := logged.noise.next
  match logged.machine.tick logged.table logged.noise.current with
  | .done machine => .done { logged with machine, noise }
  | .fault f machine => .fault f (noteFault { logged with machine, noise } f)
  | .crash => .crash

/-- Lets both timers count `n` ticks. -/
def passTime (e : Engine) (n : Nat) : Engine := { e with machine := e.machine.passTime n }

/-- The one-line description. -/
def describe (e : Engine) : String :=
  record "Core"
    [ ("cpu", e.machine.describe),
      ("dispatch", e.table.describe),
      ("state", e.state.name),
      ("clock_speed", decimal e.clockSpeed.toNat),
      ("timer_rate", decimal e.timerRate.toNat),
      ("trace", truth e.traced),
      ("fault", optional (e.fault.map Fault.describe)),
      ("rom", optional (e.program.map fun (program, address) =>
        "(" ++ commaSeparated [numbers (program.map UInt8.toNat), decimal address.toNat] ++ ")")),
      ("journal", e.journal.describe) ]

end Engine

end Chip8
