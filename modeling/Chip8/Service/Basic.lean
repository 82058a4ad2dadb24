import Chip8.Service.Defaults

/-!
# The service

A service owns an engine and a queue of commands. Callers send commands and register
hooks at any time; the worker makes its moves in between, one at a time:

* it takes the first command out of the queue, and the command's hooks out of the registry;
* it calls the next of the hooks that it took;
* it puts the hooks back when all were called;
* it finds the queue empty;
* having found it empty, it carries out one instruction if the engine runs.

`Service.advance` is the worker's next move, so any interleaving of callers and worker is
a sequence of `send`, `register` and `advance`.

The timers follow the instructions: while the engine runs, each instruction adds the timer
rate to a credit, and a credit of one clock speed pays for one tick.
-/

namespace Chip8

open Text

/-- Where the worker stands. -/
inductive Phase (σ : Type) where
  /-- About to look at the queue. -/
  | polling
  /-- Applying a command: hooks that were called, hooks that were not. -/
  | applying (command : Command) (called due : List (Hook σ))
  /-- It found the queue empty and is about to carry out an instruction. -/
  | drained
  /-- Gone. -/
  | ended

/-- An engine, commands on their way to it, the hooks that apply them, and what these share. -/
structure Service (σ : Type) where
  engine : Engine
  shared : σ
  queue : List Command
  registry : Registry σ
  loadAddress : UInt16
  phase : Phase σ
  credit : Nat

namespace Service

variable {σ : Type}

/-- Logs under the service's name. -/
def log (s : Service σ) (level : Journal.Level) (message : String) : Service σ :=
  { s with engine := s.engine.log level "daemon" message }

/-- A service with a paused engine, whose worker has just started. -/
def start [Inhabited σ] (config : Config) (noise : Noise) : Service σ :=
  log
    { engine := Engine.start config (Journal.ofCapacity config.journalCapacity) noise
      shared := default
      queue := []
      registry := Registry.standard
      loadAddress := config.loadAddress
      phase := .polling
      credit := 0 }
    .info "started"

/-! ## Callers -/

/-- Queues commands. -/
def sendAll (s : Service σ) (commands : List Command) : Service σ :=
  { s with queue := s.queue ++ commands }

/-- Queues a command. -/
def send (s : Service σ) (command : Command) : Service σ := s.sendAll [command]

/-- Registers a hook. -/
def register (s : Service σ) (kind : CommandKind) (h : Hook σ) : Service σ :=
  { s with registry := s.registry.add kind h }

/-- The number of commands that wait in the queue. -/
def pending (s : Service σ) : Nat := s.queue.length

/-! ## The worker -/

/-- Takes a command's hooks out of the registry. Without hooks the command has no effect
but a warning. -/
def begin (s : Service σ) (command : Command) : Service σ :=
  match s.registry.hooks command.kind with
  | [] => s.log .warn ("no handler for " ++ command.kind.describe)
  | due =>
    { s with
      registry := s.registry.without command.kind
      phase := .applying command [] due }

/-- Calls a hook. A panic is logged and has no other consequence. -/
def callHook (s : Service σ) (command : Command) (called : List (Hook σ)) (h : Hook σ)
    (due : List (Hook σ)) : Service σ :=
  match h.call command s.shared s.engine with
  | (h, shared, engine, ending) =>
    let s := { s with engine, shared, phase := .applying command (called ++ [h]) due }
    match ending with
    | .returned => s
    | .panicked reason =>
      s.log .error ("handler for " ++ command.kind.describe ++ " panicked: "
        ++ reason.getD "unknown cause")

/-- Puts a command's hooks back and goes on with the queue. -/
def finish (s : Service σ) (command : Command) (called : List (Hook σ)) : Service σ :=
  { s with registry := s.registry.putBack command.kind called, phase := .polling }

/-- Timer ticks that a credit pays for, and what is left of it. -/
def settleCredit (s : Service σ) : Service σ :=
  let price := s.engine.clockSpeed.toNat
  let credit := s.credit + s.engine.timerRate.toNat
  { s with engine := s.engine.passTime (credit / price), credit := credit % price }

/-- One instruction, and the timers with it. A crash is the end of the worker, and leaves the engine
from before the instruction, as it does in `Engine.apply`. -/
def execute (s : Service σ) : Service σ :=
  match s.engine.step with
  | .done engine => { s with engine, phase := .polling }.settleCredit
  | .fault _ engine => { s with engine, phase := .polling }.settleCredit
  | .crash => { s with phase := .ended }

/-- The worker's next move. -/
def advance (s : Service σ) : Service σ :=
  match s.phase with
  | .polling =>
    match s.queue with
    | [] => { s with phase := .drained }
    | command :: rest => { s with queue := rest }.begin command
  | .applying command called [] => s.finish command called
  | .applying command called (h :: due) => s.callHook command called h due
  | .drained =>
    match s.engine.state with
    | .running => s.execute
    | .paused => { s with phase := .polling, credit := 0 }
  | .ended => s

/-- Whether the worker has nothing to do until somebody asks for something. -/
def isSettled (s : Service σ) : Bool :=
  match s.phase with
  | .polling => s.queue.isEmpty && (s.engine.state = .paused || s.engine.machine.isWaiting)
  | .ended => true
  | _ => false

/-- Lets the worker make moves until it has nothing to do, `limit` at most. -/
def settle (limit : Nat) (s : Service σ) : Service σ :=
  match limit with
  | 0 => s
  | limit + 1 => if s.isSettled then s else s.advance.settle limit

/-- Ends the worker, which has nothing to do. -/
def shutDown (s : Service σ) : Service σ :=
  match s.phase with
  | .ended => s
  | _ => { s.log .info "stopped" with phase := .ended }

/-- The one-line description. -/
def describe (s : Service σ) : String :=
  openRecord "Daemon" [("core", s.engine.describe), ("pending", decimal s.pending)]

end Service

end Chip8
