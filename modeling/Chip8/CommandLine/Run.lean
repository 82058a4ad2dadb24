import Chip8.CommandLine.Report
import Chip8.Screen.Picture
import Chip8.Service.Basic
import Chip8.Text.Style

/-!
# Running a program file

The runner loads a program file into a service, lets it run until a fault or until its time
is over, and shows the journal on the way and the screen and the registers at the end. Time
is counted in instructions: a second has as many as the clock speed and the worker's rests
allow, and the journal is read once a frame.
-/

namespace Chip8.CommandLine

open Text

namespace Run

/-- What the runner was asked for. -/
structure Settings where
  file : Option String := none
  help : Bool := false
  pause : Bool := false
  trace : Bool := false
  speed : Option Nat := none
  timerRate : Nat := 60
  loadAddress : Nat := 0x200
  seconds : Nat := 5
  frameRate : Nat := 60

/-- The options. -/
def options : List (OptionSpec Settings) :=
  [ ⟨"help", 'h', .flag fun s => { s with help := true }⟩,
    ⟨"pause", 'p', .flag fun s => { s with pause := true }⟩,
    ⟨"trace", 't', .flag fun s => { s with trace := true }⟩,
    ⟨"speed", 's', numberEffect 10 UInt32.size fun n s => { s with speed := some n }⟩,
    ⟨"timer-rate", 'T', numberEffect 10 UInt32.size fun n s => { s with timerRate := n }⟩,
    ⟨"loadaddr", 'l', numberEffect 16 UInt16.size fun n s => { s with loadAddress := n }⟩,
    ⟨"seconds", 'S', numberEffect 10 countLimit fun n s => { s with seconds := n }⟩,
    ⟨"frame-rate", 'f', numberEffect 10 countLimit fun n s => { s with frameRate := n }⟩ ]

/-- Reads the arguments. -/
def readSettings (args : List String) : Except UsageError Settings :=
  readWords options (takeFile Settings.file fun word s => { s with file := some word })
    (.ready {}) args

/-- The service's settings. -/
def Settings.config (s : Settings) : Config :=
  let standard : Config := {}
  { standard with
    clockSpeed := (s.speed.map Nat.toUInt32).getD standard.clockSpeed
    timerRate := s.timerRate.toUInt32
    loadAddress := s.loadAddress.toUInt16
    trace := s.trace }

/-- The line for a journal entry, in a style that depends on the level. -/
def entryLine (e : Journal.Entry) : String :=
  let style : Style :=
    match e.level with
    | .error => .red
    | .warn => .yellow
    | .info => .bold
    | .debug | .trace => .brightBlack
  style.apply e.text

/-- Takes the lines of the journal that were not read yet. -/
def readJournal (s : Service Unit) : Service Unit × List String :=
  let (journal, entries) := s.engine.journal.drain
  ({ s with engine := { s.engine with journal } }, entries.map entryLine)

/-- Watches the service for a number of frames, or until there is a fault or nothing is left
to do. Gives the lines of the journal. An instruction takes the worker two moves. -/
def watch (perFrame : Nat) (s : Service Unit) : Nat → Service Unit × List String
  | 0 => (s, [])
  | frames + 1 =>
    let (s, seen) := readJournal (s.settle (2 * perFrame))
    if s.engine.fault.isSome || s.isSettled then (s, seen)
    else
      let (s, later) := watch perFrame s frames
      (s, seen ++ later)

/-- Instructions in a second. One takes four microseconds; if the clock speed leaves more time than
that the worker rests after each, and a rest takes a sixteen-thousandth of a second at least. -/
def pace (config : Config) : Nat :=
  let speed := (max config.clockSpeed 1).toNat
  if speed < 250000 then min speed 16000 else 250000

/-- A frame's share of the instructions of a second, one at least. What they log beyond the
capacity of the journal is lost. -/
def perFrame (config : Config) (frameRate : Nat) : Nat :=
  max (pace config / max frameRate 1) 1

/-- Loads a program, runs it and shows what became of it. -/
def play (s : Settings) (program : List UInt8) : Report :=
  let config := s.config
  let service : Service Unit := Service.start config (Noise.ofSeed 0)
  let begun := service.sendAll
    (.load program config.loadAddress :: if s.pause then [] else [.run])
  let share := perFrame config s.frameRate
  let frames := pace config * s.seconds / share
  let (watched, seen) := watch share begun frames
  let ended := ((watched.send .pause).settle (moveBound begun)).shutDown
  let (_, rest) := readJournal ended
  let machine := watched.engine.machine
  let lines := seen ++ rest
  let out := machine.screen.picture ++ "\n" ++ machine.dump ++ "\n"
  match watched.engine.fault with
  | none | some (.exited _) => { code := 0, out, err := lines }
  | some f => { code := 1, out, err := lines ++ [Style.red.apply (Style.bold.apply f.message)] }
where
  /-- Moves enough for the commands of a run and the pause at its end. -/
  moveBound (s : Service Unit) : Nat := 8 * (s.pending + 1)

/-- The runner with its arguments. -/
def run (program : String) (args : List String) (files : Files) : Report :=
  match readSettings args with
  | .error e => .ofUsageError program e
  | .ok s =>
    if s.help then .usage program
    else
      match s.file with
      | none => .ofUsageError program .missingFree
      | some file =>
        match files file with
        | .ok contents => play s contents
        | .error e => { code := 1, err := [Style.red.apply (Style.bold.apply e.message)] }

end Run

end Chip8.CommandLine
