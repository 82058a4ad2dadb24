import Chip8.Machine.Basic

/-!
# Settings

The settings that an engine and its service start with.
-/

namespace Chip8

/-- Whether instructions are carried out. -/
inductive RunState where
  | paused
  | running
  deriving DecidableEq, Repr

namespace RunState

/-- Both states. -/
def all : List RunState := [paused, running]

/-- The name of a state. -/
def name : RunState → String
  | paused => "Paused"
  | running => "Running"

instance : Inhabited RunState := ⟨paused⟩

end RunState

/-- Startup settings. -/
structure Config where
  /-- Instructions a second. Zero counts as one. -/
  clockSpeed : UInt32 := 500
  /-- Timer ticks a second. Zero stops the timers. -/
  timerRate : UInt32 := 60
  /-- Where a program goes unless told otherwise. -/
  loadAddress : UInt16 := programStart
  /-- Whether every instruction is logged before it is carried out. -/
  trace : Bool := false
  /-- How many unread entries the journal keeps. -/
  journalCapacity : Nat := 1024
  deriving DecidableEq, Repr

instance : Inhabited Config := ⟨{}⟩

end Chip8
