import Chip8.Text.Quoted
import Chip8.Text.Record

/-!
# Commands

A command asks the worker for something. Commands have kinds, under which their hooks are
registered; custom commands have a kind for each tag.
-/

namespace Chip8

open Text

/-- A request to the worker. -/
inductive Command where
  /-- Start over with a program at an address. -/
  | load (program : List UInt8) (address : UInt16)
  /-- Begin to carry out instructions. -/
  | run
  /-- Stop carrying out instructions. -/
  | pause
  /-- Press a key. -/
  | keyDown (key : UInt8)
  /-- Let go of a key. -/
  | keyUp (key : UInt8)
  /-- Set the number of instructions a second. -/
  | setClockSpeed (speed : UInt32)
  /-- Start over with the last program. -/
  | reset
  /-- Carry out one instruction, even when paused. -/
  | step
  /-- Whatever the hooks for the tag make of it. -/
  | custom (tag : String) (payload : List UInt8)
  deriving DecidableEq, Repr

/-- What kind of request a command is. -/
inductive CommandKind where
  | load
  | run
  | pause
  | keyDown
  | keyUp
  | setClockSpeed
  | reset
  | step
  | custom (tag : String)
  deriving DecidableEq, Repr

namespace CommandKind

/-- Every kind that is not custom. -/
def builtIn : List CommandKind :=
  [load, run, pause, keyDown, keyUp, setClockSpeed, reset, step]

/-- The one-line description. -/
def describe : CommandKind → String
  | load => "LoadRom"
  | run => "SetRunning"
  | pause => "SetPaused"
  | keyDown => "KeyDown"
  | keyUp => "KeyUp"
  | setClockSpeed => "SetClockSpeed"
  | reset => "Reset"
  | step => "Step"
  | custom tag => tagged "Custom" (quoted tag)

end CommandKind

namespace Command

/-- The kind of a command. -/
def kind : Command → CommandKind
  | load .. => .load
  | run => .run
  | pause => .pause
  | keyDown _ => .keyDown
  | keyUp _ => .keyUp
  | setClockSpeed _ => .setClockSpeed
  | reset => .reset
  | step => .step
  | custom tag _ => .custom tag

/-- The one-line description: the kind's name with the command's parts. -/
def describe : Command → String
  | load program address =>
    record "LoadRom"
      [("rom", numbers (program.map UInt8.toNat)), ("addr", decimal address.toNat)]
  | keyDown key => tagged "KeyDown" (decimal key.toNat)
  | keyUp key => tagged "KeyUp" (decimal key.toNat)
  | setClockSpeed speed => tagged "SetClockSpeed" (decimal speed.toNat)
  | custom tag payload =>
    record "Custom" [("tag", quoted tag), ("payload", numbers (payload.map UInt8.toNat))]
  | command => command.kind.describe

end Command

end Chip8
