import Chip8.Data.Basic
import Chip8.Engine.Config
import Chip8.Instruction.Op
import Chip8.Screen.Basic

/-!
# Settings as data

Run states, screen modes and instructions are written as their names. Startup settings are
a record with a field for each setting; fields with other names are passed over, and the
first field with an unsuitable value is reported before any field that is missing. They
are also read from a list of the five values in order.
-/

namespace Chip8

open Data

/-- A run state by name. -/
def RunState.ofData : Data → Except Mismatch RunState := readChoice RunState.all RunState.name

/-- A screen mode by name. -/
def ScreenMode.ofData : Data → Except Mismatch ScreenMode :=
  readChoice ScreenMode.all ScreenMode.name

/-- An instruction by name. -/
def Op.ofData : Data → Except Mismatch Op := readChoice Op.all Op.name

namespace Config

/-- The settings as a record. -/
def toData (c : Config) : Data :=
  .record
    [ ("clock_speed", .integer c.clockSpeed.toNat),
      ("timer_rate", .integer c.timerRate.toNat),
      ("load_address", .integer c.loadAddress.toNat),
      ("trace", .truth c.trace),
      ("journal_capacity", .integer c.journalCapacity) ]

/-- The settings with one of them, given by its field's name, read from data. A name that is
no setting's changes nothing. -/
def readField (c : Config) (name : String) (d : Data) : Except Mismatch Config :=
  match name with
  | "clock_speed" => do
    let n ← d.readUnsigned UInt32.size "u32"
    return { c with clockSpeed := n.toUInt32 }
  | "timer_rate" => do
    let n ← d.readUnsigned UInt32.size "u32"
    return { c with timerRate := n.toUInt32 }
  | "load_address" => do
    let n ← d.readUnsigned UInt16.size "u16"
    return { c with loadAddress := n.toUInt16 }
  | "trace" => do
    let b ← d.readTruth
    return { c with trace := b }
  | "journal_capacity" => do
    let n ← d.readUnsigned countLimit "usize"
    return { c with journalCapacity := n }
  | _ => return c

/-- The names of the settings in order. -/
def fieldNames : List String :=
  ["clock_speed", "timer_rate", "load_address", "trace", "journal_capacity"]

/-- Settings from a record: all its fields in order, none of them missing. -/
def ofFields (fields : List (String × Data)) : Except Mismatch Config := do
  let c ← fields.foldlM (fun c field => c.readField field.1 field.2) {}
  match fieldNames.find? fun name => !(fields.any fun field => field.1 == name) with
  | some name => throw (.missingField name)
  | none => return c

/-- Settings from a list: the values in order, no fewer and no more. -/
def ofItems (items : List Data) : Except Mismatch Config := do
  let c ← (fieldNames.zip items).foldlM (fun c field => c.readField field.1 field.2) {}
  if items.length < fieldNames.length then
    throw (.wrongLength items.length "struct Config with 5 elements")
  if fieldNames.length < items.length then
    throw (.wrongLength items.length "fewer elements in array")
  return c

/-- Settings from data. -/
def ofData : Data → Except Mismatch Config
  | .record fields => ofFields fields
  | .list items => ofItems items
  | other => .error (.wrongType other.found "struct Config")

end Config

end Chip8
