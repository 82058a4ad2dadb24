import Chip8.CommandLine.Number
import Chip8.CommandLine.Options
import Chip8.Text.Quoted
import Chip8.Text.Record

/-!
# What a program leaves behind

A program ends with an exit code, with text on its output and with lines on its error
output. A program that is used wrongly ends with code 2 and one line.
-/

namespace Chip8.CommandLine

open Text

/-- Exit code, output and lines of error output. -/
structure Report where
  code : Nat
  out : String := ""
  err : List String := []
  deriving DecidableEq, Repr

/-- The report of a program that was used wrongly. -/
def Report.ofUsageError (program : String) (e : UsageError) : Report where
  code := 2
  err := [program ++ ": " ++ e.message]

/-- The report of a program that was only asked how to use it. -/
def Report.usage (program : String) : Report where
  code := 0
  out := "Usage: " ++ program ++ " FILE [OPTIONS]\n"

/-- Why a file cannot be read. -/
inductive FileError where
  | notFound
  | notADirectory
  | isADirectory
  | nameTooLong
  deriving DecidableEq, Repr

namespace FileError

/-- The number of an error. -/
def code : FileError → Nat
  | notFound => 2
  | notADirectory => 20
  | isADirectory => 21
  | nameTooLong => 36

/-- The name of an error. -/
def name : FileError → String
  | notFound => "NotFound"
  | notADirectory => "NotADirectory"
  | isADirectory => "IsADirectory"
  | nameTooLong => "InvalidFilename"

/-- An error in words. -/
def words : FileError → String
  | notFound => "No such file or directory"
  | notADirectory => "Not a directory"
  | isADirectory => "Is a directory"
  | nameTooLong => "File name too long"

/-- The message for people. -/
def message (e : FileError) : String := e.words ++ " (os error " ++ decimal e.code ++ ")"

/-- The one-line description. -/
def describe (e : FileError) : String :=
  record "Os" [("code", decimal e.code), ("kind", e.name), ("message", quoted e.words)]

end FileError

/-- What is known of the files: the bytes of a file, or why it cannot be read. -/
abbrev Files := String → Except FileError (List UInt8)

/-- An option whose value is a number below a limit. -/
def numberEffect {σ : Type} (base limit : Nat) (set : Nat → σ → σ) : Effect σ :=
  .value fun word settings =>
    match readNumber base limit word with
    | .ok n => .ok (set n settings)
    | .error e => .error e.message

/-- Takes a free argument as the one file that a program works on. -/
def takeFile {σ : Type} (file : σ → Option String) (set : String → σ → σ) (word : String)
    (settings : σ) : Except UsageError σ :=
  match file settings with
  | none => .ok (set word settings)
  | some _ => .error (.unexpectedFree word)

end Chip8.CommandLine
