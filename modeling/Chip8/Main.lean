import Chip8.CommandLine.Disassemble
import Chip8.CommandLine.Run

/-!
# The command line

`run` plays a program file and `disassemble` lists it; what follows the first word are the
arguments of either.
-/

namespace Chip8.CommandLine

/-- The bytes of a file, or why it cannot be read. -/
def readFile (file : String) : IO (Except FileError (List UInt8)) := do
  try
    let bytes ← IO.FS.readBinFile file
    return .ok bytes.toList
  catch
    | .inappropriateType _ number _ =>
      let isFile := number.toNat = FileError.notADirectory.code
      return .error (if isFile then .notADirectory else .isADirectory)
    | .invalidArgument (some _) number _ =>
      let isLong := number.toNat = FileError.nameTooLong.code
      return .error (if isLong then .nameTooLong else .notFound)
    | _ => return .error .notFound

/-- Reads the file that is asked for, if any, and hands it to a program. -/
def withFile (file : Option String) (program : Files → Report) : IO Report := do
  match file with
  | none => return program fun _ => .error .notFound
  | some name =>
    let contents ← readFile name
    return program fun _ => contents

/-- The report of the program that the first word names. -/
def start : List String → IO Report
  | "run" :: args =>
    withFile ((Run.readSettings args).toOption.bind Run.Settings.file)
      (Run.run "chip8 run" args)
  | "disassemble" :: args =>
    withFile ((Disassemble.readSettings args).toOption.bind Disassemble.Settings.file)
      (Disassemble.run "chip8 disassemble" args)
  | _ => return { code := 2, err := ["Usage: chip8 run|disassemble FILE [OPTIONS]"] }

end Chip8.CommandLine

def main (args : List String) : IO UInt32 := do
  let report ← Chip8.CommandLine.start args
  for line in report.err do
    IO.eprintln line
  IO.print report.out
  return report.code.toUInt32
