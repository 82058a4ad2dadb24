import Chip8.CommandLine.Report
import Chip8.Memory.Basic
import Chip8.Table.Listing

/-!
# The disassembler

The disassembler lists a program file word by word: the address, the text of the word in a
column of sixteen characters, and the word itself. It can begin at an offset into the
file. The addresses count from the load address, and a byte left over at the end is not
shown.
-/

namespace Chip8.CommandLine

open Text

namespace Disassemble

/-- What the disassembler was asked for. -/
structure Settings where
  file : Option String := none
  loadAddress : Nat := 0x200
  offset : Nat := 0
  plain : Bool := false
  help : Bool := false

/-- The options. -/
def options : List (OptionSpec Settings) :=
  [ ⟨"help", 'h', .flag fun s => { s with help := true }⟩,
    ⟨"loadaddr", 'l', numberEffect 16 UInt16.size fun n s => { s with loadAddress := n }⟩,
    ⟨"offset", 'o', numberEffect 10 countLimit fun n s => { s with offset := n }⟩,
    ⟨"plain", 'p', .flag fun s => { s with plain := true }⟩ ]

/-- Reads the arguments. -/
def readSettings (args : List String) : Except UsageError Settings :=
  readWords options (takeFile Settings.file fun word s => { s with file := some word })
    (.ready {}) args

/-- The words in a list of bytes, high byte first, without a byte left over. -/
def wordsOf : List UInt8 → List UInt16
  | high :: low :: rest => Memory.joinBytes high low :: wordsOf rest
  | _ => []

/-- The line for a word at an address. -/
def line (plain : Bool) (address : Nat) (word : UInt16) : String :=
  let number := lowerHex 4 word.toNat
  lowerHex 3 address ++ ": "
    ++ (if plain then ListingStyle.plain else ListingStyle.coloured).column word ++ " "
    ++ (if plain then number else Style.brightBlack.apply number)

/-- All lines for some bytes that begin at an address. -/
def lines (plain : Bool) (address : Nat) (bytes : List UInt8) : List String :=
  (wordsOf bytes).zipIdx.map fun (word, k) => line plain (2 * k + address) word

/-- Why there is no listing. -/
inductive Failure where
  | offsetOutOfRange (offset length : Nat)
  | file (e : FileError)
  deriving DecidableEq, Repr

/-- The one-line description. -/
def Failure.describe : Failure → String
  | offsetOutOfRange offset length =>
    record "OffsetOutOfRange" [("offset", decimal offset), ("len", decimal length)]
  | file e => tagged "Io" e.describe

/-- The lines for a file's contents. -/
def listing (s : Settings) (contents : List UInt8) : Except Failure (List String) :=
  if s.offset ≤ contents.length then
    .ok (lines s.plain (s.loadAddress + s.offset) (contents.drop s.offset))
  else .error (.offsetOutOfRange s.offset contents.length)

/-- The report on a file. -/
def reportOn (s : Settings) (contents : Except FileError (List UInt8)) : Report :=
  match (contents.mapError Failure.file).bind (listing s) with
  | .ok lines => { code := 0, out := String.join (lines.map (· ++ "\n")) }
  | .error e => { code := 1, err := ["Error: " ++ e.describe] }

/-- The disassembler with its arguments. -/
def run (program : String) (args : List String) (files : Files) : Report :=
  match readSettings args with
  | .error e => .ofUsageError program e
  | .ok s =>
    if s.help then .usage program
    else
      match s.file with
      | none => .ofUsageError program .missingFree
      | some file => reportOn s (files file)

end Disassemble

end Chip8.CommandLine
