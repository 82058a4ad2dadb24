/-!
# The journal

Whatever happens is logged as an entry with a level, a source and a message. The journal
keeps entries for its one reader, up to a capacity: when it is full, or when the reader is
gone, a new entry is lost to the reader. A journal of capacity zero keeps nothing. The
history has every entry, kept or lost, in the order in which they came.
-/

namespace Chip8

/-- How much an entry matters. -/
inductive Journal.Level where
  | error
  | warn
  | info
  | debug
  | trace
  deriving DecidableEq, Repr

/-- One line of the journal. -/
structure Journal.Entry where
  level : Journal.Level
  source : String
  message : String
  deriving DecidableEq, Repr

/-- Unread entries for the reader, and the history. -/
structure Journal where
  capacity : Nat
  hasReader : Bool
  unread : Array Journal.Entry
  /-- Every entry, the last one first. -/
  past : List Journal.Entry
  deriving DecidableEq, Repr

namespace Journal

/-- Every level, the weightiest first. -/
def Level.all : List Level := [.error, .warn, .info, .debug, .trace]

/-- A level's name in capital letters. -/
def Level.label : Level → String
  | error => "ERROR"
  | warn => "WARN"
  | info => "INFO"
  | debug => "DEBUG"
  | trace => "TRACE"

/-- An entry as a line of text. -/
def Entry.text (e : Entry) : String := "[" ++ e.source ++ "] " ++ e.message

/-- A journal with a reader and no entries. -/
def ofCapacity (capacity : Nat) : Journal := ⟨capacity, true, #[], []⟩

/-- Whether the reader can still get one more entry. -/
def hasRoom (j : Journal) : Bool := j.hasReader && j.unread.size < j.capacity

/-- Every entry, kept or lost, in the order in which they came. -/
def history (j : Journal) : List Entry := j.past.reverse

/-- Adds an entry to the history, and to the unread ones if there is room. -/
def add (j : Journal) (e : Entry) : Journal :=
  { j with
    unread := if j.hasRoom then j.unread.push e else j.unread
    past := e :: j.past }

/-- Adds an entry given by its parts. -/
def log (j : Journal) (level : Level) (source message : String) : Journal :=
  j.add ⟨level, source, message⟩

/-- Takes the oldest unread entries, `n` at most. -/
def drainUpTo (j : Journal) (n : Nat) : Journal × List Entry :=
  ({ j with unread := j.unread.extract n j.unread.size }, (j.unread.extract 0 n).toList)

/-- Takes all unread entries. -/
def drain (j : Journal) : Journal × List Entry := ({ j with unread := #[] }, j.unread.toList)

/-- The reader goes away, and with it what it has not read. -/
def dropReader (j : Journal) : Journal := { j with hasReader := false, unread := #[] }

/-- The one-line description of a journal tells nothing of its entries. -/
def describe (_ : Journal) : String := "Journal \x7b tx: SyncSender \x7b .. \x7d \x7d"

end Journal

end Chip8
