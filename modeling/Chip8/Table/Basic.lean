import Chip8.Instruction.Mnemonic
import Chip8.Machine.Basic
import Chip8.Table.Trie

/-!
# Tables of instructions

A handler says which words stand for an instruction, what the instruction does and how
it reads. A table keeps handlers in the order in which they came. A handler for a pattern
that is there already takes the old one's place. Among the patterns that match a word,
the one with a digit at the first place where they differ wins.
-/

namespace Chip8

open Text

/-- An instruction with its words, its effect and its text. -/
structure Handler where
  op : Op
  pattern : Pattern
  execute : UInt8 → Operands → Machine → Outcome Machine
  disassemble : Operands → String

/-- The one-line description of a handler. -/
def Handler.describe (h : Handler) : String :=
  openRecord "OpHandler" [("id", h.op.name), ("pattern", h.pattern.text)]

/-- Handlers in order, and the trie that finds a handler's place by the digits of a word. -/
structure Table where
  handlers : Array Handler
  trie : Trie 4

namespace Table

/-- No handlers. -/
def empty : Table := ⟨#[], (Fork.empty : Fork (Trie 3))⟩

/-- Adds a handler. Gives the handler that it replaced, if its pattern was there. -/
def register (t : Table) (h : Handler) : Table × Option Handler :=
  match t.trie.insert 4 h.pattern.toList t.handlers.size with
  | (trie, none) => (⟨t.handlers.push h, trie⟩, none)
  | (trie, some place) =>
    (⟨t.handlers.setIfInBounds place h, (trie.insert 4 h.pattern.toList place).1⟩,
      t.handlers[place]?)

/-- Adds handlers one after the other. -/
def registerAll (t : Table) (handlers : List Handler) : Table :=
  handlers.foldl (fun t h => (t.register h).1) t

/-- The handler for a word. -/
def lookup (t : Table) (word : UInt16) : Option Handler :=
  (t.trie.find 4 (nibbles word)).bind fun place => t.handlers[place]?

/-- The handler for a word, with the operands in the word. -/
def decode (t : Table) (word : UInt16) : Option (Handler × Operands) :=
  (t.lookup word).map fun h => (h, Operands.ofWord word)

/-- The first handler of an instruction. -/
def handler? (t : Table) (op : Op) : Option Handler := t.handlers.find? fun h => h.op = op

/-- The text of a word, if it stands for an instruction. -/
def disassemble (t : Table) (word : UInt16) : Option String :=
  (t.decode word).map fun (h, o) => h.disassemble o

/-- The one-line description, with all handlers. -/
def describe (t : Table) : String :=
  openRecord "Dispatch" [("handlers", bracketed (t.handlers.toList.map Handler.describe))]

end Table

end Chip8
