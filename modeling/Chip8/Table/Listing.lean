import Chip8.Table.Standard
import Chip8.Text.Style

/-!
# Listings

A listing gives every word a text: the instruction's text, or the word itself after
`inval` where there is no instruction. In a listing with columns the text takes sixteen
characters, and it may be coloured, green for instructions and heavy red for the rest.
-/

namespace Chip8

open Text

/-- The text of a word that stands for no instruction. -/
def invalidText (word : UInt16) : String := "inval " ++ lowerHex 4 word.toNat

/-- The text of any word. -/
def Table.once (t : Table) (word : UInt16) : String :=
  (t.disassemble word).getD (invalidText word)

/-- A text in its style, which may be none. -/
def styled (style : Option Style) (text : String) : String :=
  match style with
  | none => text
  | some s => s.apply text

/-- How a listing in columns looks. -/
structure ListingStyle where
  normal : Option Style
  invalid : Option Style
  deriving DecidableEq, Repr

namespace ListingStyle

/-- No colours. -/
def plain : ListingStyle := ⟨none, none⟩

/-- Green and heavy red. -/
def coloured : ListingStyle := ⟨some .greenAlone, some .boldRedAlone⟩

/-- The column for a word, in terms of the standard table. -/
def column (style : ListingStyle) (word : UInt16) : String :=
  match Table.standard.disassemble word with
  | some text => styled style.normal (atLeft 16 text)
  | none => styled style.invalid (atLeft 16 (invalidText word))

end ListingStyle

end Chip8
