/-!
# Terminal styles

Styled text is the text between two control sequences, one that switches the style on
and one that switches it off. Colours are switched off one at a time, by going back to
the default colour, except in the disassembly, where everything is switched off at once.
-/

namespace Chip8.Text

/-- A control sequence: escape, bracket, the codes, the letter `m`. -/
def controlSequence (codes : String) : String := "\x1b[" ++ codes ++ "m"

/-- A style is the codes that switch it on and the codes that switch it off. -/
structure Style where
  on : String
  off : String
  deriving DecidableEq, Repr

/-- `text` in a style. -/
def Style.apply (style : Style) (text : String) : String :=
  controlSequence style.on ++ text ++ controlSequence style.off

namespace Style

/-- Heavy type. -/
def bold : Style := ⟨"1", "0"⟩

/-- Red letters. -/
def red : Style := ⟨"31", "39"⟩

/-- Yellow letters. -/
def yellow : Style := ⟨"33", "39"⟩

/-- Grey letters. -/
def brightBlack : Style := ⟨"90", "39"⟩

/-- Green letters, all styles off afterwards. -/
def greenAlone : Style := ⟨"32", "0"⟩

/-- Heavy red letters, all styles off afterwards. -/
def boldRedAlone : Style := ⟨"31;1", "0"⟩

end Style

end Chip8.Text
