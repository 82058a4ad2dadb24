import Chip8.Text.Hidden
import Chip8.Text.Numeral

/-!
# Quoted text

Text in a description stands between double quotes. Quotes and backslashes inside it
follow a backslash, the four common controls have short names, and every other
character that could not be seen is given by its number, as in `\u{200b}`.
-/

namespace Chip8.Text

/-- How `c` is written inside quotes. -/
def escaped (c : Char) : List Char :=
  if c = '"' then ['\\', '"']
  else if c = '\\' then ['\\', '\\']
  else if c = '\n' then ['\\', 'n']
  else if c = '\r' then ['\\', 'r']
  else if c = '\t' then ['\\', 't']
  else if c = '\x00' then ['\\', '0']
  else if isHidden c then ['\\', 'u', '\x7b'] ++ hexDigits 1 c.toNat ++ ['\x7d']
  else [c]

/-- `text` between double quotes. -/
def quoted (text : String) : String :=
  String.ofList (['"'] ++ text.toList.flatMap escaped ++ ['"'])

end Chip8.Text
