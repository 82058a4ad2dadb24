import Chip8.Screen.Basic

/-!
# The screen as text

Each character of the picture shows two pixels, one above the other, so a line of text
stands for two rows. Every line ends in a line feed.
-/

namespace Chip8.Screen

/-- The character for a pixel and the one below it. -/
def glyph : Bool → Bool → Char
  | true, true => '█'
  | true, false => '▀'
  | false, true => '▄'
  | false, false => ' '

/-- The line of text for the rows `2 * k` and `2 * k + 1`. -/
def textLine (s : Screen) (k : Nat) : List Char :=
  (List.range s.width).map fun x => glyph (s.get x (2 * k)) (s.get x (2 * k + 1))

/-- The whole picture. -/
def picture (s : Screen) : String :=
  String.ofList ((List.range (s.height / 2)).flatMap fun k => s.textLine k ++ ['\n'])

end Chip8.Screen
