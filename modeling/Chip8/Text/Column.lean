/-!
# Columns

Text set in a column of a least width is filled up with spaces, on the right or on
the left. Width counts characters, and text that is wider than its column stays whole.
-/

namespace Chip8.Text

/-- `text` at the left of a column of `width` characters. -/
def atLeft (width : Nat) (text : String) : String :=
  String.ofList (text.toList.rightpad width ' ')

/-- `text` at the right of a column of `width` characters. -/
def atRight (width : Nat) (text : String) : String :=
  String.ofList (text.toList.leftpad width ' ')

@[simp] theorem toList_atLeft (width : Nat) (text : String) :
    (atLeft width text).toList = text.toList.rightpad width ' ' := by
  simp [atLeft]

end Chip8.Text
