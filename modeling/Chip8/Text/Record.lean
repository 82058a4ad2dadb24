import Chip8.Text.Numeral

/-!
# One-line descriptions

A value is described by its name followed by its parts: named parts between braces,
a single part between parentheses, several values between brackets. A record that
keeps some of its parts to itself ends in two dots.
-/

namespace Chip8.Text

/-- Texts joined by a comma and a space. -/
def commaSeparated (items : List String) : String := String.intercalate ", " items

/-- A list between brackets. -/
def bracketed (items : List String) : String := "[" ++ commaSeparated items ++ "]"

/-- A list of numbers in decimal between brackets. -/
def numbers (items : List Nat) : String := bracketed (items.map decimal)

/-- A name with one unnamed part. -/
def tagged (name part : String) : String := name ++ "(" ++ part ++ ")"

/-- The texts of named parts, `name: text` each. -/
def fieldTexts (fields : List (String × String)) : List String :=
  fields.map fun field => field.1 ++ ": " ++ field.2

/-- A record all of whose parts are shown. -/
def record (name : String) (fields : List (String × String)) : String :=
  name ++ " \x7b " ++ commaSeparated (fieldTexts fields) ++ " \x7d"

/-- A record that keeps parts to itself: after the shown ones come two dots. -/
def openRecord (name : String) (fields : List (String × String)) : String :=
  name ++ " \x7b " ++ commaSeparated (fieldTexts fields ++ [".."]) ++ " \x7d"

/-- A value that may be missing. -/
def optional (item : Option String) : String :=
  match item with
  | none => "None"
  | some text => tagged "Some" text

/-- A truth value in small letters. -/
def truth (b : Bool) : String := if b then "true" else "false"

end Chip8.Text
