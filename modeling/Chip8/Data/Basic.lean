import Chip8.Floating.Shortest
import Chip8.Text.Quoted
import Chip8.Text.Record

/-!
# Data

Settings travel as data of a general form: nothing, truth values, numbers, texts, lists and
records. Reading a value of some type from data either succeeds or tells the first thing
that does not match: what was found and what was expected in its place.
-/

namespace Chip8

open Text

/-- Data of a general form. -/
inductive Data where
  | null
  | truth (b : Bool)
  | integer (n : Int)
  /-- A floating number with a sign. -/
  | real (negative : Bool) (magnitude : Floating)
  | text (s : String)
  | list (items : List Data)
  | record (fields : List (String × Data))
  deriving Inhabited

namespace Data

/-- Why data does not give a value of the type asked for. -/
inductive Mismatch where
  /-- A record lacks a field. -/
  | missingField (name : String)
  /-- Data of one type stands where another is expected. -/
  | wrongType (found expected : String)
  /-- The type is right but the value is none of those expected. -/
  | wrongValue (found expected : String)
  /-- A list has too few or too many items. -/
  | wrongLength (length : Nat) (expected : String)
  /-- A name is not one of those known. -/
  | unknownName (name : String) (known : List String)
  deriving DecidableEq, Repr

/-- A text between grave accents. -/
def accented (s : String) : String := "`" ++ s ++ "`"

/-- A choice of names: two are joined by `or`, more are listed. -/
def choiceText : List String → String
  | [a] => accented a
  | [a, b] => accented a ++ " or " ++ accented b
  | names => "one of " ++ commaSeparated (names.map accented)

/-- The message for people. -/
def Mismatch.message : Mismatch → String
  | missingField name => "missing field " ++ accented name
  | wrongType found expected => "invalid type: " ++ found ++ ", expected " ++ expected
  | wrongValue found expected => "invalid value: " ++ found ++ ", expected " ++ expected
  | wrongLength length expected =>
    "invalid length " ++ decimal length ++ ", expected " ++ expected
  | unknownName name known =>
    "unknown variant " ++ accented name ++ ", expected " ++ choiceText known

/-- A whole number in decimal. -/
def integerText : Int → String
  | .ofNat n => decimal n
  | .negSucc n => "-" ++ decimal (n + 1)

/-- A floating number with a sign. -/
def realText (negative : Bool) (magnitude : Floating) : String :=
  String.ofList (if negative then '-' :: magnitude.text else magnitude.text)

/-- What messages call a piece of data. -/
def found : Data → String
  | null => "null"
  | truth b => "boolean " ++ accented (Text.truth b)
  | integer n => "integer " ++ accented (integerText n)
  | real negative magnitude => "floating point " ++ accented (realText negative magnitude)
  | text s => "string " ++ quoted s
  | list _ => "sequence"
  | record _ => "map"

/-- A whole number from zero up to but without `limit`; `expected` is the type's name. -/
def readUnsigned (limit : Nat) (expected : String) : Data → Except Mismatch Nat
  | integer n =>
    if 0 ≤ n ∧ n < limit then .ok n.toNat
    else .error (.wrongValue (integer n).found expected)
  | other => .error (.wrongType other.found expected)

/-- A truth value. -/
def readTruth : Data → Except Mismatch Bool
  | truth b => .ok b
  | other => .error (.wrongType other.found "a boolean")

/-- One of some values, by name: a text, or a record of one field with nothing in it. -/
def readChoice {α : Type} (values : List α) (name : α → String) (d : Data) : Except Mismatch α :=
  let byName (s : String) : Except Mismatch α :=
    match values.find? fun value => name value == s with
    | some value => .ok value
    | none => .error (.unknownName s (values.map name))
  match d with
  | text s => byName s
  | record [(s, null)] => byName s
  | record [(s, other)] => do
    let _ ← byName s
    throw (.wrongType other.found "unit")
  | record _ => .error (.wrongValue "map" "map with a single key")
  | other => .error (.wrongType other.found "string or map")

end Data

end Chip8
