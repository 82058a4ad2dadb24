import Chip8.CommandLine.Report

/-!
# A tree of files

What a path leads to among the folders and files of a tree. Each of them has a place, the list of
names that lead to it from the root. A path that starts with a slash starts at the root, any other
at the current folder, and it is followed from name to name:

* empty names and `.` stay where they are, `..` goes up, and at the root it stays as well;
* nothing lies below a file, not even `.` or the empty name that a slash at the end leaves;
* a name of more than 255 bytes, or a path of 4096 bytes or more, is refused for its length.
-/

namespace Chip8.CommandLine

/-- Where something stands in a tree: the names from the root on. -/
abbrev Place := List String

/-- Folders and files by their places. The root is a folder in any case. -/
structure FileTree where
  folders : List Place
  files : List (Place × List UInt8)

namespace FileTree

/-- The bytes of the file at a place, if there is one. -/
def file? (t : FileTree) (place : Place) : Option (List UInt8) := t.files.lookup place

/-- Whether there is a folder or a file at a place. -/
def hasEntry (t : FileTree) (place : Place) : Bool :=
  t.folders.contains place || (t.file? place).isSome

/-- The place that a name leads to. -/
def step (t : FileTree) (place : Place) (name : String) : Except FileError Place :=
  if (t.file? place).isSome then .error .notADirectory
  else if name = "" ∨ name = "." then .ok place
  else if name = ".." then .ok place.dropLast
  else if 255 < name.utf8ByteSize then .error .nameTooLong
  else if t.hasEntry (place ++ [name]) then .ok (place ++ [name])
  else .error .notFound

/-- The place that a path leads to. -/
def resolve (t : FileTree) (current : Place) (path : String) : Except FileError Place :=
  if path.isEmpty then .error .notFound
  else if 4096 ≤ path.utf8ByteSize then .error .nameTooLong
  else (path.splitOn "/").foldlM t.step (if path.startsWith "/" then [] else current)

/-- The bytes of the file that a path leads to, or why nothing can be read. -/
def read (t : FileTree) (current : Place) : Files := fun path => do
  let place ← t.resolve current path
  match t.file? place with
  | some contents => return contents
  | none => throw .isADirectory

end FileTree

end Chip8.CommandLine
