import Chip8.Instruction.Word

/-!
# Digit tries

A trie of depth `n` finds a number by a path of `n` digits. At each level a digit has a
branch of its own or falls to the branch for any digit. The branch of its own is tried
first, and if the rest of the path leads nowhere below it, the other one is tried.
-/

namespace Chip8

/-- One level of a trie: a branch for each digit and one for any digit. -/
structure Fork (α : Type) where
  exact : Vector (Option α) 16
  any : Option α

namespace Fork

variable {α : Type}

/-- No branches. -/
def empty : Fork α := ⟨Vector.replicate 16 none, none⟩

/-- The branch for a digit, or the one for any digit. -/
def branch (f : Fork α) : Option Nibble → Option α
  | some d => f.exact.get d
  | none => f.any

/-- Puts a branch in place. -/
def setBranch (f : Fork α) (key : Option Nibble) (a : α) : Fork α :=
  match key with
  | some d => { f with exact := setNibble f.exact d (some a) }
  | none => { f with any := some a }

theorem branch_setBranch (f : Fork α) (key other : Option Nibble) (a : α) :
    (f.setBranch key a).branch other = if key = other then some a else f.branch other := by
  cases key with
  | none => cases other <;> simp [branch, setBranch]
  | some d =>
    cases other with
    | none => simp [branch, setBranch]
    | some e => simp [branch, setBranch, get_setNibble]

@[simp] theorem branch_empty (key : Option Nibble) : (empty : Fork α).branch key = none := by
  cases key <;> simp [branch, empty, get_nibble]

end Fork

/-- A trie of a given depth with numbers at its leaves. -/
def Trie : Nat → Type
  | 0 => Nat
  | n + 1 => Fork (Trie n)

namespace Trie

/-- The number at the end of the best path for some digits. -/
def find : (n : Nat) → Trie n → List Nibble → Option Nat
  | 0, leaf, _ => some leaf
  | _ + 1, _, [] => none
  | n + 1, fork, d :: rest =>
    match (Fork.branch fork (some d)).bind fun t => find n t rest with
    | some found => some found
    | none => (Fork.branch fork none).bind fun t => find n t rest

/-- The trie with a single path. -/
def path : (n : Nat) → List (Option Nibble) → Nat → Trie n
  | 0, _, number => number
  | n + 1, [], _ => (Fork.empty : Fork (Trie n))
  | n + 1, key :: rest, number => Fork.setBranch Fork.empty key (path n rest number)

/-- Puts a number at the end of a path. Gives the number that was there before. -/
def insert : (n : Nat) → Trie n → List (Option Nibble) → Nat → Trie n × Option Nat
  | 0, leaf, _, number => (number, some leaf)
  | _ + 1, fork, [], _ => (fork, none)
  | n + 1, fork, key :: rest, number =>
    match Fork.branch fork key with
    | some below =>
      let (changed, old) := insert n below rest number
      (Fork.setBranch fork key changed, old)
    | none => (Fork.setBranch fork key (path n rest number), none)

/-- The number at the end of exactly one path. -/
def get : (n : Nat) → Trie n → List (Option Nibble) → Option Nat
  | 0, leaf, _ => some leaf
  | _ + 1, _, [] => none
  | n + 1, fork, key :: rest => (Fork.branch fork key).bind fun t => get n t rest

end Trie

end Chip8
