import Chip8.Table.Trie
import Mathlib.Data.List.Forall2

/-!
# Digit tries: the most definite path wins

`Trie.get` looks up exactly one path, `Trie.find` looks for the best path that some digits
may take. This file says what both see:

> `get_insert`: after `insert` the new path leads to the new number, and every other path
> leads where it led before.

> `find_none`, `find_some`: `find` fails if no path that the digits may take is in the trie;
> otherwise it gives the number of the one such path that beats all others.

A path beats another if, at the first place where they differ, it has a digit and the other
is open (`Beats`). The search goes down the branch of the digit first, so the second
statement also says that backing out of that branch loses nothing.
-/

namespace Chip8

/-- Whether a digit may pass a place of a path: the place has this digit or is open. -/
def Admits (slot : Option Nibble) (d : Nibble) : Prop := slot = some d ∨ slot = none

@[simp] theorem admits_some {e d : Nibble} : Admits (some e) d ↔ d = e := by
  simp [Admits, eq_comm]

@[simp] theorem admits_none {d : Nibble} : Admits none d := Or.inr rfl

/-- At the first place where two paths differ, the first one has a digit and the second one
is open. -/
inductive Beats : List (Option Nibble) → List (Option Nibble) → Prop where
  | here {d : Nibble} {p q : List (Option Nibble)} : Beats (some d :: p) (none :: q)
  | there {key : Option Nibble} {p q : List (Option Nibble)} :
      Beats p q → Beats (key :: p) (key :: q)

theorem Beats.asymm {p q : List (Option Nibble)} (h : Beats p q) : ¬ Beats q p := by
  induction h with
  | here => exact fun h => nomatch h
  | there _ ih =>
    intro h
    cases h with
    | there h => exact ih h

namespace Trie

/-! ## Exactly one path -/

theorem get_path : ∀ (n : Nat) {keys other : List (Option Nibble)} (number : Nat),
    keys.length = n → other.length = n →
      get n (path n keys number) other = if keys = other then some number else none
  | 0, keys, other, number, hk, ho => by
    rw [List.eq_nil_of_length_eq_zero hk, List.eq_nil_of_length_eq_zero ho, if_pos rfl]
    rfl
  | n + 1, key :: keys, key' :: other, number, hk, ho => by
    rw [List.length_cons, Nat.succ_inj] at hk ho
    rw [get, path, Fork.branch_setBranch, Fork.branch_empty]
    by_cases hkey : key = key'
    · rw [if_pos hkey, Option.bind_some, get_path n number hk ho, hkey]
      simp only [List.cons.injEq, true_and]
    · rw [if_neg hkey, Option.bind_none, if_neg fun h => hkey (List.cons.inj h).1]

theorem get_cons {n : Nat} (t : Fork (Trie n)) (key : Option Nibble)
    (keys : List (Option Nibble)) :
    get (n + 1) t (key :: keys) = (t.branch key).bind fun below => get n below keys := rfl

/-- A new branch is seen by the paths through its key, and by no others. -/
theorem get_setBranch {n : Nat} (t : Fork (Trie n)) (key key' : Option Nibble) (below : Trie n)
    (other : List (Option Nibble)) :
    get (n + 1) (t.setBranch key below) (key' :: other) =
      if key = key' then get n below other else get (n + 1) t (key' :: other) := by
  rw [get_cons, get_cons, Fork.branch_setBranch]
  by_cases hkey : key = key'
  · rw [if_pos hkey, if_pos hkey, Option.bind_some]
  · rw [if_neg hkey, if_neg hkey]

/-- An insertion changes the branch of its first key only. -/
theorem insert_cons {n : Nat} (t : Fork (Trie n)) (key : Option Nibble)
    (keys : List (Option Nibble)) (number : Nat) :
    insert (n + 1) t (key :: keys) number =
      match t.branch key with
      | some below =>
        (t.setBranch key (insert n below keys number).1, (insert n below keys number).2)
      | none => (t.setBranch key (path n keys number), none) := rfl

/-- After an insertion only the inserted path leads elsewhere. -/
theorem get_insert : ∀ (n : Nat) (t : Trie n) {keys other : List (Option Nibble)} (number : Nat),
    keys.length = n → other.length = n →
      get n (insert n t keys number).1 other = if keys = other then some number else get n t other
  | 0, t, keys, other, number, hk, ho => by
    rw [List.eq_nil_of_length_eq_zero hk, List.eq_nil_of_length_eq_zero ho, if_pos rfl]
    rfl
  | n + 1, t, key :: keys, key' :: other, number, hk, ho => by
    rw [List.length_cons, Nat.succ_inj] at hk ho
    change Fork (Trie n) at t
    -- The branch below `key`, whether or not it was there, ends up with the new path.
    have hset : ∃ below, (insert (n + 1) t (key :: keys) number).1 = Fork.setBranch t key below ∧
        get n below other =
          if keys = other then some number
          else (Fork.branch t key).bind fun t => get n t other := by
      cases hb : Fork.branch t key with
      | none => exact ⟨path n keys number, by rw [insert_cons, hb], get_path n number hk ho⟩
      | some below =>
        exact ⟨(insert n below keys number).1, by rw [insert_cons, hb],
          get_insert n below number hk ho⟩
    obtain ⟨below, hins, hget⟩ := hset
    rw [hins]
    rw [get_setBranch]
    by_cases hkey : key = key'
    · subst hkey
      rw [if_pos rfl, hget, get_cons]
      simp only [List.cons.injEq, true_and]
    · rw [if_neg hkey, if_neg fun h => hkey (List.cons.inj h).1]

/-- An insertion tells where its path led before. -/
theorem insert_snd : ∀ (n : Nat) (t : Trie n) {keys : List (Option Nibble)} (number : Nat),
    keys.length = n → (insert n t keys number).2 = get n t keys
  | 0, t, keys, number, hk => rfl
  | n + 1, t, key :: keys, number, hk => by
    rw [List.length_cons, Nat.succ_inj] at hk
    change Fork (Trie n) at t
    rw [insert_cons, get_cons]
    cases hb : Fork.branch t key with
    | none => rfl
    | some below => exact insert_snd n below number hk

/-! ## The best path -/

/-- Where the search fails there is no path for the digits at all. -/
theorem find_none : ∀ (n : Nat) (t : Trie n) {digits : List Nibble},
    digits.length = n → find n t digits = none →
      ∀ path, List.Forall₂ Admits path digits → get n t path = none
  | 0, t, digits, hd, h => nomatch h
  | n + 1, t, d :: digits, hd, h => by
    intro path hp
    rw [List.length_cons, Nat.succ_inj] at hd
    obtain ⟨key, keys, hkey, hkeys, rfl⟩ := List.forall₂_cons_right_iff.mp hp
    rw [find] at h
    cases he : (Fork.branch t (some d)).bind fun t => find n t digits with
    | some found => rw [he] at h; exact nomatch h
    | none =>
      rw [he] at h
      -- Both branches that the digit may take lead nowhere.
      have hbranch : (Fork.branch t key).bind (fun t => find n t digits) = none := by
        rcases hkey with rfl | rfl
        · exact he
        · exact h
      rw [get]
      cases hb : Fork.branch t key with
      | none => rfl
      | some below =>
        rw [hb, Option.bind_some] at hbranch
        exact find_none n below hd hbranch keys hkeys

/-- What the search finds lies at the end of the path that beats all others for the digits. -/
theorem find_some : ∀ (n : Nat) (t : Trie n) {digits : List Nibble} {i : Nat},
    digits.length = n → find n t digits = some i →
      ∃ path, List.Forall₂ Admits path digits ∧ get n t path = some i ∧
        ∀ other, List.Forall₂ Admits other digits → get n t other ≠ none →
          other = path ∨ Beats path other
  | 0, t, digits, i, hd, h => by
    rw [List.eq_nil_of_length_eq_zero hd]
    refine ⟨[], .nil, h, fun other ho _ => Or.inl ?_⟩
    exact List.forall₂_nil_right_iff.mp ho
  | n + 1, t, d :: digits, i, hd, h => by
    rw [List.length_cons, Nat.succ_inj] at hd
    rw [find] at h
    cases he : (Fork.branch t (some d)).bind fun t => find n t digits with
    | some found =>
      rw [he, Option.some_inj] at h
      subst h
      obtain ⟨below, hb, hf⟩ := Option.bind_eq_some_iff.mp he
      obtain ⟨path, hp, hg, hbest⟩ := find_some n below hd hf
      refine ⟨some d :: path, .cons (Or.inl rfl) hp, by rw [get, hb, Option.bind_some, hg], ?_⟩
      intro other ho hne
      obtain ⟨key, keys, hkey, hkeys, rfl⟩ := List.forall₂_cons_right_iff.mp ho
      rcases hkey with rfl | rfl
      · rw [get, hb, Option.bind_some] at hne
        rcases hbest keys hkeys hne with rfl | hbeats
        · exact Or.inl rfl
        · exact Or.inr (.there hbeats)
      · exact Or.inr .here
    | none =>
      rw [he] at h
      obtain ⟨below, hb, hf⟩ := Option.bind_eq_some_iff.mp h
      obtain ⟨path, hp, hg, hbest⟩ := find_some n below hd hf
      refine ⟨none :: path, .cons (Or.inr rfl) hp, by rw [get, hb, Option.bind_some, hg], ?_⟩
      intro other ho hne
      obtain ⟨key, keys, hkey, hkeys, rfl⟩ := List.forall₂_cons_right_iff.mp ho
      rcases hkey with rfl | rfl
      · -- The branch of the digit was given up because it holds no such path.
        exfalso
        apply hne
        rw [get]
        cases hbd : Fork.branch t (some d) with
        | none => rfl
        | some side =>
          rw [hbd, Option.bind_some] at he
          exact find_none n side hd he keys hkeys
      · rw [get, hb, Option.bind_some] at hne
        rcases hbest keys hkeys hne with rfl | hbeats
        · exact Or.inl rfl
        · exact Or.inr (.there hbeats)

end Trie

end Chip8
