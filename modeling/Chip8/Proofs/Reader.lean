import Chip8.Journal
import Mathlib.Data.List.Basic

/-!
# What the reader gets

Entries come to a journal, and its one reader takes them out or goes away, in any order (`Act`).
What comes is in the history. Of that, a journal keeps what comes while there is room (`kept`), and
the reader is given what is kept (`given`), first come, first served. So entries are lost only while
there is no room.

> `given_conserved`: while the reader stays, what he is given and what he has not read are what was
> unread before and what is kept;
>
> `account`: the whole account, for a journal that begins without entries.
-/

namespace Chip8

namespace Journal

/-! ## What may happen to a journal -/

/-- What the reader may do: take some of the oldest unread entries, take all of them, or go away. -/
inductive Reading where
  | take (n : Nat)
  | drain
  | leave
  deriving DecidableEq

/-- The journal after the reader did something, and what he is given. -/
def read (j : Journal) : Reading → Journal × List Entry
  | .take n => j.drainUpTo n
  | .drain => j.drain
  | .leave => (j.dropReader, [])

/-- An entry comes, or the reader does something. -/
inductive Act where
  | add (e : Entry)
  | read (r : Reading)
  deriving DecidableEq

/-- The entry that comes, if one does. -/
def Act.entry? : Act → Option Entry
  | add e => some e
  | read _ => none

/-- What the reader does, if it does something. -/
def Act.reading? : Act → Option Reading
  | add _ => none
  | read r => some r

/-- The journal after something happened, and what its reader is given. -/
def act (j : Journal) : Act → Journal × List Entry
  | .add e => (j.add e, [])
  | .read r => j.read r

/-- The journal after everything happened. -/
def after (j : Journal) : List Act → Journal
  | [] => j
  | a :: rest => (j.act a).1.after rest

/-- What the reader is given in the meantime, in order. -/
def given (j : Journal) : List Act → List Entry
  | [] => []
  | a :: rest => (j.act a).2 ++ (j.act a).1.given rest

/-- The entries that come, in order. -/
def offered (acts : List Act) : List Entry := acts.filterMap Act.entry?

/-- The entries that come while there is room for them, in order. -/
def kept (j : Journal) : List Act → List Entry
  | [] => []
  | a :: rest => (if j.hasRoom then a.entry?.toList else []) ++ (j.act a).1.kept rest

variable {j : Journal} {a : Act} {acts : List Act}

theorem after_append (j : Journal) (before rest : List Act) :
    j.after (before ++ rest) = (j.after before).after rest := by
  induction before generalizing j with
  | nil => rfl
  | cons a before ih => exact ih (j.act a).1

theorem given_append (j : Journal) (before rest : List Act) :
    j.given (before ++ rest) = j.given before ++ (j.after before).given rest := by
  induction before generalizing j with
  | nil => rfl
  | cons a before ih => rw [List.cons_append, given, given, ih, List.append_assoc, after]

theorem kept_append (j : Journal) (before rest : List Act) :
    j.kept (before ++ rest) = j.kept before ++ (j.after before).kept rest := by
  induction before generalizing j with
  | nil => rfl
  | cons a before ih => rw [List.cons_append, kept, kept, ih, List.append_assoc, after]

theorem offered_cons (a : Act) (acts : List Act) :
    offered (a :: acts) = a.entry?.toList ++ offered acts := by
  cases a <;> rfl

/-! ## The history -/

theorem history_act (j : Journal) (a : Act) :
    (j.act a).1.history = j.history ++ a.entry?.toList := by
  cases a with
  | add e => exact List.reverse_cons
  | read r => cases r <;> exact (List.append_nil _).symm

/-- Everything that comes gets into the history, once and in order. -/
theorem history_after (j : Journal) (acts : List Act) :
    (j.after acts).history = j.history ++ offered acts := by
  induction acts generalizing j with
  | nil => exact (List.append_nil _).symm
  | cons a rest ih =>
    rw [after, ih, history_act, List.append_assoc, offered_cons]

/-! ## Longer journals -/

/-- The journal after some entries came. -/
def addAll (j : Journal) (entries : List Entry) : Journal := j.after (entries.map .add)

/-- The second journal is the first one after some entries came, and nothing was read. -/
def Extends (j j' : Journal) : Prop := ∃ entries, j' = j.addAll entries

theorem Extends.refl (j : Journal) : j.Extends j := ⟨[], rfl⟩

theorem Extends.trans {j' j'' : Journal} (h : j.Extends j') (h' : j'.Extends j'') :
    j.Extends j'' := by
  obtain ⟨entries, rfl⟩ := h
  obtain ⟨entries', rfl⟩ := h'
  exact ⟨entries ++ entries', by rw [addAll, addAll, addAll, List.map_append, after_append]⟩

theorem extends_log (j : Journal) (level : Level) (source message : String) :
    j.Extends (j.log level source message) := ⟨[⟨level, source, message⟩], rfl⟩

theorem offered_add (entries : List Entry) : offered (entries.map .add) = entries :=
  List.filterMap_map.trans List.filterMap_some

theorem reading?_add (entries : List Entry) :
    (entries.map .add).filterMap Act.reading? = [] := by
  rw [List.filterMap_map]
  exact List.filterMap_eq_nil_iff.mpr fun _ _ => rfl

theorem given_add (j : Journal) (entries : List Entry) : j.given (entries.map .add) = [] := by
  induction entries generalizing j with
  | nil => rfl
  | cons e rest ih => exact ih (j.add e)

theorem history_addAll (j : Journal) (entries : List Entry) :
    (j.addAll entries).history = j.history ++ entries := by
  rw [addAll, history_after, offered_add]

/-- The entries that came are those that the history has more. -/
theorem Extends.eq {j' : Journal} (h : j.Extends j') :
    j' = j.addAll (j'.history.drop j.history.length) := by
  obtain ⟨entries, rfl⟩ := h
  rw [history_addAll, List.drop_left]

/-! ## Capacity -/

theorem capacity_act (j : Journal) (a : Act) : (j.act a).1.capacity = j.capacity := by
  cases a with
  | add e => rfl
  | read r => cases r <;> rfl

theorem capacity_after (j : Journal) (acts : List Act) : (j.after acts).capacity = j.capacity := by
  induction acts generalizing j with
  | nil => rfl
  | cons a rest ih => exact (ih _).trans (j.capacity_act a)

theorem add_unread_of_room {e : Entry} (h : j.hasRoom = true) :
    (j.add e).unread = j.unread.push e := if_pos h

theorem add_unread_of_no_room {e : Entry} (h : ¬ j.hasRoom = true) :
    (j.add e).unread = j.unread := if_neg h

theorem hasRoom_iff : j.hasRoom = true ↔ j.hasReader = true ∧ j.unread.size < j.capacity := by
  rw [hasRoom, Bool.and_eq_true, decide_eq_true_eq]

theorem size_read_le (j : Journal) (r : Reading) : (j.read r).1.unread.size ≤ j.unread.size := by
  cases r with
  | take n =>
    change (j.unread.extract n j.unread.size).size ≤ j.unread.size
    rw [Array.size_extract, Nat.min_self]
    exact Nat.sub_le ..
  | drain | leave => exact Nat.zero_le _

/-- A journal never has more unread entries than it may. -/
theorem size_act (h : j.unread.size ≤ j.capacity) (a : Act) :
    (j.act a).1.unread.size ≤ (j.act a).1.capacity := by
  rw [capacity_act]
  cases a with
  | add e =>
    by_cases hroom : j.hasRoom = true
    · change (j.add e).unread.size ≤ j.capacity
      rw [add_unread_of_room hroom, Array.size_push]
      exact (hasRoom_iff.mp hroom).2
    · change (j.add e).unread.size ≤ j.capacity
      rwa [add_unread_of_no_room hroom]
  | read r => exact Nat.le_trans (j.size_read_le r) h

theorem size_after (h : j.unread.size ≤ j.capacity) (acts : List Act) :
    (j.after acts).unread.size ≤ j.capacity := by
  induction acts generalizing j with
  | nil => exact h
  | cons a rest ih => exact j.capacity_act a ▸ ih (size_act h a)

theorem hasReader_act (j : Journal) (a : Act) :
    (j.act a).1.hasReader = (j.hasReader && a ≠ .read .leave) := by
  cases a with
  | add e => exact (Bool.and_true _).symm
  | read r =>
    cases r with
    | take | drain => exact (Bool.and_true _).symm
    | leave => exact (Bool.and_false _).symm

/-! ## First come, first served -/

theorem read_conserved (j : Journal) {r : Reading} (hstays : r ≠ .leave) :
    (j.read r).2 ++ (j.read r).1.unread.toList = j.unread.toList := by
  cases r with
  | take n =>
    have hsplit : j.unread.extract 0 n ++ j.unread.extract n j.unread.size = j.unread := by
      rw [Array.extract_append_extract, Nat.zero_min]
      exact Array.extract_eq_self_of_le (Nat.le_max_right ..)
    change (j.unread.extract 0 n).toList ++ (j.unread.extract n j.unread.size).toList = _
    rw [← Array.toList_append, hsplit]
  | drain => exact List.append_nil _
  | leave => exact absurd rfl hstays

theorem act_conserved (j : Journal) (hstays : a ≠ .read .leave) :
    (j.act a).2 ++ (j.act a).1.unread.toList =
      j.unread.toList ++ if j.hasRoom then a.entry?.toList else [] := by
  cases a with
  | add e =>
    change (j.add e).unread.toList = _
    by_cases hroom : j.hasRoom = true
    · rw [add_unread_of_room hroom, if_pos hroom, Array.toList_push]
      rfl
    · rw [add_unread_of_no_room hroom, if_neg hroom, List.append_nil]
  | read r =>
    refine (j.read_conserved fun h => hstays (h ▸ rfl)).trans ?_
    exact ((congrArg (j.unread.toList ++ ·) (ite_self _)).trans (List.append_nil _)).symm

theorem given_conserved (j : Journal) (hstays : .read .leave ∉ acts) :
    j.given acts ++ (j.after acts).unread.toList = j.unread.toList ++ j.kept acts := by
  induction acts generalizing j with
  | nil => exact (List.append_nil _).symm
  | cons a rest ih =>
    obtain ⟨ha, hrest⟩ := List.ne_and_not_mem_of_not_mem_cons hstays
    rw [given, after, kept, List.append_assoc, ih _ hrest, ← List.append_assoc,
      act_conserved j ha.symm, List.append_assoc]

theorem not_hasRoom_of_gone (hgone : j.hasReader = false) : ¬ j.hasRoom = true := fun hroom => by
  rw [(hasRoom_iff.mp hroom).1] at hgone
  exact nomatch hgone

theorem read_of_empty (hunread : j.unread = #[]) (r : Reading) :
    (j.read r).2 = [] ∧ (j.read r).1.unread = #[] := by
  by_cases hr : r = .leave
  · subst hr
    exact ⟨rfl, rfl⟩
  · have hconserved := j.read_conserved hr
    rw [hunread] at hconserved
    obtain ⟨htaken, hleft⟩ := List.append_eq_nil_iff.mp hconserved
    exact ⟨htaken, Array.toList_eq_nil_iff.mp hleft⟩

/-- A reader who has gone is given nothing more. -/
theorem given_of_gone (hgone : j.hasReader = false) (hunread : j.unread = #[]) :
    j.given acts = [] := by
  induction acts generalizing j with
  | nil => rfl
  | cons a rest ih =>
    have hgone' : (j.act a).1.hasReader = false := by rw [hasReader_act, hgone, Bool.false_and]
    rw [given]
    cases a with
    | add e => exact ih hgone' ((add_unread_of_no_room (not_hasRoom_of_gone hgone)).trans hunread)
    | read r =>
      obtain ⟨htaken, hleft⟩ := read_of_empty hunread r
      exact (congrArg (· ++ _) htaken).trans (ih hgone' hleft)

/-- What the reader is given is the first of what he has not read and what is kept. When he goes
away, he leaves the rest. -/
theorem given_prefix (j : Journal) (acts : List Act) :
    j.given acts <+: j.unread.toList ++ j.kept acts := by
  induction acts generalizing j with
  | nil => exact List.nil_prefix
  | cons a rest ih =>
    by_cases ha : a = .read .leave
    · -- Nothing is given from now on, whatever is unread or comes.
      subst ha
      have hnone : j.given (.read .leave :: rest) = [] := given_of_gone (j := j.dropReader) rfl rfl
      rw [hnone]
      exact List.nil_prefix
    · rw [given, kept, ← List.append_assoc, ← act_conserved j ha, List.append_assoc]
      exact List.prefix_append_right_inj _ |>.mpr (ih _)

theorem kept_sublist (j : Journal) (acts : List Act) : (j.kept acts).Sublist (offered acts) := by
  induction acts generalizing j with
  | nil => exact .slnil
  | cons a rest ih =>
    rw [kept, offered_cons]
    refine List.Sublist.append ?_ (ih _)
    split
    · exact List.Sublist.refl _
    · exact List.nil_sublist _

/-! ## Room for all -/

theorem size_act_le (j : Journal) (a : Act) :
    (j.act a).1.unread.size ≤ j.unread.size + a.entry?.toList.length := by
  cases a with
  | add e =>
    change (j.add e).unread.size ≤ j.unread.size + 1
    by_cases hroom : j.hasRoom = true
    · exact Nat.le_of_eq (by rw [add_unread_of_room hroom, Array.size_push])
    · rw [add_unread_of_no_room hroom]
      exact Nat.le_succ _
  | read r => exact j.size_read_le r

/-- There is a reader, and room for all that is going to come. -/
structure Ample (j : Journal) (acts : List Act) : Prop where
  hasReader : j.hasReader = true
  fits : j.unread.size + (offered acts).length ≤ j.capacity

theorem Ample.hasRoom {e : Entry} {rest : List Act} (h : j.Ample (.add e :: rest)) :
    j.hasRoom = true := by
  have hfits := h.fits
  rw [offered_cons, List.length_append] at hfits
  change j.unread.size + (1 + (offered rest).length) ≤ j.capacity at hfits
  exact hasRoom_iff.mpr ⟨h.hasReader, by omega⟩

theorem Ample.act {rest : List Act} (h : j.Ample (a :: rest)) (hstays : a ≠ .read .leave) :
    (j.act a).1.Ample rest := by
  have hfits := h.fits
  have hsize := j.size_act_le a
  rw [offered_cons, List.length_append] at hfits
  refine ⟨?_, ?_⟩
  · rw [hasReader_act, h.hasReader, Bool.true_and]
    exact decide_eq_true hstays
  · rw [capacity_act]
    omega

/-- A reader who stays loses nothing where there is room for everything. -/
theorem Ample.kept_eq (h : j.Ample acts) (hstays : .read .leave ∉ acts) :
    j.kept acts = offered acts := by
  induction acts generalizing j with
  | nil => rfl
  | cons a rest ih =>
    obtain ⟨ha, hrest⟩ := List.ne_and_not_mem_of_not_mem_cons hstays
    rw [kept, offered_cons, ih (h.act ha.symm) hrest]
    cases a with
    | add e => rw [if_pos h.hasRoom]
    | read r => exact congrArg (· ++ _) (ite_self _)

/-- The reader of a journal with less room is given a part of what the reader of a journal with
room for everything is given, if both take all there is at the same times and go away at the same
time. -/
theorem given_sublist {j' : Journal} (hreader : j.hasReader = j'.hasReader)
    (hunread : j.unread.toList.Sublist j'.unread.toList)
    (hample : j'.hasReader = true → j'.Ample acts)
    (htakes : ∀ n, .read (.take n) ∉ acts) : (j.given acts).Sublist (j'.given acts) := by
  induction acts generalizing j j' with
  | nil => exact .slnil
  | cons a rest ih =>
    have htakes' (n) : .read (.take n) ∉ rest := fun h => htakes n (List.mem_cons_of_mem _ h)
    cases a with
    | add e =>
      -- What is unread stays a part of what is unread where there is room for everything.
      have hadded : (j.add e).unread.toList.Sublist (j'.add e).unread.toList := by
        cases hgone : j'.hasReader with
        | true =>
          rw [add_unread_of_room (hample hgone).hasRoom, Array.toList_push]
          by_cases hroom : j.hasRoom = true
          · rw [add_unread_of_room hroom, Array.toList_push]
            exact hunread.append (.refl _)
          · rw [add_unread_of_no_room hroom]
            exact hunread.trans (List.sublist_append_left ..)
        | false =>
          rw [add_unread_of_no_room (not_hasRoom_of_gone hgone),
            add_unread_of_no_room (not_hasRoom_of_gone (hreader.trans hgone))]
          exact hunread
      have hadded_reader : (j.add e).hasReader = (j'.add e).hasReader := hreader
      exact ih hadded_reader hadded (fun h => (hample h).act nofun) htakes'
    | read r =>
      cases r with
      | take n => exact absurd (List.mem_cons_self ..) (htakes n)
      | drain => exact hunread.append (ih hreader (.refl _) (fun h => (hample h).act nofun) htakes')
      | leave => exact ih rfl (.refl _) nofun htakes'

/-! ## The account -/

/-- What is true of a journal that begins without entries, whatever happens to it. -/
structure Account (capacity : Nat) (acts : List Act) : Prop where
  /-- Everything that comes is in the history, once and in order. -/
  history : ((ofCapacity capacity).after acts).history = offered acts
  /-- Some of it is kept, in order. -/
  kept : ((ofCapacity capacity).kept acts).Sublist (offered acts)
  /-- What is kept is given to the reader, in order. -/
  given : (ofCapacity capacity).given acts <+: (ofCapacity capacity).kept acts
  /-- As long as the reader stays, what he is not given is unread. -/
  unread : .read .leave ∉ acts → (ofCapacity capacity).given acts ++
    ((ofCapacity capacity).after acts).unread.toList = (ofCapacity capacity).kept acts
  /-- Every entry that comes is kept in its place, unless as many entries as may be are unread when
  it comes, or the reader is gone. -/
  refused : ∀ before e rest, acts = before ++ .add e :: rest →
    let j := (ofCapacity capacity).after before
    (ofCapacity capacity).kept acts =
        (ofCapacity capacity).kept before ++ e :: (j.add e).kept rest ∨
      j.unread.size = capacity ∨ .read .leave ∈ before
  /-- Where there is room for everything, everything is kept for a reader who stays. -/
  ample : (offered acts).length ≤ capacity → .read .leave ∉ acts →
    (ofCapacity capacity).kept acts = offered acts
  /-- With room for everything, a reader who takes all there is, is given no less. -/
  room : ∀ capacity', (offered acts).length ≤ capacity' → (∀ n, .read (.take n) ∉ acts) →
    ((ofCapacity capacity).given acts).Sublist ((ofCapacity capacity').given acts)

theorem hasReader_after (j : Journal) (acts : List Act) (hstays : .read .leave ∉ acts) :
    (j.after acts).hasReader = j.hasReader := by
  induction acts generalizing j with
  | nil => rfl
  | cons a rest ih =>
    obtain ⟨ha, hrest⟩ := List.ne_and_not_mem_of_not_mem_cons hstays
    rw [after, ih _ hrest, hasReader_act, decide_eq_true ha.symm, Bool.and_true]

theorem ofCapacity_ample {capacity : Nat} (h : (offered acts).length ≤ capacity) :
    (ofCapacity capacity).Ample acts := ⟨rfl, (Nat.zero_add _).symm ▸ h⟩

theorem account (capacity : Nat) (acts : List Act) : Account capacity acts where
  history := history_after _ acts
  kept := kept_sublist _ acts
  given := given_prefix _ acts
  unread := given_conserved _
  refused := by
    intro before e rest hacts j
    refine or_iff_not_imp_right.mpr fun hroom => ?_
    obtain ⟨hfull, hstays⟩ := not_or.mp hroom
    have hsize : j.unread.size ≤ capacity :=
      size_after (j := ofCapacity capacity) (Nat.zero_le _) before
    have hreader : j.hasReader = true := hasReader_after (ofCapacity capacity) before hstays
    have hcapacity : j.capacity = capacity := capacity_after (ofCapacity capacity) before
    have hlt : j.unread.size < j.capacity := hcapacity ▸ Nat.lt_of_le_of_ne hsize hfull
    rw [hacts, kept_append, kept, if_pos (hasRoom_iff.mpr ⟨hreader, hlt⟩)]
    rfl
  ample := fun hfits hstays => (ofCapacity_ample hfits).kept_eq hstays
  room := fun _ hfits => given_sublist rfl (.refl _) fun _ => ofCapacity_ample hfits

end Journal

end Chip8
