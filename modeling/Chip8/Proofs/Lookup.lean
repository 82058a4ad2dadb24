import Chip8.Proofs.Trie
import Chip8.Table.Standard
import Mathlib.Data.List.Nodup

/-!
# Looking a word up in a table

`Table.register` keeps handlers in an array and their places in a trie. `Indexed` says that
the two agree: a path of the trie leads to a place exactly if the handler there has that path
for its pattern. Registering keeps this (`register_indexed`), so a table is described by its
`holder`, the handler that stands under a pattern, and

> `holder_registerAll`: under each pattern stands the latest handler with that pattern.

Together with what `Trie.find` does this says which handler a word gets:

> `lookup_registerAll`: the latest handler of the one matching pattern that beats all other
> matching ones, and none if no pattern matches. So the order of handlers with different
> patterns is of no account, and a handler is of no account for the words that it does not
> match.
-/

namespace Chip8

/-! ## Patterns as paths -/

namespace Pattern

theorem toList_length (p : Pattern) : p.toList.length = 4 := Vector.length_toList

theorem toList_injective {p q : Pattern} (h : p.toList = q.toList) : p = q := by
  cases p
  cases q
  exact congrArg Pattern.mk (Vector.toList_inj.mp h)

/-- Every path of four places is a pattern. -/
theorem exists_toList {path : List (Option Nibble)} (h : path.length = 4) :
    ∃ p : Pattern, p.toList = path :=
  ⟨⟨⟨path.toArray, by rw [List.size_toArray, h]⟩⟩, rfl⟩

private theorem all_zip_iff : ∀ {path : List (Option Nibble)} {digits : List Nibble},
    path.length = digits.length →
      (((path.zip digits).all fun (slot, digit) => slot.all (· == digit)) = true ↔
        List.Forall₂ Admits path digits)
  | [], [], _ => by simp
  | slot :: path, d :: digits, h => by
    rw [List.length_cons, List.length_cons, Nat.succ_inj] at h
    rw [List.zip_cons_cons, List.all_cons, Bool.and_eq_true, all_zip_iff h, List.forall₂_cons]
    refine and_congr_left fun _ => ?_
    cases slot with
    | none => simp [Admits]
    | some e => simp [Admits]

/-- A word is accepted if its digits may take the path that the pattern spells. -/
theorem accepts_iff (p : Pattern) (word : UInt16) :
    p.accepts word = true ↔ List.Forall₂ Admits p.toList (nibbles word) :=
  all_zip_iff p.toList_length

end Pattern

namespace Table

/-! ## Handlers and their places -/

/-- The trie leads to a place exactly if the handler there has the path for its pattern. -/
def Indexed (t : Table) : Prop :=
  ∀ (p : Pattern) (i : Nat),
    t.trie.get 4 p.toList = some i ↔ ∃ h, t.handlers[i]? = some h ∧ h.pattern = p

/-- The handler that stands under a pattern. -/
def holder (t : Table) (p : Pattern) : Option Handler :=
  (t.trie.get 4 p.toList).bind fun place => t.handlers[place]?

theorem empty_indexed : empty.Indexed := by
  intro p i
  have hget : empty.trie.get 4 p.toList = none := by
    have hlen := p.toList_length
    cases hp : p.toList with
    | nil => rw [hp] at hlen; exact nomatch hlen
    | cons key keys => rw [empty, Trie.get_cons, Fork.branch_empty, Option.bind_none]
  rw [hget]
  simp [empty]

/-- A new pattern gets the next place. -/
theorem register_of_get_none {t : Table} {h : Handler}
    (hget : t.trie.get 4 h.pattern.toList = none) :
    t.register h =
      (⟨t.handlers.push h, (t.trie.insert 4 h.pattern.toList t.handlers.size).1⟩, none) := by
  have hold := Trie.insert_snd 4 t.trie t.handlers.size h.pattern.toList_length
  rw [hget] at hold
  unfold register
  split
  next trie hins => rw [hins]
  next trie place hins => rw [hins] at hold; exact nomatch hold

/-- A pattern that is there keeps its place. -/
theorem register_of_get_some {t : Table} {h : Handler} {place : Nat}
    (hget : t.trie.get 4 h.pattern.toList = some place) :
    t.register h =
      (⟨t.handlers.setIfInBounds place h,
        ((t.trie.insert 4 h.pattern.toList t.handlers.size).1.insert 4
          h.pattern.toList place).1⟩, t.handlers[place]?) := by
  have hold := Trie.insert_snd 4 t.trie t.handlers.size h.pattern.toList_length
  rw [hget] at hold
  unfold register
  split
  next trie hins => rw [hins] at hold; exact nomatch hold
  next trie place' hins =>
    rw [hins, Option.some_inj] at hold
    rw [hins, hold]

/-- The place of each pattern after a handler was registered. -/
theorem get_register (t : Table) (h : Handler) (p : Pattern) :
    (t.register h).1.trie.get 4 p.toList =
      if h.pattern = p then some ((t.trie.get 4 p.toList).getD t.handlers.size)
      else t.trie.get 4 p.toList := by
  have hpat : h.pattern.toList = p.toList ↔ h.pattern = p :=
    ⟨Pattern.toList_injective, congrArg Pattern.toList⟩
  have hlen := h.pattern.toList_length
  have hlenp := p.toList_length
  cases hget : t.trie.get 4 h.pattern.toList with
  | none =>
    rw [register_of_get_none hget, Trie.get_insert 4 _ _ hlen hlenp]
    by_cases hp : h.pattern = p
    · rw [if_pos (hpat.mpr hp), if_pos hp, ← hp, hget, Option.getD_none]
    · rw [if_neg fun e => hp (hpat.mp e), if_neg hp]
  | some place =>
    rw [register_of_get_some hget, Trie.get_insert 4 _ _ hlen hlenp,
      Trie.get_insert 4 _ _ hlen hlenp]
    by_cases hp : h.pattern = p
    · rw [if_pos (hpat.mpr hp), if_pos hp, ← hp, hget, Option.getD_some]
    · rw [if_neg fun e => hp (hpat.mp e), if_neg fun e => hp (hpat.mp e), if_neg hp]

/-- The handler at each place after a handler was registered. -/
theorem getElem?_register {t : Table} (ht : t.Indexed) (h : Handler) (i : Nat) :
    (t.register h).1.handlers[i]? =
      if i = (t.trie.get 4 h.pattern.toList).getD t.handlers.size then some h
      else t.handlers[i]? := by
  cases hget : t.trie.get 4 h.pattern.toList with
  | none => rw [register_of_get_none hget, Array.getElem?_push, Option.getD_none]
  | some place =>
    obtain ⟨old, hold, -⟩ := (ht h.pattern place).mp hget
    obtain ⟨hlt, -⟩ := Array.getElem?_eq_some_iff.mp hold
    rw [register_of_get_some hget, Array.getElem?_setIfInBounds, Option.getD_some]
    by_cases hi : place = i
    · rw [if_pos hi, if_pos hi.symm, if_pos hlt]
    · rw [if_neg hi, if_neg fun e => hi e.symm]

/-- The place that a handler gets is not the place of another pattern. -/
theorem Indexed.ne_place {t : Table} (ht : t.Indexed) {h : Handler} {p : Pattern} {i : Nat}
    (hp : h.pattern ≠ p) (hget : t.trie.get 4 p.toList = some i) :
    i ≠ (t.trie.get 4 h.pattern.toList).getD t.handlers.size := by
  obtain ⟨h', hi, rfl⟩ := (ht p i).mp hget
  cases hgeth : t.trie.get 4 h.pattern.toList with
  | none =>
    obtain ⟨hlt, -⟩ := Array.getElem?_eq_some_iff.mp hi
    exact Nat.ne_of_lt hlt
  | some place =>
    intro hplace
    obtain ⟨h'', hi', hpat⟩ := (ht h.pattern place).mp hgeth
    rw [← show i = place from hplace, hi, Option.some_inj] at hi'
    exact hp (hi' ▸ hpat.symm)

/-- Registering keeps array and trie in agreement. -/
theorem register_indexed {t : Table} (ht : t.Indexed) (h : Handler) :
    (t.register h).1.Indexed := by
  intro p i
  rw [get_register, getElem?_register ht]
  by_cases hp : h.pattern = p
  · subst hp
    rw [if_pos rfl, Option.some_inj]
    constructor
    · intro hplace
      subst hplace
      exact ⟨h, if_pos rfl, rfl⟩
    · intro hholder
      obtain ⟨h', hi, hpat⟩ := hholder
      by_contra hne
      rw [if_neg fun e => hne e.symm] at hi
      rw [(ht h.pattern i).mpr ⟨h', hi, hpat⟩] at hne
      exact hne rfl
  · rw [if_neg hp]
    constructor
    · intro hget
      rw [if_neg (ht.ne_place hp hget)]
      exact (ht p i).mp hget
    · intro hholder
      obtain ⟨h', hi, hpat⟩ := hholder
      split at hi
      next => exact absurd ((congrArg Handler.pattern (Option.some_inj.mp hi)).trans hpat) hp
      next => exact (ht p i).mpr ⟨h', hi, hpat⟩

/-- The handler under each pattern after a handler was registered. -/
theorem holder_register {t : Table} (ht : t.Indexed) (h : Handler) (p : Pattern) :
    (t.register h).1.holder p = if h.pattern = p then some h else t.holder p := by
  unfold holder
  rw [get_register]
  by_cases hp : h.pattern = p
  · rw [if_pos hp, if_pos hp, Option.bind_some, getElem?_register ht, ← hp, if_pos rfl]
  · rw [if_neg hp, if_neg hp]
    cases hget : t.trie.get 4 p.toList with
    | none => rfl
    | some i =>
      rw [Option.bind_some, Option.bind_some, getElem?_register ht, if_neg (ht.ne_place hp hget)]

theorem registerAll_indexed {t : Table} (ht : t.Indexed) (hs : List Handler) :
    (t.registerAll hs).Indexed := by
  unfold registerAll
  induction hs generalizing t with
  | nil => exact ht
  | cons h hs ih => exact ih (register_indexed ht h)

/-! ## The best handler for a word -/

theorem holder_eq_none_iff {t : Table} (ht : t.Indexed) (p : Pattern) :
    t.holder p = none ↔ t.trie.get 4 p.toList = none := by
  unfold holder
  cases hget : t.trie.get 4 p.toList with
  | none => exact ⟨fun _ => rfl, fun _ => rfl⟩
  | some i =>
    obtain ⟨h, hi, -⟩ := (ht p i).mp hget
    rw [Option.bind_some, hi]
    simp

/-- A handler is the best for a word: it stands under its pattern, the pattern accepts the
word, and it beats every other such pattern. -/
def Best (t : Table) (word : UInt16) (h : Handler) : Prop :=
  t.holder h.pattern = some h ∧ h.pattern.accepts word = true ∧
    ∀ p : Pattern, p.accepts word = true → t.holder p ≠ none →
      p = h.pattern ∨ Beats h.pattern.toList p.toList

/-- There is at most one best handler. -/
theorem Best.unique {t : Table} {word : UInt16} {h h' : Handler} (hb : t.Best word h)
    (hb' : t.Best word h') : h = h' := by
  obtain ⟨hh, hacc, hbest⟩ := hb
  obtain ⟨hh', hacc', hbest'⟩ := hb'
  have hpat : h.pattern = h'.pattern := by
    rcases hbest' h.pattern hacc (by rw [hh]; exact Option.some_ne_none h) with heq | hbeats
    · exact heq
    · rcases hbest h'.pattern hacc' (by rw [hh']; exact Option.some_ne_none h') with heq | hbeats'
      · exact heq.symm
      · exact absurd hbeats' hbeats.asymm
  rw [hpat, hh', Option.some_inj] at hh
  exact hh.symm

/-- What looking up gives: either the best handler, or nothing because there is none. -/
theorem lookup_cases {t : Table} (ht : t.Indexed) (word : UInt16) :
    (∃ h, t.lookup word = some h ∧ t.Best word h) ∨
      (t.lookup word = none ∧ ∀ p : Pattern, p.accepts word = true → t.holder p = none) := by
  unfold lookup
  cases hfind : t.trie.find 4 (nibbles word) with
  | none =>
    refine Or.inr ⟨rfl, fun p hacc => (holder_eq_none_iff ht p).mpr ?_⟩
    exact Trie.find_none 4 t.trie rfl hfind p.toList (p.accepts_iff word |>.mp hacc)
  | some i =>
    obtain ⟨path, hpath, hget, hbest⟩ := Trie.find_some 4 t.trie rfl hfind
    obtain ⟨p, rfl⟩ := Pattern.exists_toList (hpath.length_eq.trans rfl)
    obtain ⟨h, hi, rfl⟩ := (ht p i).mp hget
    refine Or.inl ⟨h, hi, ?_, (h.pattern.accepts_iff word).mpr hpath, ?_⟩
    · rw [holder, hget, Option.bind_some, hi]
    · intro q hacc hne
      rw [ne_eq, holder_eq_none_iff ht] at hne
      rcases hbest q.toList ((q.accepts_iff word).mp hacc) hne with heq | hbeats
      · exact Or.inl (Pattern.toList_injective heq)
      · exact Or.inr hbeats

theorem lookup_eq_some_iff {t : Table} (ht : t.Indexed) (word : UInt16) (h : Handler) :
    t.lookup word = some h ↔ t.Best word h := by
  rcases lookup_cases ht word with ⟨g, hg, hb⟩ | ⟨hnone, hno⟩
  · rw [hg, Option.some_inj]
    constructor
    · intro heq
      exact heq ▸ hb
    · exact fun hb' => hb.unique hb'
  · rw [hnone]
    constructor
    · exact fun e => nomatch e
    · intro hbest
      obtain ⟨hh, hacc, -⟩ := hbest
      rw [hno h.pattern hacc] at hh
      exact nomatch hh

theorem lookup_eq_none_iff {t : Table} (ht : t.Indexed) (word : UInt16) :
    t.lookup word = none ↔ ∀ p : Pattern, p.accepts word = true → t.holder p = none := by
  rcases lookup_cases ht word with ⟨g, hg, hh, hacc, -⟩ | ⟨hnone, hno⟩
  · rw [hg]
    constructor
    · exact fun e => nomatch e
    · intro hno
      rw [hno g.pattern hacc] at hh
      exact nomatch hh
  · exact ⟨fun _ => hno, fun _ => hnone⟩

/-! ## The latest handler of a pattern -/

/-- Of some handlers, the last one with a pattern. -/
def latest (hs : List Handler) (p : Pattern) : Option Handler :=
  hs.reverse.find? fun h => h.pattern = p

theorem latest_cons (h : Handler) (hs : List Handler) (p : Pattern) :
    latest (h :: hs) p = (latest hs p).or (if h.pattern = p then some h else none) := by
  unfold latest
  rw [List.reverse_cons, List.find?_append, List.find?_singleton]
  simp only [decide_eq_true_eq]

theorem latest_append_singleton (hs : List Handler) (h : Handler) (p : Pattern) :
    latest (hs ++ [h]) p = if h.pattern = p then some h else latest hs p := by
  unfold latest
  rw [List.reverse_append, List.reverse_singleton, List.singleton_append, List.find?_cons]
  by_cases hp : h.pattern = p
  · rw [if_pos hp, decide_eq_true hp]
  · rw [if_neg hp, decide_eq_false hp]

theorem latest_mem {hs : List Handler} {p : Pattern} {h : Handler} (hl : latest hs p = some h) :
    h ∈ hs ∧ h.pattern = p := by
  unfold latest at hl
  have hpat := List.find?_some hl
  exact ⟨List.mem_reverse.mp (List.mem_of_find?_eq_some hl), of_decide_eq_true hpat⟩

theorem latest_eq_none_iff {hs : List Handler} {p : Pattern} :
    latest hs p = none ↔ ∀ h ∈ hs, h.pattern ≠ p := by
  simp [latest]

/-- Where no pattern comes twice, each handler is the latest of its pattern. -/
theorem latest_eq_some_iff_of_nodup {hs : List Handler} (hnd : (hs.map Handler.pattern).Nodup)
    {p : Pattern} {h : Handler} : latest hs p = some h ↔ h ∈ hs ∧ h.pattern = p := by
  refine ⟨latest_mem, fun ⟨hmem, hpat⟩ => ?_⟩
  cases hl : latest hs p with
  | none => exact absurd hpat (latest_eq_none_iff.mp hl h hmem)
  | some h' =>
    obtain ⟨hmem', hpat'⟩ := latest_mem hl
    rw [List.inj_on_of_nodup_map hnd hmem' hmem (hpat'.trans hpat.symm)]

theorem holder_registerAll_of {t : Table} (ht : t.Indexed) (hs : List Handler) (p : Pattern) :
    (t.registerAll hs).holder p = (latest hs p).or (t.holder p) := by
  induction hs generalizing t with
  | nil => rfl
  | cons h hs ih =>
    have hstep : t.registerAll (h :: hs) = (t.register h).1.registerAll hs := rfl
    rw [hstep, ih (register_indexed ht h), holder_register ht, latest_cons]
    by_cases hp : h.pattern = p
    · rw [if_pos hp, if_pos hp]
      cases latest hs p <;> rfl
    · rw [if_neg hp, if_neg hp]
      cases latest hs p <;> rfl

/-- Under each pattern stands the latest handler with that pattern. -/
theorem holder_registerAll (hs : List Handler) (p : Pattern) :
    (empty.registerAll hs).holder p = latest hs p := by
  have hempty : empty.holder p = none := by
    rw [holder_eq_none_iff empty_indexed]
    cases hget : empty.trie.get 4 p.toList with
    | none => rfl
    | some i => obtain ⟨h, hi, -⟩ := (empty_indexed p i).mp hget; exact nomatch hi
  rw [holder_registerAll_of empty_indexed, hempty, Option.or_none]

/-- The best handler for a word, in terms of the handlers that were registered. -/
theorem best_registerAll_iff (hs : List Handler) (word : UInt16) (h : Handler) :
    (empty.registerAll hs).Best word h ↔
      latest hs h.pattern = some h ∧ h.pattern.accepts word = true ∧
        ∀ h' ∈ hs, h'.pattern.accepts word = true →
          h'.pattern = h.pattern ∨ Beats h.pattern.toList h'.pattern.toList := by
  unfold Best
  rw [holder_registerAll]
  refine and_congr_right fun _ => and_congr_right fun _ => ?_
  constructor
  · intro hbest h' hmem hacc
    refine hbest h'.pattern hacc ?_
    rw [holder_registerAll]
    exact fun hnone => latest_eq_none_iff.mp hnone h' hmem rfl
  · intro hbest p hacc hne
    rw [holder_registerAll] at hne
    obtain ⟨h', hl⟩ := Option.ne_none_iff_exists'.mp hne
    obtain ⟨hmem, rfl⟩ := latest_mem hl
    exact hbest h' hmem hacc

/-- A word only gets handlers that were registered. -/
theorem mem_of_lookup_registerAll {hs : List Handler} {word : UInt16} {h : Handler}
    (hl : (empty.registerAll hs).lookup word = some h) : h ∈ hs := by
  rw [lookup_eq_some_iff (registerAll_indexed empty_indexed hs), best_registerAll_iff] at hl
  exact (latest_mem hl.1).1

/-- Looking a word up in a table that was made by registering handlers, whatever they are:

* there is no handler if no registered pattern matches the word;
* otherwise it is the latest handler of the one matching pattern that beats all others;
* handlers with different patterns can come in any order;
* one more handler is of no account for a word that it does not match. -/
theorem lookup_registerAll (hs : List Handler) (word : UInt16) :
    ((empty.registerAll hs).lookup word = none ↔ ∀ h ∈ hs, h.pattern.accepts word = false) ∧
    (∀ h, (empty.registerAll hs).lookup word = some h ↔
      latest hs h.pattern = some h ∧ h.pattern.accepts word = true ∧
        ∀ h' ∈ hs, h'.pattern.accepts word = true →
          h'.pattern = h.pattern ∨ Beats h.pattern.toList h'.pattern.toList) ∧
    (∀ hs' : List Handler, hs.Perm hs' → (hs.map Handler.pattern).Nodup →
      (empty.registerAll hs').lookup word = (empty.registerAll hs).lookup word) ∧
    ∀ h : Handler, h.pattern.accepts word = false →
      ((empty.registerAll hs).register h).1.lookup word = (empty.registerAll hs).lookup word := by
  have hsome : ∀ (hs : List Handler) (h : Handler), (empty.registerAll hs).lookup word = some h ↔
      latest hs h.pattern = some h ∧ h.pattern.accepts word = true ∧
        ∀ h' ∈ hs, h'.pattern.accepts word = true →
          h'.pattern = h.pattern ∨ Beats h.pattern.toList h'.pattern.toList := fun hs h =>
    (lookup_eq_some_iff (registerAll_indexed empty_indexed hs) word h).trans
      (best_registerAll_iff hs word h)
  refine ⟨?_, hsome hs, ?_, ?_⟩
  · rw [lookup_eq_none_iff (registerAll_indexed empty_indexed hs)]
    constructor
    · intro hno h hmem
      by_contra hacc
      have hnone := hno h.pattern (Bool.not_eq_false _ ▸ hacc)
      rw [holder_registerAll] at hnone
      exact latest_eq_none_iff.mp hnone h hmem rfl
    · intro hno p hacc
      rw [holder_registerAll, latest_eq_none_iff]
      intro h hmem hpat
      rw [← hpat, hno h hmem] at hacc
      exact nomatch hacc
  · intro hs' hperm hnd
    have hnd' : (hs'.map Handler.pattern).Nodup := (hperm.map _).nodup_iff.mp hnd
    refine Option.ext fun h => ?_
    rw [hsome, hsome, latest_eq_some_iff_of_nodup hnd, latest_eq_some_iff_of_nodup hnd']
    simp only [hperm.mem_iff]
  · intro h hrej
    have happend : ((empty.registerAll hs).register h).1 = empty.registerAll (hs ++ [h]) := by
      rw [registerAll, registerAll, List.foldl_append]
      rfl
    rw [happend]
    refine Option.ext fun g => ?_
    rw [hsome, hsome, latest_append_singleton]
    -- A handler that the word gets has another pattern than the new one.
    have hne : g.pattern.accepts word = true → h.pattern ≠ g.pattern := by
      intro hacc heq
      rw [heq, hacc] at hrej
      exact nomatch hrej
    constructor
    · intro hnew
      obtain ⟨hl, hacc, hbest⟩ := hnew
      rw [if_neg (hne hacc)] at hl
      exact ⟨hl, hacc, fun h' hmem => hbest h' (List.mem_append_left _ hmem)⟩
    · intro hold
      obtain ⟨hl, hacc, hbest⟩ := hold
      refine ⟨by rw [if_neg (hne hacc), hl], hacc, fun h' hmem hacc' => ?_⟩
      rcases List.mem_append.mp hmem with hmem | hmem
      · exact hbest h' hmem hacc'
      · rw [List.mem_singleton.mp hmem, hrej] at hacc'
        exact nomatch hacc'

/-- Clearing the screen is a machine call by its first digit, but the more definite pattern
wins, whichever of the two is registered first, and a jump makes no difference. -/
theorem lookup_clear_screen :
    let hs := [Op.cls.handler, Op.sys.handler]
    hs.Perm [Op.sys.handler, Op.cls.handler] ∧ (hs.map Handler.pattern).Nodup ∧
      Op.jp.pattern.accepts 0x00e0 = false ∧
      (empty.registerAll hs).lookup 0x00e0 = some Op.cls.handler ∧
      (empty.registerAll [Op.sys.handler, Op.cls.handler]).lookup 0x00e0 =
        (empty.registerAll hs).lookup 0x00e0 ∧
      ((empty.registerAll hs).register Op.jp.handler).1.lookup 0x00e0 =
        (empty.registerAll hs).lookup 0x00e0 := by
  intro hs
  have hperm : hs.Perm [Op.sys.handler, Op.cls.handler] := .swap _ _ _
  have hnd : (hs.map Handler.pattern).Nodup := by decide
  have hrej : Op.jp.pattern.accepts 0x00e0 = false := by decide
  obtain ⟨-, hsome, hany, hother⟩ := lookup_registerAll hs 0x00e0
  refine ⟨hperm, hnd, hrej, (hsome _).mpr ⟨rfl, by decide, ?_⟩, hany _ hperm hnd, hother _ hrej⟩
  intro h' hmem _
  rcases List.mem_cons.mp hmem with rfl | hmem
  · exact Or.inl rfl
  · rw [List.mem_singleton.mp hmem]
    exact Or.inr (.there .here)

end Table

end Chip8
