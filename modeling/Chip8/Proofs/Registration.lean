import Chip8.Proofs.Decode
import Mathlib.Data.List.FinRange
import Mathlib.Data.List.Perm.Lattice
import Mathlib.Data.Prod.Basic

/-!
# The order of the handlers

A table answers with its array of handlers as with a map that remembers the order of its keys:
a handler with a new pattern goes to the end, and a handler with a pattern that is there takes
the place of the old one (`Table.placed`). Registering says so one handler at a time
(`register_placed`), and

> `registerAll_placed`: after any handlers the array holds them as `placed` orders them.

On the way a second handler for a pattern is put into the trie under a number that does not
belong to it, and then once more under the old number. That this leaves nothing behind is a
statement about all the leaves of the trie:

> `Indexed.numbered`: the leaves bear the places of the array, each place once, and the path
> to a leaf spells the pattern of the handler at its place.
-/

namespace Chip8

namespace Trie

/-! ## The leaves of a trie -/

/-- All that can stand at one place of a path. -/
def keys : List (Option Nibble) := none :: (List.finRange 16).map some

theorem mem_keys (key : Option Nibble) : key ∈ keys := by
  cases key with
  | none => exact List.mem_cons_self
  | some d => exact List.mem_cons_of_mem _ (List.mem_map.mpr ⟨d, List.mem_finRange d, rfl⟩)

theorem nodup_keys : keys.Nodup := by decide

/-- Every path of a trie with the number at its end. -/
def leaves : (n : Nat) → Trie n → List (List (Option Nibble) × Nat)
  | 0, number => [([], number)]
  | n + 1, fork =>
    keys.flatMap fun key =>
      (Fork.branch fork key).toList.flatMap fun below =>
        (leaves n below).map (Prod.map (key :: ·) id)

/-- What lies below one branch. -/
theorem mem_leaves_branch {n : Nat} {branch : Option (Trie n)} {key : Option Nibble}
    {path : List (Option Nibble)} {i : Nat} :
    (path, i) ∈ branch.toList.flatMap (fun below =>
        (leaves n below).map (Prod.map (key :: ·) id)) ↔
      ∃ below rest, branch = some below ∧ (rest, i) ∈ leaves n below ∧ key :: rest = path := by
  simp only [List.mem_flatMap, Option.mem_toList, List.mem_map, Prod.exists,
    Prod.map_apply, id_eq, Prod.mk.injEq]
  constructor
  · rintro ⟨below, hbelow, rest, _, hleaf, rfl, rfl⟩
    exact ⟨below, rest, hbelow, hleaf, rfl⟩
  · rintro ⟨below, rest, hbelow, hleaf, rfl⟩
    exact ⟨below, hbelow, rest, i, hleaf, rfl, rfl⟩

/-- The leaves are what `get` finds. -/
theorem mem_leaves : ∀ (n : Nat) (t : Trie n) {path : List (Option Nibble)} {i : Nat},
    (path, i) ∈ leaves n t ↔ path.length = n ∧ get n t path = some i
  | 0, number, path, i => by
    refine List.mem_singleton.trans (Prod.mk_inj.trans ?_)
    rw [List.length_eq_zero_iff]
    exact and_congr_right fun _ => eq_comm.trans Option.some_inj.symm
  | n + 1, fork, path, i => by
    refine List.mem_flatMap.trans ⟨?_, ?_⟩
    · rintro ⟨key, -, hmem⟩
      obtain ⟨below, rest, hbelow, hleaf, rfl⟩ := mem_leaves_branch.mp hmem
      obtain ⟨hlen, hget⟩ := (mem_leaves n below).mp hleaf
      exact ⟨congrArg Nat.succ hlen, Option.bind_eq_some_iff.mpr ⟨below, hbelow, hget⟩⟩
    · rintro ⟨hlen, hget⟩
      obtain ⟨key, rest, rfl⟩ := List.exists_cons_of_length_eq_add_one hlen
      obtain ⟨below, hbelow, hget⟩ := Option.bind_eq_some_iff.mp hget
      have hleaf := (mem_leaves n below).mpr ⟨Nat.succ_inj.mp hlen, hget⟩
      exact ⟨key, mem_keys key, mem_leaves_branch.mpr ⟨below, rest, hbelow, hleaf, rfl⟩⟩

/-- No path leads to two leaves. -/
theorem nodup_leaves : ∀ (n : Nat) (t : Trie n), (leaves n t).Nodup
  | 0, number => List.nodup_singleton _
  | n + 1, fork => by
    refine List.nodup_flatMap.mpr ⟨?_, ?_⟩
    · intro key _
      cases Fork.branch fork key with
      | none => exact List.nodup_nil
      | some below =>
        rw [Option.toList_some, List.flatMap_singleton]
        exact (nodup_leaves n below).map (List.cons_injective.prodMap Function.injective_id)
    · refine nodup_keys.imp fun {key key'} hne => ?_
      rintro ⟨path, i⟩ hmem hmem'
      obtain ⟨-, rest, -, -, rfl⟩ := mem_leaves_branch.mp hmem
      obtain ⟨-, rest', -, -, hpath⟩ := mem_leaves_branch.mp hmem'
      exact hne (List.cons.inj hpath).1.symm

end Trie

namespace Table

/-! ## Handlers in the order of their patterns -/

/-- Handlers with one more: in the place of the one with the same pattern, or else at the end. -/
def placed (h : Handler) : List Handler → List Handler
  | [] => [h]
  | g :: hs => if g.pattern = h.pattern then h :: hs else g :: placed h hs

theorem placed_of_new {h : Handler} : ∀ {hs : List Handler},
    (∀ g ∈ hs, g.pattern ≠ h.pattern) → placed h hs = hs ++ [h]
  | [], _ => rfl
  | g :: hs, hnew => by
    rw [placed, if_neg (hnew g List.mem_cons_self),
      placed_of_new fun g' hmem => hnew g' (List.mem_cons_of_mem _ hmem), List.cons_append]

theorem placed_of_old {h g : Handler} : ∀ {hs : List Handler} {i : Nat},
    (hs.map Handler.pattern).Nodup → hs[i]? = some g → g.pattern = h.pattern →
      placed h hs = hs.set i h
  | g' :: hs, 0, _, hi, hpat => by
    rw [List.getElem?_cons_zero, Option.some_inj] at hi
    rw [placed, hi, if_pos hpat, List.set_cons_zero]
  | g' :: hs, i + 1, hnd, hi, hpat => by
    rw [List.getElem?_cons_succ] at hi
    rw [List.map_cons, List.nodup_cons] at hnd
    have hne : g'.pattern ≠ h.pattern := by
      intro heq
      refine hnd.1 (List.mem_map.mpr ⟨g, List.mem_of_getElem? hi, ?_⟩)
      rw [hpat, heq]
    rw [placed, if_neg hne, placed_of_old hnd.2 hi hpat, List.set_cons_succ]

/-! ## What a table holds -/

/-- Whether a pattern has a place in the trie is seen from the handlers. -/
theorem Indexed.get_eq_none_iff {t : Table} (ht : t.Indexed) (p : Pattern) :
    t.trie.get 4 p.toList = none ↔ ∀ g ∈ t.handlers.toList, g.pattern ≠ p := by
  constructor
  · intro hnone g hmem hpat
    obtain ⟨i, hi⟩ := List.getElem?_of_mem hmem
    rw [Array.getElem?_toList] at hi
    rw [(ht p i).mpr ⟨g, hi, hpat⟩] at hnone
    exact nomatch hnone
  · intro hnew
    cases hget : t.trie.get 4 p.toList with
    | none => rfl
    | some i =>
      obtain ⟨g, hi, hpat⟩ := (ht p i).mp hget
      exact absurd hpat (hnew g (Array.mem_toList_iff.mpr (Array.mem_of_getElem? hi)))

/-- No two handlers have the same pattern. -/
theorem Indexed.nodup {t : Table} (ht : t.Indexed) :
    (t.handlers.toList.map Handler.pattern).Nodup := by
  rw [List.nodup_iff_getElem?_ne_getElem?]
  intro i j hij hj heq
  rw [List.length_map, Array.length_toList] at hj
  have hi : i < t.handlers.size := Nat.lt_trans hij hj
  -- The trie gives the pattern of a handler the place where the handler is.
  have hplace : ∀ (k : Nat) (hk : k < t.handlers.size),
      t.trie.get 4 (t.handlers[k]).pattern.toList = some k := fun k hk =>
    (ht _ k).mpr ⟨t.handlers[k], Array.getElem?_eq_getElem hk, rfl⟩
  rw [List.getElem?_map, List.getElem?_map, Array.getElem?_toList, Array.getElem?_toList,
    Array.getElem?_eq_getElem hi, Array.getElem?_eq_getElem hj, Option.map_some, Option.map_some,
    Option.some_inj] at heq
  have hsame := hplace i hi
  rw [heq, hplace j hj, Option.some_inj] at hsame
  exact Nat.ne_of_lt hij hsame.symm

/-- The array of handlers after one more. -/
theorem register_placed {t : Table} (ht : t.Indexed) (h : Handler) :
    (t.register h).1.handlers.toList = placed h t.handlers.toList := by
  cases hget : t.trie.get 4 h.pattern.toList with
  | none =>
    rw [register_of_get_none hget, Array.toList_push,
      placed_of_new ((ht.get_eq_none_iff h.pattern).mp hget)]
  | some place =>
    obtain ⟨g, hi, hpat⟩ := (ht h.pattern place).mp hget
    rw [← Array.getElem?_toList] at hi
    rw [register_of_get_some hget, Array.toList_setIfInBounds, placed_of_old ht.nodup hi hpat]

/-- The array of handlers after any others. -/
theorem registerAll_placed {t : Table} (ht : t.Indexed) (hs : List Handler) :
    (t.registerAll hs).handlers.toList = hs.foldl (fun gs h => placed h gs) t.handlers.toList := by
  unfold registerAll
  induction hs generalizing t with
  | nil => rfl
  | cons h hs ih => rw [List.foldl_cons, List.foldl_cons, ih (register_indexed ht h),
      register_placed ht]

/-- Registering gives back the handler that had the pattern. -/
theorem register_snd_eq_some_iff {t : Table} (ht : t.Indexed) (h g : Handler) :
    (t.register h).2 = some g ↔ g ∈ t.handlers.toList ∧ g.pattern = h.pattern := by
  cases hget : t.trie.get 4 h.pattern.toList with
  | none =>
    rw [register_of_get_none hget]
    constructor
    · exact fun e => nomatch e
    · rintro ⟨hmem, hpat⟩
      exact absurd hpat ((ht.get_eq_none_iff h.pattern).mp hget g hmem)
  | some place =>
    rw [register_of_get_some hget]
    constructor
    · intro hi
      obtain ⟨g', hi', hpat⟩ := (ht h.pattern place).mp hget
      obtain rfl := Option.some_inj.mp (hi.symm.trans hi')
      exact ⟨Array.mem_toList_iff.mpr (Array.mem_of_getElem? hi), hpat⟩
    · rintro ⟨hmem, hpat⟩
      obtain ⟨i, hi⟩ := List.getElem?_of_mem hmem
      rw [Array.getElem?_toList] at hi
      have hplace := (ht h.pattern i).mpr ⟨g, hi, hpat⟩
      rw [hget, Option.some_inj] at hplace
      exact hplace ▸ hi

/-! ## The leaves of a table -/

/-- Each place of the array is the number of one leaf, and no other number is. The path to
a leaf spells the pattern of the handler at its place. -/
structure Numbered (t : Table) : Prop where
  perm : ((Trie.leaves 4 t.trie).map Prod.snd).Perm (List.range t.handlers.size)
  spells : ∀ path i, (path, i) ∈ Trie.leaves 4 t.trie →
    ∃ h, t.handlers[i]? = some h ∧ h.pattern.toList = path

theorem Indexed.mem_leaves_iff {t : Table} (ht : t.Indexed) {path : List (Option Nibble)}
    {i : Nat} : (path, i) ∈ Trie.leaves 4 t.trie ↔
      ∃ h, t.handlers[i]? = some h ∧ h.pattern.toList = path := by
  rw [Trie.mem_leaves]
  constructor
  · rintro ⟨hlen, hget⟩
    obtain ⟨p, rfl⟩ := Pattern.exists_toList hlen
    obtain ⟨h, hi, rfl⟩ := (ht p i).mp hget
    exact ⟨h, hi, rfl⟩
  · rintro ⟨h, hi, rfl⟩
    exact ⟨h.pattern.toList_length, (ht h.pattern i).mpr ⟨h, hi, rfl⟩⟩

theorem Indexed.numbered {t : Table} (ht : t.Indexed) : t.Numbered := by
  have hspells : ∀ path i, (path, i) ∈ Trie.leaves 4 t.trie →
      ∃ h, t.handlers[i]? = some h ∧ h.pattern.toList = path := fun _ _ => ht.mem_leaves_iff.mp
  refine ⟨(List.perm_ext_iff_of_nodup ?_ List.nodup_range).mpr fun i => ?_, hspells⟩
  · -- Two leaves with one number have the path of the handler at that place.
    refine (Trie.nodup_leaves 4 t.trie).map_on fun leaf hleaf leaf' hleaf' heq => ?_
    obtain ⟨h, hi, hpath⟩ := hspells leaf.1 leaf.2 hleaf
    obtain ⟨h', hi', hpath'⟩ := hspells leaf'.1 leaf'.2 hleaf'
    rw [heq, hi', Option.some_inj] at hi
    have hsame : leaf.1 = leaf'.1 := by rw [← hpath, ← hpath', hi]
    exact Prod.ext hsame heq
  · rw [List.mem_range, List.mem_map]
    constructor
    · rintro ⟨leaf, hleaf, rfl⟩
      obtain ⟨h, hi, -⟩ := hspells leaf.1 leaf.2 hleaf
      exact (Array.getElem?_eq_some_iff.mp hi).1
    · intro hlt
      have hmem := ht.mem_leaves_iff.mpr ⟨t.handlers[i], Array.getElem?_eq_getElem hlt, rfl⟩
      exact ⟨_, hmem, rfl⟩

/-- What the trie finds for a word is a place of the array. -/
theorem Numbered.find_lt {t : Table} (ht : t.Numbered) {word : UInt16} {place : Nat}
    (hfind : t.trie.find 4 (nibbles word) = some place) : place < t.handlers.size := by
  obtain ⟨path, hpath, hget, -⟩ := Trie.find_some 4 t.trie rfl hfind
  have hleaf := (Trie.mem_leaves 4 t.trie).mpr ⟨hpath.length_eq.trans rfl, hget⟩
  obtain ⟨h, hi, -⟩ := ht.spells path place hleaf
  exact (Array.getElem?_eq_some_iff.mp hi).1

/-! ## The standard table -/

theorem standard_indexed : standard.Indexed := registerAll_indexed empty_indexed _

/-- Handlers with different patterns stay in their order. -/
theorem foldl_placed_of_nodup : ∀ {gs : List Handler} (hs : List Handler),
    ((gs ++ hs).map Handler.pattern).Nodup → hs.foldl (fun gs h => placed h gs) gs = gs ++ hs
  | gs, [], _ => (List.append_nil gs).symm
  | gs, h :: hs, hnd => by
    have hnew : ∀ g ∈ gs, g.pattern ≠ h.pattern := by
      rw [List.map_append, List.nodup_append] at hnd
      exact fun g hmem => hnd.2.2 _ (List.mem_map_of_mem hmem) _ List.mem_cons_self
    rw [List.append_cons] at hnd
    rw [List.foldl_cons, placed_of_new hnew, foldl_placed_of_nodup hs hnd, ← List.append_cons]

/-- The standard table holds the instructions in their usual order. -/
theorem standard_handlers : standard.handlers.toList = Op.all.map Op.handler := by
  rw [standard, registerAll_placed empty_indexed]
  exact foldl_placed_of_nodup _ Op.nodup_patterns

/-- A table is a map from patterns to handlers that remembers their order. From no handlers or
the standard ones, and after any others were registered, whatever they are:

* each handler with a new pattern went to the end, and each one with a pattern that was there
  took the old one's place;
* registering one more gives back the handler that had its pattern, and nothing exactly if
  there was none;
* no two handlers share a pattern;
* the leaves of the trie bear the places of the array, each one once, and the path to a leaf
  spells the pattern of the handler there;
* what the trie finds for a word is a place of the array. -/
theorem registerAll_in_order {t : Table} (ht : t = empty ∨ t = standard) (hs : List Handler) :
    let after := t.registerAll hs
    after.handlers.toList = hs.foldl (fun gs h => placed h gs) t.handlers.toList ∧
      (∀ h g, (after.register h).2 = some g ↔
        g ∈ after.handlers.toList ∧ g.pattern = h.pattern) ∧
      (after.handlers.toList.map Handler.pattern).Nodup ∧
      after.Numbered ∧
      ∀ word place, after.trie.find 4 (nibbles word) = some place →
        place < after.handlers.size := by
  have hindexed : t.Indexed := by
    rcases ht with ht | ht
    · rw [ht]; exact empty_indexed
    · rw [ht]; exact standard_indexed
  have hafter := registerAll_indexed hindexed hs
  refine ⟨registerAll_placed hindexed hs, register_snd_eq_some_iff hafter, hafter.nodup,
    hafter.numbered, ?_⟩
  intro word place hfind
  exact hafter.numbered.find_lt hfind

/-- Another way to clear the screen takes the first place of the standard table, and gives back
the usual one. -/
theorem clear_screen_replaced :
    let other : Handler := { Op.cls.handler with disassemble := fun _ => "CLEAR" }
    (standard.registerAll [other]).handlers.toList = other :: Op.all.tail.map Op.handler ∧
      (standard.registerAll [other]).handlers.size = 44 ∧
      ((standard.registerAll []).register other).2 = some Op.cls.handler := by
  intro other
  obtain ⟨-, hback, -⟩ := registerAll_in_order (Or.inr rfl) []
  obtain ⟨hplaced, -⟩ := registerAll_in_order (Or.inr rfl) [other]
  have hlist : (standard.registerAll [other]).handlers.toList =
      other :: Op.all.tail.map Op.handler := by
    rw [hplaced, standard_handlers, List.foldl_cons, List.foldl_nil, Op.all, List.map_cons, placed,
      if_pos rfl, List.tail_cons]
  refine ⟨hlist, ?_, (hback other Op.cls.handler).mpr ⟨?_, rfl⟩⟩
  · rw [← Array.length_toList, hlist]
    rfl
  · rw [registerAll_placed standard_indexed, standard_handlers]
    exact List.mem_cons_self

end Table

end Chip8
