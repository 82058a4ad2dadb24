import Chip8.Proofs.Tick

/-!
# Which words stand for which instruction

Patterns that match one word agree wherever both of them give a digit (`meets_of_accepts`). Among
the standard patterns only that of machine calls agrees with another one in this sense, and it
loses against all that it agrees with (`eq_or_sys_of_meets`, `beats_sys`). So

> `lookup_of_accepts`: a word that the pattern of an instruction matches is that instruction,
> machine calls apart;
>
> `accepts_of_lookup`: the pattern of an instruction matches the words that stand for it, and the
> only other one to do so is that of machine calls.

What a word does as an instruction is what its handler does, with the operands in the word
(`Machine.obey`). A tick does this to the machine that it finds, and checks what comes of it
(`tick_eq_obey`).
-/

namespace Chip8

/-! ## Words by their digits -/

/-- The word with four given digits. -/
def wordOf (a b c d : Nibble) : UInt16 :=
  (4096 * a.val + 256 * b.val + 16 * c.val + d.val).toUInt16

theorem wordOf_toNat (a b c d : Nibble) :
    (wordOf a b c d).toNat = 4096 * a.val + 256 * b.val + 16 * c.val + d.val :=
  Nat.mod_eq_of_lt (show 4096 * a.val + 256 * b.val + 16 * c.val + d.val < 65536 by omega)

theorem nibbles_wordOf (a b c d : Nibble) : nibbles (wordOf a b c d) = [a, b, c, d] := by
  have hdigit (place : Nat) (e : Nibble)
      (h : (4096 * a.val + 256 * b.val + 16 * c.val + d.val) >>> (4 * place) % 16 = e.val) :
      nibble (wordOf a b c d) place = e := by
    rw [Fin.ext_iff, nibble_val, wordOf_toNat, h]
  simp only [Nat.shiftRight_eq_div_pow] at hdigit
  rw [nibbles, hdigit 3 a (by omega), hdigit 2 b (by omega), hdigit 1 c (by omega),
    hdigit 0 d (by omega)]

/-- A word is the one with its digits. -/
theorem wordOf_nibbles (word : UInt16) :
    wordOf (nibble word 3) (nibble word 2) (nibble word 1) (nibble word 0) = word := by
  rw [← UInt16.toNat_inj, wordOf_toNat, ← toNat_eq_nibbles]

namespace Operands

theorem x_wordOf (a b c d : Nibble) : (ofWord (wordOf a b c d)).x = b := by
  have h := nibbles_wordOf a b c d
  simp only [nibbles, List.cons.injEq] at h
  exact h.2.1

theorem y_wordOf (a b c d : Nibble) : (ofWord (wordOf a b c d)).y = c := by
  have h := nibbles_wordOf a b c d
  simp only [nibbles, List.cons.injEq] at h
  exact h.2.2.1

theorem kk_wordOf (a b c d : Nibble) :
    (ofWord (wordOf a b c d)).kk.toNat = 16 * c.val + d.val := by
  rw [kk_toNat, wordOf_toNat]
  omega

end Operands

namespace Pattern

variable {a b c d : Option Nibble} {word : UInt16}

theorem accepts_wordOf (p : Pattern) (a b c d : Nibble) :
    p.accepts (wordOf a b c d) =
      (p.toList.zip [a, b, c, d]).all fun (slot, digit) => slot.all (· == digit) := by
  rw [accepts, nibbles_wordOf]

/-- A pattern accepts a word digit by digit. -/
theorem accepts_mk : (mk #v[a, b, c, d]).accepts word = true ↔
    Admits a (nibble word 3) ∧ Admits b (nibble word 2) ∧ Admits c (nibble word 1) ∧
      Admits d (nibble word 0) := by
  rw [accepts_iff]
  change List.Forall₂ Admits [a, b, c, d] (nibbles word) ↔ _
  simp only [nibbles, List.forall₂_cons, List.Forall₂.nil, and_true]

/-- A pattern of four digits accepts a single word. -/
theorem accepts_definite (a b c d : Nibble) (word : UInt16) :
    (mk #v[some a, some b, some c, some d]).accepts word = true ↔
      word.toNat = 4096 * a.val + 256 * b.val + 16 * c.val + d.val := by
  simp only [accepts_mk, admits_some]
  constructor
  · rintro ⟨h3, h2, h1, h0⟩
    rw [toNat_eq_nibbles word, h3, h2, h1, h0]
  · intro hword
    simp only [Fin.ext_iff, nibble_val, Nat.shiftRight_eq_div_pow, hword]
    omega

/-- Whether two patterns agree in every place where both give a digit. -/
def meets (p q : Pattern) : Bool :=
  (p.toList.zip q.toList).all fun (a, b) => a.isNone || b.isNone || a == b

private theorem all_zip_of_admits {path other : List (Option Nibble)} {digits : List Nibble}
    (h : List.Forall₂ Admits path digits) (h' : List.Forall₂ Admits other digits) :
    ((path.zip other).all fun (a, b) => a.isNone || b.isNone || a == b) = true := by
  induction h generalizing other with
  | nil => rfl
  | cons hslot _ ih =>
    cases h' with
    | cons hslot' hrest =>
      rw [List.zip_cons_cons, List.all_cons, ih hrest, Bool.and_true]
      rcases hslot with rfl | rfl <;> rcases hslot' with rfl | rfl <;> simp

theorem meets_of_accepts {p q : Pattern} (hp : p.accepts word = true)
    (hq : q.accepts word = true) : p.meets q = true :=
  all_zip_of_admits ((accepts_iff p word).mp hp) ((accepts_iff q word).mp hq)

end Pattern

namespace Op

theorem mem_all (op : Op) : op ∈ all := by
  cases op <;> decide

/-- Each instruction has a pattern of its own. -/
theorem nodup_patterns : ((all.map handler).map Handler.pattern).Nodup := by decide +kernel

theorem eq_or_sys_of_meets {op op' : Op} (h : op.pattern.meets op'.pattern = true) :
    op' = op ∨ op' = .sys ∨ op = .sys := by
  have hall : ∀ op ∈ all, ∀ op' ∈ all, op.pattern.meets op'.pattern = true →
      op' = op ∨ op' = .sys ∨ op = .sys := by decide +kernel
  exact hall op op.mem_all op' op'.mem_all h

theorem beats_sys {op : Op} (hop : op ≠ .sys) (h : op.pattern.meets Op.sys.pattern = true) :
    Beats op.pattern.toList Op.sys.pattern.toList := by
  cases op
  case cls | ret | scd | scr | scl | exit | low | high => exact .there .here
  case sys => exact absurd rfl hop
  all_goals exact absurd h (by decide)

end Op

namespace Table

theorem lookup_of_accepts {op : Op} {word : UInt16} (hop : op ≠ .sys)
    (hacc : op.pattern.accepts word = true) : standard.lookup word = some op.handler := by
  rw [standard, lookup_eq_some_iff (registerAll_indexed empty_indexed _), best_registerAll_iff,
    latest_eq_some_iff_of_nodup Op.nodup_patterns]
  refine ⟨⟨List.mem_map_of_mem op.mem_all, rfl⟩, hacc, fun h' hmem hacc' => ?_⟩
  obtain ⟨op', -, rfl⟩ := List.mem_map.mp hmem
  have hmeets := Pattern.meets_of_accepts hacc hacc'
  rcases Op.eq_or_sys_of_meets hmeets with rfl | rfl | hsys
  · exact Or.inl rfl
  · exact Or.inr (Op.beats_sys hop hmeets)
  · exact absurd hsys hop

theorem accepts_of_lookup {op : Op} {word : UInt16}
    (hlookup : standard.lookup word = some op.handler) :
    op.pattern.accepts word = true ∧
      ∀ other : Op, other.pattern.accepts word = true → other = op ∨ other = .sys := by
  constructor
  · rw [standard, lookup_eq_some_iff (registerAll_indexed empty_indexed _),
      best_registerAll_iff] at hlookup
    obtain ⟨-, hacc, -⟩ := hlookup
    exact hacc
  · intro other hother
    refine or_iff_not_imp_right.mpr fun hsys => ?_
    have hsame : some other.handler = some op.handler :=
      (lookup_of_accepts hsys hother).symm.trans hlookup
    exact congrArg Handler.op (Option.some.inj hsame)

/-- Machine calls apart, a word that is an instruction matches the pattern of this one only. -/
theorem accepts_iff_eq {op other : Op} {word : UInt16}
    (hlookup : standard.lookup word = some op.handler) (hother : other ≠ .sys) :
    other.pattern.accepts word = true ↔ op = other := by
  obtain ⟨hacc, hunique⟩ := accepts_of_lookup hlookup
  constructor
  · intro hacc'
    exact ((hunique other hacc').resolve_right hother).symm
  · rintro rfl
    exact hacc

end Table

/-! ## What a word does -/

namespace Machine

variable {m : Machine} {op : Op} {word : UInt16} {noise : UInt8}

/-- What a word does to a machine as an instruction of the standard table, if it is one. -/
def obey (m : Machine) (noise : UInt8) (word : UInt16) : Option (Outcome Machine) :=
  (Table.standard.decode word).map fun (h, o) => h.execute noise o m

theorem obey_of_accepts (hop : op ≠ .sys) (hacc : op.pattern.accepts word = true) :
    m.obey noise word = some (op.execute noise (Operands.ofWord word) m) := by
  rw [obey, Table.decode, Table.lookup_of_accepts hop hacc]
  rfl

/-- A word that is given by its digits is obeyed with these as its operands. -/
theorem obey_wordOf (op : Op) {a b c d : Nibble} {m' : Machine} (hop : op ≠ .sys)
    (hacc : op.pattern.accepts (wordOf a b c d) = true)
    (hexecute : ∀ o : Operands, o.x = b → o.y = c → o.kk.toNat = 16 * c.val + d.val →
      op.execute noise o m = .done m') :
    m.obey noise (wordOf a b c d) = some (.done m') := by
  rw [obey_of_accepts hop hacc, hexecute _ (Operands.x_wordOf a b c d) (Operands.y_wordOf a b c d)
    (Operands.kk_wordOf a b c d)]

/-- A tick obeys the word that it finds, with the program counter behind it. -/
theorem tick_eq_obey (hidle : m.waiting = none) (hword : m.readWord m.pc = .ok word) :
    m.tick Table.standard noise =
      match (m.withPc (m.pc + 2)).obey noise word with
      | none => .fault (.unimplementedInstruction word m.pc) m
      | some ended => conclude m.pc ended := by
  rw [tick_of_idle hidle, hword, obey]
  dsimp only [perform]
  cases Table.standard.decode word <;> rfl

end Machine

end Chip8
