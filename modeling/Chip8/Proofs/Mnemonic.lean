import Chip8.Proofs.Tick
import Chip8.Table.Listing
import Mathlib.Data.List.DropRight

/-!
# How texts begin and end

The texts of instructions and of words that are none are set in columns and told apart by eye. What
that rests on is said of their characters:

> `capital_mnemonic`: the text of an instruction begins with a capital letter, so it is never
> `inval`, with or without a word behind it;
>
> `closed_mnemonic`, `closed_invalidText`: neither kind of text ends with a space or goes over the
> end of the line. So a column tells which text is in it (`atLeft_inj`).
-/

namespace Chip8

namespace Text

/-! ## Digits -/

theorem exists_digitChar {n : Nat} {c : Char} (h : c ∈ Nat.toDigits 16 n) :
    ∃ d < 16, c = Nat.digitChar d := by
  induction n using Nat.strongRecOn with
  | ind n ih =>
    rcases Nat.lt_or_ge n 16 with hlt | hge
    · rw [Nat.toDigits_of_lt_base hlt, List.mem_singleton] at h
      exact ⟨n, hlt, h⟩
    · rw [Nat.toDigits_of_base_le (by omega) hge, List.mem_append, List.mem_singleton] at h
      rcases h with hfront | rfl
      · exact ih (n / 16) (by omega) hfront
      · exact ⟨n % 16, Nat.mod_lt _ (by omega), rfl⟩

theorem mem_hexDigits {width n : Nat} {c : Char} (h : c ∈ hexDigits width n) :
    ∃ d < 16, c = Nat.digitChar d := by
  rcases List.mem_append.mp h with hzero | hdigit
  · exact ⟨0, by omega, List.eq_of_mem_replicate hzero⟩
  · exact exists_digitChar hdigit

/-! ## Characters -/

/-- Characters without spaces and line feeds. -/
structure Dense (text : List Char) : Prop where
  ne_nil : text ≠ []
  visible : ∀ c ∈ text, c ≠ ' ' ∧ c ≠ '\n'

theorem dense_iff {text : List Char} :
    Dense text ↔ text ≠ [] ∧ ∀ c ∈ text, c ≠ ' ' ∧ c ≠ '\n' :=
  ⟨fun h => ⟨h.1, h.2⟩, fun h => ⟨h.1, h.2⟩⟩

/-- Characters that end with no space and stay on one line. -/
structure Closed (text : List Char) : Prop where
  last : ∃ c, text.getLast? = some c ∧ c ≠ ' '
  oneLine : '\n' ∉ text

variable {text text' front : List Char}

theorem Dense.closed (h : Dense text) : Closed text where
  last := ⟨_, List.getLast?_eq_some_getLast h.ne_nil, (h.visible _ (List.getLast_mem _)).1⟩
  oneLine := fun hmem => (h.visible _ hmem).2 rfl

theorem Dense.append (h : Dense text) (h' : Dense text') : Dense (text ++ text') where
  ne_nil := List.append_ne_nil_of_left_ne_nil h.ne_nil _
  visible := fun c hc => (List.mem_append.mp hc).elim (h.visible c) (h'.visible c)

theorem Closed.getLast?_ne (h : Closed text) : text.getLast? ≠ some ' ' := by
  obtain ⟨c, hlast, hc⟩ := h.last
  rw [hlast]
  exact fun hspace => hc (Option.some.inj hspace)

/-- Only what comes last decides how a text ends. -/
theorem Closed.append (hfront : '\n' ∉ front) (h : Closed text) : Closed (front ++ text) where
  last := by
    obtain ⟨c, hlast, hc⟩ := h.last
    refine ⟨c, ?_, hc⟩
    rw [List.getLast?_append, hlast, Option.some_or]
  oneLine := fun hmem => (List.mem_append.mp hmem).elim hfront h.oneLine

theorem dense_pair {a b : String} (ha : Dense a.toList) (hb : Dense b.toList) :
    ∀ item ∈ [a, b], Dense item.toList :=
  List.forall_mem_cons.mpr ⟨ha, List.forall_mem_singleton.mpr hb⟩

theorem dense_lowerHex {width : Nat} (hwidth : 0 < width) (n : Nat) :
    Dense (lowerHex width n).toList := by
  rw [lowerHex, String.toList_ofList]
  refine ⟨List.ne_nil_of_length_pos (Nat.lt_of_lt_of_le hwidth (le_length_hexDigits ..)), ?_⟩
  intro c hc
  obtain ⟨d, hd, rfl⟩ := mem_hexDigits hc
  exact (by decide : ∀ d < 16, Nat.digitChar d ≠ ' ' ∧ Nat.digitChar d ≠ '\n') d hd

theorem dense_upperHex {width : Nat} (hwidth : 0 < width) (n : Nat) :
    Dense (upperHex width n).toList := by
  rw [upperHex, String.toList_ofList]
  refine ⟨List.ne_nil_of_length_pos ?_, ?_⟩
  · rw [List.length_map]
    exact Nat.lt_of_lt_of_le hwidth (le_length_hexDigits ..)
  · intro c hc
    obtain ⟨c, hmem, rfl⟩ := List.mem_map.mp hc
    obtain ⟨d, hd, rfl⟩ := mem_hexDigits hmem
    exact (by decide : ∀ d < 16, (Nat.digitChar d).toUpper ≠ ' ' ∧
      (Nat.digitChar d).toUpper ≠ '\n') d hd

/-! ## Columns -/

/-- Without the spaces at its end, a column is the text in it. -/
theorem rdropWhile_rightpad (h : text.getLast? ≠ some ' ') (width : Nat) :
    (text.rightpad width ' ').rdropWhile (· == ' ') = text := by
  have hstop : text.rdropWhile (· == ' ') = text := by
    rw [List.rdropWhile_eq_self_iff]
    intro hne hspace
    rw [List.getLast?_eq_some_getLast hne, beq_iff_eq.mp hspace] at h
    exact h rfl
  unfold List.rightpad
  induction width - text.length with
  | zero => rw [List.replicate_zero, List.append_nil, hstop]
  | succ n ih =>
    rw [List.replicate_succ', ← List.append_assoc, List.rdropWhile_concat_pos _ _ _ rfl, ih]

/-- A column tells which text is in it, among those that do not end with a space. -/
theorem atLeft_inj {width : Nat} {a b : String} (ha : a.toList.getLast? ≠ some ' ')
    (hb : b.toList.getLast? ≠ some ' ') : atLeft width a = atLeft width b ↔ a = b := by
  refine ⟨fun h => ?_, congrArg _⟩
  rw [← String.toList_inj, toList_atLeft, toList_atLeft] at h
  rw [← String.toList_inj, ← rdropWhile_rightpad ha width, h, rdropWhile_rightpad hb width]

theorem newline_not_mem_rightpad (h : '\n' ∉ text) (width : Nat) :
    '\n' ∉ text.rightpad width ' ' := by
  unfold List.rightpad
  simp [h]

/-- Operands with commas between them end as the last of them does. -/
theorem closed_intercalate {items : List (List Char)} (hne : items ≠ [])
    (h : ∀ item ∈ items, Dense item) : Closed (List.intercalate [',', ' '] items) := by
  induction items with
  | nil => exact absurd rfl hne
  | cons item rest ih =>
    have hitem := h item (List.mem_cons_self ..)
    cases rest with
    | nil =>
      rw [List.intercalate_singleton]
      exact hitem.closed
    | cons next rest =>
      rw [List.intercalate_cons_cons]
      refine (ih nofun fun item hmem => h item (List.mem_cons_of_mem _ hmem)).append ?_
      simpa using hitem.closed.oneLine

end Text

open Text

/-! ## Instructions -/

theorem closed_instructionText {mnemonic : String} {operands : List String}
    (hmnemonic : '\n' ∉ mnemonic.toList) (hne : operands ≠ [])
    (h : ∀ operand ∈ operands, Dense operand.toList) :
    Closed (instructionText mnemonic operands).toList := by
  rw [instructionText, String.toList_append, toList_atLeft, String.toList_intercalate]
  refine (closed_intercalate (by simpa using hne) ?_).append (newline_not_mem_rightpad hmnemonic 5)
  intro item hitem
  obtain ⟨operand, hmem, rfl⟩ := List.mem_map.mp hitem
  exact h operand hmem

theorem head_instructionText {mnemonic : String} (hne : mnemonic.toList ≠ [])
    (operands : List String) :
    (instructionText mnemonic operands).toList.head? = mnemonic.toList.head? := by
  rw [instructionText, String.toList_append, toList_atLeft, List.rightpad, List.append_assoc,
    List.head?_append, List.head?_eq_some_head hne, Option.some_or]

namespace Operands

variable (o : Operands)

theorem dense_registerText (r : Nibble) : Dense (registerText r).toList := by
  rw [registerText, String.toList_append]
  exact Dense.append (by simp [dense_iff]) (dense_upperHex (by omega) _)

theorem dense_nnnText : Dense o.nnnText.toList := by
  rw [nnnText, String.toList_append]
  exact Dense.append (by simp [dense_iff]) (dense_upperHex (by omega) _)

theorem dense_kkText : Dense o.kkText.toList := by
  rw [kkText, String.toList_append]
  exact Dense.append (by simp [dense_iff]) (dense_upperHex (by omega) _)

theorem dense_nText : Dense o.nText.toList := by
  rw [nText, String.toList_append]
  exact Dense.append (by simp [dense_iff]) (dense_upperHex (by omega) _)

theorem closed_shiftText {mnemonic : String} (hmnemonic : '\n' ∉ mnemonic.toList) :
    Closed (shiftText mnemonic o).toList := by
  have hx : '\n' ∉ o.xText.toList := (dense_registerText o.x).closed.oneLine
  have hy : '\n' ∉ o.yText.toList := (dense_registerText o.y).closed.oneLine
  have hcolumn := newline_not_mem_rightpad hmnemonic 5
  rw [shiftText, String.toList_append]
  refine Closed.append ?_ (Dense.closed (by simp [dense_iff]))
  simp only [String.toList_append, toList_atLeft, List.mem_append, not_or]
  exact ⟨⟨⟨hcolumn, hx⟩, by simp⟩, hy⟩

theorem head_shiftText {mnemonic : String} (hne : mnemonic.toList ≠ []) :
    (shiftText mnemonic o).toList.head? = mnemonic.toList.head? := by
  simp only [shiftText, String.toList_append, toList_atLeft, List.rightpad, List.append_assoc]
  rw [List.head?_append, List.head?_eq_some_head hne, Option.some_or]

end Operands

namespace Op

theorem closed_mnemonic (op : Op) (o : Operands) : Closed (op.mnemonic o).toList := by
  have hnnn := o.dense_nnnText
  have hkk := o.dense_kkText
  have hn := o.dense_nText
  have hx : Dense o.xText.toList := Operands.dense_registerText o.x
  have hy : Dense o.yText.toList := Operands.dense_registerText o.y
  cases op
  case cls | ret | scr | scl | exit | low | high =>
    rw [mnemonic]
    exact Dense.closed (by simp [dense_iff])
  case shrVx | shlVx => exact o.closed_shiftText (by simp)
  all_goals refine closed_instructionText (by simp) (List.cons_ne_nil _ _) ?_
  case sys | jp | call => exact List.forall_mem_singleton.mpr hnnn
  case skpVx | sknpVx => exact List.forall_mem_singleton.mpr hx
  case scd => exact List.forall_mem_singleton.mpr hn
  case drwVxVyN => exact List.forall_mem_cons.mpr ⟨hx, dense_pair hy hn⟩
  case seVxKk | sneVxKk | ldVxKk | addVxKk | rndVxKk => exact dense_pair hx hkk
  case ldIAddr | jpV0Addr => exact dense_pair (by simp [dense_iff]) hnnn
  case ldVxDt | ldVxK | ldVxMem | ldVxR => exact dense_pair hx (by simp [dense_iff])
  case ldDtVx | ldStVx | addIVx | ldFVx | ldBVx | ldMemVx | ldHfVx | ldRVx =>
    exact dense_pair (by simp [dense_iff]) hx
  all_goals exact dense_pair hx hy

theorem capital_mnemonic (op : Op) (o : Operands) :
    (op.mnemonic o).toList.head?.any Char.isUpper = true := by
  cases op
  case cls | ret | scr | scl | exit | low | high =>
    rw [mnemonic]
    simp
  case shrVx | shlVx =>
    rw [mnemonic, Operands.head_shiftText _ (by simp)]
    simp
  all_goals
    rw [mnemonic, head_instructionText (by simp)]
    simp

end Op

/-! ## Words that stand for no instruction -/

theorem closed_invalidText (word : UInt16) : Closed (invalidText word).toList := by
  rw [invalidText, String.toList_append]
  exact (dense_lowerHex (by omega) _).closed.append (by simp)

theorem head_invalidText (word : UInt16) : (invalidText word).toList.head? = some 'i' := by
  rw [invalidText, String.toList_append]
  rfl

namespace Table

variable {word : UInt16} {text : String}

/-- What the standard table says of a word is what an instruction says of its operands. -/
theorem disassemble_standard (h : standard.disassemble word = some text) :
    ∃ op : Op, standard.lookup word = some op.handler ∧
      text = op.mnemonic (Operands.ofWord word) := by
  rw [disassemble, decode, Option.map_map, Option.map_eq_some_iff] at h
  obtain ⟨handler, hlookup, rfl⟩ := h
  obtain ⟨op, rfl⟩ := lookup_standard hlookup
  exact ⟨op, hlookup, rfl⟩

theorem disassemble_eq_none_iff (t : Table) (word : UInt16) :
    t.disassemble word = none ↔ t.lookup word = none := by
  simp [disassemble, decode]

theorem closed_disassemble (h : standard.disassemble word = some text) : Closed text.toList := by
  obtain ⟨op, -, rfl⟩ := disassemble_standard h
  exact op.closed_mnemonic _

/-- No instruction reads like a word that is none. -/
theorem head_disassemble_ne (h : standard.disassemble word = some text) :
    text.toList.head? ≠ some 'i' := by
  obtain ⟨op, -, rfl⟩ := disassemble_standard h
  intro hhead
  have hcapital := op.capital_mnemonic (Operands.ofWord word)
  rw [hhead] at hcapital
  exact absurd hcapital (by decide)

/-! ## Any word -/

theorem once_of_some (h : standard.disassemble word = some text) : standard.once word = text := by
  rw [once, h, Option.getD_some]

theorem once_of_none (h : standard.disassemble word = none) :
    standard.once word = invalidText word := by
  rw [once, h, Option.getD_none]

/-- The text of a word is that of the instruction that it stands for, or tells that there is
none. -/
theorem once_cases (word : UInt16) :
    (∃ op : Op, standard.lookup word = some op.handler ∧
        standard.once word = op.mnemonic (Operands.ofWord word)) ∨
      standard.lookup word = none ∧ standard.once word = invalidText word := by
  cases hword : standard.disassemble word with
  | none => exact .inr ⟨(disassemble_eq_none_iff ..).mp hword, once_of_none hword⟩
  | some text =>
    obtain ⟨op, hlookup, rfl⟩ := disassemble_standard hword
    exact .inl ⟨op, hlookup, once_of_some hword⟩

theorem closed_once (word : UInt16) : Closed (standard.once word).toList := by
  cases hword : standard.disassemble word with
  | none =>
    rw [once_of_none hword]
    exact closed_invalidText word
  | some text =>
    rw [once_of_some hword]
    exact closed_disassemble hword

/-- The text of an instruction is one that the word would not have without it. -/
theorem disassemble_eq_some_iff (word : UInt16) (text : String) :
    standard.disassemble word = some text ↔
      standard.once word = text ∧ text ≠ invalidText word := by
  constructor
  · intro h
    refine ⟨once_of_some h, ?_⟩
    rintro rfl
    exact head_disassemble_ne h (head_invalidText word)
  · rintro ⟨rfl, hvalid⟩
    cases hword : standard.disassemble word with
    | none => exact absurd (once_of_none hword) hvalid
    | some text => rw [once_of_some hword]

theorem once_eq_invalidText_iff (word : UInt16) :
    standard.once word = invalidText word ↔ standard.disassemble word = none := by
  refine ⟨fun h => ?_, once_of_none⟩
  by_contra hsome
  obtain ⟨text, htext⟩ := Option.ne_none_iff_exists'.mp hsome
  obtain ⟨rfl, hvalid⟩ := (disassemble_eq_some_iff word text).mp htext
  exact hvalid h

end Table

end Chip8
