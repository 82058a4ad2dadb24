import Chip8.Proofs.ReadBack

/-!
# Patterns as texts and as ranges of words

Each character of a pattern is a place of its own: it is read, printed and compared by itself. A
digit is read from its numeral in either case of letter and from nothing else
(`digit?_eq_some_iff`), and printed as a capital, so a printed pattern is read back
(`parse?_text`).

The words that a pattern accepts have their digits in common with it where it gives one, and any
digits elsewhere (`accepts_iff_slot`). As a word with greater digits is a greater word
(`le_of_nibble_le`), the least and the greatest of them have the least and the greatest digit in
each open place:

> `accepts_fill`: a pattern accepts the word that has any one digit in all its open places;
>
> `least_le`, `le_greatest`: with zero there it is the least word of the pattern, and with `F` the
> greatest;
>
> `reads_prints_bounds`: all this for the pattern that four characters stand for.
-/

namespace Chip8

open Text

/-! ## Characters -/

namespace Text

/-- The characters that stand for a digit. -/
def digitChars : List Char := "0123456789abcdefABCDEF".toList

/-- What a character of a pattern is printed as: digits as capitals, an underscore for all else. -/
def printed (c : Char) : Char := if c ∈ digitChars then c.toUpper else '_'

theorem digit?_of_mem {c : Char} (hc : c ∈ digitChars) (d : Nibble) :
    digit? c = some d ↔ c = Nat.digitChar d.val ∨ c = (Nat.digitChar d.val).toUpper := by
  have hall : digitChars.all (fun c => decide (∀ d : Nibble,
      digit? c = some d ↔ c = Nat.digitChar d.val ∨ c = (Nat.digitChar d.val).toUpper)) = true := by
    decide +kernel
  exact of_decide_eq_true (List.all_eq_true.mp hall c hc) d

theorem digit?_of_not_mem {c : Char} (h : c ∉ digitChars) : digit? c = none := by
  have hsmall : ∀ n < 128, Char.ofNat n ∉ digitChars → digit? (Char.ofNat n) = none := by
    decide +kernel
  rcases Nat.lt_or_ge c.toNat 128 with hlt | hge
  · have hnone := hsmall c.toNat hlt
    rw [Char.ofNat_toNat] at hnone
    exact hnone h
  · -- All ranges of digits end before.
    have hbeyond : ∀ d : Char, d.toNat < 128 → ¬ c ≤ d := by
      intro d hd hle
      have hnat : c.toNat ≤ d.toNat := UInt32.le_iff_toNat_le.mp hle
      omega
    rw [digit?, if_neg fun hrange => hbeyond '9' (by decide) hrange.2,
      if_neg fun hrange => hbeyond 'f' (by decide) hrange.2,
      if_neg fun hrange => hbeyond 'F' (by decide) hrange.2]

theorem digitChar_mem : ∀ d : Nibble,
    Nat.digitChar d.val ∈ digitChars ∧ (Nat.digitChar d.val).toUpper ∈ digitChars := by
  decide +kernel

/-- A digit is read from its numeral as a small or a capital letter, and from nothing else. -/
theorem digit?_eq_some_iff {c : Char} {d : Nibble} :
    digit? c = some d ↔ c = Nat.digitChar d.val ∨ c = (Nat.digitChar d.val).toUpper := by
  by_cases hc : c ∈ digitChars
  · exact digit?_of_mem hc d
  · rw [digit?_of_not_mem hc]
    refine iff_of_false nofun ?_
    rintro (rfl | rfl)
    · exact hc (digitChar_mem d).1
    · exact hc (digitChar_mem d).2

end Text

namespace Pattern

variable {p : Pattern} {word : UInt16} {filler : Nibble}

/-! ## Places -/

/-- The character for one place. -/
def slotChar : Option Nibble → Char
  | some d => (Nat.digitChar d.val).toUpper
  | none => '_'

theorem toList_slotText (slot : Option Nibble) : (slotText slot).toList = [slotChar slot] := by
  cases slot with
  | none => rfl
  | some d => rw [slotText, toList_upperHex, hexDigits_one, List.map_singleton, slotChar]

theorem digit?_slotChar (slot : Option Nibble) : digit? (slotChar slot) = slot := by
  cases slot with
  | none => rfl
  | some d => exact digit?_eq_some_iff.mpr (Or.inr rfl)

/-- What a place is printed as depends on nothing but its character. -/
theorem slotChar_digit? (c : Char) : slotChar (digit? c) = printed c := by
  unfold printed
  split
  next hc =>
    have hall : digitChars.all (fun c => slotChar (digit? c) == c.toUpper) = true := by
      decide +kernel
    exact eq_of_beq (List.all_eq_true.mp hall c hc)
  next hc =>
    rw [digit?_of_not_mem hc]
    rfl

theorem eq_mk_slots (p : Pattern) : p = mk #v[p.slot 3, p.slot 2, p.slot 1, p.slot 0] := by
  obtain ⟨⟨⟨slots⟩, hsize⟩⟩ := p
  match slots, hsize with
  | [a, b, c, d], _ => rfl

theorem toList_eq_slots (p : Pattern) : p.toList = [p.slot 3, p.slot 2, p.slot 1, p.slot 0] :=
  congrArg toList p.eq_mk_slots

/-- Places count from the last digit on, lists from the first. -/
theorem getElem?_toList (p : Pattern) (place : Fin 4) :
    p.toList[place.rev.val]? = some (p.slot place) := by
  rw [toList_eq_slots]
  match place with
  | 0 | 1 | 2 | 3 => rfl

theorem getElem?_nibbles (word : UInt16) (place : Fin 4) :
    (nibbles word)[place.rev.val]? = some (nibble word place) := by
  match place with
  | 0 | 1 | 2 | 3 => rfl

/-! ## Reading and printing -/

theorem toList_text (p : Pattern) : p.text.toList = p.toList.map slotChar := by
  rw [text, toList_eq_slots]
  simp [String.join, toList_slotText]

/-- Every pattern is read back from its text. -/
theorem parse?_text (p : Pattern) : parse? p.text = some p := by
  rw [parse?, toList_text, toList_eq_slots]
  simp only [List.map_cons, List.map_nil, digit?_slotChar]
  exact congrArg some p.eq_mk_slots.symm

theorem parse?_of_length {text : String} (h : text.toList.length = 4) :
    ∃ p, parse? text = some p ∧ p.toList = text.toList.map digit? := by
  unfold parse?
  match text.toList, h with
  | [a, b, c, d], _ => exact ⟨_, rfl, rfl⟩

theorem text_of_toList {chars : List Char} (h : p.toList = chars.map digit?) :
    p.text = String.ofList (chars.map printed) := by
  rw [← String.toList_inj, toList_text, h, String.toList_ofList, List.map_map]
  exact List.map_congr_left fun c _ => slotChar_digit? c

/-- In each place a pattern has the digit that its character stands for, if it stands for one. -/
theorem slot_eq_some_iff {chars : List Char} (h : p.toList = chars.map digit?) {place : Fin 4}
    {c : Char} (hc : chars[place.rev.val]? = some c) (d : Nibble) :
    p.slot place = some d ↔ c = Nat.digitChar d.val ∨ c = (Nat.digitChar d.val).toUpper := by
  have hslot := p.getElem?_toList place
  rw [h, List.getElem?_map, hc, Option.map_some, Option.some_inj] at hslot
  rw [← hslot, digit?_eq_some_iff]

/-! ## The words of a pattern -/

theorem accepts_iff_slot :
    p.accepts word = true ↔
      ∀ place : Fin 4, ∀ d, p.slot place = some d → nibble word place = d := by
  constructor
  · intro hacc place d hslot
    have hadmits := admits_slot hacc place
    rw [hslot] at hadmits
    exact admits_some.mp hadmits
  · intro hslots
    have hadmits : ∀ place : Fin 4, Admits (p.slot place) (nibble word place) := by
      intro place
      cases hslot : p.slot place with
      | none => exact admits_none
      | some d => exact admits_some.mpr (hslots place d hslot)
    rw [p.eq_mk_slots, accepts_mk]
    exact ⟨hadmits 3, hadmits 2, hadmits 1, hadmits 0⟩

theorem fill_eq_wordOf (p : Pattern) (filler : Nibble) :
    p.fill filler = wordOf ((p.slot 3).getD filler) ((p.slot 2).getD filler)
      ((p.slot 1).getD filler) ((p.slot 0).getD filler) := by
  rw [fill, toList_eq_slots]
  refine congrArg Nat.toUInt16 ?_
  simp only [List.foldl_cons, List.foldl_nil]
  omega

theorem nibbles_fill (p : Pattern) (filler : Nibble) :
    nibbles (p.fill filler) = p.toList.map fun slot => slot.getD filler := by
  rw [fill_eq_wordOf, nibbles_wordOf, toList_eq_slots]
  rfl

theorem nibble_fill (p : Pattern) (filler : Nibble) (place : Fin 4) :
    nibble (p.fill filler) place = (p.slot place).getD filler := by
  have hdigit := getElem?_nibbles (p.fill filler) place
  rw [nibbles_fill, List.getElem?_map, getElem?_toList, Option.map_some, Option.some_inj] at hdigit
  exact hdigit.symm

theorem accepts_fill (p : Pattern) (filler : Nibble) : p.accepts (p.fill filler) = true := by
  rw [accepts_iff_slot]
  intro place d hslot
  rw [nibble_fill, hslot, Option.getD_some]

/-- Digits count by their places, so a word with greater digits is greater. -/
theorem le_of_nibble_le {word word' : UInt16}
    (h : ∀ place : Fin 4, nibble word place ≤ nibble word' place) : word ≤ word' := by
  have h3 : (nibble word 3).val ≤ (nibble word' 3).val := h 3
  have h2 : (nibble word 2).val ≤ (nibble word' 2).val := h 2
  have h1 : (nibble word 1).val ≤ (nibble word' 1).val := h 1
  have h0 : (nibble word 0).val ≤ (nibble word' 0).val := h 0
  rw [UInt16.le_iff_toNat_le, toNat_eq_nibbles word, toNat_eq_nibbles word']
  omega

/-- No word of a pattern has a digit below those of the least one. -/
theorem least_le (hacc : p.accepts word = true) : p.least ≤ word := by
  refine le_of_nibble_le fun place => ?_
  rw [least, nibble_fill]
  cases hslot : p.slot place with
  | none => exact Fin.zero_le _
  | some d => exact Fin.le_of_eq (accepts_iff_slot.mp hacc place d hslot).symm

/-- No word of a pattern has a digit above those of the greatest one. -/
theorem le_greatest (hacc : p.accepts word = true) : word ≤ p.greatest := by
  refine le_of_nibble_le fun place => ?_
  rw [greatest, nibble_fill]
  cases hslot : p.slot place with
  | none => exact Fin.le_last _
  | some d => exact Fin.le_of_eq (accepts_iff_slot.mp hacc place d hslot)

/-- What four characters are as a pattern.

* They are printed one by one, digits as capitals and all others as underscores, and the text is
  read as the same pattern again.
* A place has a digit exactly if its character is the numeral of this digit in either case of
  letter. A word is accepted if it has these digits in these places, whatever it has in the others.
* Of the accepted words there is a least and a greatest one. -/
theorem reads_prints_bounds (text : String) (h : text.toList.length = 4) :
    ∃ p, parse? text = some p ∧ p.text = String.ofList (text.toList.map printed) ∧
      parse? p.text = some p ∧
      (∀ (place : Fin 4) (c : Char), text.toList[place.rev.val]? = some c → ∀ d,
        p.slot place = some d ↔ c = Nat.digitChar d.val ∨ c = (Nat.digitChar d.val).toUpper) ∧
      (∀ word, p.accepts word = true ↔
        ∀ (place : Fin 4) (d : Nibble), p.slot place = some d → nibble word place = d) ∧
      p.accepts p.least = true ∧ p.accepts p.greatest = true ∧
      ∀ word, p.accepts word = true → p.least ≤ word ∧ word ≤ p.greatest := by
  obtain ⟨p, hparse, hchars⟩ := parse?_of_length h
  exact ⟨p, hparse, text_of_toList hchars, p.parse?_text, fun place c => slot_eq_some_iff hchars,
    fun word => accepts_iff_slot, p.accepts_fill 0, p.accepts_fill 15,
    fun word hacc => ⟨least_le hacc, le_greatest hacc⟩⟩

/-- The wide digit five is no digit, but the small letter at the end is one. -/
theorem wide_digit_is_open :
    "8x５e".toList.length = 4 ∧ ∃ p, parse? "8x５e" = some p ∧ p.text = "8__E" ∧
      parse? "8__E" = some p ∧ p.accepts 0x8abe = true ∧ p.least ≤ 0x8abe ∧
        0x8abe ≤ p.greatest := by
  have hlength : "8x５e".toList.length = 4 := by decide
  obtain ⟨p, hparse, htext, hagain, hslot, haccepts, -, -, hbounds⟩ :=
    reads_prints_bounds "8x５e" hlength
  have hprinted : p.text = "8__E" := by
    rw [htext]
    decide +kernel
  have hacc : p.accepts 0x8abe = true := by
    have hread : parse? "8x５e" = some ⟨#v[some 8, none, none, some 14]⟩ := by decide +kernel
    rw [← Option.some.inj (hread.symm.trans hparse)]
    decide
  exact ⟨hlength, p, hparse, hprinted, hprinted ▸ hagain, hacc, hbounds _ hacc⟩

end Pattern

end Chip8
