import Chip8.Proofs.Decode
import Chip8.Proofs.Listing

/-!
# Reading words back

A listing gives every word a text, and the text gives the word back. To say how, each kind of text
has a `Form`: which characters it always has, and where it shows which digit of the word. There is
one form for each instruction and one for the words that are none. Two things are looked up, form
by form:

> `Form.apart`: the forms of two kinds differ in length, or always differ in some place;
>
> `Form.lossless`: a form shows every digit of the word that its pattern leaves open.

So a text tells its form, the form tells where the digits are, and `readBack` puts the word
together again:

> `readBack_once`: from the text of a word one can read this word;
>
> `listing_lossless`: words that read alike are the same, with their texts in columns or not.
-/

namespace Chip8

open Text

/-! ## Marks -/

/-- What stands in one place of a text: always the same character, or a digit of the word. -/
inductive Mark where
  | fixed (c : Char)
  | capital (place : Fin 4)
  | small (place : Fin 4)

namespace Mark

/-- The character for a word. -/
def char (word : UInt16) : Mark → Char
  | fixed c => c
  | capital place => (Nat.digitChar (nibble word place).val).toUpper
  | small place => Nat.digitChar (nibble word place).val

/-- The character that is always there. -/
def fixed? : Mark → Option Char
  | fixed c => some c
  | capital _ | small _ => none

/-- The place of the digit that is shown. -/
def place? : Mark → Option (Fin 4)
  | fixed _ => none
  | capital place | small place => some place

/-- Whether a text has all the characters that are always there. -/
def fits : List Mark → List Char → Bool
  | [], [] => true
  | mark :: marks, c :: text => mark.fixed?.all (· == c) && fits marks text
  | _, _ => false

/-- Whether two texts differ in length or always differ in some place. -/
def clash : List Mark → List Mark → Bool
  | [], [] => false
  | mark :: marks, mark' :: marks' =>
    mark.fixed?.any (fun c => mark'.fixed?.any (· != c)) || clash marks marks'
  | _, _ => true

/-- The digit at a place of the word, from where a text shows it first. -/
def shown? (place : Fin 4) : List Mark → List Char → Option Nibble
  | mark :: marks, c :: text =>
    if mark.place? = some place then digit? c else shown? place marks text
  | _, _ => none

variable {marks marks' : List Mark} {text : List Char} {place : Fin 4}

theorem fits_map (word : UInt16) (marks : List Mark) :
    fits marks (marks.map (char word)) = true := by
  induction marks with
  | nil => rfl
  | cons mark marks ih =>
    rw [List.map_cons, fits, ih, Bool.and_true]
    cases mark <;> simp [fixed?, char]

/-- No text fits marks that clash. -/
theorem clash_eq_false (h : fits marks text = true) (h' : fits marks' text = true) :
    clash marks marks' = false := by
  induction marks generalizing marks' text with
  | nil =>
    cases text with
    | cons c text => exact nomatch h
    | nil =>
      cases marks' with
      | cons mark' marks' => exact nomatch h'
      | nil => rfl
  | cons mark marks ih =>
    cases text with
    | nil => exact nomatch h
    | cons c text =>
      cases marks' with
      | nil => exact nomatch h'
      | cons mark' marks' =>
        rw [fits, Bool.and_eq_true] at h h'
        obtain ⟨hmark, hrest⟩ := h
        obtain ⟨hmark', hrest'⟩ := h'
        rw [clash, ih hrest hrest', Bool.or_false]
        cases hfixed : mark.fixed? with
        | none => rfl
        | some d =>
          cases hfixed' : mark'.fixed? with
          | none => rfl
          | some d' =>
            -- Both characters are the one that the text has there.
            rw [hfixed, Option.all_some, beq_iff_eq] at hmark
            rw [hfixed', Option.all_some, beq_iff_eq] at hmark'
            simp [hmark, hmark']

theorem digit?_char {mark : Mark} (h : mark.place? = some place) (word : UInt16) :
    digit? (mark.char word) = some (nibble word place) := by
  have hcapital : ∀ d : Nibble, digit? (Nat.digitChar d.val).toUpper = some d := by decide
  have hsmall : ∀ d : Nibble, digit? (Nat.digitChar d.val) = some d := by decide
  cases mark with
  | fixed c => exact nomatch h
  | capital shown =>
    obtain rfl := Option.some.inj h
    exact hcapital _
  | small shown =>
    obtain rfl := Option.some.inj h
    exact hsmall _

theorem shown?_map (h : some place ∈ marks.map place?) (word : UInt16) :
    shown? place marks (marks.map (char word)) = some (nibble word place) := by
  induction marks with
  | nil => exact nomatch h
  | cons mark marks ih =>
    rw [List.map_cons, shown?]
    by_cases hmark : mark.place? = some place
    · rw [if_pos hmark, digit?_char hmark]
    · rw [if_neg hmark]
      refine ih ((List.mem_cons.mp h).resolve_left ?_)
      exact fun heq => hmark heq.symm

end Mark

/-! ## Numerals by their digits -/

theorem Text.hexDigits_one (d : Nibble) : hexDigits 1 d.val = [Nat.digitChar d.val] := by
  rw [hexDigits, Nat.toDigits_of_lt_base d.isLt]
  rfl

/-- The last digit of a numeral stands behind the numeral of the rest. -/
theorem Text.hexDigits_succ {width : Nat} (hwidth : 0 < width) (n : Nat) (d : Nibble) :
    hexDigits (width + 1) (16 * n + d.val) = hexDigits width n ++ [Nat.digitChar d.val] := by
  have hdiv : (16 * n + d.val) / 16 = n := by omega
  have hmod : (16 * n + d.val) % 16 = d.val := by omega
  unfold hexDigits List.leftpad
  rcases Nat.eq_zero_or_pos n with rfl | hn
  · -- The zero of the rest is one of the zeros in front.
    obtain ⟨width, rfl⟩ := Nat.exists_eq_succ_of_ne_zero hwidth.ne'
    rw [Nat.mul_zero, Nat.zero_add, Nat.toDigits_of_lt_base d.isLt, Nat.toDigits_zero,
      List.length_singleton, List.length_singleton, Nat.add_sub_cancel, Nat.succ_sub_one,
      ← List.replicate_succ']
  · rw [Nat.toDigits_of_base_le (by omega) (by omega), hdiv, hmod, List.length_append,
      List.length_singleton, Nat.add_sub_add_right, List.append_assoc]

theorem Text.toList_upperHex (width n : Nat) :
    (upperHex width n).toList = (hexDigits width n).map Char.toUpper := String.toList_ofList

theorem Text.toList_lowerHex (width n : Nat) :
    (lowerHex width n).toList = hexDigits width n := String.toList_ofList

/-- The number that some digits of a word make. -/
def partOf (word : UInt16) (places : List (Fin 4)) : Nat :=
  places.foldl (fun n (place : Fin 4) => 16 * n + (nibble word place).val) 0

theorem hexDigits_partOf (word : UInt16) {places : List (Fin 4)} (hne : places ≠ []) :
    hexDigits places.length (partOf word places) =
      places.map fun place => Nat.digitChar (nibble word place.val).val := by
  induction places using List.reverseRecOn with
  | nil => exact absurd rfl hne
  | append_singleton places place ih =>
    rw [partOf, List.foldl_append, ← partOf, List.foldl_cons, List.foldl_nil, List.length_append,
      List.length_singleton, List.map_append, List.map_singleton]
    rcases eq_or_ne places [] with rfl | hplaces
    · rw [partOf, List.foldl_nil, Nat.mul_zero, Nat.zero_add]
      exact hexDigits_one _
    · rw [hexDigits_succ (List.length_pos_of_ne_nil hplaces), ih hplaces]

theorem toNat_eq_partOf (word : UInt16) : word.toNat = partOf word [3, 2, 1, 0] := by
  have hword := toNat_eq_nibbles word
  change _ = 16 * (16 * (16 * (16 * 0 + (nibble word 3).val) + (nibble word 2).val) +
    (nibble word 1).val) + (nibble word 0).val
  omega

namespace Operands

theorem nnn_eq_partOf (word : UInt16) : (ofWord word).nnn.toNat = partOf word [2, 1, 0] := by
  have hword := toNat_eq_nibbles word
  rw [nnn_toNat]
  change _ = 16 * (16 * (16 * 0 + (nibble word 2).val) + (nibble word 1).val) + (nibble word 0).val
  omega

theorem kk_eq_partOf (word : UInt16) : (ofWord word).kk.toNat = partOf word [1, 0] := by
  have hword := toNat_eq_nibbles word
  rw [kk_toNat]
  change _ = 16 * (16 * 0 + (nibble word 1).val) + (nibble word 0).val
  omega

theorem n_eq_partOf (word : UInt16) : (ofWord word).n.toNat = partOf word [0] := by
  change (nibble word 0).val % 256 = 16 * 0 + (nibble word 0).val
  omega

end Operands

/-! ## Texts by their marks -/

namespace Mark

/-- A text that is always the same. -/
def always (text : String) : List Mark := text.toList.map fixed

/-- A register's name. -/
def register (place : Fin 4) : List Mark := [fixed 'V', capital place]

/-- A number. -/
def number (places : List (Fin 4)) : List Mark := always "0x" ++ places.map capital

/-- A mnemonic with operands. -/
def instruction (mnemonic : String) (operands : List (List Mark)) : List Mark :=
  (mnemonic.toList.rightpad 5 ' ').map fixed ++ List.intercalate (always ", ") operands

/-- A shift, with both registers. -/
def shift (mnemonic : String) : List Mark :=
  (mnemonic.toList.rightpad 5 ' ').map fixed ++ register 2 ++ always " \x7b, " ++ register 1 ++
    always "\x7d"

variable {word : UInt16}

theorem map_fixed (word : UInt16) (text : List Char) : (text.map fixed).map (char word) = text := by
  rw [List.map_map]
  exact List.map_id' text

theorem map_always (word : UInt16) (text : String) :
    (always text).map (char word) = text.toList := map_fixed word text.toList

theorem map_register (word : UInt16) (place : Fin 4) :
    (register place).map (char word) = (Operands.registerText (nibble word place)).toList := by
  rw [Operands.registerText, String.toList_append, toList_upperHex, hexDigits_one]
  rfl

theorem map_number (word : UInt16) {places : List (Fin 4)} (hne : places ≠ []) :
    (number places).map (char word) =
      ("0x" ++ upperHex places.length (partOf word places)).toList := by
  rw [number, List.map_append, map_always, String.toList_append, toList_upperHex,
    hexDigits_partOf word hne, List.map_map, List.map_map]
  rfl

theorem map_intercalate (f : Mark → Char) (separator : List Mark) (items : List (List Mark)) :
    (List.intercalate separator items).map f =
      List.intercalate (separator.map f) (items.map (List.map f)) := by
  induction items with
  | nil => rfl
  | cons item items ih =>
    cases items with
    | nil => rw [List.intercalate_singleton, List.map_singleton, List.intercalate_singleton]
    | cons next items =>
      rw [List.intercalate_cons_cons, List.map_append, List.map_append, ih]
      exact List.intercalate_cons_cons.symm

theorem map_instruction {operands : List String} {marks : List (List Mark)} (mnemonic : String)
    (h : marks.map (List.map (char word)) = operands.map String.toList) :
    (instruction mnemonic marks).map (char word) = (instructionText mnemonic operands).toList := by
  rw [instruction, List.map_append, map_fixed, map_intercalate, map_always, h, instructionText,
    String.toList_append, toList_atLeft, String.toList_intercalate]

theorem map_shift (word : UInt16) (mnemonic : String) :
    (shift mnemonic).map (char word) =
      (shiftText mnemonic (Operands.ofWord word)).toList := by
  simp only [shift, List.map_append, map_fixed, map_always, map_register, shiftText,
    String.toList_append, toList_atLeft]
  rfl

end Mark

namespace Op

open Mark in
/-- How the texts of an instruction are written. -/
def marks (op : Op) : List Mark :=
  let x := register 2
  let y := register 1
  let nnn := number [2, 1, 0]
  let kk := number [1, 0]
  let n := number [0]
  match op with
  | cls => always "CLS"
  | ret => always "RET"
  | sys => instruction "SYS" [nnn]
  | jp => instruction "JP" [nnn]
  | call => instruction "CALL" [nnn]
  | seVxKk => instruction "SE" [x, kk]
  | sneVxKk => instruction "SNE" [x, kk]
  | seVxVy => instruction "SE" [x, y]
  | ldVxKk => instruction "LD" [x, kk]
  | addVxKk => instruction "ADD" [x, kk]
  | ldVxVy => instruction "LD" [x, y]
  | orVxVy => instruction "OR" [x, y]
  | andVxVy => instruction "AND" [x, y]
  | xorVxVy => instruction "XOR" [x, y]
  | addVxVy => instruction "ADD" [x, y]
  | subVxVy => instruction "SUB" [x, y]
  | shrVx => shift "SHR"
  | subnVxVy => instruction "SUBN" [x, y]
  | shlVx => shift "SHL"
  | sneVxVy => instruction "SNE" [x, y]
  | ldIAddr => instruction "LD" [always "I", nnn]
  | jpV0Addr => instruction "JP" [always "V0", nnn]
  | rndVxKk => instruction "RND" [x, kk]
  | drwVxVyN => instruction "DRW" [x, y, n]
  | skpVx => instruction "SKP" [x]
  | sknpVx => instruction "SKNP" [x]
  | ldVxDt => instruction "LD" [x, always "DT"]
  | ldVxK => instruction "LD" [x, always "K"]
  | ldDtVx => instruction "LD" [always "DT", x]
  | ldStVx => instruction "LD" [always "ST", x]
  | addIVx => instruction "ADD" [always "I", x]
  | ldFVx => instruction "LD" [always "F", x]
  | ldBVx => instruction "LD" [always "B", x]
  | ldMemVx => instruction "LD" [always "[I]", x]
  | ldVxMem => instruction "LD" [x, always "[I]"]
  | scd => instruction "SCD" [n]
  | scr => always "SCR"
  | scl => always "SCL"
  | exit => always "EXIT"
  | low => always "LOW"
  | high => always "HIGH"
  | ldHfVx => instruction "LD" [always "HF", x]
  | ldRVx => instruction "LD" [always "R", x]
  | ldVxR => instruction "LD" [x, always "R"]

theorem map_marks (op : Op) (word : UInt16) :
    op.marks.map (Mark.char word) = (op.mnemonic (Operands.ofWord word)).toList := by
  have hx : (Mark.register 2).map (Mark.char word) = (Operands.ofWord word).xText.toList :=
    Mark.map_register word 2
  have hy : (Mark.register 1).map (Mark.char word) = (Operands.ofWord word).yText.toList :=
    Mark.map_register word 1
  have hnnn : (Mark.number [2, 1, 0]).map (Mark.char word) =
      (Operands.ofWord word).nnnText.toList := by
    rw [Operands.nnnText, Operands.nnn_eq_partOf]
    exact Mark.map_number word (List.cons_ne_nil _ _)
  have hkk : (Mark.number [1, 0]).map (Mark.char word) = (Operands.ofWord word).kkText.toList := by
    rw [Operands.kkText, Operands.kk_eq_partOf]
    exact Mark.map_number word (List.cons_ne_nil _ _)
  have hn : (Mark.number [0]).map (Mark.char word) = (Operands.ofWord word).nText.toList := by
    rw [Operands.nText, Operands.n_eq_partOf]
    exact Mark.map_number word (List.cons_ne_nil _ _)
  cases op
  all_goals rw [marks, mnemonic]
  case cls | ret | scr | scl | exit | low | high => exact Mark.map_always word _
  case shrVx | shlVx => exact Mark.map_shift word _
  all_goals
    refine Mark.map_instruction _ ?_
    simp only [List.map_cons, List.map_nil, hx, hy, hnnn, hkk, hn, Mark.map_always]

end Op

/-! ## Forms -/

/-- The digit that a pattern has in a place, counted from 0 for the last one. -/
def Pattern.slot (p : Pattern) (place : Fin 4) : Option Nibble := p.slots.get place.rev

theorem Pattern.admits_slot {p : Pattern} {word : UInt16} (hacc : p.accepts word = true)
    (place : Fin 4) : Admits (p.slot place) (nibble word place) := by
  obtain ⟨-, hget⟩ := List.forall₂_iff_get.mp ((accepts_iff p word).mp hacc)
  have hplace := hget place.rev.val (by rw [toList_length]; exact place.rev.isLt) place.rev.isLt
  match place with
  | 0 | 1 | 2 | 3 => exact hplace

/-- How the words of a pattern are written. -/
structure Form where
  pattern : Pattern
  marks : List Mark

namespace Form

/-- The form of an instruction, or of the words that are none. -/
def of : Option Op → Form
  | some op => ⟨op.pattern, op.marks⟩
  | none => ⟨⟨#v[none, none, none, none]⟩, Mark.always "inval " ++ [3, 2, 1, 0].map Mark.small⟩

/-- The text of a word. -/
def text (f : Form) (word : UInt16) : String := String.ofList (f.marks.map (Mark.char word))

/-- A digit of the word, which the form knows or the text shows. -/
def digit? (f : Form) (text : List Char) (place : Fin 4) : Option Nibble :=
  f.pattern.slot place <|> Mark.shown? place f.marks text

/-- The word with these digits. -/
def word? (f : Form) (text : List Char) : Option UInt16 := do
  return wordOf (← f.digit? text 3) (← f.digit? text 2) (← f.digit? text 1) (← f.digit? text 0)

/-- Every kind of text. -/
def kinds : List (Option Op) := none :: Op.all.map some

/-- The kind of a text. -/
def kind? (text : List Char) : Option (Option Op) :=
  kinds.find? fun kind => Mark.fits (of kind).marks text

theorem mem_kinds (kind : Option Op) : kind ∈ kinds := by
  cases kind with
  | none => exact List.mem_cons_self ..
  | some op => exact List.mem_cons_of_mem _ (List.mem_map_of_mem op.mem_all)

theorem apart (kind kind' : Option Op) :
    kind = kind' ∨ Mark.clash (of kind).marks (of kind').marks = true := by
  have hall : ∀ kind ∈ kinds, ∀ kind' ∈ kinds,
      kind = kind' ∨ Mark.clash (of kind).marks (of kind').marks = true := by decide +kernel
  exact hall kind (mem_kinds kind) kind' (mem_kinds kind')

theorem lossless (kind : Option Op) (place : Fin 4) (hopen : (of kind).pattern.slot place = none) :
    some place ∈ (of kind).marks.map Mark.place? := by
  have hall : ∀ kind ∈ kinds, ∀ place : Fin 4, (of kind).pattern.slot place = none →
      some place ∈ (of kind).marks.map Mark.place? := by decide +kernel
  exact hall kind (mem_kinds kind) place hopen

theorem length_marks_le (kind : Option Op) : (of kind).marks.length ≤ 16 := by
  have hall : ∀ kind ∈ kinds, (of kind).marks.length ≤ 16 := by decide +kernel
  exact hall kind (mem_kinds kind)

variable {kind : Option Op} {word : UInt16} {place : Fin 4}

theorem toList_text (f : Form) (word : UInt16) :
    (f.text word).toList = f.marks.map (Mark.char word) := String.toList_ofList

/-- A text tells its form. -/
theorem kind?_text (kind : Option Op) (word : UInt16) :
    kind? ((of kind).text word).toList = some kind := by
  have hfits := Mark.fits_map word (of kind).marks
  rw [← toList_text] at hfits
  rw [kind?]
  cases hfind : kinds.find? fun other =>
    Mark.fits (of other).marks ((of kind).text word).toList with
  | none => exact absurd hfits (List.find?_eq_none.mp hfind kind (mem_kinds kind))
  | some kind' =>
    have hfits' := List.find?_some hfind
    rcases apart kind' kind with rfl | hclash
    · rfl
    · rw [Mark.clash_eq_false hfits' hfits] at hclash
      exact nomatch hclash

theorem kind_eq_of_text_eq {kind' : Option Op} {word' : UInt16}
    (h : (of kind).text word = (of kind').text word') : kind = kind' := by
  have hkind := kind?_text kind word
  rw [h, kind?_text, Option.some_inj] at hkind
  exact hkind.symm

/-- A text shows the digits that its form leaves open. -/
theorem digit?_text_of_open (hopen : (of kind).pattern.slot place = none) (word : UInt16) :
    (of kind).digit? ((of kind).text word).toList place = some (nibble word place) := by
  rw [digit?, hopen, toList_text, Mark.shown?_map (lossless kind place hopen)]
  rfl

theorem nibble_eq_of_text_eq {word' : UInt16} (h : (of kind).text word = (of kind).text word')
    (hopen : (of kind).pattern.slot place = none) : nibble word place = nibble word' place := by
  have hdigit := digit?_text_of_open hopen word
  rw [h, digit?_text_of_open hopen, Option.some_inj] at hdigit
  exact hdigit.symm

theorem digit?_text (hacc : (of kind).pattern.accepts word = true) (place : Fin 4) :
    (of kind).digit? ((of kind).text word).toList place = some (nibble word place) := by
  rcases Pattern.admits_slot hacc place with hslot | hopen
  · rw [digit?, hslot]
    rfl
  · exact digit?_text_of_open hopen word

theorem word?_text (hacc : (of kind).pattern.accepts word = true) :
    (of kind).word? ((of kind).text word).toList = some word := by
  rw [word?]
  simp only [digit?_text hacc]
  exact congrArg some (wordOf_nibbles word)

theorem mnemonic_eq_text (op : Op) (word : UInt16) :
    op.mnemonic (Operands.ofWord word) = (of (some op)).text word := by
  rw [← String.toList_inj, toList_text, ← op.map_marks]
  rfl

theorem invalidText_eq_text (word : UInt16) : invalidText word = (of none).text word := by
  have hdigits := hexDigits_partOf word (List.cons_ne_nil 3 [2, 1, 0])
  rw [← toNat_eq_partOf] at hdigits
  rw [← String.toList_inj, toList_text, invalidText, String.toList_append, toList_lowerHex]
  exact congrArg (_ ++ ·) hdigits

/-- The text of a word has a form with a pattern that accepts the word. -/
theorem exists_once_eq (word : UInt16) :
    ∃ kind, (of kind).pattern.accepts word = true ∧
      Table.standard.once word = (of kind).text word := by
  rcases Table.once_cases word with ⟨op, hlookup, htext⟩ | ⟨-, htext⟩
  · exact ⟨some op, (Table.accepts_of_lookup hlookup).1, htext.trans (mnemonic_eq_text op word)⟩
  · refine ⟨none, ?_, htext.trans (invalidText_eq_text word)⟩
    simp [of, Pattern.accepts_mk]

end Form

/-! ## Listings -/

/-- The word that has a text, as far as the text is one. -/
def readBack (text : String) : Option UInt16 :=
  (Form.kind? text.toList).bind fun kind => (Form.of kind).word? text.toList

theorem readBack_once (word : UInt16) : readBack (Table.standard.once word) = some word := by
  obtain ⟨kind, hacc, htext⟩ := Form.exists_once_eq word
  rw [htext, readBack, Form.kind?_text, Option.bind_some, Form.word?_text hacc]

theorem once_injective : Function.Injective Table.standard.once := by
  intro word word' h
  have hread := congrArg readBack h
  rw [readBack_once, readBack_once] at hread
  exact Option.some.inj hread

namespace ListingStyle

theorem length_column (word : UInt16) : (plain.column word).length = 16 := by
  obtain ⟨kind, -, htext⟩ := Form.exists_once_eq word
  have hle := Form.length_marks_le kind
  rw [column_eq, ← String.length_toList, toList_atLeft, List.length_rightpad, htext,
    Form.toList_text, List.length_map, Nat.max_eq_left hle]

theorem column_injective : Function.Injective plain.column := by
  intro word word' h
  rw [column_eq, column_eq, atLeft_inj (Table.closed_once word).getLast?_ne
    (Table.closed_once word').getLast?_ne] at h
  exact once_injective h

end ListingStyle

/-- A listing loses nothing.

* The text of every word gives the word back, so words that are listed alike are the same ones.
* It is the text of the instruction that the word stands for, with the operands in the word, or that
  of a word that stands for none.
* Two instructions never have the same text, whatever their operands are. Where one instruction has
  the same text for two words, these have the same digits wherever its pattern leaves them open.
* No instruction has the text of a word that is none.
* In a plain listing the text is filled up with spaces to sixteen characters, never more, and words
  that are listed alike are again the same ones. -/
theorem listing_lossless :
    (∀ word, readBack (Table.standard.once word) = some word) ∧
    Function.Injective (List.map Table.standard.once) ∧
    (∀ word, (∃ op : Op, Table.standard.lookup word = some op.handler ∧
        Table.standard.once word = op.mnemonic (Operands.ofWord word)) ∨
      Table.standard.lookup word = none ∧ Table.standard.once word = invalidText word) ∧
    (∀ (op op' : Op) (word word' : UInt16),
      op.mnemonic (Operands.ofWord word) = op'.mnemonic (Operands.ofWord word') →
        op = op' ∧ ∀ place : Fin 4, op.pattern.slot place = none →
          nibble word place = nibble word' place) ∧
    (∀ (op : Op) (word word' : UInt16),
      op.mnemonic (Operands.ofWord word) ≠ invalidText word') ∧
    (∀ word, (ListingStyle.plain.column word).length = 16 ∧
      ListingStyle.plain.column word = atLeft 16 (Table.standard.once word)) ∧
    Function.Injective (List.map ListingStyle.plain.column) := by
  refine ⟨readBack_once, List.map_injective_iff.mpr once_injective, Table.once_cases,
    fun op op' word word' h => ?_, fun op word word' h => ?_, fun word => ?_,
    List.map_injective_iff.mpr ListingStyle.column_injective⟩
  · rw [Form.mnemonic_eq_text, Form.mnemonic_eq_text] at h
    obtain rfl := Option.some.inj (Form.kind_eq_of_text_eq h)
    exact ⟨rfl, fun place hopen => Form.nibble_eq_of_text_eq h hopen⟩
  · rw [Form.mnemonic_eq_text, Form.invalidText_eq_text] at h
    exact nomatch Form.kind_eq_of_text_eq h
  · exact ⟨ListingStyle.length_column word, ListingStyle.column_eq word⟩

/-- The register that a shift does not use can be read back, and so can a word that is no
instruction. What another word would have in common with the shift is what the shift shows. -/
theorem unused_register_read_back :
    readBack "SHR  V1 \x7b, V2\x7d" = some 0x8126 ∧ readBack "inval 5001" = some 0x5001 ∧
      Op.shrVx.mnemonic (Operands.ofWord 0x8126) = Op.shrVx.mnemonic (Operands.ofWord 0x9127) ∧
      nibble 0x8126 1 = nibble 0x9127 1 := by
  obtain ⟨hread, -, -, hopen, -⟩ := listing_lossless
  have hshift : Table.standard.once 0x8126 = "SHR  V1 \x7b, V2\x7d" := by decide +kernel
  have hinvalid : Table.standard.once 0x5001 = "inval 5001" := by decide +kernel
  have halike : Op.shrVx.mnemonic (Operands.ofWord 0x8126) =
      Op.shrVx.mnemonic (Operands.ofWord 0x9127) := rfl
  obtain ⟨-, hdigits⟩ := hopen .shrVx .shrVx 0x8126 0x9127 halike
  rw [← hshift, ← hinvalid]
  exact ⟨hread 0x8126, hread 0x5001, halike, hdigits 1 rfl⟩

end Chip8
