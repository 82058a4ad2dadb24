import Chip8.CommandLine.Disassemble
import Chip8.Proofs.History
import Chip8.Proofs.Mnemonic
import Mathlib.Data.List.TakeDrop

/-!
# Listings and machines

The disassembler goes through a file two bytes at a time and never loads it. A machine that has the
file in memory reads words wherever it likes. Where the file fits, the two say the same:

> `column_some_iff`, `column_none_iff`: from a column of a plain listing one can tell what the table
> says of the word, whether there is an instruction and how it reads;
>
> `plain_listing`: each line of a plain listing stands at the address at which the machine reads its
> word.
-/

namespace Chip8

open Text

/-! ## Columns -/

namespace ListingStyle

theorem column_eq (word : UInt16) :
    plain.column word = atLeft 16 (Table.standard.once word) := by
  unfold column Table.once
  cases Table.standard.disassemble word with
  | none | some text => rfl

/-- A column has the text of the instruction, and every text that could be one reads differently. -/
theorem column_some_iff (word : UInt16) (text : String) :
    Table.standard.disassemble word = some text ↔
      plain.column word = atLeft 16 text ∧ text.toList.getLast? ≠ some ' ' ∧
        text ≠ invalidText word := by
  have hlast := (Table.closed_once word).getLast?_ne
  rw [Table.disassemble_eq_some_iff, column_eq]
  constructor
  · rintro ⟨rfl, hvalid⟩
    exact ⟨rfl, hlast, hvalid⟩
  · rintro ⟨hcolumn, hlast', hvalid⟩
    exact ⟨(atLeft_inj hlast hlast').mp hcolumn, hvalid⟩

theorem column_none_iff (word : UInt16) :
    Table.standard.disassemble word = none ↔ plain.column word = atLeft 16 (invalidText word) := by
  rw [column_eq, atLeft_inj (Table.closed_once word).getLast?_ne
    (closed_invalidText word).getLast?_ne, Table.once_eq_invalidText_iff]

theorem newline_not_mem_column (word : UInt16) : '\n' ∉ (plain.column word).toList := by
  rw [column_eq, toList_atLeft]
  exact newline_not_mem_rightpad (Table.closed_once word).oneLine 16

end ListingStyle

namespace CommandLine.Disassemble

/-! ## Words and lines -/

variable {bytes : List UInt8} {plain : Bool} {address : Nat}

theorem length_wordsOf : ∀ bytes : List UInt8, (wordsOf bytes).length = bytes.length / 2
  | [] | [_] => by simp [wordsOf]
  | high :: low :: rest => by
    rw [wordsOf, List.length_cons, length_wordsOf rest, List.length_cons, List.length_cons]
    omega

theorem getElem?_wordsOf : ∀ (bytes : List UInt8) {k : Nat} (hk : 2 * k + 1 < bytes.length),
    (wordsOf bytes)[k]? = some (Memory.joinBytes bytes[2 * k] bytes[2 * k + 1])
  | high :: low :: rest, 0, _ => rfl
  | high :: low :: rest, k + 1, hk => by
    have hrest : 2 * k + 1 < rest.length := by
      simp only [List.length_cons] at hk
      omega
    exact getElem?_wordsOf rest hrest

/-- A byte left over at the end makes no word. -/
theorem wordsOf_dropLast : ∀ {bytes : List UInt8}, bytes.length % 2 = 1 →
    wordsOf bytes.dropLast = wordsOf bytes
  | [_], _ => rfl
  | high :: low :: rest, hodd => by
    have hrest : rest.length % 2 = 1 := by
      simp only [List.length_cons] at hodd
      omega
    have hne : rest ≠ [] := fun h => by simp [h] at hrest
    rw [List.dropLast_cons_of_ne_nil (List.cons_ne_nil _ _), List.dropLast_cons_of_ne_nil hne,
      wordsOf, wordsOf, wordsOf_dropLast hrest]

theorem length_lines (plain : Bool) (address : Nat) (bytes : List UInt8) :
    (lines plain address bytes).length = bytes.length / 2 := by
  rw [lines, List.length_map, List.length_zipIdx, length_wordsOf]

theorem getElem?_lines (plain : Bool) (address : Nat) (bytes : List UInt8) {k : Nat}
    (hk : 2 * k + 1 < bytes.length) :
    (lines plain address bytes)[k]? =
      some (line plain (2 * k + address) (Memory.joinBytes bytes[2 * k] bytes[2 * k + 1])) := by
  rw [lines, List.getElem?_map, List.getElem?_zipIdx, getElem?_wordsOf bytes hk, Nat.zero_add]
  rfl

theorem line_plain (address : Nat) (word : UInt16) :
    line true address word =
      lowerHex 3 address ++ ": " ++ ListingStyle.plain.column word ++ " " ++
        lowerHex 4 word.toNat := rfl

theorem newline_not_mem_line (address : Nat) (word : UInt16) :
    '\n' ∉ (line true address word).toList := by
  have haddress := (dense_lowerHex (show 0 < 3 by omega) address).closed.oneLine
  have hword := (dense_lowerHex (show 0 < 4 by omega) word.toNat).closed.oneLine
  have hcolumn := ListingStyle.newline_not_mem_column word
  simp [line_plain, haddress, hword, hcolumn]

/-! ## The whole listing -/

/-- What a line says of an address is what a machine says: the word there, whether it stands for an
instruction, and how that reads. -/
structure Agrees (m : Machine) (address word : UInt16) (column : String) : Prop where
  read : m.readWord address = .ok word
  /-- The column has the text of the instruction, which ends with no space, and which is not what
  the column has where there is no instruction. -/
  some_iff : ∀ text, m.disassemble Table.standard address = some text ↔
    column = atLeft 16 text ∧ text.toList.getLast? ≠ some ' ' ∧ text ≠ invalidText word
  none_iff : m.disassemble Table.standard address = none ↔ column = atLeft 16 (invalidText word)

theorem agrees_column {m : Machine} {address word : UInt16}
    (hread : m.readWord address = .ok word) :
    Agrees m address word (ListingStyle.plain.column word) := by
  have htext : m.disassemble Table.standard address = Table.standard.disassemble word := by
    rw [Machine.disassemble, hread]
  refine ⟨hread, fun text => ?_, ?_⟩
  · rw [htext]
    exact ListingStyle.column_some_iff word text
  · rw [htext]
    exact ListingStyle.column_none_iff word

/-- A machine that has the file in memory reads its words there. -/
theorem readWord_loaded {contents : List UInt8} {start : UInt16}
    (hfits : contents.length + start.toNat ≤ 4096) {i : Nat} (hi : i + 1 < contents.length)
    {address : UInt16} (haddress : address.toNat = start.toNat + i) :
    { Machine.fresh with
        memory := Machine.fresh.memory.writeBytes start.toNat contents }.readWord address =
      .ok (Memory.joinBytes contents[i] contents[i + 1]) := by
  have hle : address ≤ lastInstruction := by
    rw [UInt16.le_iff_toNat_le, haddress]
    show start.toNat + i ≤ 4094
    omega
  have hlength : contents.length ≤ 4096 := by omega
  rw [Machine.readWord_eq hle, haddress, Machine.wordAt, Nat.add_assoc,
    Memory.peek_writeBytes_add hlength (by omega), Memory.peek_writeBytes_add hlength hi]

variable {args : List String} {s : Settings} {file : String} {contents : List UInt8}

theorem run_file (program : String) (files : Files) (hsettings : readSettings args = .ok s)
    (hhelp : s.help = false) (hfile : s.file = some file) :
    run program args files = reportOn s (files file) := by
  rw [run, hsettings]
  simp [hhelp, hfile]

theorem reportOn_of_lt (hoffset : contents.length < s.offset) :
    reportOn s (.ok contents) =
      { code := 1
        err := ["Error: " ++ (Failure.offsetOutOfRange s.offset contents.length).describe] } := by
  have hlisting : listing s contents = .error (.offsetOutOfRange s.offset contents.length) :=
    if_neg (Nat.not_le.mpr hoffset)
  simp [reportOn, Except.mapError, Except.bind, hlisting]

theorem reportOn_of_le (hoffset : s.offset ≤ contents.length) :
    reportOn s (.ok contents) =
      { code := 0
        out := String.join ((lines s.plain (s.loadAddress + s.offset)
          (contents.drop s.offset)).map (· ++ "\n")) } := by
  have hlisting : listing s contents =
      .ok (lines s.plain (s.loadAddress + s.offset) (contents.drop s.offset)) :=
    if_pos hoffset
  simp [reportOn, Except.mapError, Except.bind, hlisting]

theorem reportOn_dropLast (hodd : (contents.length - s.offset) % 2 = 1) :
    reportOn s (.ok contents.dropLast) = reportOn s (.ok contents) := by
  have hoffset : s.offset ≤ contents.dropLast.length := by
    rw [List.length_dropLast]
    omega
  -- What is left over in the file is left over behind the offset.
  have hrest : wordsOf (contents.dropLast.drop s.offset) = wordsOf (contents.drop s.offset) := by
    rw [← List.dropLast_drop_eq_drop_dropLast]
    exact wordsOf_dropLast (by rwa [List.length_drop])
  rw [reportOn_of_le hoffset, reportOn_of_le (by omega), lines, lines, hrest]

/-- What the disassembler prints for a file without colours.

* An offset behind the end of the file is refused.
* Otherwise, if the file fits into memory at the load address, a machine can load it there, and
  there is one line for each two bytes from the offset on. It has the address, the column and the
  word of these bytes, and it agrees with what the machine says of that address.
* A byte left over at the end makes no difference. -/
theorem plain_listing (program : String) (files : Files) (hsettings : readSettings args = .ok s)
    (hplain : s.plain = true) (hhelp : s.help = false) (hfile : s.file = some file)
    (hcontents : files file = .ok contents) :
    (contents.length < s.offset →
      run program args files =
        { code := 1
          err := ["Error: " ++ (Failure.offsetOutOfRange s.offset contents.length).describe] }) ∧
    (s.offset ≤ contents.length → s.loadAddress + contents.length ≤ 4096 →
      ∃ (m : Machine) (listed : List String),
        Machine.fresh.load contents s.loadAddress.toUInt16 = .ok m ∧
        run program args files = { code := 0, out := String.join (listed.map (· ++ "\n")) } ∧
        (∀ line ∈ listed, '\n' ∉ line.toList) ∧
        listed.length = (contents.length - s.offset) / 2 ∧
        ∀ k < listed.length, ∃ (high low : UInt8) (address : UInt16) (column : String),
          contents[s.offset + 2 * k]? = some high ∧ contents[s.offset + 2 * k + 1]? = some low ∧
          address.toNat = s.loadAddress + s.offset + 2 * k ∧
          listed[k]? = some (lowerHex 3 address.toNat ++ ": " ++ column ++ " " ++
            lowerHex 4 (Memory.joinBytes high low).toNat) ∧
          Agrees m address (Memory.joinBytes high low) column) ∧
    ((contents.length - s.offset) % 2 = 1 → ∀ shorter : Files,
      shorter file = .ok contents.dropLast →
      run program args shorter = run program args files) := by
  have hrun := run_file program files hsettings hhelp hfile
  rw [hcontents] at hrun
  refine ⟨fun hoffset => hrun.trans (reportOn_of_lt hoffset), fun hoffset hfits => ?_,
    fun hodd shorter hshorter => ?_⟩
  · have hstart : s.loadAddress.toUInt16.toNat = s.loadAddress :=
      Nat.mod_eq_of_lt (show s.loadAddress < 65536 by omega)
    have hend : contents.length + s.loadAddress.toUInt16.toNat ≤ 4096 := by omega
    refine ⟨_, lines true (s.loadAddress + s.offset) (contents.drop s.offset),
      Machine.fresh.load_of_le hend, ?_, ?_, ?_, ?_⟩
    · rw [hrun, reportOn_of_le hoffset, hplain]
    · intro line hline
      rw [lines, List.mem_map] at hline
      obtain ⟨⟨word, k⟩, -, rfl⟩ := hline
      exact newline_not_mem_line _ word
    · rw [length_lines, List.length_drop]
    · intro k hk
      rw [length_lines, List.length_drop] at hk
      -- Both bytes of the word are in the file, so its address is one of memory.
      have hlow : s.offset + 2 * k + 1 < contents.length := by omega
      have haddress : (s.loadAddress + s.offset + 2 * k).toUInt16.toNat =
          s.loadAddress + s.offset + 2 * k := Nat.mod_eq_of_lt (by omega)
      refine ⟨contents[s.offset + 2 * k], contents[s.offset + 2 * k + 1], _, _,
        List.getElem?_eq_getElem _, List.getElem?_eq_getElem _, haddress, ?_,
        agrees_column (readWord_loaded (by omega) hlow (by omega))⟩
      rw [getElem?_lines _ _ _ (by rw [List.length_drop]; omega), line_plain, haddress,
        List.getElem_drop, List.getElem_drop, Nat.add_comm (2 * k)]
      rfl
  · rw [run_file program shorter hsettings hhelp hfile, hshorter, hrun, reportOn_dropLast hodd]

/-- A listing that begins behind the first byte has one line, and a byte is left over. -/
theorem listing_of_rest :
    let args := ["--plain", "-o", "1", "game"]
    let s : Settings := { file := some "game", offset := 1, plain := true }
    let contents : List UInt8 := [0xff, 0x00, 0xe0, 0x12]
    let files : Files := fun _ => .ok contents
    readSettings args = .ok s ∧ s.plain = true ∧ s.help = false ∧ s.file = some "game" ∧
      files "game" = .ok contents ∧
      run "disasm" args files = { code := 0, out := "201: CLS              00e0\n" } ∧
      run "disasm" args (fun _ => .ok contents.dropLast) = run "disasm" args files ∧
      ∃ (m : Machine) (address : UInt16) (column : String),
        Machine.fresh.load contents 0x200 = .ok m ∧ address.toNat = 0x201 ∧
        Agrees m address 0x00e0 column := by
  intro args s contents files
  have hsettings : readSettings args = .ok s := by rfl
  obtain ⟨-, hlisted, hshorter⟩ := plain_listing "disasm" files hsettings rfl rfl rfl rfl
  obtain ⟨m, listed, hload, -, -, hlength, hline⟩ := hlisted (by decide) (by decide)
  obtain ⟨high, low, address, column, hhigh, hlow, haddress, -, hagrees⟩ :=
    hline 0 (by rw [hlength]; decide)
  obtain rfl := Option.some.inj hhigh
  obtain rfl := Option.some.inj hlow
  exact ⟨hsettings, rfl, rfl, rfl, rfl, by decide +kernel, hshorter (by decide) _ rfl, m, address,
    column, hload, haddress, hagrees⟩

end CommandLine.Disassemble

end Chip8
