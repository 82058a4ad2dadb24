import Chip8.Memory.Basic

/-!
# Words in memory

A strict access checks its bytes, and then finds or replaces all of them. So it ends in one of three
ways, which depend on the address and the number of bytes alone, and the lenient access that goes
with it ends accordingly:

> `answers_check`: all accesses `Answer` in this way, whatever they are after.

A word is two bytes, the high one first. One write leaves these two and nothing else behind
(`writeWord_written`), and any number of writes, overlapping or refused ones among them, leave in
each byte what the last one that reaches it has put there:

> `peek_writeWords`: the bytes after some writes are those of `lastByte?`.

Hence what is read is what was written last, and writes that are apart may come in any order:

> `words_by_bytes`: access to words, strict and lenient, in terms of access to bytes.
-/

namespace Chip8.Memory

variable {m m' : Memory} {a c count : Nat} {w : UInt16}

theorem ext_peek (h : ∀ a : Fin 4096, m'.peek a.val = m.peek a.val) : m' = m := by
  obtain ⟨cells⟩ := m
  obtain ⟨cells'⟩ := m'
  have hcells : cells' = cells := by
    refine Vector.ext fun a ha => ?_
    have hpeek := h ⟨a, ha⟩
    simpa only [peek, Nat.mod_eq_of_lt ha] using hpeek
  rw [hcells]

/-! ## How an access ends -/

theorem check_of_fits (h : a + count ≤ 4096) : check a count = .ok () := by
  have hlimit : countLimit = 18446744073709551616 := rfl
  rw [check, if_neg (by omega), if_pos (by simp [isRange, h])]

theorem check_of_outside (h : 4096 < a + count) (hlimit : a + count < countLimit) :
    check a count = .error (.fault (.invalidAddressRange a count)) := by
  rw [check, if_neg (Nat.not_le.mpr hlimit), if_neg (by simp [isRange, h])]

theorem check_of_limit (h : countLimit ≤ a + count) : check a count = .error .crash := if_pos h

/-- How a strict access to the `count` bytes from `a` on ends, and the lenient one that goes with
it. -/
structure Answers {α : Type} (a count : Nat) (default : α) (strict lenient : Except Stop α) :
    Prop where
  given : (∃ x, strict = .ok x) ↔ a + count ≤ 4096
  refused : strict = .error (.fault (.invalidAddressRange a count)) ↔
    4096 < a + count ∧ a + count < countLimit
  crashed : strict = .error .crash ↔ countLimit ≤ a + count
  lenient_given : a + count ≤ 4096 → lenient = strict
  lenient_refused : 4096 < a + count → a + count < countLimit → lenient = .ok default
  lenient_crashed : lenient = .error .crash ↔ countLimit ≤ a + count

/-- Nothing matters for the end of an access but its check. -/
theorem answers_check {α : Type} (a count : Nat) (default x : α) :
    Answers a count default (do check a count; return x)
      (lenient default (do check a count; return x)) := by
  have hlimit : countLimit = 18446744073709551616 := rfl
  rcases Nat.lt_or_ge (a + count) countLimit with hlt | hge
  · rcases Nat.lt_or_ge 4096 (a + count) with hout | hfits
    · rw [check_of_outside hout hlt]
      constructor <;> simp [lenient, bind, Except.bind] <;> omega
    · rw [check_of_fits hfits]
      constructor <;> simp [lenient, bind, Except.bind, pure, Except.pure] <;> omega
  · rw [check_of_limit hge]
    constructor <;> simp [lenient, bind, Except.bind] <;> omega

/-- What a lenient access does by default is what it always does exactly where bytes are missing, if
with all of them there it sometimes does something else. -/
theorem lenient_silent_iff {ι α : Type} (act default : ι → α) (hne : ∃ i, act i ≠ default i)
    (h : a + count < countLimit) :
    (∀ i, lenient (default i) (do check a count; return act i) = .ok (default i)) ↔
      4096 < a + count := by
  constructor
  · intro hsilent
    rcases Nat.lt_or_ge 4096 (a + count) with hout | hfits
    · exact hout
    · obtain ⟨i, hi⟩ := hne
      have hgiven := hsilent i
      rw [check_of_fits hfits] at hgiven
      exact absurd (Except.ok.inj hgiven) hi
  · intro hout i
    exact (answers_check a count (default i) (act i)).lenient_refused hout h

/-! ## Bytes and the halves of a word -/

theorem readByte_of_lt (h : a < 4096) : m.readByte a = .ok (m.peek a) := by
  rw [readByte, check_of_fits h]
  rfl

theorem writeByte_of_lt (h : a < 4096) (b : UInt8) : m.writeByte a b = .ok (m.poke a b) := by
  rw [writeByte, check_of_fits h]
  rfl

/-- Where there is no byte, memories do not differ. -/
theorem readByte_of_le (h : 4096 ≤ a) (m m' : Memory) : m.readByte a = m'.readByte a := by
  rw [readByte, readByte]
  rcases Nat.lt_or_ge (a + 1) countLimit with hlt | hge
  · rw [check_of_outside (Nat.lt_succ_of_le h) hlt]
    rfl
  · rw [check_of_limit hge]
    rfl

theorem joinBytes_toNat (high low : UInt8) :
    (joinBytes high low).toNat = 256 * high.toNat + low.toNat := by
  have hhigh := high.toNat_lt
  have hlow := low.toNat_lt
  have hshift : (high.toUInt16 <<< 8).toNat = high.toNat <<< 8 := by
    rw [UInt16.toNat_shiftLeft, UInt8.toNat_toUInt16]
    refine Nat.mod_eq_of_lt ?_
    show high.toNat <<< 8 < 65536
    rw [Nat.shiftLeft_eq]
    omega
  rw [joinBytes, UInt16.toNat_or, hshift, UInt8.toNat_toUInt16,
    ← Nat.shiftLeft_add_eq_or_of_lt hlow, Nat.shiftLeft_eq, Nat.mul_comm]

theorem highByte_toNat (w : UInt16) : (highByte w).toNat = w.toNat / 256 := by
  have hw := w.toNat_lt
  rw [highByte, UInt16.toNat_toUInt8, UInt16.toNat_shiftRight]
  show (w.toNat >>> 8) % 256 = _
  rw [Nat.shiftRight_eq_div_pow]
  omega

theorem lowByte_toNat (w : UInt16) : (lowByte w).toNat = w.toNat % 256 :=
  UInt16.toNat_toUInt8 w

theorem joinBytes_halves (w : UInt16) : joinBytes (highByte w) (lowByte w) = w := by
  rw [← UInt16.toNat_inj, joinBytes_toNat, highByte_toNat, lowByte_toNat]
  omega

theorem readWord_of_fits (h : a + 2 ≤ 4096) :
    m.readWord a = .ok (joinBytes (m.peek a) (m.peek (a + 1))) := by
  rw [readWord, check_of_fits h]
  rfl

theorem writeWord_of_fits (h : a + 2 ≤ 4096) (w : UInt16) :
    m.writeWord a w = .ok ((m.poke a (highByte w)).poke (a + 1) (lowByte w)) := by
  rw [writeWord, check_of_fits h]
  rfl

/-! ## One write -/

/-- Bytes `a` and `a + 1` are the halves of a word, high byte first, and no other byte is
different. -/
structure Written (m : Memory) (a : Nat) (w : UInt16) (m' : Memory) : Prop where
  high : ∃ b, m'.readByte a = .ok b ∧ b.toNat = w.toNat / 256
  low : ∃ b, m'.readByte (a + 1) = .ok b ∧ b.toNat = w.toNat % 256
  others : ∀ c, c ≠ a → c ≠ a + 1 → m'.readByte c = m.readByte c

/-- What a write of a word, given with its address, puts into byte `c`. -/
def byte? (c : Nat) (write : Nat × UInt16) : Option UInt8 :=
  if 4096 < write.1 + 2 then none
  else if c = write.1 then some (highByte write.2)
  else if c = write.1 + 1 then some (lowByte write.2)
  else none

theorem peek_writeWord (h : m.writeWord a w = .ok m') (hfits : a + 2 ≤ 4096) (hc : c < 4096) :
    m'.peek c = (byte? c (a, w)).getD (m.peek c) := by
  rw [writeWord_of_fits hfits] at h
  obtain rfl := Except.ok.inj h
  -- Within memory an address is its own remainder.
  have hmod : ∀ d, d < 4096 → (d % 4096 = c % 4096 ↔ c = d) := by
    intro d hd
    omega
  simp only [peek_poke, hmod a (by omega), hmod (a + 1) (by omega), byte?]
  rw [if_neg (Nat.not_lt.mpr hfits)]
  by_cases hlow : c = a + 1
  · rw [if_pos hlow, if_neg (by omega), if_pos hlow, Option.getD_some]
  · rw [if_neg hlow, if_neg hlow]
    by_cases hhigh : c = a
    · rw [if_pos hhigh, if_pos hhigh, Option.getD_some]
    · rw [if_neg hhigh, if_neg hhigh, Option.getD_none]

theorem writeWord_written (h : m.writeWord a w = .ok m') (hfits : a + 2 ≤ 4096) :
    m.Written a w m' := by
  have hnot := Nat.not_lt.mpr hfits
  constructor
  · refine ⟨highByte w, ?_, highByte_toNat w⟩
    rw [readByte_of_lt (by omega), peek_writeWord h hfits (by omega), byte?, if_neg hnot,
      if_pos rfl, Option.getD_some]
  · refine ⟨lowByte w, ?_, lowByte_toNat w⟩
    rw [readByte_of_lt (by omega), peek_writeWord h hfits (by omega), byte?, if_neg hnot,
      if_neg (by simp), if_pos rfl, Option.getD_some]
  · intro c hhigh hlow
    rcases Nat.lt_or_ge c 4096 with hc | hc
    · rw [readByte_of_lt hc, readByte_of_lt hc, peek_writeWord h hfits hc, byte?, if_neg hnot,
        if_neg hhigh, if_neg hlow, Option.getD_none]
    · exact readByte_of_le hc m' m

/-- A word that was written is read, and not only from the memory that the write left: its two bytes
are enough. -/
theorem readWord_of_halves (hfits : a + 2 ≤ 4096) (hhigh : m.peek a = highByte w)
    (hlow : m.peek (a + 1) = lowByte w) : m.readWord a = .ok w := by
  rw [readWord_of_fits hfits, hhigh, hlow, joinBytes_halves]

/-! ## One write after the other -/

/-- Writes words, one after the other. What memory refuses is left out. -/
def writeWords (m : Memory) (writes : List (Nat × UInt16)) : Except Stop Memory :=
  writes.foldlM (fun m write => m.tryWriteWord write.1 write.2) m

/-- What some writes, one after the other, leave in byte `c`. The last one to reach it decides. -/
def lastByte? (c : Nat) : List (Nat × UInt16) → Option UInt8
  | [] => none
  | write :: rest => (lastByte? c rest).or (byte? c write)

/-- Two words that have no byte in common. -/
def Apart (write write' : Nat × UInt16) : Prop :=
  write.1 + 2 ≤ write'.1 ∨ write'.1 + 2 ≤ write.1

instance decidableApart (write write' : Nat × UInt16) : Decidable (Apart write write') :=
  inferInstanceAs (Decidable (_ ∨ _))

/-- One more write, taken or refused, changes the bytes that it reaches. -/
theorem exists_tryWriteWord (m : Memory) {write : Nat × UInt16} (h : write.1 + 2 < countLimit) :
    ∃ m', m.tryWriteWord write.1 write.2 = .ok m' ∧
      ∀ c < 4096, m'.peek c = (byte? c write).getD (m.peek c) := by
  obtain ⟨a, w⟩ := write
  have hanswers := answers_check a 2 m ((m.poke a (highByte w)).poke (a + 1) (lowByte w))
  rcases Nat.lt_or_ge 4096 (a + 2) with hout | hfits
  · refine ⟨m, hanswers.lenient_refused hout h, fun c _ => ?_⟩
    rw [byte?, if_pos hout, Option.getD_none]
  · have hwritten := writeWord_of_fits (m := m) hfits w
    exact ⟨_, (hanswers.lenient_given hfits).trans hwritten, fun c hc =>
      peek_writeWord hwritten hfits hc⟩

theorem peek_writeWords (m : Memory) {writes : List (Nat × UInt16)}
    (h : ∀ write ∈ writes, write.1 + 2 < countLimit) :
    ∃ m', m.writeWords writes = .ok m' ∧
      ∀ c < 4096, m'.peek c = (lastByte? c writes).getD (m.peek c) := by
  induction writes generalizing m with
  | nil => exact ⟨m, rfl, fun c _ => rfl⟩
  | cons write rest ih =>
    obtain ⟨first, hfirst, hbyte⟩ := m.exists_tryWriteWord (h write List.mem_cons_self)
    obtain ⟨m', hrest, hbytes⟩ := ih first fun w hw => h w (List.mem_cons_of_mem _ hw)
    refine ⟨m', ?_, fun c hc => ?_⟩
    · rw [writeWords, List.foldlM_cons, hfirst]
      exact hrest
    · rw [hbytes c hc, hbyte c hc, lastByte?]
      cases lastByte? c rest <;> rfl

theorem byte?_eq_none_of_apart {write write' : Nat × UInt16} (h : Apart write write')
    (hc : c = write.1 ∨ c = write.1 + 1) : byte? c write' = none := by
  unfold Apart at h
  rw [byte?, if_neg (show c ≠ write'.1 by omega), if_neg (show c ≠ write'.1 + 1 by omega)]
  exact ite_self none

theorem lastByte?_eq_none_of_apart {write : Nat × UInt16} {later : List (Nat × UInt16)}
    (h : ∀ write' ∈ later, Apart write write') (hc : c = write.1 ∨ c = write.1 + 1) :
    lastByte? c later = none := by
  induction later with
  | nil => rfl
  | cons write' rest ih =>
    rw [lastByte?, ih fun w hw => h w (List.mem_cons_of_mem _ hw),
      byte?_eq_none_of_apart (h write' List.mem_cons_self) hc]
    rfl

/-- What is read is what was written last. -/
theorem readWord_writeWords (m : Memory) (hfits : a + 2 ≤ 4096) (w : UInt16)
    {later : List (Nat × UInt16)} (hlimit : ∀ write ∈ later, write.1 + 2 < countLimit)
    (hapart : ∀ write ∈ later, Apart (a, w) write) :
    ∃ m', m.writeWords ((a, w) :: later) = .ok m' ∧ m'.readWord a = .ok w := by
  have hlimit' : ∀ write ∈ (a, w) :: later, write.1 + 2 < countLimit := by
    intro write hmem
    rcases List.mem_cons.mp hmem with rfl | hlater
    · exact Nat.lt_of_le_of_lt hfits (by decide)
    · exact hlimit write hlater
  obtain ⟨m', hwrites, hbytes⟩ := m.peek_writeWords hlimit'
  have hnot := Nat.not_lt.mpr hfits
  refine ⟨m', hwrites, readWord_of_halves hfits ?_ ?_⟩
  · rw [hbytes a (by omega), lastByte?, lastByte?_eq_none_of_apart hapart (Or.inl rfl),
      Option.none_or, byte?, if_neg hnot, if_pos rfl, Option.getD_some]
  · rw [hbytes (a + 1) (by omega), lastByte?, lastByte?_eq_none_of_apart hapart (Or.inr rfl),
      Option.none_or, byte?, if_neg hnot, if_neg (by simp), if_pos rfl, Option.getD_some]

theorem Apart.symm {write write' : Nat × UInt16} (h : Apart write write') : Apart write' write :=
  Or.symm h

/-- Of two words that are apart, no more than one reaches a byte. -/
theorem byte?_eq_none_or {write write' : Nat × UInt16} (h : Apart write write') (c : Nat) :
    byte? c write = none ∨ byte? c write' = none := by
  by_cases hc : c = write.1 ∨ c = write.1 + 1
  · exact Or.inr (byte?_eq_none_of_apart h hc)
  · rw [not_or] at hc
    refine Or.inl ?_
    rw [byte?, if_neg hc.1, if_neg hc.2]
    exact ite_self none

theorem lastByte?_perm {writes writes' : List (Nat × UInt16)} (hperm : writes.Perm writes')
    (hapart : writes.Pairwise Apart) (c : Nat) : lastByte? c writes = lastByte? c writes' := by
  induction hperm with
  | nil => rfl
  | cons write _ ih =>
    rw [lastByte?, lastByte?, ih (List.pairwise_cons.mp hapart).2]
  | swap write write' rest =>
    have hpair : Apart write' write := (List.pairwise_cons.mp hapart).1 write List.mem_cons_self
    rw [lastByte?, lastByte?, lastByte?, lastByte?, Option.or_assoc, Option.or_assoc]
    rcases byte?_eq_none_or hpair c with hnone | hnone <;> simp [hnone]
  | trans hperm _ ih ih' =>
    rw [ih hapart, ih' (hperm.pairwise hapart Apart.symm)]

/-- Writes that are apart may come in any order. -/
theorem writeWords_perm (m : Memory) {writes writes' : List (Nat × UInt16)}
    (hperm : writes.Perm writes') (hlimit : ∀ write ∈ writes, write.1 + 2 < countLimit)
    (hapart : writes.Pairwise Apart) : m.writeWords writes = m.writeWords writes' := by
  obtain ⟨after, hwrites, hbytes⟩ := m.peek_writeWords hlimit
  obtain ⟨after', hwrites', hbytes'⟩ :=
    m.peek_writeWords fun write hmem => hlimit write (hperm.mem_iff.mpr hmem)
  have hsame : after' = after := by
    refine ext_peek fun c => ?_
    rw [hbytes c.val c.isLt, hbytes' c.val c.isLt, lastByte?_perm hperm hapart]
  rw [hwrites, hwrites', hsame]

/-! ## Words in terms of bytes -/

/-- A fault leaves memory alone. -/
theorem ofExcept_writeWord_iff (h : a + 2 < countLimit) :
    Outcome.ofExcept m (m.writeWord a w) = .fault (.invalidAddressRange a 2) m ↔ 4096 < a + 2 := by
  rcases Nat.lt_or_ge 4096 (a + 2) with hout | hfits
  · rw [writeWord, check_of_outside hout h]
    exact iff_of_true rfl hout
  · rw [writeWord_of_fits hfits]
    exact iff_of_false nofun (Nat.not_lt.mpr hfits)

/-- At the low 12 bits of an address there always is a byte. -/
theorem byte_access_masked (m : Memory) (c : Nat) (b : UInt8) :
    m.readByte (c % 4096) = .ok (m.peek c) ∧ m.byteOrZero (c % 4096) = .ok (m.peek c) ∧
      m.writeByte (c % 4096) b = .ok (m.poke c b) ∧
      m.tryWriteByte (c % 4096) b = .ok (m.poke c b) := by
  have hlt : c % 4096 < 4096 := Nat.mod_lt _ (by decide)
  have hread : m.readByte (c % 4096) = .ok (m.peek c) := by
    rw [readByte_of_lt hlt, peek_mod]
  have hwrite : m.writeByte (c % 4096) b = .ok (m.poke c b) := by
    rw [writeByte_of_lt hlt, poke, poke]
    simp only [Nat.mod_mod]
  exact ⟨hread, by rw [byteOrZero, hread]; rfl, hwrite, by rw [tryWriteByte, hwrite]; rfl⟩

/-- What lenient reading always finds to be zero are the bytes that are not there. -/
theorem zero_iff_missing (h : a + 2 < countLimit) :
    ((∀ m : Memory, m.byteOrZero a = .ok 0) ↔ 4096 < a + 1) ∧
      ((∀ m : Memory, m.wordOrZero a = .ok 0) ↔ 4096 < a + 2) := by
  have hone : (blank.poke a 1).peek a = 1 := by rw [peek_poke, if_pos rfl]
  constructor
  · refine lenient_silent_iff (fun m : Memory => m.peek a) (fun _ => 0) ⟨blank.poke a 1, ?_⟩
      (Nat.lt_of_succ_lt h)
    rw [hone]
    decide
  · refine lenient_silent_iff (fun m : Memory => joinBytes (m.peek a) (m.peek (a + 1)))
      (fun _ => 0) ⟨blank.poke a 1, fun hzero => ?_⟩ h
    have hnumber := congrArg UInt16.toNat hzero
    rw [joinBytes_toNat, hone] at hnumber
    simp at hnumber

/-- What lenient writing never changes are the bytes that are not there. -/
theorem unchanged_iff_missing (h : a + 2 < countLimit) :
    ((∀ (m : Memory) (b : UInt8), m.tryWriteByte a b = .ok m) ↔ 4096 < a + 1) ∧
      ((∀ (m : Memory) (w : UInt16), m.tryWriteWord a w = .ok m) ↔ 4096 < a + 2) := by
  constructor
  · rw [← lenient_silent_iff (fun i : Memory × UInt8 => i.1.poke a i.2) Prod.fst ?_
      (Nat.lt_of_succ_lt h)]
    · exact ⟨fun hall i => hall i.1 i.2, fun hall m b => hall (m, b)⟩
    · refine ⟨(blank, 1), fun hsame => ?_⟩
      have hbyte := congrArg (fun m => m.peek a) hsame
      simp [peek_poke] at hbyte
  · rw [← lenient_silent_iff (fun i : Memory × UInt16 =>
      (i.1.poke a (highByte i.2)).poke (a + 1) (lowByte i.2)) Prod.fst ?_ h]
    · exact ⟨fun hall i => hall i.1 i.2, fun hall m w => hall (m, w)⟩
    · refine ⟨(blank, 0x0101), fun hsame => ?_⟩
      have hbyte := congrArg (fun m => m.peek (a + 1)) hsame
      simp [peek_poke, lowByte] at hbyte

/-- Access to the word at an address, if its end can be counted at all.

* Writing fails exactly if one of the two bytes is missing. It then leaves memory as it is. Else the
  two bytes become the halves of the word, high byte first, and nothing else is different.
* Reading fails in the same case. Else the word is that of its two bytes.
* What is read is what was written last, whatever is written elsewhere in the meantime, and writes
  that are apart may come in any order.
* Lenient access ends as strict access does where that succeeds; where strict access fails, lenient
  reading gives zero and lenient writing does nothing. No other address has that effect on every
  memory. The same is true of bytes.
* Access by an address of 12 bits is access to the byte there. -/
theorem words_by_bytes (m : Memory) {a : Nat} (h : a + 2 < countLimit) (w : UInt16) (b : UInt8) :
    ((Outcome.ofExcept m (m.writeWord a w) = .fault (.invalidAddressRange a 2) m ↔ 4096 < a + 2) ∧
      (a + 2 ≤ 4096 → ∃ m', m.writeWord a w = .ok m' ∧ m.Written a w m')) ∧
    ((m.readWord a = .error (.fault (.invalidAddressRange a 2)) ↔ 4096 < a + 2) ∧
      (a + 2 ≤ 4096 → ∃ word high low, m.readWord a = .ok word ∧ m.readByte a = .ok high ∧
        m.readByte (a + 1) = .ok low ∧ word.toNat = 256 * high.toNat + low.toNat)) ∧
    (a + 2 ≤ 4096 → ∀ later : List (Nat × UInt16), (∀ write ∈ later, write.1 + 2 < countLimit) →
      (∀ write ∈ later, Apart (a, w) write) →
        ∃ m', m.writeWords ((a, w) :: later) = .ok m' ∧ m'.readWord a = .ok w) ∧
    (∀ writes writes' : List (Nat × UInt16), writes.Perm writes' →
      (∀ write ∈ writes, write.1 + 2 < countLimit) → writes.Pairwise Apart →
        m.writeWords writes = m.writeWords writes') ∧
    (Answers a 2 0 (m.readWord a) (m.wordOrZero a) ∧
      Answers a 2 m (m.writeWord a w) (m.tryWriteWord a w) ∧
      Answers a 1 0 (m.readByte a) (m.byteOrZero a) ∧
      Answers a 1 m (m.writeByte a b) (m.tryWriteByte a b)) ∧
    (((∀ m : Memory, m.byteOrZero a = .ok 0) ↔ 4096 < a + 1) ∧
      ((∀ m : Memory, m.wordOrZero a = .ok 0) ↔ 4096 < a + 2)) ∧
    (((∀ (m : Memory) (b : UInt8), m.tryWriteByte a b = .ok m) ↔ 4096 < a + 1) ∧
      ((∀ (m : Memory) (w : UInt16), m.tryWriteWord a w = .ok m) ↔ 4096 < a + 2)) ∧
    ∀ c : Nat, m.readByte (c % 4096) = .ok (m.peek c) ∧
      m.byteOrZero (c % 4096) = .ok (m.peek c) ∧ m.writeByte (c % 4096) b = .ok (m.poke c b) ∧
      m.tryWriteByte (c % 4096) b = .ok (m.poke c b) := by
  have hread : Answers a 2 0 (m.readWord a) (m.wordOrZero a) := answers_check ..
  have hwrite : Answers a 2 m (m.writeWord a w) (m.tryWriteWord a w) := answers_check ..
  refine ⟨⟨ofExcept_writeWord_iff h, fun hfits => ?_⟩, ⟨?_, fun hfits => ?_⟩,
    fun hfits later hlimit hapart => m.readWord_writeWords hfits w hlimit hapart,
    fun _ _ hperm hlimit hapart => m.writeWords_perm hperm hlimit hapart,
    ⟨hread, hwrite, answers_check .., answers_check ..⟩, zero_iff_missing h,
    unchanged_iff_missing h, fun c => m.byte_access_masked c b⟩
  · have hwritten := writeWord_of_fits (m := m) hfits w
    exact ⟨_, hwritten, writeWord_written hwritten hfits⟩
  · rw [hread.refused]
    exact and_iff_left h
  · exact ⟨_, _, _, readWord_of_fits hfits, readByte_of_lt (by omega), readByte_of_lt (by omega),
      joinBytes_toNat ..⟩

/-- The last word of memory, and the one that would reach across its end, which is not even half
written. In between another word is written, and one more is refused. -/
theorem word_across_end :
    0xffe + 2 < countLimit ∧ 0xfff + 2 < countLimit ∧
      (∃ m, blank.writeWords [(0xffe, 0xabcd), (0xffc, 0x1234), (0x1000, 0xffff)] = .ok m ∧
        m.readWord 0xffe = .ok 0xabcd) ∧
      Outcome.ofExcept blank (blank.writeWord 0xfff 0xabcd) =
        .fault (.invalidAddressRange 0xfff 2) blank ∧
      blank.tryWriteWord 0xfff 0xabcd = .ok blank := by
  have hlast : 0xffe + 2 < countLimit := by decide
  have hacross : 0xfff + 2 < countLimit := by decide
  obtain ⟨-, -, hwritten, -⟩ := words_by_bytes blank hlast 0xabcd 0
  obtain ⟨⟨hfails, -⟩, -, -, -, ⟨-, hanswers, -⟩, -⟩ := words_by_bytes blank hacross 0xabcd 0
  exact ⟨hlast, hacross, hwritten (by decide) _ (by decide) (by decide), hfails.mpr (by decide),
    hanswers.lenient_refused (by decide) hacross⟩

end Chip8.Memory
