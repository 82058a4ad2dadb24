import Chip8.Proofs.Tick
import Chip8.Proofs.Unchanged

/-!
# What a failed instruction leaves behind

A tick that fails puts the program counter back on the instruction at fault. That is all it
has to do when the fault comes before the instruction or from the instruction itself. But the
check of the new program counter comes after the instruction has acted, and then everything
else that the instruction did stays:

> `tick_fault`: after any other fault the machine is as it was before. After a program counter
> out of range it is what the instruction made of it, with the old program counter, so it is as
> it was before exactly if the instruction was `Idle`.

`Op.Idle` says of every instruction when it leaves everything but the program counter as it
is (`execute_idle`). Calls and returns never do.
-/

namespace Chip8

namespace Machine

theorem eq_of_sameAt {m m' : Machine} (h : ∀ part, m.SameAt m' part) : m' = m := by
  cases m
  cases m'
  rw [mk.injEq]
  exact ⟨h .memory, h .stack, h .sp, h .pc, h .i, h .v, h .delay, h .sound, h .rpl, h .screen,
    h .keys, h .waiting, h .cycle⟩

/-! ## Blocks that are there already -/

/-- Register `r` holds `b` already, and register `F` holds the flag, which covers `b` if `r` is
register `F` itself. -/
def Holds (m : Machine) (r : Nibble) (b : UInt8) (flag : Bool) : Prop :=
  m.reg 15 = flag.toUInt8 ∧ (r = 15 ∨ m.reg r = b)

/-- Registers 0 to `x` and the bytes where the index register points are the same. -/
def Stored (m : Machine) (x : Nibble) : Prop :=
  ∀ r : Nibble, r ≤ x → m.memory.peek (m.i.toNat + r.val) = m.reg r

/-- Registers 0 to `x`, the first eight at most, are the same as their saved copies. -/
def Saved (m : Machine) (x : Nibble) : Prop :=
  ∀ k : Fin 8, k.val ≤ x.val → m.rpl.get k = m.v.get (k.castAdd 8)

/-- The bytes where the index register points are the decimal digits of `b`. -/
def HasDigits (m : Machine) (b : UInt8) : Prop :=
  m.memory.peek m.i.toNat = b / 100 % 10 ∧ m.memory.peek (m.i.toNat + 1) = b / 10 % 10 ∧
    m.memory.peek (m.i.toNat + 2) = b % 10

variable (m : Machine)

theorem withResult_v_eq_iff (r : Nibble) (b : UInt8) (flag : Bool) :
    (m.withResult r b flag).v = m.v ↔ m.Holds r b flag :=
  setNibble_setNibble_eq_self_iff m.v r 15 b flag.toUInt8

theorem writeDigits_memory_eq_iff (b : UInt8) :
    (m.writeDigits b).memory = m.memory ↔ m.HasDigits b := by
  unfold writeDigits
  rw [Memory.writeBytes_eq_self_iff (by simp)]
  constructor
  · intro h
    exact ⟨h 0 (by simp), h 1 (by simp), h 2 (by simp)⟩
  · intro hdigits k hk
    obtain ⟨h0, h1, h2⟩ := hdigits
    match k, hk with
    | 0, _ => exact h0
    | 1, _ => exact h1
    | 2, _ => exact h2

theorem storeRegisters_memory_eq_iff (x : Nibble) :
    (m.storeRegisters x).memory = m.memory ↔ m.Stored x := by
  have hlen := m.length_take_registers x
  unfold storeRegisters
  rw [Memory.writeBytes_eq_self_iff (by rw [hlen]; omega)]
  constructor
  · intro h r hr
    have hr' : r.val < (m.v.toList.take (x.val + 1)).length := by
      rw [hlen]
      exact Nat.lt_succ_of_le hr
    rw [h r.val hr', List.getElem_take, Vector.getElem_toList]
    rfl
  · intro h k hk
    have hk' : k < x.val + 1 := hlen ▸ hk
    rw [List.getElem_take, Vector.getElem_toList]
    exact h ⟨k, by omega⟩ (Nat.le_of_lt_succ hk')

theorem ofFn_eq_iff {α : Type} {n : Nat} (f : Fin n → α) (v : Vector α n) :
    Vector.ofFn f = v ↔ ∀ k, f k = v[k.val] := by
  constructor
  · intro h k
    rw [← h, Vector.getElem_ofFn]
  · intro h
    refine Vector.ext fun k hk => ?_
    rw [Vector.getElem_ofFn]
    exact h ⟨k, hk⟩

theorem loadRegisters_v_eq_iff (x : Nibble) : (m.loadRegisters x).v = m.v ↔ m.Stored x := by
  unfold loadRegisters
  rw [ofFn_eq_iff]
  constructor
  · intro h r hr
    have hload := h r
    rwa [if_pos hr] at hload
  · intro h r
    split
    next hr => exact h r hr
    next => rfl

theorem afterSave_rpl_eq_iff (x : Nibble) : (m.afterSave x).rpl = m.rpl ↔ m.Saved x := by
  unfold afterSave
  rw [ofFn_eq_iff]
  constructor
  · intro h k hk
    have hsave := h k
    rw [if_pos hk] at hsave
    exact hsave.symm
  · intro h k
    split
    next hk => exact (h k hk).symm
    next => rfl

theorem afterRestore_v_eq_iff (x : Nibble) : (m.afterRestore x).v = m.v ↔ m.Saved x := by
  unfold afterRestore
  rw [ofFn_eq_iff]
  constructor
  · intro h k hk
    have hrestore := h ⟨k.val, by omega⟩
    rwa [dif_pos k.isLt, if_pos (show (⟨k.val, by omega⟩ : Nibble) ≤ x from hk)] at hrestore
  · intro h r
    split
    next h8 =>
      split
      next hr => exact h ⟨r.val, h8⟩ hr
      next => rfl
    next => rfl

end Machine

/-! ## Idle instructions -/

namespace Op

/-- The instruction leaves everything but the program counter as it is. -/
def Idle (op : Op) (noise : UInt8) (o : Operands) (m : Machine) : Prop :=
  let x := m.reg o.x
  let y := m.reg o.y
  match op with
  | sys | jp | jpV0Addr | seVxKk | sneVxKk | seVxVy | sneVxVy | skpVx | sknpVx => True
  | ret | call | exit | ldVxK => False
  | cls => m.screen.Cleared
  | low => m.screen.mode = .standard ∧ m.screen.Cleared
  | high => m.screen.mode = .extended ∧ m.screen.Cleared
  | scd => o.n = 0 ∨ m.screen.Dark
  | scr | scl => m.screen.Dark
  | drwVxVyN => (∀ b ∈ (m.spriteAtI o.n).bytes, b = 0) ∧ m.reg 15 = 0
  | ldVxKk => x = o.kk
  | addVxKk => o.kk = 0
  | ldVxVy => x = y
  | orVxVy => x ||| y = x
  | andVxVy => x &&& y = x
  | xorVxVy => y = 0
  | addVxVy => m.Holds o.x (x + y) (256 ≤ x.toNat + y.toNat)
  | subVxVy => m.Holds o.x (x - y) (y ≤ x)
  | shrVx => m.Holds o.x (x >>> 1) (x &&& 1 = 1)
  | subnVxVy => m.Holds o.x (y - x) (x ≤ y)
  | shlVx => m.Holds o.x (x <<< 1) (x >>> 7 = 1)
  | rndVxKk => x = noise &&& o.kk
  | ldVxDt => x = m.delay
  | ldDtVx => m.delay = x
  | ldStVx => m.sound = x
  | ldIAddr => m.i = o.nnn
  | addIVx => x = 0
  | ldFVx => m.i = (Memory.smallDigitsAddress + 5 * (x.toNat % 16)).toUInt16
  | ldHfVx => m.i = (Memory.largeDigitsAddress + 10 * (x.toNat % 10)).toUInt16
  | ldBVx => m.HasDigits x
  | ldMemVx | ldVxMem => m.Stored o.x
  | ldRVx | ldVxR => m.Saved o.x

variable {op : Op} {noise : UInt8} {o : Operands} {m after : Machine} {pc : UInt16}

/-- With the old program counter put back, only what the instruction owns can differ. -/
theorem withPc_eq_iff (h : op.execute noise o (m.withPc pc) = .done after) :
    after.withPc m.pc = m ↔ ∀ part ∈ op.owns, part ≠ .pc → m.SameAt after part := by
  constructor
  · intro heq part _ hpc
    rw [← heq]
    cases part <;> first | rfl | exact absurd rfl hpc
  · intro hsame
    refine Machine.eq_of_sameAt fun part => ?_
    by_cases hpc : part = .pc
    · rw [hpc]
      rfl
    · have hpart : m.SameAt after part := by
        by_cases hmem : part ∈ op.owns
        · exact hsame part hmem hpc
        · have hframe := execute_frame h hmem
          cases part <;> first | exact hframe | exact absurd rfl hpc
      cases part <;> first | exact hpart | exact absurd rfl hpc

private theorem forall_owned (m after : Machine) {part : Part} (hpc : part ≠ .pc) :
    (∀ p ∈ [part], p ≠ .pc → m.SameAt after p) ↔ m.SameAt after part := by
  simp [hpc]

/-- An instruction that is carried out leaves everything but the program counter as it is
exactly if it is idle. -/
theorem execute_idle (hnone : m.waiting = none) (hn : o.n < 16)
    (h : op.execute noise o (m.withPc pc) = .done after) :
    after.withPc m.pc = m ↔ op.Idle noise o m := by
  -- By the frame, only the parts that the instruction owns are left to compare.
  rw [withPc_eq_iff h]
  cases op
  case sys | jp | jpV0Addr | seVxKk | sneVxKk | seVxVy | sneVxVy | skpVx | sknpVx =>
    simp [owns, Idle]
  case exit => exact nomatch h
  case ret =>
    refine iff_of_false (fun hsame => ?_) id
    have hsp : after.sp = m.sp := hsame .sp (by decide) (by decide)
    rcases (m.withPc pc).ret_cases with ⟨-, hret⟩ | ⟨top, _, htop, hret⟩ | ⟨-, hret⟩
    · exact nomatch hret.symm.trans h
    · obtain rfl := Outcome.done.inj (hret.symm.trans h)
      exact Nat.ne_of_lt (Nat.lt_succ_self top) (hsp.trans htop)
    · exact nomatch hret.symm.trans h
  case call =>
    refine iff_of_false (fun hsame => ?_) id
    have hsp : after.sp = m.sp := hsame .sp (by decide) (by decide)
    rcases (m.withPc pc).call_cases o.nnn with ⟨_, hcall⟩ | ⟨-, hcall⟩
    · obtain rfl := Outcome.done.inj (hcall.symm.trans h)
      exact Nat.succ_ne_self m.sp hsp
    · exact nomatch hcall.symm.trans h
  case ldVxK =>
    obtain rfl := Outcome.done.inj h
    refine iff_of_false (fun hsame => ?_) id
    have hwaiting : some o.x = m.waiting := hsame .waiting (by decide) (by decide)
    rw [hnone] at hwaiting
    exact nomatch hwaiting
  case drwVxVyN =>
    obtain rfl := Outcome.done.inj (((m.withPc pc).draw_eq o.x o.y o.n).symm.trans h)
    obtain ⟨hwidth, hheight⟩ := m.spriteAtI_fits hn
    have hdraw := Screen.draw_eq_self_iff hwidth hheight (m.reg o.x).toNat (m.reg o.y).toNat
    -- An empty sprite hits nothing, so the flag that is written is 0.
    have hflag (hempty : ∀ b ∈ (m.spriteAtI o.n).bytes, b = 0) :
        (m.screen.draw (m.reg o.x).toNat (m.reg o.y).toNat (m.spriteAtI o.n)).2.toUInt8 = 0 := by
      rw [Screen.draw_of_empty hempty]
      rfl
    constructor
    · intro hsame
      have hempty := hdraw.mp (hsame .screen (by decide) (by decide))
      have hv := (setNibble_eq_self_iff _ _ _).mp (hsame .v (by decide) (by decide))
      exact ⟨hempty, hv.trans (hflag hempty)⟩
    · intro hidle part hpart _
      obtain ⟨hempty, hv⟩ := hidle
      rcases List.mem_pair.mp hpart with rfl | rfl
      · exact hdraw.mpr hempty
      · exact (setNibble_eq_self_iff _ _ _).mpr (hv.trans (hflag hempty).symm)
  case' scd | scr | scl | ldFVx | ldHfVx | ldRVx | ldVxR =>
    simp only [execute_scd, execute_scr, execute_scl, execute_ldFVx, execute_ldHfVx,
      execute_ldRVx, execute_ldVxR] at h
  all_goals
    obtain rfl := Outcome.done.inj h
  all_goals
    rw [owns, forall_owned _ _ (by decide)]
  case cls => exact (Screen.blank_eq_iff _ _).trans (and_iff_right rfl)
  case low => exact Screen.blank_eq_iff _ _
  case high => exact Screen.blank_eq_iff _ _
  case scd =>
    refine (Screen.scrollDown_eq_self_iff _ _).trans (or_congr_left ?_)
    exact UInt8.toNat_inj (b := 0)
  case scr => exact (Screen.scrollRight_eq_self_iff _ _).trans (or_iff_right (by decide))
  case scl => exact (Screen.scrollLeft_eq_self_iff _ _).trans (or_iff_right (by decide))
  case ldVxKk | ldVxVy | rndVxKk | ldVxDt => exact setNibble_eq_self_iff _ _ _
  case addVxKk =>
    exact (setNibble_eq_self_iff _ _ _).trans (eq_comm.trans UInt8.add_eq_left)
  case orVxVy | andVxVy => exact (setNibble_eq_self_iff _ _ _).trans eq_comm
  case xorVxVy =>
    have hinj := UInt8.xor_right_inj (a := m.reg o.y) (b := 0) (m.reg o.x)
    rw [UInt8.xor_zero] at hinj
    exact (setNibble_eq_self_iff _ _ _).trans (eq_comm.trans hinj)
  case addVxVy | subVxVy | shrVx | subnVxVy | shlVx => exact m.withResult_v_eq_iff _ _ _
  case addIVx =>
    refine UInt16.add_eq_left.trans ?_
    exact UInt8.toUInt16_inj (b := 0)
  case ldBVx => exact m.writeDigits_memory_eq_iff _
  case ldMemVx => exact m.storeRegisters_memory_eq_iff _
  case ldVxMem => exact m.loadRegisters_v_eq_iff _
  case ldRVx => exact m.afterSave_rpl_eq_iff _
  case ldVxR => exact m.afterRestore_v_eq_iff _
  case ldDtVx | ldStVx | ldIAddr | ldFVx | ldHfVx => exact eq_comm

end Op

/-! ## Failed ticks -/

theorem Operands.ofWord_n_lt (word : UInt16) : (Operands.ofWord word).n < 16 := by
  rw [UInt8.lt_iff_toNat_lt]
  have hlt := (nibble word 0).isLt
  have hsmall : (nibble word 0).val % 256 = (nibble word 0).val := Nat.mod_eq_of_lt (by omega)
  change (nibble word 0).val % 256 < 16
  rwa [hsmall]

namespace Machine

/-- What a failed tick leaves behind. Unless the program counter went out of range, nothing has
changed. If it did, the instruction has been carried out and only the program counter is put
back, so that nothing has changed exactly if the instruction was idle. -/
theorem tick_fault {m m' : Machine} {noise : UInt8} {f : Fault}
    (h : m.tick Table.standard noise = .fault f m') :
    (m' = m ∧ ∀ counter address, f ≠ .programCounterOutOfRange counter address) ∨
      ∃ word op after, m.readWord m.pc = .ok word ∧
        Table.standard.lookup word = some (Op.handler op) ∧
        op.execute noise (Operands.ofWord word) (m.withPc (m.pc + 2)) = .done after ∧
        lastInstruction < after.pc ∧ f = .programCounterOutOfRange after.pc m.pc ∧
        m' = after.withPc m.pc ∧ (m' = m ↔ op.Idle noise (Operands.ofWord word) m) := by
  have hcase := m.tick_case Table.standard noise
  rw [h] at hcase
  cases hcase with
  | unreadable hpc => exact Or.inl ⟨rfl, nofun⟩
  | unknown hword hlookup => exact Or.inl ⟨rfl, nofun⟩
  | refused hruns =>
    -- The instruction fails by itself, and then it has not changed anything yet.
    obtain ⟨-, word, -, hlookup, hrun⟩ := hruns
    obtain ⟨op, rfl⟩ := Table.lookup_standard hlookup
    obtain ⟨rfl, hop⟩ := Op.execute_fault hrun
    refine Or.inl ⟨rfl, ?_⟩
    rcases hop with ⟨-, -, rfl⟩ | ⟨-, -, rfl⟩ | ⟨-, rfl⟩ <;> exact nofun
  | strays hruns hpc =>
    obtain ⟨hnone, word, hword, hlookup, hrun⟩ := hruns
    obtain ⟨op, rfl⟩ := Table.lookup_standard hlookup
    exact Or.inr ⟨word, op, _, hword, hlookup, hrun, hpc, rfl, rfl,
      Op.execute_idle hnone (Operands.ofWord_n_lt word) hrun⟩

/-- A call of the very last byte of memory fails, but the address that it put on the stack
stays there. -/
theorem tick_call_last_byte :
    ∃ m m', fresh.load [0x2f, 0xff] programStart = .ok m ∧
      m.tick Table.standard 0 = .fault (.programCounterOutOfRange 0xfff programStart) m' ∧
      m.sp = 0 ∧ m'.sp = 1 ∧ m' ≠ m := by
  have hload : fresh.load [0x2f, 0xff] programStart =
      .ok { fresh with memory := fresh.memory.writeBytes 0x200 [0x2f, 0xff] } := by
    rw [load, if_neg (by decide), Memory.load, if_pos (by decide)]
    rfl
  generalize hm : { fresh with memory := fresh.memory.writeBytes 0x200 [0x2f, 0xff] } = m at hload
  have hpc : m.pc = programStart := by rw [← hm, fresh, idle]
  have hsp : m.sp = 0 := by rw [← hm, fresh, idle]
  have hwaiting : m.waiting = none := by rw [← hm, fresh, idle]
  have hword : m.readWord m.pc = .ok 0x2fff := by
    rw [hpc, ← hm, readWord]
    decide +kernel
  have hmap : (Table.standard.lookup 0x2fff).map Handler.op = some .call := by decide +kernel
  obtain ⟨h, hlookup, hop⟩ := Option.map_eq_some_iff.mp hmap
  obtain ⟨op, rfl⟩ := Table.lookup_standard hlookup
  obtain rfl : op = .call := hop
  rcases (m.withPc (m.pc + 2)).call_cases 0xfff with ⟨_, hcall⟩ | ⟨hfull, -⟩
  · have hruns : m.Runs Table.standard 0 Op.call.handler _ :=
      ⟨hwaiting, 0x2fff, hword, hlookup, hcall⟩
    have htick := hruns.tick_eq
    rw [hpc, conclude, if_pos (show lastInstruction < 0xfff by decide)] at htick
    refine ⟨m, _, hload, htick, hsp, congrArg (· + 1) hsp, ?_⟩
    rcases tick_fault htick with ⟨-, hrange⟩ | ⟨word, op, after, hword', hlookup', -, -, -, -, hiff⟩
    · exact absurd rfl (hrange _ _)
    · obtain rfl := Except.ok.inj (hword'.symm.trans hword)
      have hhandler := Option.some.inj (hlookup'.symm.trans hlookup)
      obtain rfl : op = .call := congrArg Handler.op hhandler
      exact hiff.mp
  · have hempty : (m.withPc (m.pc + 2)).sp = 0 := hsp
    omega

end Machine

end Chip8
