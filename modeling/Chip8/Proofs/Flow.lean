import Chip8.Proofs.Keys
import Chip8.Proofs.Subroutine

/-!
# Where a tick leads

What an instruction makes of the program counter can be read off the digits of its word:
`leadsTo` says so in exact sums, `refusal` says what the instruction raises by itself, and
neither mentions tables or instructions by name. An instruction that ends does so where its word
leads (`execute_leadsTo`), and it ends unless it refuses (`execute_of_none`).

> `tick_leads_exactly`: a tick goes where the word leads if that is in range, and otherwise
> tells where that is. Faults name the instruction they come from and count nothing.

A run counts the ticks that end well without having waited (`cycle_of_run`), and program counter
and stack stay in range, so that it does not crash while there is something left to count
(`exists_run`).
-/

namespace Chip8

/-! ## Words that refuse -/

namespace Table

variable {op : Op} {word : UInt16}

theorem eq_ret_iff (hlookup : standard.lookup word = some op.handler) :
    word = 0x00ee ↔ op = .ret := by
  refine Iff.trans ?_ (accepts_iff_eq hlookup nofun)
  rw [← UInt16.toNat_inj]
  exact (Pattern.accepts_definite 0x0 0x0 0xe 0xe word).symm

theorem eq_exit_iff (hlookup : standard.lookup word = some op.handler) :
    word = 0x00fd ↔ op = .exit := by
  refine Iff.trans ?_ (accepts_iff_eq hlookup nofun)
  rw [← UInt16.toNat_inj]
  exact (Pattern.accepts_definite 0x0 0x0 0xf 0xd word).symm

theorem eq_call_iff (hlookup : standard.lookup word = some op.handler) :
    nibble word 3 = 2 ↔ op = .call := by
  refine Iff.trans ?_ (accepts_iff_eq hlookup nofun)
  refine Iff.trans ?_ Pattern.accepts_mk.symm
  simp only [admits_some, admits_none, and_true]

end Table

namespace Machine

variable {m m' after : Machine} {op : Op} {word : UInt16} {noise : UInt8}

/-! ## Where instructions lead -/

/-- The address behind an instruction, or the one behind the next instruction if `c` holds. -/
def past (m : Machine) (c : Bool) : Nat := m.pc.toNat + if c then 4 else 2

/-- Whether the key is held that the second digit of a word names by its register. -/
def holds (m : Machine) (word : UInt16) : Bool :=
  m.keys.get (Fin.ofNat 16 (m.reg (nibble word 2)).toNat)

/-- Where a word leads as an instruction at the program counter. The sums are exact: they do
not go around. -/
def leadsTo (m : Machine) (word : UInt16) : Nat :=
  if word = 0x00ee then (m.stack[m.sp - 1]?.getD 0).toNat
  else
    match (nibble word 3).val with
    | 0x1 | 0x2 => word.toNat % 0x1000
    | 0x3 => m.past ((m.reg (nibble word 2)).toNat = word.toNat % 0x100)
    | 0x4 => m.past ((m.reg (nibble word 2)).toNat ≠ word.toNat % 0x100)
    | 0x5 => m.past (m.reg (nibble word 2) = m.reg (nibble word 1))
    | 0x9 => m.past (m.reg (nibble word 2) ≠ m.reg (nibble word 1))
    | 0xb => word.toNat % 0x1000 + (m.reg 0).toNat
    | 0xe => m.past (if word.toNat % 0x100 = 0x9e then m.holds word else !m.holds word)
    | _ => m.past false

/-- What a word raises by itself as an instruction at the program counter. -/
def refusal (m : Machine) (word : UInt16) : Option Fault :=
  if word = 0x00ee ∧ m.sp = 0 then some (.stackUnderflow m.pc)
  else if nibble word 3 = 2 ∧ m.sp = 16 then some (.stackOverflow m.pc)
  else if word = 0x00fd then some (.exited m.pc)
  else none

/-- The words of most instructions lead to the next one. -/
theorem leadsTo_of_unowned (hacc : op.pattern.accepts word = true) (hret : word ≠ 0x00ee)
    (hunowned : Part.pc ∉ op.owns) : m.leadsTo word = m.past false := by
  cases op
  case ret | call | jp | jpV0Addr | seVxKk | sneVxKk | seVxVy | sneVxVy | skpVx | sknpVx =>
    exact absurd (by decide) hunowned
  all_goals
    obtain ⟨h3, -⟩ := Pattern.accepts_mk.mp hacc
    rw [admits_some] at h3
    rw [leadsTo, if_neg hret, h3]
    rfl

/-- A skip leads past the next instruction or only past its own. -/
theorem execute_skip (hpc : m.pc ≤ lastInstruction)
    (hacc : op.pattern.accepts word = true) (hret : word ≠ 0x00ee)
    (hskip : op ∈ [.seVxKk, .sneVxKk, .seVxVy, .sneVxVy, .skpVx, .sknpVx])
    (h : op.execute noise (Operands.ofWord word) (m.withPc (m.pc + 2)) = .done after) :
    after.pc.toNat = m.leadsTo word := by
  have hpast (c : Bool) : ((m.withPc (m.pc + 2)).skipIf c).pc.toNat = m.past c :=
    (unwrapped_of_pc_le hpc).skip c
  have hkk : m.reg (nibble word 2) = (Operands.ofWord word).kk ↔
      (m.reg (nibble word 2)).toNat = word.toNat % 0x100 := by
    rw [← UInt8.toNat_inj, Operands.kk_toNat]
  have hlow : word.toNat % 0x100 = 16 * (nibble word 1).val + (nibble word 0).val := by
    have hword := toNat_eq_nibbles word
    omega
  cases op
  case seVxKk =>
    obtain ⟨h3, -⟩ := Pattern.accepts_mk.mp hacc
    obtain rfl := Outcome.done.inj h
    rw [leadsTo, if_neg hret, admits_some.mp h3]
    exact (hpast _).trans (congrArg m.past (decide_eq_decide.mpr hkk))
  case sneVxKk =>
    obtain ⟨h3, -⟩ := Pattern.accepts_mk.mp hacc
    obtain rfl := Outcome.done.inj h
    rw [leadsTo, if_neg hret, admits_some.mp h3]
    exact (hpast _).trans (congrArg m.past (decide_eq_decide.mpr hkk.not))
  case seVxVy | sneVxVy =>
    obtain ⟨h3, -⟩ := Pattern.accepts_mk.mp hacc
    obtain rfl := Outcome.done.inj h
    rw [leadsTo, if_neg hret, admits_some.mp h3]
    exact hpast _
  case skpVx | sknpVx =>
    obtain ⟨h3, -, h1, h0⟩ := Pattern.accepts_mk.mp hacc
    rw [admits_some] at h3 h1 h0
    obtain rfl := Outcome.done.inj h
    rw [leadsTo, if_neg hret, h3, hlow, h1, h0]
    exact hpast _
  all_goals exact absurd hskip (by decide)

/-- A return leads to the address on top of the stack. -/
theorem execute_ret (hret : word = 0x00ee) (h : (m.withPc (m.pc + 2)).ret = .done after) :
    after.pc.toNat = m.leadsTo word := by
  rcases (m.withPc (m.pc + 2)).ret_cases with ⟨-, hcase⟩ | ⟨top, htop, hsp, hcase⟩ | ⟨-, hcase⟩
  · exact nomatch hcase.symm.trans h
  · obtain rfl := Outcome.done.inj (hcase.symm.trans h)
    have htop' : m.sp - 1 = top := by
      change m.sp = top + 1 at hsp
      omega
    rw [leadsTo, if_pos hret, htop', Vector.getElem?_eq_getElem htop]
    rfl
  · exact nomatch hcase.symm.trans h

/-- An instruction that ends leaves the program counter where its word leads. -/
theorem execute_leadsTo (hpc : m.pc ≤ lastInstruction)
    (hlookup : Table.standard.lookup word = some op.handler)
    (h : op.execute noise (Operands.ofWord word) (m.withPc (m.pc + 2)) = .done after) :
    after.pc.toNat = m.leadsTo word := by
  have hacc := (Table.accepts_of_lookup hlookup).1
  have hret := Table.eq_ret_iff hlookup
  by_cases howned : Part.pc ∈ op.owns
  · cases op
    case ret => exact execute_ret (hret.mpr rfl) h
    case seVxKk | sneVxKk | seVxVy | sneVxVy | skpVx | sknpVx =>
      exact execute_skip hpc hacc (hret.not.mpr nofun) (by decide) h
    case call =>
      rcases (m.withPc (m.pc + 2)).call_cases (Operands.ofWord word).nnn with
        ⟨_, hcall⟩ | ⟨-, hcall⟩
      · obtain ⟨h3, -⟩ := Pattern.accepts_mk.mp hacc
        obtain rfl := Outcome.done.inj (hcall.symm.trans h)
        rw [leadsTo, if_neg (hret.not.mpr nofun), admits_some.mp h3]
        exact Operands.nnn_toNat word
      · exact nomatch hcall.symm.trans h
    case jp =>
      obtain ⟨h3, -⟩ := Pattern.accepts_mk.mp hacc
      obtain rfl := Outcome.done.inj h
      rw [leadsTo, if_neg (hret.not.mpr nofun), admits_some.mp h3]
      exact Operands.nnn_toNat word
    case jpV0Addr =>
      obtain ⟨h3, -⟩ := Pattern.accepts_mk.mp hacc
      obtain rfl := Outcome.done.inj h
      rw [leadsTo, if_neg (hret.not.mpr nofun), admits_some.mp h3]
      refine (m.jump_toNat word).trans ?_
      rw [Operands.nnn_toNat]
      rfl
    all_goals exact absurd howned (by decide)
  · have hsame : after.pc = m.pc + 2 := Op.execute_frame h howned
    have hother : op ≠ .ret := fun hop => howned (hop ▸ by decide)
    rw [leadsTo_of_unowned hacc (hret.not.mpr hother) howned, hsame, next_toNat hpc]
    rfl

/-! ## What instructions refuse -/

theorem refusal_cases {f : Fault} (h : m.refusal word = some f) :
    (word = 0x00ee ∧ m.sp = 0 ∧ f = .stackUnderflow m.pc) ∨
      (nibble word 3 = 2 ∧ m.sp = 16 ∧ f = .stackOverflow m.pc) ∨
      (word = 0x00fd ∧ f = .exited m.pc) := by
  unfold refusal at h
  split_ifs at h with hret hcall hexit
  · exact .inl ⟨hret.1, hret.2, (Option.some.inj h).symm⟩
  · exact .inr (.inl ⟨hcall.1, hcall.2, (Option.some.inj h).symm⟩)
  · exact .inr (.inr ⟨hexit, (Option.some.inj h).symm⟩)

/-- A refusal leaves the machine as it was. -/
theorem execute_of_refusal (hlookup : Table.standard.lookup word = some op.handler) {f : Fault}
    (hrefusal : m.refusal word = some f) (o : Operands) :
    op.execute noise o (m.withPc (m.pc + 2)) = .fault f (m.withPc (m.pc + 2)) := by
  rcases refusal_cases hrefusal with ⟨hword, hsp, rfl⟩ | ⟨hword, hsp, rfl⟩ | ⟨hword, rfl⟩
  · obtain rfl := (Table.eq_ret_iff hlookup).mp hword
    rcases (m.withPc (m.pc + 2)).ret_cases with ⟨-, hret⟩ | ⟨top, -, hsp', -⟩ | ⟨hsp', -⟩
    · rw [here_next] at hret
      exact hret
    · exact nomatch hsp.symm.trans hsp'
    · exact absurd (hsp ▸ hsp' : 16 < 0) (by decide)
  · obtain rfl := (Table.eq_call_iff hlookup).mp hword
    rcases (m.withPc (m.pc + 2)).call_cases o.nnn with ⟨hsp', -⟩ | ⟨-, hcall⟩
    · exact absurd (hsp ▸ hsp' : 16 < 16) (by decide)
    · rw [here_next] at hcall
      exact hcall
  · obtain rfl := (Table.eq_exit_iff hlookup).mp hword
    exact congrArg (fun address => Outcome.fault (.exited address) (m.withPc (m.pc + 2)))
      (here_next m)

/-- What an instruction raises by itself is its refusal. -/
theorem refusal_of_execute (hsp : m.sp ≤ 16)
    (hlookup : Table.standard.lookup word = some op.handler) {o : Operands} {f : Fault}
    (h : op.execute noise o (m.withPc (m.pc + 2)) = .fault f after) :
    m.refusal word = some f := by
  have hret := Table.eq_ret_iff hlookup
  have hcall := Table.eq_call_iff hlookup
  have hexit := Table.eq_exit_iff hlookup
  obtain ⟨-, hfault⟩ := Op.execute_fault h
  rw [here_next] at hfault
  unfold refusal
  rcases hfault with ⟨hop, hempty, rfl⟩ | ⟨hop, hfull, rfl⟩ | ⟨hop, rfl⟩
  · rw [if_pos ⟨hret.mpr hop, hempty⟩]
  · have hother : word ≠ 0x00ee := hret.not.mpr (hop ▸ nofun)
    rw [if_neg (not_and_of_not_left _ hother), if_pos ⟨hcall.mpr hop, Nat.le_antisymm hsp hfull⟩]
  · have hother : word ≠ 0x00ee := hret.not.mpr (hop ▸ nofun)
    have hother' : nibble word 3 ≠ 2 := hcall.not.mpr (hop ▸ nofun)
    rw [if_neg (not_and_of_not_left _ hother), if_neg (not_and_of_not_left _ hother'),
      if_pos (hexit.mpr hop)]

/-- An instruction that refuses nothing ends. -/
theorem execute_of_none (hsp : m.sp ≤ 16)
    (hlookup : Table.standard.lookup word = some op.handler) (hrefusal : m.refusal word = none)
    (noise : UInt8) (o : Operands) :
    ∃ after, op.execute noise o (m.withPc (m.pc + 2)) = .done after := by
  cases hended : op.execute noise o (m.withPc (m.pc + 2)) with
  | done after => exact ⟨after, rfl⟩
  | fault f after => exact nomatch hrefusal.symm.trans (refusal_of_execute hsp hlookup hended)
  | crash => exact absurd hended (Op.execute_ne_crash hsp)

/-! ## One tick -/

/-- What runs leaves the count to the tick. -/
theorem Runs.cycle_eq {h : Handler} {ended : Outcome Machine}
    (hruns : m.Runs Table.standard noise h ended) (hafter : ended.state? = some after) :
    after.cycle = m.cycle := by
  obtain ⟨-, word, -, hlookup, hrun⟩ := hruns
  obtain ⟨op, rfl⟩ := Table.lookup_standard hlookup
  cases ended with
  | done state =>
    obtain rfl := Option.some.inj hafter
    exact Op.execute_frame hrun (show Part.cycle ∉ op.owns by cases op <;> decide)
  | fault f state =>
    obtain rfl := Option.some.inj hafter
    obtain ⟨rfl, -⟩ := Op.execute_fault hrun
    rfl
  | crash => exact nomatch hafter

theorem tick_of_refusal (hidle : m.waiting = none) (hword : m.readWord m.pc = .ok word)
    (hlookup : Table.standard.lookup word ≠ none) {f : Fault} (hrefusal : m.refusal word = some f) :
    m.tick Table.standard noise = .fault f m := by
  obtain ⟨h, hlookup⟩ := Option.ne_none_iff_exists'.mp hlookup
  obtain ⟨op, rfl⟩ := Table.lookup_standard hlookup
  have hruns : m.Runs Table.standard noise op.handler _ :=
    ⟨hidle, word, hword, hlookup, execute_of_refusal hlookup hrefusal _⟩
  exact hruns.tick_refused

/-- A tick that is not refused goes where the word leads, if that is in range. -/
theorem tick_of_leadsTo (hpc : m.pc ≤ lastInstruction) (hsp : m.sp ≤ 16)
    (hcycle : m.cycle + 1 < countLimit) (hidle : m.waiting = none)
    (hword : m.readWord m.pc = .ok word) (hlookup : Table.standard.lookup word ≠ none)
    (hrefusal : m.refusal word = none) (noise : UInt8) :
    ∃ after : Machine, after.pc.toNat = m.leadsTo word ∧ after.cycle = m.cycle ∧
      m.tick Table.standard noise =
        if m.leadsTo word ≤ 0xffe then .done { after with cycle := m.cycle + 1 }
        else .fault (.programCounterOutOfRange after.pc m.pc) (after.withPc m.pc) := by
  obtain ⟨h, hlookup⟩ := Option.ne_none_iff_exists'.mp hlookup
  obtain ⟨op, rfl⟩ := Table.lookup_standard hlookup
  obtain ⟨after, hafter⟩ := execute_of_none hsp hlookup hrefusal noise (Operands.ofWord word)
  have hruns : m.Runs Table.standard noise op.handler (.done after) :=
    ⟨hidle, word, hword, hlookup, hafter⟩
  have hleads := execute_leadsTo hpc hlookup hafter
  have hcount : after.cycle = m.cycle := hruns.cycle_eq rfl
  refine ⟨after, hleads, hcount, ?_⟩
  rw [← hleads]
  by_cases hle : after.pc.toNat ≤ 0xffe
  · rw [if_pos hle, hruns.tick_done (pc_le_iff.mpr hle), count_of_lt (hcount ▸ hcycle), hcount]
  · have hlt : lastInstruction < after.pc := UInt16.not_le.mp (pc_le_iff.not.mpr hle)
    rw [if_neg hle, hruns.tick_eq, conclude, if_pos hlt]

/-- What a fault of a tick says about the instruction `word` at the program counter. All faults
that a tick can have give the address of the instruction. -/
def Blames (m : Machine) (word : UInt16) : Fault → Prop
  | .unimplementedInstruction found address =>
    address = m.pc ∧ found = word ∧ Table.standard.lookup word = none
  | .stackUnderflow address => address = m.pc ∧ word = 0x00ee ∧ m.sp = 0
  | .stackOverflow address => address = m.pc ∧ nibble word 3 = 2 ∧ m.sp = 16
  | .exited address => address = m.pc ∧ word = 0x00fd
  | .programCounterOutOfRange counter address =>
    address = m.pc ∧ counter.toNat = m.leadsTo word ∧ 0xffe < m.leadsTo word
  | _ => False

theorem blames_of_refusal {f : Fault} (h : m.refusal word = some f) : m.Blames word f := by
  rcases refusal_cases h with ⟨hword, hsp, rfl⟩ | ⟨hword, hsp, rfl⟩ | ⟨hword, rfl⟩
  · exact ⟨rfl, hword, hsp⟩
  · exact ⟨rfl, hword, hsp⟩
  · exact ⟨rfl, hword⟩

theorem tick_blames (hpc : m.pc ≤ lastInstruction) (hsp : m.sp ≤ 16)
    (hword : m.readWord m.pc = .ok word) {f : Fault}
    (h : m.tick Table.standard noise = .fault f m') : m.Blames word f := by
  have hcase := m.tick_case Table.standard noise
  rw [h] at hcase
  cases hcase with
  | unreadable hlt => exact absurd hpc (UInt16.not_le.mpr hlt)
  | unknown hfetched hnone =>
    obtain rfl := Except.ok.inj (hword.symm.trans hfetched)
    exact ⟨rfl, rfl, hnone⟩
  | refused hruns =>
    obtain ⟨-, word', hfetched, hlookup, hrun⟩ := hruns
    obtain rfl := Except.ok.inj (hword.symm.trans hfetched)
    obtain ⟨op, rfl⟩ := Table.lookup_standard hlookup
    exact blames_of_refusal (refusal_of_execute hsp hlookup hrun)
  | strays hruns hlt =>
    obtain ⟨-, word', hfetched, hlookup, hrun⟩ := hruns
    obtain rfl := Except.ok.inj (hword.symm.trans hfetched)
    obtain ⟨op, rfl⟩ := Table.lookup_standard hlookup
    have hleads := execute_leadsTo hpc hlookup hrun
    refine ⟨rfl, hleads, ?_⟩
    rw [← hleads]
    exact UInt16.lt_iff_toNat_lt.mp hlt

end Machine

/-! ## Counting -/

/-- Whether a stimulus is a tick that finds a machine not waiting and that ends well. -/
def Stimulus.succeeds (m : Machine) : Stimulus → Bool
  | request _ => false
  | tick noise =>
    match m.tick Table.standard noise with
    | .done _ => !m.isWaiting
    | .fault .. => false
    | .crash => false

namespace Machine

/-- How many ticks of a run find the machine not waiting and end well. -/
def successes (m : Machine) : List Stimulus → Nat
  | [] => 0
  | s :: rest =>
    (s.succeeds m).toNat + match s.after? m with
      | some m' => m'.successes rest
      | none => 0

variable {m m' last : Machine} {s : Stimulus} {stimuli : List Stimulus}

/-- A failed tick puts the program counter back and counts nothing. -/
theorem tick_fault_sameAt {noise : UInt8} {f : Fault}
    (h : m.tick Table.standard noise = .fault f m') : m'.pc = m.pc ∧ m'.cycle = m.cycle := by
  have hcase := m.tick_case Table.standard noise
  rw [h] at hcase
  cases hcase with
  | unreadable | unknown => exact ⟨rfl, rfl⟩
  | refused hruns | strays hruns =>
    have hcount := hruns.cycle_eq rfl
    exact ⟨rfl, hcount⟩

theorem cycle_after (hreset : s ≠ .request .reset) (h : s.after? m = some m') :
    m'.cycle = m.cycle + (s.succeeds m).toNat := by
  cases s with
  | request r =>
    obtain rfl := Option.some.inj h
    exact Request.apply_sameAt m (fun hr => hreset (hr ▸ rfl))
      (show Part.cycle ∈ Request.reserved by decide)
  | tick noise =>
    have hcase := m.tick_case Table.standard noise
    rw [Stimulus.after?] at h
    rw [Stimulus.succeeds]
    generalize m.tick Table.standard noise = ended at h hcase
    cases hcase with
    | waits hwaits =>
      obtain rfl := Option.some.inj h
      have hwaits' : m.isWaiting = true := Option.isSome_iff_ne_none.mpr hwaits
      simp only [hwaits', Bool.not_true, Bool.toNat_false, Nat.add_zero]
    | unreadable | unknown =>
      obtain rfl := Option.some.inj h
      rfl
    | refused hruns | strays hruns =>
      have hcount := hruns.cycle_eq rfl
      obtain rfl := Option.some.inj h
      exact hcount
    | counts hruns =>
      have hcount := hruns.cycle_eq rfl
      obtain rfl := Option.some.inj h
      have hidle : m.isWaiting = false := by rw [isWaiting, hruns.idle, Option.isSome_none]
      simp only [hidle, Bool.not_false, Bool.toNat_true, hcount]
    | overflows | crashes => cases h

/-- A run counts the ticks that end well. -/
theorem cycle_of_run (hreset : .request .reset ∉ stimuli) (h : m.run stimuli = some last) :
    last.cycle = m.cycle + m.successes stimuli := by
  induction stimuli generalizing m with
  | nil =>
    obtain rfl := Option.some.inj h
    rfl
  | cons s rest ih =>
    obtain ⟨m', hafter, hrest⟩ := Option.bind_eq_some_iff.mp h
    rw [List.mem_cons, not_or] at hreset
    rw [ih hreset.2 hrest, cycle_after (Ne.symm hreset.1) hafter, successes, hafter, Nat.add_assoc]

/-! ## Runs stay in range -/

theorem apply_sp_le (hsp : m.sp ≤ 16) (r : Request) : (r.apply m).sp ≤ 16 := by
  by_cases hr : r = .reset
  · rw [hr]
    exact Nat.zero_le 16
  · have hsame : (r.apply m).sp = m.sp :=
      Request.apply_sameAt m hr (show Part.sp ∈ Request.reserved by decide)
    rwa [hsame]

theorem execute_sp_le {op : Op} {noise : UInt8} {o : Operands} (hsp : m.sp ≤ 16)
    (h : op.execute noise o m = .done m') : m'.sp ≤ 16 := by
  by_cases howned : Part.sp ∈ op.owns
  · cases op
    case ret =>
      rcases m.ret_cases with ⟨-, hret⟩ | ⟨top, htop, -, hret⟩ | ⟨-, hret⟩
      · exact nomatch hret.symm.trans h
      · obtain rfl := Outcome.done.inj (hret.symm.trans h)
        exact Nat.le_of_lt htop
      · exact nomatch hret.symm.trans h
    case call =>
      rcases m.call_cases o.nnn with ⟨hlt, hcall⟩ | ⟨-, hcall⟩
      · obtain rfl := Outcome.done.inj (hcall.symm.trans h)
        exact hlt
      · exact nomatch hcall.symm.trans h
    all_goals exact absurd howned (by decide)
  · have hsame : m'.sp = m.sp := Op.execute_frame h howned
    rwa [hsame]

theorem tick_sp_le {noise : UInt8} (hsp : m.sp ≤ 16)
    (hleft : (m.tick Table.standard noise).state? = some m') : m'.sp ≤ 16 := by
  rcases tick_standard hleft with rfl | ⟨op, o, after, hrun, pc, cycle, rfl⟩
  · exact hsp
  · have hafter : after.sp ≤ 16 := execute_sp_le (m := m.withPc (m.pc + 2)) hsp hrun
    exact hafter

theorem tick_pc_le {table : Table} {noise : UInt8} (hpc : m.pc ≤ lastInstruction)
    (hleft : (m.tick table noise).state? = some m') : m'.pc ≤ lastInstruction := by
  have hcase := m.tick_case table noise
  generalize m.tick table noise = ended at hleft hcase
  cases hcase with
  | waits | unreadable | unknown | refused | strays =>
    obtain rfl := Option.some.inj hleft
    exact hpc
  | counts _ hpc' =>
    obtain rfl := Option.some.inj hleft
    exact hpc'
  | overflows | crashes => exact nomatch hleft

theorem tick_ne_crash_of_sp_le {noise : UInt8} (hsp : m.sp ≤ 16)
    (hcycle : m.cycle + 1 < countLimit) : m.tick Table.standard noise ≠ .crash := by
  intro h
  have hcase := m.tick_case Table.standard noise
  rw [h] at hcase
  cases hcase with
  | overflows hruns hlimit =>
    have hcount := hruns.cycle_eq rfl
    omega
  | crashes hruns =>
    obtain ⟨-, word, -, hlookup, hrun⟩ := hruns
    obtain ⟨op, rfl⟩ := Table.lookup_standard hlookup
    exact Op.execute_ne_crash (m := m.withPc (m.pc + 2)) hsp hrun

theorem exists_after (hpc : m.pc ≤ lastInstruction) (hsp : m.sp ≤ 16)
    (hcycle : m.cycle + 1 < countLimit) (s : Stimulus) :
    ∃ m', s.after? m = some m' ∧ m'.pc ≤ lastInstruction ∧ m'.sp ≤ 16 ∧
      m'.cycle ≤ m.cycle + 1 := by
  cases s with
  | request r =>
    exact ⟨_, rfl, Request.apply_pc_le hpc r, apply_sp_le hsp r,
      Nat.le_succ_of_le (Request.apply_cycle_le m r)⟩
  | tick noise =>
    have hcrash : m.tick Table.standard noise ≠ .crash := tick_ne_crash_of_sp_le hsp hcycle
    obtain ⟨m', hleft⟩ : ∃ m', (m.tick Table.standard noise).state? = some m' := by
      cases hended : m.tick Table.standard noise with
      | done m' | fault _ m' => exact ⟨m', rfl⟩
      | crash => exact absurd hended hcrash
    refine ⟨m', hleft, tick_pc_le hpc hleft, tick_sp_le hsp hleft, ?_⟩
    rw [cycle_after (s := .tick noise) nofun hleft]
    exact Nat.add_le_add_left (Bool.toNat_le _) _

/-- A run does not crash as long as its ticks can be counted. -/
theorem exists_run (hpc : m.pc ≤ lastInstruction) (hsp : m.sp ≤ 16)
    (hcount : m.cycle + stimuli.length < countLimit) : ∃ last, m.run stimuli = some last := by
  induction stimuli generalizing m with
  | nil => exact ⟨m, rfl⟩
  | cons s rest ih =>
    rw [List.length_cons] at hcount
    obtain ⟨m', hafter, hpc', hsp', hcycle⟩ := exists_after hpc hsp (by omega) s
    obtain ⟨last, hlast⟩ := ih hpc' hsp' (by omega)
    exact ⟨last, by rw [run, hafter, Option.bind_some, hlast]⟩

/-- Where a machine goes, with the program counter in range and at most sixteen addresses on the
stack. While it does not wait and the instruction can be counted, a tick finds a word.

* If the word is an instruction that refuses nothing, then the tick ends well, counts one, and
  leaves the program counter exactly where the word leads, provided that this is in range.
  Otherwise it fails and tells exactly where the word would have led.
* If the instruction refuses, or there is none, the tick fails, and nothing has changed.
* A fault names the instruction's address and only comes from the words that it is for, the
  program counter is back on the instruction, and nothing is counted.

A run does not crash as long as its ticks can be counted. Without a reset it counts the ticks that
end well without having waited, and no others. -/
theorem tick_leads_exactly (m : Machine) (hpc : m.pc ≤ 0xffe) (hsp : m.sp ≤ 16) :
    (m.waiting = none → m.cycle + 1 < countLimit → ∀ noise, ∃ word, m.readWord m.pc = .ok word ∧
      (Table.standard.lookup word ≠ none → m.refusal word = none →
        (m.leadsTo word ≤ 0xffe → ∃ m', m.tick Table.standard noise = .done m' ∧
          m'.pc.toNat = m.leadsTo word ∧ m'.cycle = m.cycle + 1) ∧
        (0xffe < m.leadsTo word → ∃ counter m', m.tick Table.standard noise =
          .fault (.programCounterOutOfRange counter m.pc) m' ∧
            counter.toNat = m.leadsTo word)) ∧
      (Table.standard.lookup word ≠ none → ∀ f, m.refusal word = some f →
        m.tick Table.standard noise = .fault f m) ∧
      (Table.standard.lookup word = none →
        m.tick Table.standard noise = .fault (.unimplementedInstruction word m.pc) m) ∧
      ∀ f m', m.tick Table.standard noise = .fault f m' →
        m.Blames word f ∧ m'.pc = m.pc ∧ m'.cycle = m.cycle) ∧
    ∀ stimuli,
      (m.cycle + stimuli.length < countLimit → ∃ last, m.run stimuli = some last) ∧
      (.request .reset ∉ stimuli → ∀ last, m.run stimuli = some last →
        last.cycle = m.cycle + m.successes stimuli) := by
  refine ⟨fun hidle hcycle noise => ?_,
    fun stimuli => ⟨exists_run hpc hsp, fun hreset last => cycle_of_run hreset⟩⟩
  obtain ⟨word, hword⟩ := m.readWord_of_le hpc
  refine ⟨word, hword, fun hlookup hrefusal => ?_,
    fun hlookup f => tick_of_refusal hidle hword hlookup, tick_of_unknown hidle hword,
    fun f m' h => ⟨tick_blames hpc hsp hword h, tick_fault_sameAt h⟩⟩
  obtain ⟨after, hleads, hcount, htick⟩ :=
    tick_of_leadsTo hpc hsp hcycle hidle hword hlookup hrefusal noise
  constructor
  · intro hle
    rw [if_pos hle] at htick
    exact ⟨_, htick, hleads, rfl⟩
  · intro hlt
    rw [if_neg (Nat.not_le.mpr hlt)] at htick
    exact ⟨_, _, htick, hleads⟩

/-- A jump with an offset goes to the last instruction in memory, and with another offset it goes
past the end. -/
theorem jump_past_the_end :
    ∃ m near far left : Machine,
      m.memory = Memory.fresh.writeBytes 0x200 [0xbf, 0xfe] ∧
      m.tick Table.standard 0 = .done near ∧ near.pc.toNat = 0xffe ∧ near.cycle = 1 ∧
      far = { m with v := setNibble m.v 0 0xff } ∧
      far.tick Table.standard 0 = .fault (.programCounterOutOfRange 0x10fd 0x200) left ∧
      left.pc = 0x200 ∧ left.cycle = 0 ∧
      ∃ last, m.run [.tick 0] = some last ∧ last.cycle = 1 := by
  obtain ⟨memory, hmemory⟩ : ∃ memory, memory = Memory.fresh.writeBytes 0x200 [0xbf, 0xfe] :=
    ⟨_, rfl⟩
  have hfetched : memory.readWord 0x200 = .ok 0xbffe := by
    rw [hmemory]
    decide +kernel
  have hlookup : Table.standard.lookup 0xbffe = some Op.jpV0Addr.handler :=
    Table.lookup_of_accepts (by decide) (by decide)
  let m : Machine := { fresh with memory }
  let far : Machine := { m with v := setNibble m.v 0 0xff }
  have hbegin : (0x200 : UInt16) ≤ 0xffe := by decide
  have hfirst : 0 + 1 < countLimit := by decide
  obtain ⟨hstep, hrun⟩ := tick_leads_exactly m hbegin (Nat.zero_le 16)
  obtain ⟨hstep', -⟩ := tick_leads_exactly far hbegin (Nat.zero_le 16)
  obtain ⟨word, hword, hgoes, -⟩ := hstep rfl hfirst 0
  obtain ⟨word', hword', hgoes', -, -, hfault⟩ := hstep' rfl hfirst 0
  obtain rfl := Except.ok.inj (hword.symm.trans hfetched)
  obtain rfl := Except.ok.inj (hword'.symm.trans hfetched)
  have hnear : m.leadsTo 0xbffe = 0xffe := rfl
  have hfar : far.leadsTo 0xbffe = 0x10fd := rfl
  rw [hnear] at hgoes
  rw [hfar] at hgoes'
  obtain ⟨near, htick, hpc, hcycle⟩ := (hgoes (hlookup ▸ nofun) rfl).1 (by decide)
  obtain ⟨counter, left, htick', hcounter⟩ := (hgoes' (hlookup ▸ nofun) rfl).2 (by decide)
  obtain rfl : counter = 0x10fd := UInt16.toNat_inj.mp hcounter
  obtain ⟨-, hback, huncounted⟩ := hfault _ _ htick'
  -- Of the two ways to look at the run, one says that it ends, the other what it counts.
  obtain ⟨hends, hcounts⟩ := hrun [.tick 0]
  obtain ⟨last, hlast⟩ := hends (show 0 + 1 < countLimit from hfirst)
  have hsuccess : m.successes [.tick 0] = 1 := by
    rw [successes, Stimulus.succeeds, Stimulus.after?, htick]
    rfl
  refine ⟨m, near, far, left, hmemory, htick, hpc, hcycle, rfl, htick', hback, huncounted, last,
    hlast, ?_⟩
  rw [hcounts (by simp) last hlast, hsuccess]
  rfl

end Machine

end Chip8
