import Chip8.Proofs.Scrolling
import Chip8.Proofs.Tick

/-!
# Machines that can be reached

A machine is driven from outside by requests and by ticks, with a table whose further handlers
do nothing but make requests themselves (`Handler.Courteous`). `Reachable` machines are those
that such a sequence leads to, failed ticks included.

`Consistent` is what no instruction and no request breaks, wherever the program counter is:
the height of the stack, the return addresses on it, and the dark cells that the mode does not
use. A tick starts with the program counter in range, so what a call puts on the stack is the
address behind an instruction, and it ends with the program counter in range again.

> `reachable_wellFormed`: reachable machines are well formed. So fetching never fails, sums
> with the program counter do not go around, no instruction crashes, whatever its operands are, and
> a tick does not crash as long as the count of instructions fits.

An instruction crashes where it asks for a cell that the screen does not have, for a block that is
not there, for a slot outside the stack, or for a number that does not fit. That none of them does
is `Op.execute_ne_crash`, which rests on the height of the stack; the rest is proved from the
functions themselves, as with `Screen.exists_toggle?` for a pixel that is drawn and
`Screen.exists_shift?` for a block that is scrolled.
-/

namespace Chip8

/-! ## Requests -/

/-- What a machine can be asked for between ticks. -/
inductive Request where
  | load (program : List UInt8) (address : UInt16)
  | reset
  | press (key : Nat)
  | release (key : Nat)
  | setV (r : Nat) (b : UInt8)
  | writeWord (address word : UInt16)
  | tickTimers

namespace Request

/-- The machine in an answer, or the old one if the request was refused. -/
def orElse {ε α : Type} (m : Machine) (machine : α → Machine) : Except ε α → Machine
  | .ok a => machine a
  | .error _ => m

/-- The machine after a request. -/
def apply (m : Machine) : Request → Machine
  | load program address => orElse m id (m.load program address)
  | reset => m.reset
  | press key => orElse m Prod.fst (m.press key)
  | release key => orElse m Prod.fst (m.release key)
  | setV r b => m.setV r b
  | writeWord address word => orElse m id (m.writeWord address word)
  | tickTimers => m.tickTimers

/-- The parts of a machine that a request may change. -/
def owns : Request → List Part
  | load .. | writeWord .. => [.memory]
  | reset => [.memory, .stack, .sp, .pc, .i, .v, .delay, .sound, .screen, .waiting, .cycle]
  | press _ => [.v, .keys, .waiting]
  | release _ => [.keys]
  | setV .. => [.v]
  | tickTimers => [.delay, .sound]

/-- The parts of a machine that only a reset reaches. -/
def reserved : List Part := [.stack, .sp, .pc, .i, .screen, .cycle]

theorem orElse_sameAt {ε α : Type} {m : Machine} {machine : α → Machine} {part : Part}
    {answer : Except ε α} (h : ∀ a, answer = .ok a → m.SameAt (machine a) part) :
    m.SameAt (orElse m machine answer) part := by
  cases answer with
  | ok a => exact h a rfl
  | error e => cases part <;> exact rfl

/-- A request that only asks memory leaves all other parts alone. -/
theorem memory_sameAt {ε : Type} {m m' : Machine} {answer : Except ε Memory}
    (h : (do let memory ← answer; return { m with memory }) = Except.ok m') {part : Part}
    (hpart : part ≠ .memory) : m.SameAt m' part := by
  cases answer with
  | error e => exact nomatch h
  | ok memory =>
    obtain rfl := Except.ok.inj h
    cases part <;> first | exact absurd rfl hpart | exact rfl

theorem load_sameAt {m m' : Machine} {program : List UInt8} {address : UInt16}
    (h : m.load program address = .ok m') {part : Part} (hpart : part ≠ .memory) :
    m.SameAt m' part := by
  unfold Machine.load at h
  split at h
  · exact nomatch h
  · exact memory_sameAt h hpart

theorem press_sameAt {m : Machine} {key : Nat} {pressed : Machine × Bool}
    (h : m.press key = .ok pressed) {part : Part} (hpart : part ∉ [.v, .keys, .waiting]) :
    m.SameAt pressed.1 part := by
  unfold Machine.press at h
  split at h
  · split at h
    · obtain rfl := Except.ok.inj h
      cases part <;> exact rfl
    · dsimp only at h
      split at h
      all_goals
        obtain rfl := Except.ok.inj h
        cases part <;> first | exact absurd (by decide) hpart | exact rfl
  · exact nomatch h

theorem release_sameAt {m : Machine} {key : Nat} {released : Machine × Bool}
    (h : m.release key = .ok released) {part : Part} (hpart : part ≠ .keys) :
    m.SameAt released.1 part := by
  unfold Machine.release at h
  split at h
  · obtain rfl := Except.ok.inj h
    cases part <;> first | exact absurd rfl hpart | exact rfl
  · exact nomatch h

/-- A request leaves the parts alone that it does not own, also if it is refused. -/
theorem apply_frame (m : Machine) (r : Request) {part : Part} (hpart : part ∉ r.owns) :
    m.SameAt (r.apply m) part := by
  have hne {owned : Part} (h : r.owns = [owned]) : part ≠ owned := fun he =>
    hpart (h ▸ List.mem_singleton.mpr he)
  cases r with
  | load program address => exact orElse_sameAt fun _ h => load_sameAt h (hne rfl)
  | writeWord address word => exact orElse_sameAt fun _ h => memory_sameAt h (hne rfl)
  | press key => exact orElse_sameAt fun _ h => press_sameAt h hpart
  | release key => exact orElse_sameAt fun _ h => release_sameAt h (hne rfl)
  | setV r b =>
    have hv : part ≠ .v := hne rfl
    cases part <;> first | exact absurd rfl hv | exact rfl
  | reset =>
    rw [apply, Machine.reset, Machine.idle]
    cases part <;> first | exact absurd (by decide) hpart | exact rfl
  | tickTimers => cases part <;> first | exact absurd (by decide) hpart | exact rfl

/-- All requests but a reset leave the reserved parts alone. -/
theorem apply_sameAt (m : Machine) {r : Request} (hr : r ≠ .reset) {part : Part}
    (hpart : part ∈ reserved) : m.SameAt (r.apply m) part := by
  have hdisjoint (owned : List Part) (h : ∀ part ∈ reserved, part ∉ owned) : part ∉ owned :=
    h part hpart
  refine apply_frame m r ?_
  cases r with
  | reset => exact absurd rfl hr
  | load | writeWord => exact hdisjoint [.memory] (by decide)
  | press => exact hdisjoint [.v, .keys, .waiting] (by decide)
  | release => exact hdisjoint [.keys] (by decide)
  | setV => exact hdisjoint [.v] (by decide)
  | tickTimers => exact hdisjoint [.delay, .sound] (by decide)

end Request

/-! ## Consistent machines -/

namespace Machine

/-- What nothing breaks, wherever the program counter is. A return address lies behind an
instruction. -/
structure Consistent (m : Machine) : Prop where
  sp_le : m.sp ≤ 16
  stack_mem : ∀ k (hk : k < 16), k < m.sp → 2 ≤ m.stack[k] ∧ m.stack[k] ≤ 0x1000
  unusedDark : m.screen.UnusedDark

theorem idle_consistent (keys : Vector Bool 16) (rpl : Vector UInt8 8) :
    (idle keys rpl).Consistent where
  sp_le := Nat.zero_le 16
  stack_mem := fun k _ hlt => absurd hlt (Nat.not_lt_zero k)
  unusedDark := Screen.blank_unusedDark .standard

/-- Only stack and screen matter. -/
theorem Consistent.of_sameAt {m m' : Machine} (hm : m.Consistent) (hsp : m.SameAt m' .sp)
    (hstack : m.SameAt m' .stack) (hscreen : m'.screen.UnusedDark) : m'.Consistent := by
  have hsp' : m'.sp = m.sp := hsp
  have hstack' : m'.stack = m.stack := hstack
  refine ⟨hsp' ▸ hm.sp_le, fun k hk hlt => ?_, hscreen⟩
  rw [hsp'] at hlt
  simp only [hstack']
  exact hm.stack_mem k hk hlt

theorem Consistent.withPc {m : Machine} (hm : m.Consistent) (pc : UInt16) :
    (m.withPc pc).Consistent :=
  hm.of_sameAt rfl rfl hm.unusedDark

theorem Consistent.count {m : Machine} (hm : m.Consistent) (cycle : Nat) :
    { m with cycle }.Consistent :=
  hm.of_sameAt rfl rfl hm.unusedDark

end Machine

namespace Request

open Machine

theorem apply_consistent {m : Machine} (hm : m.Consistent) (r : Request) :
    (r.apply m).Consistent := by
  by_cases hr : r = .reset
  · rw [hr]
    exact idle_consistent m.keys m.rpl
  · have hscreen : (r.apply m).screen = m.screen :=
      apply_sameAt m hr (show Part.screen ∈ reserved by decide)
    exact hm.of_sameAt (apply_sameAt m hr (by decide)) (apply_sameAt m hr (by decide))
      (hscreen ▸ hm.unusedDark)

theorem apply_pc_le {m : Machine} (hpc : m.pc ≤ lastInstruction) (r : Request) :
    (r.apply m).pc ≤ lastInstruction := by
  by_cases hr : r = .reset
  · rw [hr]
    exact (by decide : programStart ≤ lastInstruction)
  · have hsame : (r.apply m).pc = m.pc := apply_sameAt m hr (show Part.pc ∈ reserved by decide)
    rwa [hsame]

theorem apply_cycle_le (m : Machine) (r : Request) : (r.apply m).cycle ≤ m.cycle := by
  by_cases hr : r = .reset
  · rw [hr]
    exact Nat.zero_le m.cycle
  · exact Nat.le_of_eq (apply_sameAt m hr (show Part.cycle ∈ reserved by decide))

/-- Several requests, one after the other. -/
def applyAll (requests : List Request) (m : Machine) : Machine :=
  requests.foldl (fun m r => r.apply m) m

theorem applyAll_consistent (requests : List Request) {m : Machine} (hm : m.Consistent) :
    (applyAll requests m).Consistent ∧ (applyAll requests m).cycle ≤ m.cycle := by
  induction requests generalizing m with
  | nil => exact ⟨hm, Nat.le_refl _⟩
  | cons r rest ih =>
    obtain ⟨hrest, hcycle⟩ := ih (apply_consistent hm r)
    exact ⟨hrest, Nat.le_trans hcycle (apply_cycle_le m r)⟩

theorem applyAll_pc_le (requests : List Request) {m : Machine} (hpc : m.pc ≤ lastInstruction) :
    (applyAll requests m).pc ≤ lastInstruction := by
  induction requests generalizing m with
  | nil => exact hpc
  | cons r rest ih => exact ih (apply_pc_le hpc r)

end Request

/-! ## Instructions -/

namespace Op

open Machine

variable {op : Op} {noise : UInt8} {o : Operands} {m m' : Machine}

theorem ret_consistent (hm : m.Consistent) (h : m.ret = .done m') : m'.Consistent := by
  rcases m.ret_cases with ⟨-, hret⟩ | ⟨top, htop, hsp, hret⟩ | ⟨-, hret⟩
  · exact nomatch hret.symm.trans h
  · obtain rfl := Outcome.done.inj (hret.symm.trans h)
    refine ⟨Nat.le_of_lt htop, fun k hk hlt => hm.stack_mem k hk ?_, hm.unusedDark⟩
    rw [hsp]
    exact Nat.lt_succ_of_lt hlt
  · exact nomatch hret.symm.trans h

/-- A call puts the program counter on the stack, so that has to lie behind an instruction. -/
theorem call_consistent (hm : m.Consistent) (hpc : 2 ≤ m.pc ∧ m.pc ≤ 0x1000) {target : UInt16}
    (h : m.call target = .done m') : m'.Consistent := by
  rcases m.call_cases target with ⟨hsp, hcall⟩ | ⟨-, hcall⟩
  · obtain rfl := Outcome.done.inj (hcall.symm.trans h)
    refine ⟨hsp, fun k hk hlt => ?_, hm.unusedDark⟩
    by_cases hk' : k = m.sp
    · -- The new slot holds the program counter, which points behind the call.
      subst hk'
      simpa using hpc
    · have hbelow : k < m.sp := Nat.lt_of_le_of_ne (Nat.le_of_lt_succ hlt) hk'
      have hold := hm.stack_mem k hk hbelow
      simpa [Vector.getElem_set_ne hsp hk (Ne.symm hk')] using hold
  · exact nomatch hcall.symm.trans h

/-- Whatever an instruction does to the screen, it does to the cells that the mode uses. -/
theorem execute_unusedDark (hscreen : m.screen.UnusedDark)
    (h : op.execute noise o m = .done m') : m'.screen.UnusedDark := by
  by_cases howned : Part.screen ∈ op.owns
  · cases op
    case cls | low | high =>
      obtain rfl := Outcome.done.inj h
      exact Screen.blank_unusedDark _
    case scd =>
      obtain rfl := Outcome.done.inj (execute_scd.symm.trans h)
      exact hscreen.redrawn (m.screen.scrollDown_redrawn _)
    case scr =>
      obtain rfl := Outcome.done.inj (execute_scr.symm.trans h)
      exact hscreen.redrawn (m.screen.scrollRight_redrawn _)
    case scl =>
      obtain rfl := Outcome.done.inj (execute_scl.symm.trans h)
      exact hscreen.redrawn (m.screen.scrollLeft_redrawn _)
    case drwVxVyN =>
      obtain rfl := Outcome.done.inj ((m.draw_eq o.x o.y o.n).symm.trans h)
      exact hscreen.draw _ _ _
    all_goals exact absurd howned (by decide)
  · have hsame : m'.screen = m.screen := execute_frame h howned
    rwa [hsame]

theorem done_consistent (hm : m.Consistent) (hpc : 2 ≤ m.pc ∧ m.pc ≤ 0x1000)
    (h : op.execute noise o m = .done m') : m'.Consistent := by
  by_cases howned : Part.sp ∈ op.owns
  · cases op
    case ret => exact ret_consistent hm h
    case call => exact call_consistent hm hpc h
    all_goals exact absurd howned (by decide)
  · have hstack : Part.stack ∉ op.owns := by
      revert howned
      cases op <;> decide
    exact hm.of_sameAt (execute_frame h howned) (execute_frame h hstack)
      (execute_unusedDark hm.unusedDark h)

/-- An instruction always leaves a machine behind, and a consistent one. -/
theorem execute_consistent (op : Op) (noise : UInt8) (o : Operands) (hm : m.Consistent)
    (hpc : 2 ≤ m.pc ∧ m.pc ≤ 0x1000) :
    ∃ m', (op.execute noise o m).state? = some m' ∧ m'.Consistent ∧ m'.cycle ≤ m.cycle := by
  cases hended : op.execute noise o m with
  | done m' =>
    have hcycle : m'.cycle = m.cycle :=
      execute_frame hended (show Part.cycle ∉ op.owns by cases op <;> decide)
    exact ⟨m', rfl, done_consistent hm hpc hended, Nat.le_of_eq hcycle⟩
  | fault f m' =>
    obtain ⟨rfl, -⟩ := execute_fault hended
    exact ⟨m', rfl, hm, Nat.le_refl _⟩
  | crash => exact absurd hended (execute_ne_crash hm.sp_le)

end Op

/-! ## Ticks -/

/-- The handler does nothing but make requests, as it likes, and it does not crash. -/
def Handler.Courteous (h : Handler) : Prop :=
  ∀ noise o m, ∃ requests, (h.execute noise o m).state? = some (Request.applyAll requests m)

namespace Machine

variable {m m' : Machine} {extra : List Handler} {noise : UInt8}

theorem pc_le_iff : m.pc ≤ lastInstruction ↔ m.pc.toNat ≤ 4094 := UInt16.le_iff_toNat_le

theorem next_toNat (hpc : m.pc ≤ lastInstruction) : (m.pc + 2).toNat = m.pc.toNat + 2 := by
  have hle := pc_le_iff.mp hpc
  rw [UInt16.toNat_add]
  exact Nat.mod_eq_of_lt (by change m.pc.toNat + 2 < 65536; omega)

theorem next_mem (hpc : m.pc ≤ lastInstruction) : 2 ≤ m.pc + 2 ∧ m.pc + 2 ≤ 0x1000 := by
  have hle := pc_le_iff.mp hpc
  rw [UInt16.le_iff_toNat_le, UInt16.le_iff_toNat_le, next_toNat hpc]
  exact ⟨Nat.le_add_left _ _, by change m.pc.toNat + 2 ≤ 4096; omega⟩

/-- A handler that runs leaves a consistent machine behind. -/
theorem Runs.consistent (hm : m.Consistent) (hpc : m.pc ≤ lastInstruction)
    (hextra : ∀ h ∈ extra, h.Courteous) {h : Handler} {ended : Outcome Machine}
    (hruns : m.Runs (Table.standard.registerAll extra) noise h ended) :
    ∃ after, ended.state? = some after ∧ after.Consistent ∧ after.cycle ≤ m.cycle := by
  obtain ⟨-, word, -, hlookup, rfl⟩ := hruns
  rcases Table.lookup_extended hlookup with ⟨op, rfl⟩ | hmem
  · exact op.execute_consistent noise _ (hm.withPc _) (next_mem hpc)
  · obtain ⟨requests, hstate⟩ :=
      hextra h hmem noise (Operands.ofWord word) (m.withPc (m.pc + 2))
    obtain ⟨hafter, hcycle⟩ := Request.applyAll_consistent requests (hm.withPc (m.pc + 2))
    exact ⟨_, hstate, hafter, hcycle⟩

/-- A tick that leaves a machine behind leaves a consistent one, with the program counter in
range: every fault puts the old one back. It counts one instruction at most. -/
theorem tick_consistent (hm : m.Consistent) (hpc : m.pc ≤ lastInstruction)
    (hextra : ∀ h ∈ extra, h.Courteous)
    (h : (m.tick (Table.standard.registerAll extra) noise).state? = some m') :
    m'.Consistent ∧ m'.pc ≤ lastInstruction ∧ m'.cycle ≤ m.cycle + 1 := by
  have hcase := m.tick_case (Table.standard.registerAll extra) noise
  generalize m.tick (Table.standard.registerAll extra) noise = ended at h hcase
  cases hcase with
  | waits | unreadable | unknown =>
    obtain rfl := Option.some.inj h
    exact ⟨hm, hpc, Nat.le_succ _⟩
  | refused hruns | strays hruns =>
    -- The old program counter comes back, and consistency does not depend on it.
    obtain ⟨after, hafter, hcons, hcycle⟩ := hruns.consistent hm hpc hextra
    obtain rfl := Option.some.inj hafter
    obtain rfl := Option.some.inj h
    exact ⟨hcons.withPc _, hpc, Nat.le_succ_of_le hcycle⟩
  | counts hruns hpc' =>
    obtain ⟨after, hafter, hcons, hcycle⟩ := hruns.consistent hm hpc hextra
    obtain rfl := Option.some.inj hafter
    obtain rfl := Option.some.inj h
    exact ⟨hcons.count _, hpc', Nat.succ_le_succ hcycle⟩
  | overflows | crashes => exact nomatch h

theorem tick_ne_crash (hm : m.Consistent) (hpc : m.pc ≤ lastInstruction)
    (hextra : ∀ h ∈ extra, h.Courteous) (hcycle : m.cycle + 1 < countLimit) :
    m.tick (Table.standard.registerAll extra) noise ≠ .crash := by
  intro h
  have hcase := m.tick_case (Table.standard.registerAll extra) noise
  rw [h] at hcase
  cases hcase with
  | overflows hruns hlimit =>
    obtain ⟨after, hafter, -, hle⟩ := hruns.consistent hm hpc hextra
    obtain rfl := Option.some.inj hafter
    -- The handler may have started the machine over, but it cannot count on.
    omega
  | crashes hruns =>
    obtain ⟨after, hafter, -⟩ := hruns.consistent hm hpc hextra
    exact nomatch hafter

/-- With the standard table alone, a tick that is in range never fails at fetching. -/
theorem tick_fault_ne_range (hpc : m.pc ≤ lastInstruction) {f : Fault}
    (h : m.tick Table.standard noise = .fault f m') (address length : Nat) :
    f ≠ .invalidAddressRange address length := by
  have hcase := m.tick_case Table.standard noise
  rw [h] at hcase
  cases hcase with
  | unreadable hpc' => exact absurd hpc (UInt16.not_le.mpr hpc')
  | unknown => exact nofun
  | strays => exact nofun
  | refused hruns =>
    obtain ⟨-, here, rfl | rfl | rfl⟩ := hruns.refused_standard <;> exact nofun

/-! ## Reachable machines -/

/-- The machines that requests and ticks lead to from a new one. -/
inductive Reachable : Machine → Prop where
  | fresh : Reachable fresh
  | request {m : Machine} (hm : Reachable m) (r : Request) : Reachable (r.apply m)
  | tick {m m' : Machine} (hm : Reachable m) {extra : List Handler}
    (hextra : ∀ h ∈ extra, h.Courteous) {noise : UInt8}
    (h : (m.tick (Table.standard.registerAll extra) noise).state? = some m') : Reachable m'

theorem Reachable.consistent {m : Machine} (hm : m.Reachable) :
    m.Consistent ∧ m.pc ≤ lastInstruction := by
  induction hm with
  | fresh => exact ⟨idle_consistent _ _, by decide⟩
  | request _ r ih => exact ⟨Request.apply_consistent ih.1 r, Request.apply_pc_le ih.2 r⟩
  | tick _ hextra h ih =>
    obtain ⟨hcons, hpc, -⟩ := tick_consistent ih.1 ih.2 hextra h
    exact ⟨hcons, hpc⟩

/-- Everything that a machine can be indexed with is in bounds. -/
structure WellFormed (m : Machine) : Prop where
  pc_le : m.pc ≤ 0xffe
  sp_le : m.sp ≤ 16
  stack_mem : ∀ k (hk : k < 16), k < m.sp → 2 ≤ m.stack[k] ∧ m.stack[k] ≤ 0x1000
  waiting_lt : ∀ r ∈ m.waiting, r.val < 16
  dark : m.screen.mode = .standard → ∀ i, 2048 ≤ i → i < 8192 → m.screen.cell i = false

theorem Reachable.wellFormed {m : Machine} (hm : m.Reachable) : m.WellFormed := by
  obtain ⟨hcons, hpc⟩ := hm.consistent
  exact ⟨hpc, hcons.sp_le, hcons.stack_mem, fun r _ => r.isLt,
    fun hmode _ hi hi' => hcons.unusedDark.of_standard hmode hi hi'⟩

/-- No sum with the program counter goes around: neither the step to the next instruction, nor
a skip from there, nor the way back to the instruction at fault, nor a jump with an offset. -/
structure Unwrapped (m : Machine) : Prop where
  next : (m.pc + 2).toNat = m.pc.toNat + 2
  skip : ∀ c, ((m.withPc (m.pc + 2)).skipIf c).pc.toNat = m.pc.toNat + if c then 4 else 2
  here : (m.withPc (m.pc + 2)).here = m.pc
  jump : ∀ noise word, ∃ m',
    Op.jpV0Addr.execute noise (Operands.ofWord word) (m.withPc (m.pc + 2)) = .done m' ∧
      m'.pc.toNat = (Operands.ofWord word).nnn.toNat + (m.reg 0).toNat

/-- The target of a jump with an offset has 12 bits before the offset is added. -/
theorem jump_toNat (m : Machine) (word : UInt16) :
    ((Operands.ofWord word).nnn + (m.reg 0).toUInt16).toNat =
      (Operands.ofWord word).nnn.toNat + (m.reg 0).toNat := by
  have hnnn : (Operands.ofWord word).nnn.toNat < 4096 := by
    rw [Operands.nnn_toNat]
    exact Nat.mod_lt _ (by decide)
  have hreg := (m.reg 0).toNat_lt
  rw [UInt16.toNat_add, UInt8.toNat_toUInt16]
  exact Nat.mod_eq_of_lt (by change _ < 65536; omega)

theorem unwrapped_of_pc_le (hpc : m.pc ≤ lastInstruction) : m.Unwrapped := by
  have hle := pc_le_iff.mp hpc
  refine ⟨next_toNat hpc, fun c => ?_, UInt16.add_sub_cancel _ _, fun noise word =>
    ⟨_, rfl, m.jump_toNat word⟩⟩
  rw [skipIf_eq]
  cases c with
  | false => exact next_toNat hpc
  | true =>
    change (m.pc + 2 + 2).toNat = _
    rw [UInt16.toNat_add, next_toNat hpc]
    exact Nat.mod_eq_of_lt (by change m.pc.toNat + 2 + 2 < 65536; omega)

theorem writeWord_ne_crash (m : Machine) (address word : UInt16) :
    m.writeWord address word ≠ .error .crash := by
  unfold writeWord Memory.writeWord
  rw [Memory.check_word]
  split <;> exact nofun

/-- Reachable machines are well formed. Hence

* no sum with the program counter goes around;
* there is a word to fetch;
* no instruction crashes, with whatever operands: the cells that it draws on, the blocks of cells
  that it scrolls, the slots of the stack and the registers that it saves are all there, and the
  addresses that it computes fit;
* neither a request to write a word nor a tick crashes, as long as the instruction can be
  counted, whatever courteous handlers there are on top of the standard ones;
* with the standard table alone, a tick never reports a range of addresses. -/
theorem reachable_wellFormed {m : Machine} (hm : m.Reachable) :
    m.WellFormed ∧ m.Unwrapped ∧ (∃ word, m.readWord m.pc = .ok word) ∧
      (∀ (op : Op) noise o, op.execute noise o (m.withPc (m.pc + 2)) ≠ .crash) ∧
      (∀ address word, m.writeWord address word ≠ .error .crash) ∧
      (m.cycle + 1 < countLimit → ∀ extra, (∀ h ∈ extra, h.Courteous) → ∀ noise,
        m.tick (Table.standard.registerAll extra) noise ≠ .crash) ∧
      ∀ noise f m', m.tick Table.standard noise = .fault f m' →
        ∀ address length, f ≠ .invalidAddressRange address length := by
  obtain ⟨hcons, hpc⟩ := hm.consistent
  exact ⟨hm.wellFormed, unwrapped_of_pc_le hpc, readWord_of_le hpc,
    fun _ _ _ => Op.execute_ne_crash (hcons.withPc _).sp_le, m.writeWord_ne_crash,
    fun hcycle extra hextra noise => tick_ne_crash hcons hpc hextra hcycle,
    fun noise f m' h => tick_fault_ne_range hpc h⟩

/-- A key is pressed, and then an instruction is carried out with a table in which machine calls
start the machine over. -/
theorem press_then_tick :
    let m := (Request.press 3).apply fresh
    let restart : Handler := ⟨.sys, Op.sys.pattern, fun _ _ m => .done m.reset, fun _ => ""⟩
    m.Reachable ∧ restart.Courteous ∧ m.cycle + 1 < countLimit ∧ m.WellFormed ∧
      m.tick (Table.standard.registerAll [restart]) 0 ≠ .crash := by
  intro m restart
  have hm : m.Reachable := .request .fresh (.press 3)
  have hrestart : restart.Courteous := fun _ _ _ => ⟨[.reset], rfl⟩
  have hcycle : m.cycle + 1 < countLimit := by decide
  obtain ⟨hwell, -, -, -, -, htick, -⟩ := reachable_wellFormed hm
  refine ⟨hm, hrestart, hcycle, hwell, htick hcycle _ (fun h hmem => ?_) 0⟩
  rw [List.mem_singleton.mp hmem]
  exact hrestart

end Machine

end Chip8
