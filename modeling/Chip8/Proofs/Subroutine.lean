import Chip8.Proofs.Decode
import Chip8.Proofs.WellFormed

/-!
# Subroutines

Only a call writes to the stack, and it writes to the first free slot. So a tick leaves the
slots alone that are in use when it begins (`tick_stack`), and a run does so with the slots below
a height that the stack keeps all the time (`Within.stack_eq`), whatever the program does in
between, to itself or to the stack above.

> `calls_nest`: a call goes to its target, and the next return from its height of the stack comes
> back behind the call. A call with a full stack and a return with an empty one change nothing.
-/

namespace Chip8

/-! ## Decoding -/

namespace Operands

theorem nnn_add {target : UInt16} (htarget : target ≤ 0xfff) :
    (ofWord (0x2000 + target)).nnn = target := by
  have hle : target.toNat ≤ 4095 := UInt16.le_iff_toNat_le.mp htarget
  refine UInt16.toNat_inj.mp ?_
  rw [nnn_toNat, UInt16.toNat_add]
  change (8192 + target.toNat) % 65536 % 4096 = target.toNat
  omega

end Operands

namespace Table

theorem lookup_call {target : UInt16} (htarget : target ≤ 0xfff) :
    standard.lookup (0x2000 + target) = some Op.call.handler := by
  have hle : target.toNat ≤ 4095 := UInt16.le_iff_toNat_le.mp htarget
  have hdigit : nibble (0x2000 + target) 3 = 2 := by
    refine Fin.ext ?_
    change (0x2000 + target).toNat >>> 12 % 16 = 2
    rw [UInt16.toNat_add, Nat.shiftRight_eq_div_pow]
    change (8192 + target.toNat) % 65536 / 4096 % 16 = 2
    omega
  refine lookup_of_accepts (by decide)
    (Pattern.accepts_mk.mpr ⟨?_, admits_none, admits_none, admits_none⟩)
  rw [admits_some, hdigit]

theorem lookup_ret : standard.lookup 0x00ee = some Op.ret.handler :=
  lookup_of_accepts (by decide) (by decide)

end Table

namespace Machine

variable {m m' m'' : Machine} {noise : UInt8} {target : UInt16} {height : Nat}

/-! ## Calls and returns -/

theorem here_next (m : Machine) : (m.withPc (m.pc + 2)).here = m.pc :=
  UInt16.add_sub_cancel _ _

theorem runs_call (noise : UInt8) (hidle : m.waiting = none)
    (hword : m.readWord m.pc = .ok (0x2000 + target)) (htarget : target ≤ 0xfff) :
    m.Runs Table.standard noise Op.call.handler ((m.withPc (m.pc + 2)).call target) := by
  refine ⟨hidle, _, hword, Table.lookup_call htarget, ?_⟩
  change Machine.call _ (Operands.ofWord (0x2000 + target)).nnn = _
  rw [Operands.nnn_add htarget]

theorem runs_ret (noise : UInt8) (hidle : m.waiting = none)
    (hword : m.readWord m.pc = .ok 0x00ee) :
    m.Runs Table.standard noise Op.ret.handler (m.withPc (m.pc + 2)).ret :=
  ⟨hidle, _, hword, Table.lookup_ret, rfl⟩

theorem tick_call (hidle : m.waiting = none) (hword : m.readWord m.pc = .ok (0x2000 + target))
    (htarget : target ≤ lastInstruction) (hsp : m.sp < 16) :
    m.tick Table.standard noise =
      count { m with stack := m.stack.set m.sp (m.pc + 2), sp := m.sp + 1, pc := target } := by
  have hruns := runs_call noise hidle hword (UInt16.le_trans htarget (by decide))
  rcases (m.withPc (m.pc + 2)).call_cases target with ⟨_, hcall⟩ | ⟨hfull, -⟩
  · rw [hcall] at hruns
    exact hruns.tick_done htarget
  · exact absurd hsp (Nat.not_lt.mpr hfull)

theorem tick_call_full (hidle : m.waiting = none) (hword : m.readWord m.pc = .ok (0x2000 + target))
    (htarget : target ≤ 0xfff) (hsp : 16 ≤ m.sp) :
    m.tick Table.standard noise = .fault (.stackOverflow m.pc) m := by
  have hruns := runs_call noise hidle hword htarget
  rcases (m.withPc (m.pc + 2)).call_cases target with ⟨hlt, -⟩ | ⟨-, hcall⟩
  · exact absurd hsp (Nat.not_le.mpr hlt)
  · rw [hcall, here_next] at hruns
    exact hruns.tick_refused

theorem tick_ret (hidle : m.waiting = none) (hword : m.readWord m.pc = .ok 0x00ee) {top : Nat}
    (hsp : m.sp = top + 1) (htop : top < 16) (hpc : m.stack[top] ≤ lastInstruction) :
    m.tick Table.standard noise = count { m with sp := top, pc := m.stack[top] } := by
  have hruns := runs_ret noise hidle hword
  rcases (m.withPc (m.pc + 2)).ret_cases with ⟨hsp', -⟩ | ⟨top', _, hsp', hret⟩ | ⟨hsp', -⟩
  · exact absurd (hsp.symm.trans hsp') (Nat.succ_ne_zero top)
  · obtain rfl : top = top' := Nat.succ.inj (hsp.symm.trans hsp')
    rw [hret] at hruns
    exact hruns.tick_done hpc
  · have hlt : 16 < m.sp := hsp'
    omega

theorem tick_ret_empty (hidle : m.waiting = none) (hword : m.readWord m.pc = .ok 0x00ee)
    (hsp : m.sp = 0) : m.tick Table.standard noise = .fault (.stackUnderflow m.pc) m := by
  have hruns := runs_ret noise hidle hword
  rcases (m.withPc (m.pc + 2)).ret_cases with ⟨-, hret⟩ | ⟨top, _, hsp', -⟩ | ⟨hsp', -⟩
  · rw [hret, here_next] at hruns
    exact hruns.tick_refused
  · exact absurd (hsp'.symm.trans hsp) (Nat.succ_ne_zero top)
  · have hlt : 16 < m.sp := hsp'
    omega

end Machine

/-! ## What stays on the stack -/

theorem Op.execute_stack {op : Op} {noise : UInt8} {o : Operands} {m m' : Machine}
    (h : op.execute noise o m = .done m') {k : Nat} (hk : k < 16) (hlt : k < m.sp) :
    m'.stack[k] = m.stack[k] := by
  by_cases howned : Part.stack ∈ op.owns
  · cases op
    case call =>
      rcases m.call_cases o.nnn with ⟨hsp, hcall⟩ | ⟨-, hcall⟩
      · -- The slot that is written is the first one that is free.
        obtain rfl := Outcome.done.inj (hcall.symm.trans h)
        exact Vector.getElem_set_ne hsp hk (Nat.ne_of_gt hlt)
      · exact nomatch hcall.symm.trans h
    all_goals exact absurd howned (by decide)
  · have hsame : m'.stack = m.stack := execute_frame h howned
    simp only [hsame]

namespace Machine

variable {m m' m'' : Machine} {noise : UInt8} {height : Nat}

/-- A tick leaves the slots alone that are in use when it begins. -/
theorem tick_stack (h : (m.tick Table.standard noise).state? = some m') {k : Nat} (hk : k < 16)
    (hlt : k < m.sp) : m'.stack[k] = m.stack[k] := by
  rcases tick_standard h with rfl | ⟨op, o, after, hrun, pc, cycle, rfl⟩
  · rfl
  · exact Op.execute_stack hrun hk hlt

/-- The machines that ticks, failed ones included, and requests lead to, other than to start
over, while the stack never has less than `height` addresses. -/
inductive Within (height : Nat) (m : Machine) : Machine → Prop where
  | start : Within height m m
  | request {m' : Machine} (h : Within height m m') {r : Request} (hr : r ≠ .reset) :
    Within height m (r.apply m')
  | tick {m' m'' : Machine} (h : Within height m m') {noise : UInt8}
    (hleft : (m'.tick Table.standard noise).state? = some m'') (hsp : height ≤ m''.sp) :
    Within height m m''

theorem Within.stack_eq (h : Within height m m') (hsp : height ≤ m.sp) :
    height ≤ m'.sp ∧ ∀ k (hk : k < 16), k < height → m'.stack[k] = m.stack[k] := by
  induction h with
  | start => exact ⟨hsp, fun _ _ _ => rfl⟩
  | @request m₁ _ r hr ih =>
    obtain ⟨hheight, hstack⟩ := ih
    have hsp' : (r.apply m₁).sp = m₁.sp :=
      Request.apply_sameAt m₁ hr (show Part.sp ∈ Request.reserved by decide)
    have hstack' : (r.apply m₁).stack = m₁.stack :=
      Request.apply_sameAt m₁ hr (show Part.stack ∈ Request.reserved by decide)
    refine ⟨hsp' ▸ hheight, fun k hk hlt => ?_⟩
    simp only [hstack']
    exact hstack k hk hlt
  | tick _ hleft hsp' ih =>
    obtain ⟨hheight, hstack⟩ := ih
    refine ⟨hsp', fun k hk hlt => ?_⟩
    rw [tick_stack hleft hk (Nat.lt_of_lt_of_le hlt hheight), hstack k hk hlt]

/-! ## Nesting -/

theorem count_of_lt (h : m.cycle + 1 < countLimit) :
    m.count = .done { m with cycle := m.cycle + 1 } :=
  if_pos h

/-- Calls and returns nest, as long as the instructions can be counted.

* A call goes to its target and leaves the addresses on the stack as they were, with one more on
  top. Then let the machine run, however long, with failed ticks and with requests of all kinds
  but a reset, and never with fewer addresses on the stack. All these addresses stay. When there
  are no more than these and a return comes, it leads behind the call.
* A call with sixteen addresses on the stack fails, and so does a return with none. Both know
  their own address and change nothing. -/
theorem calls_nest (m : Machine) (hidle : m.waiting = none) (noise : UInt8) :
    (∀ target ≤ 0xffe, m.readWord m.pc = .ok (0x2000 + target) → m.pc ≤ 0xffc → m.sp < 16 →
      m.cycle + 1 < countLimit →
      ∃ inside, m.tick Table.standard noise = .done inside ∧
        inside.pc = target ∧ inside.sp = m.sp + 1 ∧
        (∀ k (hk : k < 16), k < m.sp → inside.stack[k] = m.stack[k]) ∧
        ∀ last, Within (m.sp + 1) inside last →
          (∀ k (hk : k < 16), k ≤ m.sp → last.stack[k] = inside.stack[k]) ∧
          (last.sp = m.sp + 1 → last.waiting = none → last.readWord last.pc = .ok 0x00ee →
            last.cycle + 1 < countLimit → ∀ noise', ∃ back,
              last.tick Table.standard noise' = .done back ∧
              back.pc = m.pc + 2 ∧ back.sp = m.sp)) ∧
    (∀ target ≤ 0xfff, m.readWord m.pc = .ok (0x2000 + target) → 16 ≤ m.sp →
      m.tick Table.standard noise = .fault (.stackOverflow m.pc) m) ∧
    (m.readWord m.pc = .ok 0x00ee → m.sp = 0 →
      m.tick Table.standard noise = .fault (.stackUnderflow m.pc) m) := by
  refine ⟨?_, fun target htarget hword hsp => tick_call_full hidle hword htarget hsp,
    fun hword hsp => tick_ret_empty hidle hword hsp⟩
  intro target htarget hword hpc hsp hcycle
  refine ⟨_, (tick_call hidle hword htarget hsp).trans (count_of_lt hcycle), rfl, rfl, ?_, ?_⟩
  · intro k hk hlt
    exact Vector.getElem_set_ne hsp hk (Nat.ne_of_gt hlt)
  intro last hrun
  obtain ⟨-, hstack⟩ := hrun.stack_eq (Nat.le_refl _)
  refine ⟨fun k hk hle => hstack k hk (Nat.lt_succ_of_le hle), ?_⟩
  intro hsp' hidle' hword' hcycle' noise'
  -- The slot below the top still has the address behind the call.
  have htop : last.stack[m.sp] = m.pc + 2 :=
    (hstack m.sp hsp (Nat.lt_succ_self _)).trans (Vector.getElem_set_self hsp)
  have hback : m.pc + 2 ≤ lastInstruction := by
    have hle : m.pc.toNat ≤ 4092 := UInt16.le_iff_toNat_le.mp hpc
    rw [UInt16.le_iff_toNat_le, UInt16.toNat_add]
    change (m.pc.toNat + 2) % 65536 ≤ 4094
    omega
  have htick : last.tick Table.standard noise' = _ :=
    tick_ret hidle' hword' hsp' hsp (htop ▸ hback)
  exact ⟨_, htick.trans (count_of_lt hcycle'), htop, rfl⟩

/-- A subroutine at 0x204 waits for a key, gets one and returns to 0x202. Its call fails with a
full stack, and its return with an empty one. -/
theorem call_wait_return :
    ∃ m inside last back : Machine,
      m.memory = Memory.fresh.writeBytes 0x200 [0x22, 0x04, 0x00, 0x00, 0xf5, 0x0a, 0x00, 0xee] ∧
      m.tick Table.standard 0 = .done inside ∧ Within 1 inside last ∧ last.v.get 5 = 7 ∧
      last.tick Table.standard 0 = .done back ∧ back.pc = 0x202 ∧ back.sp = 0 ∧
      { m with sp := 16 }.tick Table.standard 0 =
        .fault (.stackOverflow 0x200) { m with sp := 16 } ∧
      { last with sp := 0 }.tick Table.standard 0 =
        .fault (.stackUnderflow 0x206) { last with sp := 0 } := by
  obtain ⟨memory, hmemory⟩ : ∃ memory, memory = Memory.fresh.writeBytes 0x200
      [0x22, 0x04, 0x00, 0x00, 0xf5, 0x0a, 0x00, 0xee] := ⟨_, rfl⟩
  have hcall : memory.readWord 0x200 = .ok (0x2000 + 0x204) := by
    rw [hmemory]
    decide +kernel
  have hwait : memory.readWord 0x204 = .ok 0xf50a := by
    rw [hmemory]
    decide +kernel
  have hret : memory.readWord 0x206 = .ok 0x00ee := by
    rw [hmemory]
    decide +kernel
  let m : Machine := { fresh with memory }
  let inside : Machine :=
    { m with stack := m.stack.set 0 0x202, sp := 1, pc := 0x204, cycle := 1 }
  let waiting : Machine := { inside with pc := 0x206, waiting := some 5, cycle := 2 }
  let last : Machine := (Request.press 7).apply waiting
  have hcount : ∀ k < 3, k + 1 < countLimit := by decide
  have hempty : (0 : Nat) < 16 := by decide
  have hbegin : (0x200 : UInt16) ≤ 0xffc := by decide
  have htarget : (0x204 : UInt16) ≤ 0xffe := by decide
  obtain ⟨hnest, -⟩ := calls_nest m rfl 0
  obtain ⟨inside', hin, -, -, -, hrun⟩ :=
    hnest 0x204 htarget hcall hbegin hempty (hcount 0 (by decide))
  have hin' : m.tick Table.standard 0 = .done inside :=
    (tick_call (m := m) rfl hcall htarget hempty).trans (count_of_lt (hcount 0 (by decide)))
  obtain rfl : inside' = inside := Outcome.done.inj (hin.symm.trans hin')
  have hwaits : inside.tick Table.standard 0 = .done waiting := by
    have hruns : inside.Runs Table.standard 0 Op.ldVxK.handler
        (.done { inside.withPc 0x206 with waiting := some 5 }) :=
      ⟨rfl, 0xf50a, hwait, Table.lookup_of_accepts (by decide) (by decide), rfl⟩
    exact (hruns.tick_done (show (0x206 : UInt16) ≤ lastInstruction by decide)).trans
      (count_of_lt (hcount 1 (by decide)))
  have hlast : Within 1 inside last :=
    .request (.tick .start (congrArg Outcome.state? hwaits) (Nat.le_refl 1)) nofun
  obtain ⟨-, hback⟩ := hrun last hlast
  obtain ⟨back, hout, hpc, hsp⟩ := hback rfl rfl hret (hcount 2 (by decide)) 0
  obtain ⟨-, hover, -⟩ := calls_nest { m with sp := 16 } rfl 0
  obtain ⟨-, -, hunder⟩ := calls_nest { last with sp := 0 } rfl 0
  exact ⟨m, inside, last, back, hmemory, hin', hlast, rfl, hout, hpc, hsp,
    hover 0x204 (by decide) hcall (Nat.le_refl 16), hunder hret rfl⟩

end Machine

end Chip8
