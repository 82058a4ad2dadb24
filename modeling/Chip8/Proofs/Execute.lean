import Chip8.Machine.Tick
import Chip8.Proofs.Screen

/-!
# What an instruction can do

The facts about `Op.execute` that everything about ticks rests on, so that no other file
looks at the 44 instructions for them. An instruction that moves cells, copies saved registers or
computes an address would crash if something were missing. Nothing ever is, and `execute_scd` and
the lemmas behind it say what such an instruction does. Hence

> `execute_frame`: an instruction changes the parts of the machine that it owns
> (`Op.owns`) and no others;
>
> `execute_fault`: only a return, a call and the end of the program fail by themselves, and
> they leave the machine as it was;
>
> `execute_ne_crash`: nothing crashes as long as the stack pointer is at most 16.
-/

namespace Chip8

namespace Machine

/-- A skip only moves the program counter. -/
theorem skipIf_eq (m : Machine) (c : Bool) :
    m.skipIf c = m.withPc (if c then m.pc + 2 else m.pc) := by
  cases c <;> rfl

/-! ## Subroutines -/

/-- What a return does, by the height of the stack. -/
theorem ret_cases (m : Machine) :
    (m.sp = 0 ∧ m.ret = .fault (.stackUnderflow m.here) m) ∨
      (∃ (top : Nat) (h : top < 16), m.sp = top + 1 ∧
        m.ret = .done { m with sp := top, pc := m.stack[top] }) ∨
      (16 < m.sp ∧ m.ret = .crash) := by
  unfold ret
  split
  next hsp => exact Or.inl ⟨hsp, rfl⟩
  next top hsp =>
    by_cases htop : top < 16
    · exact Or.inr (Or.inl ⟨top, htop, hsp, dif_pos htop⟩)
    · exact Or.inr (Or.inr ⟨by omega, dif_neg htop⟩)

/-- What a call does, by the height of the stack. -/
theorem call_cases (m : Machine) (target : UInt16) :
    (∃ h : m.sp < 16, m.call target =
        .done { m with stack := m.stack.set m.sp m.pc, sp := m.sp + 1, pc := target }) ∨
      (16 ≤ m.sp ∧ m.call target = .fault (.stackOverflow m.here) m) := by
  unfold call
  by_cases hsp : m.sp < 16
  · exact Or.inl ⟨hsp, dif_pos hsp⟩
  · exact Or.inr ⟨Nat.not_lt.mp hsp, dif_neg hsp⟩

/-! ## Blocks of registers -/

theorem length_take_registers (m : Machine) (x : Nibble) :
    (m.v.toList.take (x.val + 1)).length = x.val + 1 := by
  rw [List.length_take, Vector.length_toList, Nat.min_eq_left x.isLt]

/-- The machine once registers 0 to `x`, the first eight at most, are saved. -/
def afterSave (m : Machine) (x : Nibble) : Machine :=
  { m with rpl := Vector.ofFn fun k => if k.val ≤ x.val then m.v[k.val] else m.rpl[k] }

/-- The machine once registers 0 to `x`, the first eight at most, are restored. -/
def afterRestore (m : Machine) (x : Nibble) : Machine :=
  { m with v := Vector.ofFn fun r =>
      if h : r.val < 8 then (if r ≤ x then m.rpl[r.val] else m.v[r]) else m.v[r] }

theorem savedCount_le (x : Nibble) : savedCount x ≤ 8 := Nat.min_le_right ..

theorem lt_savedCount {k : Nat} (x : Nibble) : k < savedCount x ↔ k ≤ x.val ∧ k < 8 := by
  unfold savedCount
  omega

/-- There are as many registers as are saved, and room for them. -/
theorem saveRegisters_eq (m : Machine) (x : Nibble) :
    m.saveRegisters x = .done (m.afterSave x) := by
  have hcount := savedCount_le x
  rw [saveRegisters, copyFirst?, dif_pos ⟨hcount, Nat.le_trans hcount (by decide)⟩]
  refine congrArg (fun rpl => Outcome.done { m with rpl }) (Vector.ext fun k hk => ?_)
  rw [Vector.getElem_ofFn, Vector.getElem_ofFn]
  by_cases hle : k ≤ x.val
  · rw [dif_pos ((lt_savedCount x).mpr ⟨hle, hk⟩), if_pos hle]
  · rw [dif_neg fun hlt => hle ((lt_savedCount x).mp hlt).1, if_neg hle]

/-- There are as many saved registers as are restored. -/
theorem restoreRegisters_eq (m : Machine) (x : Nibble) :
    m.restoreRegisters x = .done (m.afterRestore x) := by
  have hcount := savedCount_le x
  rw [restoreRegisters, copyFirst?, dif_pos ⟨Nat.le_trans hcount (by decide), hcount⟩]
  refine congrArg (fun v => Outcome.done { m with v }) (Vector.ext fun r hr => ?_)
  rw [Vector.getElem_ofFn, Vector.getElem_ofFn]
  by_cases hlt : r < 8
  · rw [dif_pos hlt]
    by_cases hle : r ≤ x.val
    · rw [dif_pos ((lt_savedCount x).mpr ⟨hle, hlt⟩)]
      exact (if_pos hle).symm
    · rw [dif_neg fun hcopied => hle ((lt_savedCount x).mp hcopied).1]
      exact (if_neg hle).symm
  · rw [dif_neg hlt, dif_neg fun hcopied => hlt ((lt_savedCount x).mp hcopied).2]

/-! ## Digit sprites -/

theorem pointAt_of_lt (m : Machine) {address : Nat} (h : address < 65536) :
    m.pointAt address = .done { m with i := address.toUInt16 } := if_pos h

/-! ## Drawing never fails -/

theorem spriteAtI_stride_le (m : Machine) (n : UInt8) : (m.spriteAtI n).stride ≤ 2 := by
  unfold spriteAtI Sprite.stride
  split
  next => exact Nat.le_refl 2
  next => exact Nat.le_succ 1

theorem spriteAtI_length_lt (m : Machine) (n : UInt8) : (m.spriteAtI n).bytes.length < 256 := by
  have hn := n.toNat_lt
  unfold spriteAtI Memory.bytes
  split
  next => simp
  next => simpa using hn

/-- A sprite has at most 16 rows on the large screen and 15 on the small one, so it fits. -/
theorem spriteAtI_fits (m : Machine) {n : UInt8} (hn : n < 16) :
    8 * (m.spriteAtI n).stride ≤ m.screen.width ∧
      (m.spriteAtI n).bytes.length ≤ m.screen.height := by
  have hn' : n.toNat < 16 := UInt8.lt_iff_toNat_lt.mp hn
  unfold spriteAtI Screen.width Screen.height Sprite.stride Memory.bytes
  split
  next h =>
    rw [h.2]
    simp [ScreenMode.width, ScreenMode.height]
  next =>
    have hwidth : 64 ≤ m.screen.mode.width := by cases m.screen.mode <;> decide
    have hheight : 32 ≤ m.screen.mode.height := by cases m.screen.mode <;> decide
    rw [List.length_map, List.length_range]
    exact ⟨Nat.le_trans (show 8 * max 1 1 ≤ 64 by decide) hwidth, Nat.le_trans (by omega) hheight⟩

/-- Registers and sprites are too small for a coordinate to reach the limit. -/
theorem draw_eq (m : Machine) (x y : Nibble) (n : UInt8) :
    m.draw x y n =
      let drawn := m.screen.draw (m.reg x).toNat (m.reg y).toNat (m.spriteAtI n)
      .done ({ m with screen := drawn.1 }.withReg 15 drawn.2.toUInt8) := by
  have hx := (m.reg x).toNat_lt
  have hy := (m.reg y).toNat_lt
  have hstride := m.spriteAtI_stride_le n
  have hlength := m.spriteAtI_length_lt n
  have hlimit : countLimit = 18446744073709551616 := rfl
  have hfits : (m.spriteAtI n).fitsAt (m.reg x).toNat (m.reg y).toNat = true :=
    Sprite.fitsAt_of_le (by omega) (by omega) (by omega)
  rw [draw, Screen.draw?_of_fitsAt _ hfits]

end Machine

/-! ## The parts of a machine -/

/-- The parts of a machine that one may tell apart. -/
inductive Part where
  | memory
  | stack
  | sp
  | pc
  | i
  | v
  | delay
  | sound
  | rpl
  | screen
  | keys
  | waiting
  | cycle
  deriving DecidableEq

/-- Whether a part is the same in two machines. -/
def Machine.SameAt (m m' : Machine) : Part → Prop
  | .memory => m'.memory = m.memory
  | .stack => m'.stack = m.stack
  | .sp => m'.sp = m.sp
  | .pc => m'.pc = m.pc
  | .i => m'.i = m.i
  | .v => m'.v = m.v
  | .delay => m'.delay = m.delay
  | .sound => m'.sound = m.sound
  | .rpl => m'.rpl = m.rpl
  | .screen => m'.screen = m.screen
  | .keys => m'.keys = m.keys
  | .waiting => m'.waiting = m.waiting
  | .cycle => m'.cycle = m.cycle

namespace Op

/-- The parts that an instruction may change. -/
def owns : Op → List Part
  | cls | scd | scr | scl | low | high => [.screen]
  | drwVxVyN => [.screen, .v]
  | ret => [.sp, .pc]
  | call => [.stack, .sp, .pc]
  | jp | jpV0Addr | seVxKk | sneVxKk | seVxVy | sneVxVy | skpVx | sknpVx => [.pc]
  | sys | exit => []
  | ldVxKk | addVxKk | ldVxVy | orVxVy | andVxVy | xorVxVy | addVxVy | subVxVy | shrVx | subnVxVy
  | shlVx | rndVxKk | ldVxDt | ldVxMem | ldVxR => [.v]
  | ldIAddr | addIVx | ldFVx | ldHfVx => [.i]
  | ldVxK => [.waiting]
  | ldDtVx => [.delay]
  | ldStVx => [.sound]
  | ldBVx | ldMemVx => [.memory]
  | ldRVx => [.rpl]

variable {op : Op} {noise : UInt8} {o : Operands} {m m' : Machine}

/-! ## What cannot crash -/

theorem execute_scd : scd.execute noise o m =
    .done { m with screen := m.screen.scrollDown o.n.toNat } :=
  congrArg m.scrolled (m.screen.scrollDown?_eq _)

theorem execute_scr : scr.execute noise o m = .done { m with screen := m.screen.scrollRight 4 } :=
  congrArg m.scrolled (m.screen.scrollRight?_eq 4)

theorem execute_scl : scl.execute noise o m = .done { m with screen := m.screen.scrollLeft 4 } :=
  congrArg m.scrolled (m.screen.scrollLeft?_eq 4)

theorem execute_ldFVx : ldFVx.execute noise o m = .done { m with
    i := (Memory.smallDigitsAddress + 5 * ((m.reg o.x).toNat % 16)).toUInt16 } :=
  m.pointAt_of_lt (by unfold Memory.smallDigitsAddress; omega)

theorem execute_ldHfVx : ldHfVx.execute noise o m = .done { m with
    i := (Memory.largeDigitsAddress + 10 * ((m.reg o.x).toNat % 10)).toUInt16 } :=
  m.pointAt_of_lt (by unfold Memory.largeDigitsAddress; omega)

theorem execute_ldRVx : ldRVx.execute noise o m = .done (m.afterSave o.x) :=
  m.saveRegisters_eq o.x

theorem execute_ldVxR : ldVxR.execute noise o m = .done (m.afterRestore o.x) :=
  m.restoreRegisters_eq o.x

/-! ## Every instruction -/

/-- An instruction leaves the parts alone that it does not own. -/
theorem execute_frame (h : op.execute noise o m = .done m') {part : Part}
    (hpart : part ∉ op.owns) : m.SameAt m' part := by
  cases op
  case ret =>
    rcases m.ret_cases with ⟨-, hret⟩ | ⟨top, htop, -, hret⟩ | ⟨-, hret⟩
    · exact nomatch hret.symm.trans h
    · obtain rfl := Outcome.done.inj (hret.symm.trans h)
      cases part <;> first | exact absurd (by decide) hpart | simp only [Machine.SameAt]
    · exact nomatch hret.symm.trans h
  case call =>
    rcases m.call_cases o.nnn with ⟨hsp, hcall⟩ | ⟨-, hcall⟩
    · obtain rfl := Outcome.done.inj (hcall.symm.trans h)
      cases part <;> first | exact absurd (by decide) hpart | simp only [Machine.SameAt]
    · exact nomatch hcall.symm.trans h
  case exit => exact nomatch h
  case drwVxVyN =>
    obtain rfl := Outcome.done.inj ((m.draw_eq o.x o.y o.n).symm.trans h)
    cases part <;>
      first | exact absurd (by decide) hpart | simp only [Machine.SameAt, Machine.withReg]
  case scd | scr | scl | ldFVx | ldHfVx | ldRVx | ldVxR =>
    simp only [execute_scd, execute_scr, execute_scl, execute_ldFVx, execute_ldHfVx,
      execute_ldRVx, execute_ldVxR] at h
    obtain rfl := Outcome.done.inj h
    cases part <;>
      first
      | exact absurd (by decide) hpart
      | simp only [Machine.SameAt, Machine.afterSave, Machine.afterRestore]
  case seVxKk | sneVxKk | seVxVy | sneVxVy | skpVx | sknpVx =>
    obtain rfl := Outcome.done.inj h
    rw [Machine.skipIf_eq]
    cases part <;>
      first | exact absurd (by decide) hpart | simp only [Machine.SameAt, Machine.withPc]
  -- What is left changes one record field each. The helpers are unfolded by name, since `rfl`
  -- would compare the vectors that they build.
  all_goals
    obtain rfl := Outcome.done.inj h
    cases part <;>
      first
      | exact absurd (by decide) hpart
      | simp only [Machine.SameAt, Machine.withReg, Machine.withResult, Machine.writeDigits,
          Machine.storeRegisters, Machine.loadRegisters]

/-- The only faults that instructions raise by themselves. None of them changes the machine. -/
theorem execute_fault {f : Fault} (h : op.execute noise o m = .fault f m') :
    m' = m ∧
      (op = .ret ∧ m.sp = 0 ∧ f = .stackUnderflow m.here ∨
        op = .call ∧ 16 ≤ m.sp ∧ f = .stackOverflow m.here ∨
        op = .exit ∧ f = .exited m.here) := by
  cases op
  case ret =>
    rcases m.ret_cases with ⟨hsp, hret⟩ | ⟨top, htop, -, hret⟩ | ⟨-, hret⟩
    · cases hret.symm.trans h
      exact ⟨rfl, Or.inl ⟨rfl, hsp, rfl⟩⟩
    · exact nomatch hret.symm.trans h
    · exact nomatch hret.symm.trans h
  case call =>
    rcases m.call_cases o.nnn with ⟨_, hcall⟩ | ⟨hsp, hcall⟩
    · exact nomatch hcall.symm.trans h
    · cases hcall.symm.trans h
      exact ⟨rfl, Or.inr (Or.inl ⟨rfl, hsp, rfl⟩)⟩
  case exit =>
    cases h
    exact ⟨rfl, Or.inr (Or.inr ⟨rfl, rfl⟩)⟩
  case drwVxVyN => exact nomatch (m.draw_eq o.x o.y o.n).symm.trans h
  case scd | scr | scl | ldFVx | ldHfVx | ldRVx | ldVxR =>
    simp only [execute_scd, execute_scr, execute_scl, execute_ldFVx, execute_ldHfVx,
      execute_ldRVx, execute_ldVxR, reduceCtorEq] at h
  all_goals exact nomatch h

/-- Nothing crashes as long as the stack pointer is within the stack. -/
theorem execute_ne_crash (hsp : m.sp ≤ 16) : op.execute noise o m ≠ .crash := by
  intro h
  cases op
  case ret =>
    rcases m.ret_cases with ⟨-, hret⟩ | ⟨top, htop, -, hret⟩ | ⟨hlt, -⟩
    · exact nomatch hret.symm.trans h
    · exact nomatch hret.symm.trans h
    · exact absurd hsp (Nat.not_le.mpr hlt)
  case call =>
    rcases m.call_cases o.nnn with ⟨_, hcall⟩ | ⟨-, hcall⟩ <;> exact nomatch hcall.symm.trans h
  case drwVxVyN => exact nomatch (m.draw_eq o.x o.y o.n).symm.trans h
  case scd | scr | scl | ldFVx | ldHfVx | ldRVx | ldVxR =>
    simp only [execute_scd, execute_scr, execute_scl, execute_ldFVx, execute_ldHfVx,
      execute_ldRVx, execute_ldVxR, reduceCtorEq] at h
  all_goals exact nomatch h

end Op

end Chip8
