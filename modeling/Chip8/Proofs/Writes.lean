import Chip8.Proofs.Decode
import Chip8.Proofs.Residue

/-!
# What an instruction writes to

`Op.owns` names the parts of a machine that an instruction may change. Some parts have places that
are written one by one: bytes of memory, slots of the stack, registers and saved registers.
`Op.Writes` says for each place which instructions write to it, with the address in the index
register, the height of the stack and the operands that they find.

Every other place is left alone (`execute_writes`), and the places, with the program counter and the
count, are all that there is of a machine (`eq_of_sameIn`).

> `tick_writes`: a tick with the standard table changes the program counter, the count, and those
> places that the one instruction which its word stands for writes to.
-/

namespace Chip8

/-- The places of a machine other than the program counter and the count, which ticks change. -/
inductive Place where
  | byte (a : Fin 4096)
  | slot (k : Nibble)
  | sp
  | i
  | register (r : Nibble)
  | delay
  | sound
  | saved (k : Fin 8)
  | screen
  | key (k : Nibble)
  | waiting

/-- Whether a place is the same in two machines. -/
def Machine.SameIn (m m' : Machine) : Place → Prop
  | .byte a => m'.memory.peek a.val = m.memory.peek a.val
  | .slot k => m'.stack.get k = m.stack.get k
  | .sp => m'.sp = m.sp
  | .i => m'.i = m.i
  | .register r => m'.v.get r = m.v.get r
  | .delay => m'.delay = m.delay
  | .sound => m'.sound = m.sound
  | .saved k => m'.rpl.get k = m.rpl.get k
  | .screen => m'.screen = m.screen
  | .key k => m'.keys.get k = m.keys.get k
  | .waiting => m'.waiting = m.waiting

/-- The places that an instruction may write to. What it computes goes to register `x`, flags go to
register `F`, and a block of registers begins at register 0. A block of bytes begins where the index
register points, and goes around at the end of memory. -/
def Op.Writes (op : Op) (o : Operands) (m : Machine) : Place → Prop
  | .byte a =>
    op = .ldBVx ∧ (∃ k ≤ 2, a.val = (m.i.toNat + k) % 4096) ∨
      op = .ldMemVx ∧ ∃ k ≤ o.x.val, a.val = (m.i.toNat + k) % 4096
  | .slot k => op = .call ∧ k.val = m.sp
  | .sp => op = .call ∨ op = .ret
  | .i => op ∈ [.ldIAddr, .addIVx, .ldFVx, .ldHfVx]
  | .register r =>
    op ∈ [.ldVxKk, .addVxKk, .ldVxVy, .orVxVy, .andVxVy, .xorVxVy, .rndVxKk, .ldVxDt] ∧ r = o.x ∨
      op ∈ [.addVxVy, .subVxVy, .shrVx, .subnVxVy, .shlVx] ∧ (r = o.x ∨ r = 15) ∨
      op = .drwVxVyN ∧ r = 15 ∨
      op = .ldVxMem ∧ r ≤ o.x ∨
      op = .ldVxR ∧ r.val ≤ min o.x.val 7
  | .delay => op = .ldDtVx
  | .sound => op = .ldStVx
  | .saved k => op = .ldRVx ∧ k.val ≤ min o.x.val 7
  | .screen => op ∈ [.cls, .scd, .scr, .scl, .low, .high, .drwVxVyN]
  | .key _ => False
  | .waiting => op = .ldVxK

/-! ## All places -/

theorem ext_get {α : Type} {n : Nat} {things things' : Vector α n}
    (h : ∀ k : Fin n, things'.get k = things.get k) : things' = things :=
  Vector.ext fun k hk => h ⟨k, hk⟩

namespace Machine

variable {m m' : Machine}

/-- Machines that are the same in all places differ in program counter and count at most. -/
theorem eq_of_sameIn (h : ∀ place, m.SameIn m' place) :
    m' = { m with pc := m'.pc, cycle := m'.cycle } := by
  refine eq_of_sameAt fun part => ?_
  cases part with
  | memory => exact Memory.ext_peek fun a => h (.byte a)
  | stack => exact ext_get fun k => h (.slot k)
  | sp => exact h .sp
  | pc | cycle => rfl
  | i => exact h .i
  | v => exact ext_get fun r => h (.register r)
  | delay => exact h .delay
  | sound => exact h .sound
  | rpl => exact ext_get fun k => h (.saved k)
  | screen => exact h .screen
  | keys => exact ext_get fun k => h (.key k)
  | waiting => exact h .waiting

end Machine

namespace Op

open Machine

variable {op : Op} {noise : UInt8} {o : Operands} {m m' : Machine}

/-! ## Blocks -/

theorem peek_of_unwritten {memory : Memory} {start : Nat} {data : List UInt8} {a : Fin 4096}
    (last : Nat) (hlen : data.length ≤ last + 1)
    (h : ¬ ∃ k ≤ last, a.val = (start + k) % 4096) :
    (memory.writeBytes start data).peek a.val = memory.peek a.val := by
  refine Memory.peek_writeBytes_of_ne fun k hk heq => h ⟨k, by omega, ?_⟩
  rw [heq, Nat.mod_eq_of_lt a.isLt]

theorem memory_writes (h : op.execute noise o m = .done m') {a : Fin 4096}
    (hunwritten : ¬ op.Writes o m (.byte a)) : m'.memory.peek a.val = m.memory.peek a.val := by
  by_cases howned : Part.memory ∈ op.owns
  · cases op
    case ldBVx =>
      obtain rfl := Outcome.done.inj h
      refine peek_of_unwritten 2 (Nat.le_refl 3) fun hblock => ?_
      exact hunwritten (Or.inl ⟨rfl, hblock⟩)
    case ldMemVx =>
      obtain rfl := Outcome.done.inj h
      refine peek_of_unwritten o.x.val (List.length_take_le _ _) fun hblock => ?_
      exact hunwritten (Or.inr ⟨rfl, hblock⟩)
    all_goals exact absurd howned (by decide)
  · have hsame : m'.memory = m.memory := execute_frame h howned
    rw [hsame]

theorem stack_writes (h : op.execute noise o m = .done m') {k : Nibble}
    (hunwritten : ¬ op.Writes o m (.slot k)) : m'.stack.get k = m.stack.get k := by
  by_cases howned : Part.stack ∈ op.owns
  · cases op
    case call =>
      rcases m.call_cases o.nnn with ⟨hsp, hcall⟩ | ⟨-, hcall⟩
      · obtain rfl := Outcome.done.inj (hcall.symm.trans h)
        have hother : m.sp ≠ k.val := fun heq => hunwritten ⟨rfl, heq.symm⟩
        exact Vector.getElem_set_ne hsp k.isLt hother
      · exact nomatch hcall.symm.trans h
    all_goals exact absurd howned (by decide)
  · have hsame : m'.stack = m.stack := execute_frame h howned
    rw [hsame]

theorem saved_writes (h : op.execute noise o m = .done m') {k : Fin 8}
    (hunwritten : ¬ op.Writes o m (.saved k)) : m'.rpl.get k = m.rpl.get k := by
  by_cases howned : Part.rpl ∈ op.owns
  · cases op
    case ldRVx =>
      obtain rfl := Outcome.done.inj (execute_ldRVx.symm.trans h)
      have hbeyond : ¬ k.val ≤ o.x.val := fun hle =>
        hunwritten ⟨rfl, Nat.le_min.mpr ⟨hle, Nat.le_of_lt_succ k.isLt⟩⟩
      refine (Vector.getElem_ofFn k.isLt).trans ?_
      rw [if_neg hbeyond]
      rfl
    all_goals exact absurd howned (by decide)
  · have hsame : m'.rpl = m.rpl := execute_frame h howned
    rw [hsame]

/-! ## Registers -/

theorem get_withReg_of_ne {r s : Nibble} {b : UInt8} (h : r ≠ s) :
    (m.withReg s b).v.get r = m.v.get r :=
  (get_setNibble m.v s r b).trans (if_neg (Ne.symm h))

theorem register_writes (h : op.execute noise o m = .done m') {r : Nibble}
    (hunwritten : ¬ op.Writes o m (.register r)) : m'.v.get r = m.v.get r := by
  by_cases howned : Part.v ∈ op.owns
  · cases op
    case ldVxKk | addVxKk | ldVxVy | orVxVy | andVxVy | xorVxVy | rndVxKk | ldVxDt =>
      obtain rfl := Outcome.done.inj h
      exact get_withReg_of_ne fun heq => hunwritten (Or.inl ⟨by decide, heq⟩)
    case addVxVy | subVxVy | shrVx | subnVxVy | shlVx =>
      obtain rfl := Outcome.done.inj h
      have hother : ¬ (r = o.x ∨ r = 15) := fun heq =>
        hunwritten (Or.inr (Or.inl ⟨by decide, heq⟩))
      obtain ⟨hx, hflag⟩ := not_or.mp hother
      exact (get_withReg_of_ne hflag).trans (get_withReg_of_ne hx)
    case drwVxVyN =>
      obtain rfl := Outcome.done.inj ((m.draw_eq o.x o.y o.n).symm.trans h)
      exact get_withReg_of_ne fun heq => hunwritten (Or.inr (Or.inr (Or.inl ⟨rfl, heq⟩)))
    case ldVxMem =>
      obtain rfl := Outcome.done.inj h
      have hbeyond : ¬ r ≤ o.x := fun hle =>
        hunwritten (Or.inr (Or.inr (Or.inr (Or.inl ⟨rfl, hle⟩))))
      refine (Vector.getElem_ofFn r.isLt).trans ?_
      exact if_neg hbeyond
    case ldVxR =>
      obtain rfl := Outcome.done.inj (execute_ldVxR.symm.trans h)
      have hbeyond : ¬ r.val ≤ min o.x.val 7 := fun hle =>
        hunwritten (Or.inr (Or.inr (Or.inr (Or.inr ⟨rfl, hle⟩))))
      refine (Vector.getElem_ofFn r.isLt).trans ?_
      -- A register above the seventh has no saved one to be read from.
      split
      next hlt =>
        refine if_neg fun hle => hbeyond ?_
        exact Nat.le_min.mpr ⟨hle, Nat.le_of_lt_succ hlt⟩
      next => rfl
    all_goals exact absurd howned (by decide)
  · have hsame : m'.v = m.v := execute_frame h howned
    rw [hsame]

/-! ## Instructions and ticks -/

/-- An instruction leaves the places alone that it does not write to. -/
theorem execute_writes (h : op.execute noise o m = .done m') {place : Place}
    (hunwritten : ¬ op.Writes o m place) : m.SameIn m' place := by
  cases place with
  | byte a => exact memory_writes h hunwritten
  | slot k => exact stack_writes h hunwritten
  | register r => exact register_writes h hunwritten
  | saved k => exact saved_writes h hunwritten
  | key k =>
    have hsame : m'.keys = m.keys :=
      execute_frame h (show Part.keys ∉ op.owns by cases op <;> decide)
    exact congrArg (fun keys => keys.get k) hsame
  -- The others are whole parts of the machine.
  | sp =>
    have howners : Part.sp ∈ op.owns → op = .call ∨ op = .ret := by cases op <;> decide
    exact execute_frame h (mt howners hunwritten)
  | i =>
    have howners : Part.i ∈ op.owns → op ∈ [.ldIAddr, .addIVx, .ldFVx, .ldHfVx] := by
      cases op <;> decide
    exact execute_frame h (mt howners hunwritten)
  | delay =>
    have howners : Part.delay ∈ op.owns → op = .ldDtVx := by cases op <;> decide
    exact execute_frame h (mt howners hunwritten)
  | sound =>
    have howners : Part.sound ∈ op.owns → op = .ldStVx := by cases op <;> decide
    exact execute_frame h (mt howners hunwritten)
  | screen =>
    have howners : Part.screen ∈ op.owns →
        op ∈ [.cls, .scd, .scr, .scl, .low, .high, .drwVxVyN] := by cases op <;> decide
    exact execute_frame h (mt howners hunwritten)
  | waiting =>
    have howners : Part.waiting ∈ op.owns → op = .ldVxK := by cases op <;> decide
    exact execute_frame h (mt howners hunwritten)

/-- Where an instruction is does not matter to what it writes to. -/
theorem writes_withPc (op : Op) (o : Operands) (m : Machine) (pc : UInt16) (place : Place) :
    op.Writes o (m.withPc pc) place ↔ op.Writes o m place := by
  cases place <;> exact Iff.rfl

end Op

namespace Machine

variable {m m' : Machine} {noise : UInt8}

/-- A tick that succeeds carries out the most definite instruction that its word stands for. It adds
one to the count, and but for the program counter it changes only places that this instruction
writes to. -/
theorem tick_writes (hidle : m.waiting = none)
    (htick : m.tick Table.standard noise = .done m') :
    ∃ (word : UInt16) (op : Op), m.readWord m.pc = .ok word ∧ op.pattern.accepts word = true ∧
      (∀ other : Op, other.pattern.accepts word = true → other = op ∨ other = .sys) ∧
      m'.cycle = m.cycle + 1 ∧
      (∀ place, ¬ op.Writes (Operands.ofWord word) m place → m.SameIn m' place) ∧
      ((∀ place, ¬ op.Writes (Operands.ofWord word) m place) →
        m' = { m with pc := m'.pc, cycle := m.cycle + 1 }) := by
  have hcase := m.tick_case Table.standard noise
  rw [htick] at hcase
  cases hcase with
  | waits hwaits => exact absurd hidle hwaits
  | @counts h after hruns hpc hcycle =>
    obtain ⟨-, word, hword, hlookup, hrun⟩ := hruns
    obtain ⟨op, rfl⟩ := Table.lookup_standard hlookup
    obtain ⟨hacc, hother⟩ := Table.accepts_of_lookup hlookup
    have hcount : after.cycle = m.cycle :=
      Op.execute_frame hrun (show Part.cycle ∉ op.owns by cases op <;> decide)
    have hsame : ∀ place, ¬ op.Writes (Operands.ofWord word) m place →
        m.SameIn { after with cycle := after.cycle + 1 } place := by
      intro place hunwritten
      have hplace : (m.withPc (m.pc + 2)).SameIn after place :=
        Op.execute_writes hrun (mt (Op.writes_withPc ..).mp hunwritten)
      cases place <;> exact hplace
    refine ⟨word, op, hword, hacc, hother, congrArg (· + 1) hcount, hsame, fun hnone => ?_⟩
    have heq := eq_of_sameIn fun place => hsame place (hnone place)
    rw [heq, hcount]

/-- Three digits go to the last two bytes of memory and to the first one. No other byte changes, and
no register does. -/
theorem digits_around_end :
    let m : Machine := { fresh with
      memory := fresh.memory.writeBytes 0x200 [0xf2, 0x33]
      i := 0xffe
      v := setNibble fresh.v 2 254 }
    m.waiting = none ∧ ∃ m', m.tick Table.standard 0 = .done m' ∧
      m'.memory.bytes 0xffe 3 = [2, 5, 4] ∧
      (∀ a : Fin 4096, a.val ∉ [0xffe, 0xfff, 0] → m'.memory.peek a.val = m.memory.peek a.val) ∧
      m'.v = m.v := by
  intro m
  have hword : m.readWord m.pc = .ok 0xf233 := by decide +kernel
  have hdigits : (match m.tick Table.standard 0 with
      | .done m' => m'.memory.bytes 0xffe 3
      | _ => []) = [2, 5, 4] := by decide +kernel
  cases hended : m.tick Table.standard 0 with
  | fault | crash =>
    rw [hended] at hdigits
    exact nomatch hdigits
  | done m' =>
    rw [hended] at hdigits
    obtain ⟨word, op, hword', -, hother, -, hsame, -⟩ := tick_writes rfl hended
    obtain rfl := Except.ok.inj (hword'.symm.trans hword)
    -- The word is that of the digits and is no machine call.
    obtain rfl : Op.ldBVx = op := (hother .ldBVx (by decide)).resolve_right (by decide)
    refine ⟨rfl, m', rfl, hdigits, fun a ha => hsame (.byte a) ?_, ext_get fun r =>
      hsame (.register r) ?_⟩
    · rintro (⟨-, k, hk, heq⟩ | ⟨hop, -⟩)
      · have hi : m.i.toNat = 0xffe := rfl
        rw [hi] at heq
        refine ha (heq ▸ ?_)
        obtain rfl | rfl | rfl : k = 0 ∨ k = 1 ∨ k = 2 := by omega
        all_goals decide
      · exact nomatch hop
    · rintro (⟨hop, -⟩ | ⟨hop, -⟩ | ⟨hop, -⟩ | ⟨hop, -⟩ | ⟨hop, -⟩)
      · exact absurd hop (by decide)
      · exact absurd hop (by decide)
      all_goals exact nomatch hop

end Machine

end Chip8
