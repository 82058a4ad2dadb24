import Chip8.Proofs.Keys
import Mathlib.Data.Nat.ModEq

/-!
# What a program cannot see

The index register has 16 bits and an address has 12, and a return leaves in its slot the address
that it takes off the stack. So a machine holds things that no instruction finds out about: the
first digit of the index register, and the slots of the stack that are not in use. Two machines are
`Alike` if they differ in nothing else.

Instructions go from alike machines to alike machines and end in the same way (`execute_alike`):
each address that they make of the index register is reduced to 12 bits (`Memory.bytes_congr`,
`Memory.writeBytes_congr`), and what a return reads was put there by a call. The rest follows for
ticks, requests and runs.

> `hidden_unseen`: alike machines give the same answers to whatever happens to them, and are alike
> after it.
-/

namespace Chip8

namespace Outcome

/-- Two operations ended in the same way and left related states behind. -/
inductive Rel {σ τ : Type} (R : σ → τ → Prop) : Outcome σ → Outcome τ → Prop where
  | done {s : σ} {t : τ} (h : R s t) : Rel R (.done s) (.done t)
  | fault (f : Fault) {s : σ} {t : τ} (h : R s t) : Rel R (.fault f s) (.fault f t)
  | crash : Rel R .crash .crash

end Outcome

/-! ## Addresses -/

namespace Memory

variable (m : Memory) {a c : Nat}

theorem peek_congr (h : a ≡ c [MOD 4096]) : m.peek a = m.peek c := by
  rw [← peek_mod, h, peek_mod]

theorem bytes_congr (h : a ≡ c [MOD 4096]) (count : Nat) : m.bytes a count = m.bytes c count :=
  List.map_congr_left fun k _ => m.peek_congr (h.add_right k)

theorem poke_congr (h : a ≡ c [MOD 4096]) (b : UInt8) : m.poke a b = m.poke c b := by
  have h' : a % 4096 = c % 4096 := h
  simp only [poke, h']

theorem writeBytes_congr (h : a ≡ c [MOD 4096]) (data : List UInt8) :
    m.writeBytes a data = m.writeBytes c data := by
  induction data generalizing m a c with
  | nil => rfl
  | cons b rest ih => rw [writeBytes, writeBytes, m.poke_congr h, ih _ (h.add_right 1)]

end Memory

namespace Machine

/-! ## Alike machines -/

/-- The machine with another index register and another stack. -/
def disguise (m : Machine) (i : UInt16) (stack : Vector UInt16 16) : Machine :=
  { m with i, stack }

/-- Two machines that differ in the first digit of the index register and in slots of the stack that
are not in use, if at all. -/
structure Alike (m m' : Machine) : Prop where
  i : m'.i.toNat ≡ m.i.toNat [MOD 4096]
  stack : ∀ k (hk : k < 16), k < m.sp → m'.stack[k] = m.stack[k]
  rest : m' = m.disguise m'.i m'.stack

variable {m m' : Machine} {noise : UInt8}

theorem Alike.exists_eq (h : m.Alike m') : ∃ i stack, m' = m.disguise i stack ∧
    i.toNat ≡ m.i.toNat [MOD 4096] ∧ ∀ k (hk : k < 16), k < m.sp → stack[k] = m.stack[k] :=
  ⟨m'.i, m'.stack, h.rest, h.i, h.stack⟩

theorem Alike.refl (m : Machine) : m.Alike m := ⟨rfl, fun _ _ _ => rfl, rfl⟩

/-- Where the index register points, its first digit is not looked at. -/
theorem alike_index (m : Machine) : m.Alike { m with i := m.i % 0x1000 } where
  i := by
    have hmod : (m.i % 0x1000).toNat = m.i.toNat % 4096 := UInt16.toNat_mod _ _
    rw [hmod]
    exact Nat.mod_modEq _ _
  stack := fun _ _ _ => rfl
  rest := rfl

/-! ## Instructions -/

/-- The new index registers point to the same place again, also where a sum goes around. -/
theorem index_add_congr {i j : UInt16} (h : i.toNat ≡ j.toNat [MOD 4096]) (b : UInt8) :
    (i + b.toUInt16).toNat ≡ (j + b.toUInt16).toNat [MOD 4096] := by
  have hmod : i.toNat % 4096 = j.toNat % 4096 := h
  change (i + b.toUInt16).toNat % 4096 = (j + b.toUInt16).toNat % 4096
  rw [UInt16.toNat_add, UInt16.toNat_add]
  omega

theorem spriteAtI_alike (h : m.Alike m') (n : UInt8) : m'.spriteAtI n = m.spriteAtI n := by
  obtain ⟨i, stack, rfl, hi, -⟩ := h.exists_eq
  have hbytes (count : Nat) : m.memory.bytes i.toNat count = m.memory.bytes m.i.toNat count :=
    m.memory.bytes_congr hi count
  simp only [spriteAtI, disguise, hbytes]

theorem draw_alike (h : m.Alike m') (x y : Nibble) (n : UInt8) :
    (m.draw x y n).Rel Alike (m'.draw x y n) := by
  have hsprite := spriteAtI_alike h n
  obtain ⟨i, stack, rfl, hi, hstack⟩ := h.exists_eq
  rw [draw_eq, draw_eq, hsprite]
  exact .done ⟨hi, hstack, rfl⟩

/-- A return reads the topmost slot in use, and the slots in use are the same. -/
theorem ret_alike (h : m.Alike m') : m.ret.Rel Alike m'.ret := by
  obtain ⟨i, stack, rfl, hi, hstack⟩ := h.exists_eq
  unfold ret
  dsimp only [disguise]
  split
  next => exact .fault _ ⟨hi, hstack, rfl⟩
  next top hsp =>
    split
    next htop =>
      have hslot : stack[top] = m.stack[top] := hstack top htop (hsp ▸ Nat.lt_succ_self top)
      rw [hslot]
      refine .done ⟨hi, fun k hk hlt => hstack k hk ?_, rfl⟩
      rw [hsp]
      exact Nat.lt_succ_of_lt hlt
    next => exact .crash

/-- A call fills the slot that comes into use. -/
theorem call_alike (h : m.Alike m') (target : UInt16) :
    (m.call target).Rel Alike (m'.call target) := by
  obtain ⟨i, stack, rfl, hi, hstack⟩ := h.exists_eq
  unfold call
  by_cases hsp : m.sp < 16
  · rw [dif_pos hsp, dif_pos (show (m.disguise i stack).sp < 16 from hsp)]
    refine .done ⟨hi, fun k hk hlt => ?_, rfl⟩
    dsimp only [disguise]
    rcases Nat.lt_or_eq_of_le (Nat.le_of_lt_succ hlt) with hbelow | rfl
    · rw [Vector.getElem_set_ne hsp hk (Nat.ne_of_gt hbelow),
        Vector.getElem_set_ne hsp hk (Nat.ne_of_gt hbelow), hstack k hk hbelow]
    · rw [Vector.getElem_set_self, Vector.getElem_set_self]
  · rw [dif_neg hsp, dif_neg (show ¬ (m.disguise i stack).sp < 16 from hsp)]
    exact .fault _ ⟨hi, hstack, rfl⟩

theorem execute_alike (op : Op) (noise : UInt8) (o : Operands) (h : m.Alike m') :
    (op.execute noise o m).Rel Alike (op.execute noise o m') := by
  cases op
  case ret => exact ret_alike h
  case call => exact call_alike h o.nnn
  case drwVxVyN => exact draw_alike h o.x o.y o.n
  all_goals obtain ⟨i, stack, rfl, hi, hstack⟩ := h.exists_eq
  case exit => exact .fault _ ⟨hi, hstack, rfl⟩
  case seVxKk | sneVxKk | seVxVy | sneVxVy | skpVx | sknpVx =>
    dsimp only [Op.execute]
    rw [skipIf_eq, skipIf_eq]
    exact .done ⟨hi, hstack, rfl⟩
  case' scd | scr | scl | ldFVx | ldHfVx | ldRVx | ldVxR =>
    simp only [Op.execute_scd, Op.execute_scr, Op.execute_scl, Op.execute_ldFVx,
      Op.execute_ldHfVx, Op.execute_ldRVx, Op.execute_ldVxR]
  case ldIAddr | ldFVx | ldHfVx => exact .done ⟨rfl, hstack, rfl⟩
  case addIVx => exact .done ⟨index_add_congr hi _, hstack, rfl⟩
  case ldBVx =>
    dsimp only [Op.execute, writeDigits, disguise]
    rw [m.memory.writeBytes_congr hi]
    exact .done ⟨hi, hstack, rfl⟩
  case ldMemVx =>
    dsimp only [Op.execute, storeRegisters, disguise]
    rw [m.memory.writeBytes_congr hi]
    exact .done ⟨hi, hstack, rfl⟩
  case ldVxMem =>
    have hpeek (r : Nibble) : m.memory.peek (i.toNat + r.val) = m.memory.peek (m.i.toNat + r.val) :=
      m.memory.peek_congr (hi.add_right r.val)
    dsimp only [Op.execute, loadRegisters, disguise]
    simp only [hpeek]
    exact .done ⟨hi, hstack, rfl⟩
  case ldVxR =>
    dsimp only [afterRestore, disguise]
    exact .done ⟨hi, hstack, rfl⟩
  -- What is left looks neither at the index register nor at the stack.
  all_goals exact .done ⟨hi, hstack, rfl⟩

/-! ## Ticks -/

theorem Alike.withPc (h : m.Alike m') (pc : UInt16) : (m.withPc pc).Alike (m'.withPc pc) := by
  obtain ⟨i, stack, rfl, hi, hstack⟩ := h.exists_eq
  exact ⟨hi, hstack, rfl⟩

theorem count_alike (h : m.Alike m') : m.count.Rel Alike m'.count := by
  obtain ⟨i, stack, rfl, hi, hstack⟩ := h.exists_eq
  unfold count
  by_cases hcycle : m.cycle + 1 < countLimit
  · rw [if_pos hcycle, if_pos (show (m.disguise i stack).cycle + 1 < countLimit from hcycle)]
    exact .done ⟨hi, hstack, rfl⟩
  · rw [if_neg hcycle, if_neg (show ¬ (m.disguise i stack).cycle + 1 < countLimit from hcycle)]
    exact .crash

theorem conclude_alike (address : UInt16) {ended ended' : Outcome Machine}
    (h : ended.Rel Alike ended') :
    (conclude address ended).Rel Alike (conclude address ended') := by
  cases h with
  | crash => exact .crash
  | fault f h => exact .fault f (h.withPc address)
  | @done s t h =>
    have hpc : t.pc = s.pc := by rw [h.rest]; rfl
    rw [conclude, conclude, hpc]
    split
    · exact .fault _ (h.withPc address)
    · exact count_alike h

theorem tick_alike (noise : UInt8) (h : m.Alike m') :
    (m.tick Table.standard noise).Rel Alike (m'.tick Table.standard noise) := by
  have hwaiting : m'.waiting = m.waiting := by rw [h.rest]; rfl
  have hpc : m'.pc = m.pc := by rw [h.rest]; rfl
  have hread (address : UInt16) : m'.readWord address = m.readWord address := by rw [h.rest]; rfl
  by_cases hidle : m.waiting = none
  · rw [tick_of_idle hidle, tick_of_idle (hwaiting.trans hidle), hpc, hread]
    cases m.readWord m.pc with
    | error e =>
      cases e with
      | fault f => exact .fault f h
      | crash => exact .crash
    | ok word =>
      dsimp only [perform, Table.decode]
      cases hlookup : Table.standard.lookup word with
      | none => exact .fault _ h
      | some handler =>
        obtain ⟨op, rfl⟩ := Table.lookup_standard hlookup
        exact conclude_alike _ (execute_alike op noise _ (h.withPc _))
  · rw [tick_of_waiting hidle, tick_of_waiting (hwaiting ▸ hidle)]
    exact .done h

end Machine

/-! ## Answers -/

/-- What is seen of an operation from outside: that it was done, with or without a word on whether
it changed anything, or why not. -/
inductive Answer where
  | done
  | changed (b : Bool)
  | refused (f : Fault)
  | crashed
  deriving DecidableEq

namespace Answer

/-- The answer of an operation that gives a value or a fault. -/
def ofExcept {α : Type} (answer : α → Answer) : Except Fault α → Answer
  | .ok a => answer a
  | .error f => refused f

/-- The answer of an operation on a state. -/
def ofOutcome {σ : Type} : Outcome σ → Answer
  | .done _ => done
  | .fault f _ => refused f
  | .crash => crashed

end Answer

/-- What a request is answered. -/
def Request.answer (m : Machine) : Request → Answer
  | load program address => .ofExcept (fun _ => .done) (m.load program address)
  | press key => .ofExcept (fun pressed => .changed pressed.2) (m.press key)
  | release key => .ofExcept (fun released => .changed released.2) (m.release key)
  | writeWord address word => .ofOutcome (.ofExcept m (m.writeWord address word))
  | reset | setV .. | tickTimers => .done

/-- What a stimulus is answered. -/
def Stimulus.answer (m : Machine) : Stimulus → Answer
  | request r => r.answer m
  | tick noise => .ofOutcome (m.tick Table.standard noise)

namespace Machine

/-- The answers to some stimuli, one after the other, up to a crash. -/
def answers (m : Machine) : List Stimulus → List Answer
  | [] => []
  | s :: rest => s.answer m ::
    match s.after? m with
    | some m' => m'.answers rest
    | none => []

variable {m m' : Machine} {i : UInt16} {stack : Vector UInt16 16}

/-! ## Requests -/

theorem load_disguise (program : List UInt8) (address : UInt16) :
    (m.disguise i stack).load program address =
      (m.load program address).map fun loaded => loaded.disguise i stack := by
  unfold load
  split
  next => rfl
  next =>
    change (do let memory ← m.memory.load address program; return _) = _
    cases m.memory.load address program <;> rfl

theorem writeWord_disguise (address word : UInt16) :
    (m.disguise i stack).writeWord address word =
      (m.writeWord address word).map fun written => written.disguise i stack := by
  unfold writeWord
  change (do let memory ← m.memory.writeWord address.toNat word; return _) = _
  cases m.memory.writeWord address.toNat word <;> rfl

theorem press_disguise (key : Nat) :
    (m.disguise i stack).press key =
      (m.press key).map fun pressed => (pressed.1.disguise i stack, pressed.2) := by
  rcases Nat.lt_or_ge key 16 with hlt | hle
  · cases hkey : m.keys.get ⟨key, hlt⟩ with
    | true =>
      rw [press_of_held hkey, press_of_held (m := m.disguise i stack) hkey]
      rfl
    | false =>
      cases hwaits : m.waiting with
      | none =>
        rw [press_of_idle hkey hwaits, press_of_idle (m := m.disguise i stack) hkey hwaits]
        rfl
      | some x =>
        rw [press_of_waiting hkey hwaits, press_of_waiting (m := m.disguise i stack) hkey hwaits]
        rfl
  · rw [press_of_le hle, press_of_le hle]
    rfl

theorem release_disguise (key : Nat) :
    (m.disguise i stack).release key =
      (m.release key).map fun released => (released.1.disguise i stack, released.2) := by
  unfold release
  dsimp only [disguise]
  split <;> rfl

/-- A disguise does for every machine with the same index register and stack. -/
theorem Alike.carried (h : m.Alike (m.disguise i stack)) {n : Machine}
    (hframe : ∀ part ∈ [Part.i, .stack, .sp], m.SameAt n part) : n.Alike (n.disguise i stack) := by
  have hi : n.i = m.i := hframe .i (by decide)
  have hstack : n.stack = m.stack := hframe .stack (by decide)
  have hsp : n.sp = m.sp := hframe .sp (by decide)
  refine ⟨hi ▸ h.i, fun k hk hlt => ?_, rfl⟩
  simp only [hstack]
  exact h.stack k hk (hsp ▸ hlt)

theorem apply_disguise (m : Machine) {r : Request} (hr : r ≠ .reset) :
    r.apply (m.disguise i stack) = (r.apply m).disguise i stack := by
  have hmap {ε α : Type} (machine : α → Machine) (f : α → α)
      (hf : ∀ a, machine (f a) = (machine a).disguise i stack) (answer : Except ε α) :
      Request.orElse (m.disguise i stack) machine (answer.map f) =
        (Request.orElse m machine answer).disguise i stack := by
    cases answer with
    | ok a => exact hf a
    | error e => rfl
  cases r with
  | reset => exact absurd rfl hr
  | setV | tickTimers => rfl
  | load program address =>
    dsimp only [Request.apply]
    rw [load_disguise]
    exact hmap id _ (fun _ => rfl) _
  | writeWord address word =>
    dsimp only [Request.apply]
    rw [writeWord_disguise]
    exact hmap id _ (fun _ => rfl) _
  | press key =>
    dsimp only [Request.apply]
    rw [press_disguise]
    exact hmap Prod.fst _ (fun _ => rfl) _
  | release key =>
    dsimp only [Request.apply]
    rw [release_disguise]
    exact hmap Prod.fst _ (fun _ => rfl) _

theorem answer_disguise (m : Machine) (r : Request) :
    r.answer (m.disguise i stack) = r.answer m := by
  cases r with
  | reset | setV | tickTimers => rfl
  | load program address =>
    dsimp only [Request.answer]
    rw [load_disguise]
    cases m.load program address <;> rfl
  | writeWord address word =>
    dsimp only [Request.answer]
    rw [writeWord_disguise]
    cases m.writeWord address word with
    | ok => rfl
    | error e => cases e <;> rfl
  | press key =>
    dsimp only [Request.answer]
    rw [press_disguise]
    cases m.press key <;> rfl
  | release key =>
    dsimp only [Request.answer]
    rw [release_disguise]
    cases m.release key <;> rfl

theorem request_alike (r : Request) (h : m.Alike m') : (r.apply m).Alike (r.apply m') := by
  by_cases hr : r = .reset
  · -- A reset clears everything that alike machines may differ in.
    have hkeys : m'.keys = m.keys := by rw [h.rest]; rfl
    have hrpl : m'.rpl = m.rpl := by rw [h.rest]; rfl
    rw [hr]
    dsimp only [Request.apply, reset]
    rw [hkeys, hrpl]
    exact Alike.refl _
  · obtain ⟨i, stack, rfl, -⟩ := h.exists_eq
    rw [apply_disguise m hr]
    have hreserved : ∀ part ∈ [Part.i, .stack, .sp], part ∈ Request.reserved := by decide
    exact h.carried fun part hpart => Request.apply_sameAt m hr (hreserved part hpart)

/-! ## Runs -/

theorem answer_alike (s : Stimulus) (h : m.Alike m') : s.answer m' = s.answer m := by
  cases s with
  | request r =>
    obtain ⟨i, stack, rfl, -⟩ := h.exists_eq
    exact answer_disguise m r
  | tick noise =>
    have htick := tick_alike noise h
    dsimp only [Stimulus.answer]
    generalize m.tick Table.standard noise = ended at htick
    generalize m'.tick Table.standard noise = ended' at htick
    cases htick <;> rfl

/-- The machines after a stimulus are alike, and if one crashed, so did the other. -/
theorem after_alike (s : Stimulus) (h : m.Alike m') :
    Option.Rel Alike (s.after? m) (s.after? m') := by
  cases s with
  | request r => exact .some (request_alike r h)
  | tick noise =>
    have htick := tick_alike noise h
    dsimp only [Stimulus.after?]
    generalize m.tick Table.standard noise = ended at htick
    generalize m'.tick Table.standard noise = ended' at htick
    cases htick with
    | done h | fault f h => exact .some h
    | crash => exact .none

theorem run_alike (stimuli : List Stimulus) (h : m.Alike m') :
    m'.answers stimuli = m.answers stimuli ∧ Option.Rel Alike (m.run stimuli) (m'.run stimuli) := by
  induction stimuli generalizing m m' with
  | nil => exact ⟨rfl, .some h⟩
  | cons s rest ih =>
    have hafter := after_alike s h
    rw [answers, answers, run, run, answer_alike s h]
    generalize s.after? m = next at hafter
    generalize s.after? m' = next' at hafter
    cases hafter with
    | none => exact ⟨rfl, .none⟩
    | some hnext =>
      obtain ⟨hanswers, hrun⟩ := ih hnext
      exact ⟨congrArg _ hanswers, hrun⟩

/-- Alike machines give the same answers to whatever happens to them, and after each of it they are
alike, or both crashed. In particular nothing tells an index register from the address in it. -/
theorem hidden_unseen (stimuli : List Stimulus) :
    (∀ m m' : Machine, m.Alike m' → m'.answers stimuli = m.answers stimuli ∧
      Option.Rel Alike (m.run stimuli) (m'.run stimuli)) ∧
    ∀ m : Machine, let m' := { m with i := m.i % 0x1000 }
      m'.answers stimuli = m.answers stimuli ∧
        Option.Rel Alike (m.run stimuli) (m'.run stimuli) :=
  ⟨fun _ _ => run_alike stimuli, fun m => run_alike stimuli m.alike_index⟩

/-- A subroutine adds to an index register that has all bits set and stores where it points then. An
index register with the same address in it adds up to something else, and there is an old return
address above the stack, but nobody can tell. -/
theorem stale_slot_unseen :
    let m : Machine := { fresh with i := 0xfff }
    let m' : Machine := { m with i := 0xffff, stack := m.stack.set 3 0x777 }
    let stimuli : List Stimulus :=
      [.request (.load [0x22, 0x04, 0x00, 0x00, 0xf3, 0x1e, 0xf3, 0x55, 0x00, 0xee] 0x200),
        .request (.setV 3 0x20), .tick 0, .tick 0, .request (.press 3), .tick 0, .tick 0,
        .request (.press 20)]
    m.Alike m' ∧ m'.answers stimuli =
      [.done, .done, .done, .done, .changed true, .done, .done, .refused (.invalidKey 20)] := by
  intro m m' stimuli
  have halike : m.Alike m' := by
    refine ⟨by decide, fun k hk hlt => ?_, rfl⟩
    exact absurd hlt (Nat.not_lt_zero k)
  have hanswers : m.answers stimuli =
      [.done, .done, .done, .done, .changed true, .done, .done, .refused (.invalidKey 20)] := by
    decide +kernel
  exact ⟨halike, ((hidden_unseen stimuli).1 m m' halike).1.trans hanswers⟩

end Machine

end Chip8
