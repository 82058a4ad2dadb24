import Chip8.Proofs.History
import Chip8.Proofs.Mnemonic
import Chip8.Proofs.Reader
import Chip8.Proofs.WellFormed

/-!
# What the trace says

An engine that is asked to logs each instruction before it carries it out. The text does not come
from where the instruction comes from: the trace reads memory and asks the table by itself, and says
`inval` if either has nothing to offer. That the two agree rests on what holds of an engine as long
as its machine is driven by requests and operations (`Tracing`): the program counter is where a word
can be read, and the table is the standard one. Then `inval` means that the word stands for no
instruction, since no instruction reads like that.

> `Tracing.truthful`: what one step enters is the address and the text of the word that it carries
> out, and its fault if it fails, and nothing else;
>
> `Tracing.history_after`: over a run, the entries of the steps come one after the other.
-/

namespace Chip8

/-! ## Engines that trace -/

/-- Whatever is done to the machine by itself is a request. -/
def Operation.Courteous : Operation → Prop
  | .change f => ∃ r : Request, f = r.apply
  | _ => True

namespace Machine

variable {m m' : Machine} {noise : UInt8}

theorem tick_of_fetched {table : Table} (hidle : m.isWaiting = false)
    (hpc : m.pc ≤ lastInstruction) :
    m.tick table noise = m.perform table noise m.pc (m.wordAt m.pc.toNat) := by
  rw [tick_of_idle (by simpa [isWaiting] using hidle), readWord_eq hpc]

/-- A tick complains of a word where the table has no handler for it, and of no other word than the
one at the program counter. -/
theorem tick_unknown_iff (hidle : m.isWaiting = false) (hpc : m.pc ≤ lastInstruction)
    {word address : UInt16} :
    (∃ m', m.tick Table.standard noise = .fault (.unimplementedInstruction word address) m') ↔
      word = m.wordAt m.pc.toNat ∧ address = m.pc ∧ Table.standard.lookup word = none := by
  constructor
  · rintro ⟨m', hfault⟩
    have hcase := m.tick_case Table.standard noise
    rw [hfault] at hcase
    cases hcase with
    | unknown hword hnone =>
      rw [readWord_eq hpc] at hword
      exact ⟨(Except.ok.inj hword).symm, rfl, hnone⟩
    | refused hruns =>
      -- No instruction complains of itself like that.
      obtain ⟨-, here, h | h | h⟩ := hruns.refused_standard <;> exact nomatch h
  · rintro ⟨rfl, rfl, hnone⟩
    have hidle' : m.waiting = none := by simpa [isWaiting] using hidle
    exact ⟨m, tick_of_unknown hidle' (readWord_eq hpc) hnone⟩

end Machine

theorem Table.registerAll_nil (t : Table) : t.registerAll [] = t := rfl

/-- In a trace, `inval` stands for a word without an instruction and for no other. -/
theorem Table.getD_inval_iff (word : UInt16) :
    (standard.disassemble word).getD "inval" = "inval" ↔ standard.lookup word = none := by
  rw [← disassemble_eq_none_iff]
  cases htext : standard.disassemble word with
  | none => exact ⟨fun _ => rfl, fun _ => rfl⟩
  | some text =>
    refine ⟨fun hinval => ?_, fun hnone => nomatch hnone⟩
    obtain rfl : text = "inval" := hinval
    exact absurd rfl (head_disassemble_ne htext)

theorem Request.applyAll_reset_load (program : List UInt8) (address : UInt16) (m : Machine) :
    applyAll [.reset, .load program address] m =
      (m.reset.load program address).toOption.getD m.reset := by
  change orElse m.reset id (m.reset.load program address) = _
  cases m.reset.load program address with
  | ok | error => rfl

namespace Engine

open Text

/-- What a trace depends on, and what no step and no request breaks. -/
structure Tracing (e : Engine) : Prop where
  consistent : e.machine.Consistent
  pc_le : e.machine.pc ≤ lastInstruction
  table_eq : e.table = Table.standard
  traced : e.traced = true

variable {events : List Event} {e e' : Engine} {operation : Operation}

/-! ## Entries -/

/-- What the trace calls the word at the program counter. -/
def nextText (e : Engine) : String :=
  (Table.standard.disassemble (e.machine.wordAt e.machine.pc.toNat)).getD "inval"

/-- The entry for the instruction that comes next. -/
def nextEntry (e : Engine) : Journal.Entry :=
  ⟨.trace, "cpu", lowerHex 3 e.machine.pc.toNat ++ ": " ++ e.nextText⟩

/-- The entry for a fault. -/
def faultEntry (f : Fault) : Journal.Entry := ⟨.error, "cpu", f.message⟩

/-- What an operation enters in the journal of an engine that traces. -/
def entries (e : Engine) : Operation → List Journal.Entry
  | .step =>
    if e.machine.isWaiting then [] else e.nextEntry :: (e.step.fault?.map faultEntry).toList
  | .log level source message => [⟨level, source, message⟩]
  | _ => []

/-- The engine that carries out an instruction, if the operation makes it do that. -/
def attempt? : Engine × Operation → Option Engine
  | (e, .step) => if e.machine.isWaiting then none else some e
  | _ => none

/-! ## One step -/

theorem Tracing.logNext_eq (he : e.Tracing) (hidle : e.machine.isWaiting = false) :
    e.logNext = { e with journal := e.journal.add e.nextEntry } := by
  have htext : e.traceText = lowerHex 3 e.machine.pc.toNat ++ ": " ++ e.nextText := by
    rw [traceText, Machine.disassemble, Machine.readWord_eq he.pc_le, he.table_eq]
    rfl
  have hasked : (e.traced && !e.machine.isWaiting) = true := by
    rw [he.traced, hidle]
    rfl
  rw [logNext, if_pos hasked, htext]
  rfl

theorem step_of_waiting (hwaits : e.machine.isWaiting = true) :
    e.step = .done { e with noise := e.noise.next } := by
  have hlog : e.logNext = e := by
    rw [logNext, hwaits, Bool.not_true, Bool.and_false]
    exact if_neg nofun
  have htick : e.machine.tick e.table e.noise.current = .done e.machine :=
    Machine.tick_of_waiting (Option.isSome_iff_ne_none.mp hwaits)
  rw [step, hlog, htick]

theorem idle_of_step_fault {f : Fault} (h : e.step = .fault f e') :
    e.machine.isWaiting = false := by
  cases hwaits : e.machine.isWaiting with
  | true => exact nomatch (step_of_waiting hwaits).symm.trans h
  | false => rfl

theorem noteFault_of_isFatal (e : Engine) {f : Fault} (hfatal : f.isFatal = true) :
    e.noteFault f =
      { e with journal := e.journal.add (faultEntry f), state := .paused, fault := some f } :=
  if_pos hfatal

/-- The ways in which a step of an engine that traces may end, with all that it enters. Each of its
faults ends the program. -/
inductive Entered (e : Engine) : Outcome Engine → Prop where
  | waits (hwaits : e.machine.isWaiting = true) :
    Entered e (.done { e with noise := e.noise.next })
  | done {machine : Machine} (hidle : e.machine.isWaiting = false)
    (htick : e.machine.tick Table.standard e.noise.current = .done machine) :
    Entered e
      (.done { e with machine, noise := e.noise.next, journal := e.journal.add e.nextEntry })
  | fails {f : Fault} {machine : Machine} (hidle : e.machine.isWaiting = false)
    (htick : e.machine.tick Table.standard e.noise.current = .fault f machine) :
    Entered e (.fault f
      { e with
        machine
        noise := e.noise.next
        journal := (e.journal.add e.nextEntry).add (faultEntry f)
        state := .paused
        fault := some f })
  | crashes (hidle : e.machine.isWaiting = false)
    (htick : e.machine.tick Table.standard e.noise.current = .crash) : Entered e .crash

theorem Tracing.step_entered (he : e.Tracing) : e.Entered e.step := by
  cases hidle : e.machine.isWaiting with
  | true =>
    rw [step_of_waiting hidle]
    exact .waits hidle
  | false =>
    -- What is logged first changes the journal alone, so the tick is that of `e`.
    rw [step, he.logNext_eq hidle]
    dsimp only
    rw [he.table_eq]
    cases htick : e.machine.tick Table.standard e.noise.current with
    | done machine => exact he.table_eq ▸ .done hidle htick
    | fault f machine =>
      dsimp only
      rw [noteFault_of_isFatal _ (Machine.isFatal_of_tick htick)]
      exact he.table_eq ▸ .fails hidle htick
    | crash => exact .crashes hidle htick

/-- What the journal says of the next step is true. -/
structure Truthful (e : Engine) : Prop where
  /-- While the machine waits for a key, a step enters nothing. -/
  waits : e.machine.isWaiting = true → ∃ e', e.step = .done e' ∧ e'.journal = e.journal
  /-- Otherwise it reads the word at the program counter, high byte first, and carries it out. -/
  carriesOut : e.machine.isWaiting = false →
    e.machine.readWord e.machine.pc = .ok (e.machine.wordAt e.machine.pc.toNat) ∧
    e.machine.tick e.table e.noise.current = e.machine.perform Table.standard e.noise.current
      e.machine.pc (e.machine.wordAt e.machine.pc.toNat)
  /-- A step that does not fail enters the address and the text of that word, and nothing else. -/
  done : e.machine.isWaiting = false → ∀ e', e.step = .done e' →
    e'.journal = e.journal.add e.nextEntry
  /-- A step that fails enters them and then the message of its fault, and nothing else. -/
  failed : ∀ f e', e.step = .fault f e' →
    e.machine.isWaiting = false ∧
    e'.journal = (e.journal.add e.nextEntry).add (faultEntry f)
  /-- The text is `inval` if the step fails because that word stands for no instruction, and only
  then. -/
  unknown : e.machine.isWaiting = false →
    (e.nextText = "inval" ↔ ∃ e', e.step =
      .fault (.unimplementedInstruction (e.machine.wordAt e.machine.pc.toNat) e.machine.pc) e')
  /-- A step that fails in this way has no other word in mind, nor another address. -/
  located : ∀ word address e', e.step = .fault (.unimplementedInstruction word address) e' →
    word = e.machine.wordAt e.machine.pc.toNat ∧ address = e.machine.pc
  /-- A step leaves an engine behind unless the instructions can no longer be counted. -/
  counted : e.step = .crash → countLimit ≤ e.machine.cycle + 1

theorem Tracing.step_fault_iff (he : e.Tracing) (f : Fault) :
    (∃ e', e.step = .fault f e') ↔
      ∃ machine, e.machine.tick Table.standard e.noise.current = .fault f machine := by
  refine ⟨fun ⟨e', hfault⟩ => ?_, fun ⟨machine, htick⟩ => ?_⟩
  · have hentered := he.step_entered
    rw [hfault] at hentered
    cases hentered with
    | fails _ htick => exact ⟨_, htick⟩
  · rw [← he.table_eq] at htick
    exact step_of_tick_fault htick

theorem Tracing.truthful (he : e.Tracing) : e.Truthful where
  waits := fun hwaits => ⟨_, step_of_waiting hwaits, rfl⟩
  carriesOut := fun hidle =>
    ⟨Machine.readWord_eq he.pc_le, he.table_eq ▸ Machine.tick_of_fetched hidle he.pc_le⟩
  done := by
    intro hidle e' hdone
    have hentered := he.step_entered
    rw [hdone] at hentered
    cases hentered with
    | waits hwaits => exact nomatch hidle.symm.trans hwaits
    | done => rfl
  failed := by
    intro f e' hfault
    have hentered := he.step_entered
    rw [hfault] at hentered
    cases hentered with
    | fails hidle => exact ⟨hidle, rfl⟩
  unknown := by
    intro hidle
    rw [he.step_fault_iff, Machine.tick_unknown_iff hidle he.pc_le, and_iff_right rfl,
      and_iff_right rfl]
    exact Table.getD_inval_iff _
  located := by
    intro word address e' hfault
    obtain ⟨machine, htick⟩ := (he.step_fault_iff _).mp ⟨e', hfault⟩
    have hidle := idle_of_step_fault hfault
    obtain ⟨hword, haddress, -⟩ := (Machine.tick_unknown_iff hidle he.pc_le).mp ⟨machine, htick⟩
    exact ⟨hword, haddress⟩
  counted := by
    intro hcrash
    have hentered := he.step_entered
    rw [hcrash] at hentered
    cases hentered with
    | crashes _ htick =>
      -- Nothing in a consistent machine crashes but the count.
      by_contra hcycle
      rw [← Table.registerAll_nil Table.standard] at htick
      exact Machine.tick_ne_crash he.consistent he.pc_le (by simp) (Nat.not_le.mp hcycle) htick

/-! ## Any operation -/

/-- A load starts over and puts the program into memory, if it fits. -/
theorem load_left {program : List UInt8} {address : UInt16}
    (h : (e.load program address).state? = some e') :
    ∃ remembered, e' = { e with
      machine := Request.applyAll [.reset, .load program address] e.machine
      fault := none
      program := remembered } := by
  rw [Request.applyAll_reset_load]
  rw [load] at h
  dsimp only at h
  cases hload : e.machine.reset.load program address with
  | ok machine =>
    rw [hload] at h
    obtain rfl := Option.some.inj h
    exact ⟨_, rfl⟩
  | error f =>
    rw [hload] at h
    obtain rfl := Option.some.inj h
    exact ⟨_, rfl⟩

/-- What is done to an engine apart from steps comes down to requests to its machine. -/
theorem perform_requests (hcourteous : operation.Courteous) (hstep : operation ≠ .step)
    (h : (e.perform operation).state? = some e') :
    (∃ requests, e'.machine = Request.applyAll requests e.machine) ∧
    e'.table = e.table ∧ e'.traced = e.traced ∧
    e'.journal = e.journal.addAll (e.entries operation) := by
  cases operation with
  | step => exact absurd rfl hstep
  | setState state =>
    obtain rfl := Option.some.inj h
    exact ⟨⟨[], rfl⟩, rfl, rfl, rfl⟩
  | setClockSpeed speed =>
    rw [perform, setClockSpeed] at h
    split at h
    all_goals
      obtain rfl := Option.some.inj h
      exact ⟨⟨[], rfl⟩, rfl, rfl, rfl⟩
  | load program address =>
    obtain ⟨remembered, rfl⟩ := load_left h
    exact ⟨⟨_, rfl⟩, rfl, rfl, rfl⟩
  | reset =>
    obtain rfl := Option.some.inj h
    refine ⟨?_, rfl, rfl, rfl⟩
    rw [reset]
    cases e.program with
    | none => exact ⟨[.reset], rfl⟩
    | some loaded => exact ⟨_, (Request.applyAll_reset_load ..).symm⟩
  | log level source message =>
    obtain rfl := Option.some.inj h
    exact ⟨⟨[], rfl⟩, rfl, rfl, rfl⟩
  | change f =>
    obtain ⟨r, rfl⟩ := hcourteous
    obtain rfl := Option.some.inj h
    exact ⟨⟨[r], rfl⟩, rfl, rfl, rfl⟩

theorem start_tracing (config : Config) (journal : Journal) (noise : Noise)
    (htraced : config.trace = true) : (start config journal noise).Tracing where
  consistent := Machine.idle_consistent _ _
  pc_le := (by decide : programStart ≤ lastInstruction)
  table_eq := by rw [start]
  traced := htraced

theorem Tracing.step_left (he : e.Tracing) (h : e.step.state? = some e') :
    e'.Tracing ∧ e'.journal = e.journal.addAll (e.entries .step) ∧
      e'.machine.cycle ≤ e.machine.cycle + 1 := by
  have htick {machine : Machine}
      (hleft : (e.machine.tick Table.standard e.noise.current).state? = some machine) :
      machine.Consistent ∧ machine.pc ≤ lastInstruction ∧ machine.cycle ≤ e.machine.cycle + 1 := by
    rw [← Table.registerAll_nil Table.standard] at hleft
    exact Machine.tick_consistent he.consistent he.pc_le (by simp) hleft
  have hentered := he.step_entered
  rw [entries]
  generalize e.step = ended at h hentered
  cases hentered with
  | waits hwaits =>
    obtain rfl := Option.some.inj h
    rw [if_pos hwaits]
    exact ⟨{ he with traced := he.traced }, rfl, Nat.le_succ _⟩
  | done hidle hdone =>
    obtain rfl := Option.some.inj h
    obtain ⟨hconsistent, hpc, hcycle⟩ := htick (congrArg Outcome.state? hdone)
    rw [if_neg (by simp [hidle])]
    exact ⟨{ he with consistent := hconsistent, pc_le := hpc }, rfl, hcycle⟩
  | fails hidle hfault =>
    obtain rfl := Option.some.inj h
    obtain ⟨hconsistent, hpc, hcycle⟩ := htick (congrArg Outcome.state? hfault)
    rw [if_neg (by simp [hidle])]
    exact ⟨{ he with consistent := hconsistent, pc_le := hpc }, rfl, hcycle⟩
  | crashes => exact nomatch h

/-- One operation keeps an engine tracing, and enters what it should. -/
theorem Tracing.perform (he : e.Tracing) (hcourteous : operation.Courteous)
    (h : (e.perform operation).state? = some e') :
    e'.Tracing ∧ e'.journal = e.journal.addAll (e.entries operation) ∧
      e'.machine.cycle ≤ e.machine.cycle + 1 := by
  by_cases hstep : operation = .step
  · subst hstep
    exact he.step_left h
  · -- Requests keep the machine as it should be, and nothing else reaches it.
    obtain ⟨⟨requests, hmachine⟩, htable, htraced, hjournal⟩ :=
      perform_requests hcourteous hstep h
    obtain ⟨hconsistent, hcycle⟩ := Request.applyAll_consistent requests he.consistent
    have hpc := Request.applyAll_pc_le requests he.pc_le
    rw [← hmachine] at hconsistent hcycle hpc
    have he' : e'.Tracing :=
      ⟨hconsistent, hpc, htable.trans he.table_eq, htraced.trans he.traced⟩
    exact ⟨he', hjournal, Nat.le_succ_of_le hcycle⟩

theorem Tracing.exists_perform (he : e.Tracing) (hcycle : e.machine.cycle + 1 < countLimit)
    (operation : Operation) : ∃ e', (e.perform operation).state? = some e' := by
  cases operation with
  | step =>
    have hcounted := he.truthful.counted
    rw [Engine.perform]
    cases hstep : e.step with
    | done | fault => exact ⟨_, rfl⟩
    | crash => exact absurd (hcounted hstep) (Nat.not_le.mpr hcycle)
  | load program address =>
    rw [Engine.perform]
    rcases Nat.lt_or_ge 4096 (program.length + address.toNat) with hlarge | hfits
    · rw [e.load_of_lt hlarge]
      exact ⟨_, rfl⟩
    · rw [e.load_of_le hfits]
      exact ⟨_, rfl⟩
  | setClockSpeed speed =>
    rw [Engine.perform, setClockSpeed]
    split <;> exact ⟨_, rfl⟩
  | setState | reset | log | change => exact ⟨_, rfl⟩

/-! ## Runs -/

/-- The engine after some operations, one after the other, if none of them crashes. -/
def after (e : Engine) : List Operation → Option Engine
  | [] => some e
  | operation :: rest => (e.perform operation).state?.bind fun e' => e'.after rest

/-- The operations of a run, each with the engine that it meets. -/
def course (e : Engine) : List Operation → List (Engine × Operation)
  | [] => []
  | operation :: rest =>
    (e, operation) ::
      match (e.perform operation).state? with
      | some e' => e'.course rest
      | none => []

variable {operations : List Operation}

theorem Tracing.history_after (he : e.Tracing)
    (hcourteous : ∀ operation ∈ operations, operation.Courteous)
    (h : e.after operations = some e') :
    e'.journal.history =
      e.journal.history ++ (e.course operations).flatMap fun s => s.1.entries s.2 := by
  induction operations generalizing e with
  | nil =>
    obtain rfl := Option.some.inj h
    exact (List.append_nil _).symm
  | cons operation rest ih =>
    obtain ⟨hfirst, hrest⟩ := List.forall_mem_cons.mp hcourteous
    rw [after, Option.bind_eq_some_iff] at h
    obtain ⟨next, hnext, hlast⟩ := h
    obtain ⟨htracing, hjournal, -⟩ := he.perform hfirst hnext
    rw [course, hnext, ih htracing hrest hlast, hjournal, Journal.history_addAll,
      List.flatMap_cons, List.append_assoc]

theorem Tracing.course (he : e.Tracing)
    (hcourteous : ∀ operation ∈ operations, operation.Courteous) :
    ∀ s ∈ e.course operations, s.1.Tracing := by
  induction operations generalizing e with
  | nil => exact fun _ hmem => absurd hmem List.not_mem_nil
  | cons operation rest ih =>
    obtain ⟨hfirst, hrest⟩ := List.forall_mem_cons.mp hcourteous
    rw [Engine.course, List.forall_mem_cons]
    refine ⟨he, ?_⟩
    cases hnext : (e.perform operation).state? with
    | none => exact fun _ hmem => absurd hmem List.not_mem_nil
    | some next => exact ih (he.perform hfirst hnext).1 hrest

theorem operation_mem_of_mem_course {s : Engine × Operation} (hmem : s ∈ e.course operations) :
    s.2 ∈ operations := by
  induction operations generalizing e with
  | nil => exact absurd hmem List.not_mem_nil
  | cons operation rest ih =>
    rw [course, List.mem_cons] at hmem
    rcases hmem with rfl | hlater
    · exact List.mem_cons_self ..
    · cases hnext : (e.perform operation).state? with
      | none =>
        rw [hnext] at hlater
        exact absurd hlater List.not_mem_nil
      | some next =>
        rw [hnext] at hlater
        exact List.mem_cons_of_mem _ (ih hlater)

/-- A run ends only where the instructions can no longer be counted. -/
theorem Tracing.exists_after (he : e.Tracing)
    (hcourteous : ∀ operation ∈ operations, operation.Courteous)
    (hcycle : e.machine.cycle + operations.length < countLimit) :
    ∃ e', e.after operations = some e' := by
  induction operations generalizing e with
  | nil => exact ⟨e, rfl⟩
  | cons operation rest ih =>
    obtain ⟨hfirst, hrest⟩ := List.forall_mem_cons.mp hcourteous
    rw [List.length_cons] at hcycle
    obtain ⟨next, hnext⟩ := he.exists_perform (by omega) operation
    obtain ⟨htracing, -, hle⟩ := he.perform hfirst hnext
    rw [after, hnext]
    exact ih htracing hrest (by omega)

/-- Of what an operation enters, the trace is what an attempted instruction enters first. -/
theorem filter_entries (e : Engine)
    (hlog : ∀ source message, operation ≠ .log .trace source message) :
    (e.entries operation).filter (·.level = .trace) =
      ((attempt? (e, operation)).map nextEntry).toList := by
  cases operation with
  | step =>
    rw [entries, attempt?]
    split
    · rfl
    · cases e.step.fault? <;> simp [nextEntry, faultEntry]
  | log level source message =>
    have hlevel : level ≠ .trace := fun h => hlog source message (h ▸ rfl)
    simp [entries, attempt?, hlevel]
  | _ => rfl

/-- The trace of a run is one entry for each instruction that it attempts, in order. -/
theorem trace_course (e : Engine)
    (hlog : ∀ source message, Operation.log .trace source message ∉ operations) :
    ((e.course operations).flatMap fun s => s.1.entries s.2).filter (·.level = .trace) =
      ((e.course operations).filterMap attempt?).map nextEntry := by
  have hfirst (s) (hs : s ∈ e.course operations) :
      (s.1.entries s.2).filter (·.level = .trace) = ((attempt? s).map nextEntry).toList :=
    s.1.filter_entries fun source message h =>
      hlog source message (h ▸ operation_mem_of_mem_course hs)
  calc ((e.course operations).flatMap fun s => s.1.entries s.2).filter (·.level = .trace)
    _ = (e.course operations).flatMap fun s => (s.1.entries s.2).filter (·.level = .trace) :=
      List.filter_flatMap
    _ = (e.course operations).flatMap fun s => ((attempt? s).map nextEntry).toList :=
      List.flatMap_congr hfirst
    _ = (e.course operations).filterMap fun s => (attempt? s).map nextEntry :=
      (List.filterMap_eq_flatMap_toList ..).symm
    _ = ((e.course operations).filterMap attempt?).map nextEntry := List.map_filterMap.symm

/-! ## Engines with a history -/

theorem step_traced (h : e.step.state? = some e') : e'.traced = e.traced := by
  have hcase := e.step_case
  generalize e.step = ended at h hcase
  cases hcase with
  | done | stops | complains =>
    obtain rfl := Option.some.inj h
    rfl
  | crashes => simp [Outcome.state?] at h

theorem perform_traced (hcourteous : operation.Courteous)
    (h : (e.perform operation).state? = some e') : e'.traced = e.traced := by
  by_cases hstep : operation = .step
  · subst hstep
    exact step_traced h
  · exact (perform_requests hcourteous hstep h).2.2.1

/-- Whether an engine traces is settled when it starts. -/
theorem History.tracing {config : Config} {journal : Journal} {noise : Noise}
    (h : History (Engine.start config journal noise) events e)
    (hcourteous : ∀ event ∈ events, event.operation.Courteous) (htraced : e.traced = true) :
    e.Tracing := by
  induction h with
  | start => exact start_tracing config journal noise htraced
  | next _ operation hleft ih =>
    obtain ⟨hlast, hearlier⟩ := List.forall_mem_cons.mp hcourteous
    have hbefore := (perform_traced hlast hleft).symm.trans htraced
    exact ((ih hearlier hbefore).perform hlast hleft).1

/-- The trace of an engine with any history that begins with a new one and drives the machine by
requests only.

* What the journal says of the next step is true.
* The same goes for every engine that a run from here meets, whatever operations it has.
* The run ends only where the instructions can no longer be counted, and when it is over, the
  history has what each operation enters, one after the other.
* If nobody else logs at this level, the trace in that is one entry for each instruction that was
  attempted, in the order in which they were. -/
theorem trace_truthful {config : Config} {journal : Journal} {noise : Noise}
    (h : History (start config journal noise) events e)
    (hcourteous : ∀ event ∈ events, event.operation.Courteous) (htraced : e.traced = true) :
    e.Truthful ∧
    ∀ operations : List Operation, (∀ operation ∈ operations, operation.Courteous) →
      (∀ s ∈ e.course operations, s.1.Truthful) ∧
      (e.machine.cycle + operations.length < countLimit → ∃ e', e.after operations = some e') ∧
      (∀ e', e.after operations = some e' → e'.journal.history =
        e.journal.history ++ (e.course operations).flatMap fun s => s.1.entries s.2) ∧
      ((∀ source message, .log .trace source message ∉ operations) →
        ((e.course operations).flatMap fun s => s.1.entries s.2).filter (·.level = .trace) =
          ((e.course operations).filterMap attempt?).map nextEntry) := by
  have he := h.tracing hcourteous htraced
  refine ⟨he.truthful, fun operations hrun => ⟨fun s hs => (he.course hrun s hs).truthful,
    he.exists_after hrun, fun e' => he.history_after hrun, e.trace_course⟩⟩

/-- A program clears the screen and goes on with a word that stands for no instruction. -/
theorem trace_of_unknown :
    let new := start { trace := true } (Journal.ofCapacity 0) ⟨fun _ => 0, 0⟩
    let program : List UInt8 := [0x00, 0xe0, 0xff, 0xff]
    ∃ e e', History new [⟨.load program programStart, none⟩] e ∧
      (∀ event ∈ [Event.mk (.load program programStart) none], event.operation.Courteous) ∧
      e.traced = true ∧ e.after [.step, .step] = some e' ∧
      e'.journal.history =
        [⟨.trace, "cpu", "200: CLS"⟩,
          ⟨.trace, "cpu", "202: inval"⟩,
          ⟨.error, "cpu", "opcode ffff at 202 not recognized"⟩] := by
  intro new program
  have hload : new.load program programStart = _ := new.load_of_le (by decide)
  generalize hloaded : Engine.mk _ _ _ _ _ _ _ _ _ _ = loaded at hload
  have hhistory : History new [⟨.load program programStart, none⟩] loaded :=
    History.start.done (.load program programStart) hload
  have hcourteous : ∀ event ∈ [Event.mk (.load program programStart) none],
      event.operation.Courteous := List.forall_mem_singleton.mpr trivial
  have htraced : loaded.traced = true := by
    rw [← hloaded]
    rfl
  obtain ⟨-, hrun⟩ := trace_truthful hhistory hcourteous htraced
  obtain ⟨-, hafter, hentries, -⟩ := hrun [.step, .step] (by simp [Operation.Courteous])
  obtain ⟨e', he'⟩ := hafter (by rw [← hloaded]; decide)
  refine ⟨loaded, e', hhistory, hcourteous, htraced, he', ?_⟩
  rw [hentries e' he', ← hloaded]
  decide +kernel

end Engine

end Chip8
