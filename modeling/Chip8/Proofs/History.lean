import Chip8.Engine.Basic
import Chip8.Proofs.Tick

/-!
# What an engine remembers

Whoever has an engine may pause it or let it run, set its clock, give it a program, reset it,
carry out an instruction, write to its journal, and do what he likes to its machine
(`Operation`). A history lists what was done since the start and how it ended, the last event
first (`Engine.History`).

State, fault and program of an engine can be read off its history alone: `lastState`,
`standingFault` and `lastLoaded` look for the last event that counts. `Records` says that an
engine agrees with its history in these, and that its clock runs and its table is the standard
one. One operation keeps that (`Records.perform`), so every history does
(`History.records`).

> `history_fault`: the fault that an engine knows is that of the last failed step, unless it was
> told to run, got a program or was reset since; while it knows one it is paused, and nothing
> else makes it run than being told to.
-/

namespace Chip8

theorem Outcome.eq_fault_of_fault? {σ : Type} {ended : Outcome σ} {f : Fault}
    (h : ended.fault? = some f) : ∃ s, ended = .fault f s := by
  cases ended with
  | fault f' s =>
    obtain rfl := Option.some.inj h
    exact ⟨s, rfl⟩
  | done s => exact nomatch h
  | crash => exact nomatch h

/-! ## Ticks end a program or nothing -/

/-- Every fault of a tick ends the program. -/
theorem Machine.isFatal_of_tick {m m' : Machine} {noise : UInt8} {f : Fault}
    (h : m.tick Table.standard noise = .fault f m') : f.isFatal = true := by
  have hcase := m.tick_case Table.standard noise
  rw [h] at hcase
  cases hcase with
  | unreadable | unknown | strays => rfl
  | refused hruns =>
    obtain ⟨-, address, rfl | rfl | rfl⟩ := hruns.refused_standard <;> rfl

/-! ## One load, one step -/

/-- Memory takes what ends within it, and an empty program ends where it begins. -/
theorem Memory.load_eq (memory : Memory) (address : UInt16) (program : List UInt8) :
    memory.load address program =
      if program.length + address.toNat ≤ 4096 then
        .ok (memory.writeBytes address.toNat program)
      else .error (.romTooLarge program.length address) := by
  have hrange : isRange address.toNat (address.toNat + program.length) = true ↔
      program.length + address.toNat ≤ 4096 := by
    simp only [isRange, Bool.and_eq_true, decide_eq_true_eq]
    omega
  rw [load]
  exact if_congr hrange rfl rfl

namespace Machine

theorem load_of_le (m : Machine) {program : List UInt8} {address : UInt16}
    (hfits : program.length + address.toNat ≤ 4096) :
    m.load program address =
      .ok { m with memory := m.memory.writeBytes address.toNat program } := by
  rw [load, if_neg (Nat.not_lt.mpr hfits), Memory.load_eq, if_pos hfits]
  rfl

theorem load_of_lt (m : Machine) {program : List UInt8} {address : UInt16}
    (hlarge : 4096 < program.length + address.toNat) :
    m.load program address = .error (.romTooLarge program.length address) := by
  rw [load, if_pos hlarge]
  rfl

end Machine

namespace Engine

/-- The ways in which a step may end. The journal may have become longer in each of them. -/
inductive Step (e : Engine) : Outcome Engine → Prop where
  | done {machine : Machine} {journal : Journal}
    (htick : e.machine.tick e.table e.noise.current = .done machine) :
    Step e (.done { e with machine, journal, noise := e.noise.next })
  | stops {f : Fault} {machine : Machine} {journal : Journal}
    (htick : e.machine.tick e.table e.noise.current = .fault f machine)
    (hfatal : f.isFatal = true) :
    Step e (.fault f
      { e with machine, journal, noise := e.noise.next, state := .paused, fault := some f })
  | complains {f : Fault} {machine : Machine} {journal : Journal}
    (htick : e.machine.tick e.table e.noise.current = .fault f machine)
    (hfatal : f.isFatal = false) :
    Step e (.fault f { e with machine, journal, noise := e.noise.next })
  | crashes (htick : e.machine.tick e.table e.noise.current = .crash) : Step e .crash

theorem logNext_eq (e : Engine) : ∃ journal, e.logNext = { e with journal } := by
  unfold logNext
  split
  · exact ⟨_, rfl⟩
  · exact ⟨e.journal, rfl⟩

theorem step_case (e : Engine) : e.Step e.step := by
  obtain ⟨journal, hlog⟩ := e.logNext_eq
  unfold step
  rw [hlog]
  dsimp only
  cases htick : e.machine.tick e.table e.noise.current with
  | done machine => exact .done htick
  | fault f machine =>
    dsimp only
    unfold noteFault
    cases hfatal : f.isFatal with
    | true => exact .stops htick hfatal
    | false => exact .complains htick hfatal
  | crash => exact .crashes htick

/-- A load starts the machine over and forgets the fault, whether or not the program fits. -/
theorem load_of_le (e : Engine) {program : List UInt8} {address : UInt16}
    (hfits : program.length + address.toNat ≤ 4096) :
    e.load program address = .done
      { e with
        machine := { e.machine.reset with
          memory := Memory.fresh.writeBytes address.toNat program }
        fault := none
        program := some (program, address) } := by
  rw [load, Machine.load_of_le _ hfits]
  rfl

theorem load_of_lt (e : Engine) {program : List UInt8} {address : UInt16}
    (hlarge : 4096 < program.length + address.toNat) :
    e.load program address = .fault (.romTooLarge program.length address)
      { e with machine := e.machine.reset, fault := none } := by
  rw [load, Machine.load_of_lt _ hlarge]

end Engine

/-! ## Operations and histories -/

/-- What may be done to an engine. -/
inductive Operation where
  | setState (state : RunState)
  | setClockSpeed (speed : UInt32)
  | load (program : List UInt8) (address : UInt16)
  | reset
  | step
  /-- An entry in the journal. -/
  | log (level : Journal.Level) (source message : String)
  /-- Something that is done to the machine directly, whatever it is. -/
  | change (f : Machine → Machine)

/-- What was done, and the fault that it ended with, if any. -/
structure Event where
  operation : Operation
  fault : Option Fault

namespace Engine

/-- How an operation ends. -/
def perform (e : Engine) : Operation → Outcome Engine
  | .setState state => .done (e.setState state)
  | .setClockSpeed speed => Outcome.ofExcept e ((e.setClockSpeed speed).mapError .fault)
  | .load program address => e.load program address
  | .reset => .done e.reset
  | .step => e.step
  | .log level source message => .done (e.log level source message)
  | .change f => .done { e with machine := f e.machine }

/-- The engine after some events, of which the last one comes first. A failed operation is an
event like any other, and the engine that it left behind is the one that goes on. -/
inductive History (start : Engine) : List Event → Engine → Prop where
  | start : History start [] start
  | next {events : List Event} {e e' : Engine} (h : History start events e) (operation : Operation)
    (hleft : (e.perform operation).state? = some e') :
    History start (⟨operation, (e.perform operation).fault?⟩ :: events) e'

theorem History.done {start e e' : Engine} {events : List Event} (h : History start events e)
    (operation : Operation) (hdone : e.perform operation = .done e') :
    History start (⟨operation, none⟩ :: events) e' := by
  have hnext := h.next operation (congrArg Outcome.state? hdone)
  rwa [hdone] at hnext

theorem History.failed {start e e' : Engine} {events : List Event} (h : History start events e)
    (operation : Operation) {f : Fault} (hfault : e.perform operation = .fault f e') :
    History start (⟨operation, some f⟩ :: events) e' := by
  have hnext := h.next operation (congrArg Outcome.state? hfault)
  rwa [hfault] at hnext

/-! ## Reading a history -/

/-- The fault of the last failed step, if the engine was not told to run, got no program and was
not reset since. -/
def standingFault : List Event → Option Fault
  | [] => none
  | ⟨.step, some f⟩ :: _ => some f
  | ⟨.setState .running, _⟩ :: _ | ⟨.load .., _⟩ :: _ | ⟨.reset, _⟩ :: _ => none
  | _ :: earlier => standingFault earlier

/-- What the engine was last told to do, or that it paused when a step failed since. -/
def lastState : List Event → RunState
  | [] => .paused
  | ⟨.setState state, _⟩ :: _ => state
  | ⟨.step, some _⟩ :: _ => .paused
  | _ :: earlier => lastState earlier

/-- The program of the last load that did not fail. -/
def lastLoaded : List Event → Option (List UInt8 × UInt16)
  | [] => none
  | ⟨.load program address, none⟩ :: _ => some (program, address)
  | _ :: earlier => lastLoaded earlier

/-- What an engine has in common with its history, and what never changes. -/
structure Records (events : List Event) (e : Engine) : Prop where
  fault_eq : e.fault = standingFault events
  state_eq : e.state = lastState events
  program_eq : e.program = lastLoaded events
  program_fits : ∀ program address, e.program = some (program, address) →
    program.length + address.toNat ≤ 4096
  paused_of_fault : e.fault ≠ none → e.state = .paused
  clockSpeed_ne_zero : e.clockSpeed ≠ 0
  table_eq : e.table = Table.standard

variable {events : List Event} {e e' : Engine}

theorem start_records (config : Config) (journal : Journal) (noise : Noise) :
    (start config journal noise).Records [] where
  fault_eq := by rw [start, standingFault]
  state_eq := by rw [start, lastState]
  program_eq := by rw [start, lastLoaded]
  program_fits := fun _ _ h => by
    rw [start] at h
    exact nomatch h
  paused_of_fault := fun _ => by rw [start]
  clockSpeed_ne_zero := by
    have hmax : (start config journal noise).clockSpeed =
        if config.clockSpeed ≤ 1 then 1 else config.clockSpeed := by
      rw [start]
      rfl
    rw [hmax]
    split
    next => decide
    next hlt =>
      intro hzero
      rw [hzero] at hlt
      exact hlt (by decide)
  table_eq := by rw [start]

/-- Each operation keeps the records, however it ends. -/
theorem Records.perform (he : e.Records events) {operation : Operation}
    (hleft : (e.perform operation).state? = some e') :
    e'.Records (⟨operation, (e.perform operation).fault?⟩ :: events) := by
  cases operation with
  | setState state =>
    obtain rfl := Option.some.inj hleft
    cases state with
    | running => exact { he with fault_eq := rfl, state_eq := rfl, paused_of_fault := absurd rfl }
    | paused => exact { he with state_eq := rfl, paused_of_fault := fun _ => rfl }
  | setClockSpeed speed =>
    rw [Engine.perform, setClockSpeed] at hleft
    by_cases hspeed : speed = 0
    · rw [if_pos hspeed] at hleft
      obtain rfl := Option.some.inj hleft
      exact { he with fault_eq := he.fault_eq }
    · rw [if_neg hspeed] at hleft
      obtain rfl := Option.some.inj hleft
      exact { he with clockSpeed_ne_zero := hspeed }
  | load program address =>
    rw [Engine.perform] at hleft ⊢
    rcases Nat.lt_or_ge 4096 (program.length + address.toNat) with hlarge | hfits
    · rw [e.load_of_lt hlarge] at hleft ⊢
      obtain rfl := Option.some.inj hleft
      exact { he with fault_eq := rfl, paused_of_fault := absurd rfl }
    · rw [e.load_of_le hfits] at hleft ⊢
      obtain rfl := Option.some.inj hleft
      refine { he with
        fault_eq := rfl
        program_eq := rfl
        program_fits := fun program' address' h => ?_
        paused_of_fault := absurd rfl }
      cases h
      exact hfits
  | reset =>
    obtain rfl := Option.some.inj hleft
    exact { he with fault_eq := rfl, paused_of_fault := absurd rfl }
  | step =>
    have hcase := e.step_case
    rw [Engine.perform] at hleft ⊢
    generalize e.step = ended at hleft hcase
    cases hcase with
    | done =>
      obtain rfl := Option.some.inj hleft
      exact { he with fault_eq := he.fault_eq }
    | stops =>
      obtain rfl := Option.some.inj hleft
      exact { he with fault_eq := rfl, state_eq := rfl, paused_of_fault := fun _ => rfl }
    | complains htick hfatal =>
      -- The standard table has no faults of this kind.
      rw [he.table_eq] at htick
      rw [Machine.isFatal_of_tick htick] at hfatal
      exact nomatch hfatal
    | crashes => exact nomatch hleft
  | log | change =>
    obtain rfl := Option.some.inj hleft
    exact { he with fault_eq := he.fault_eq }

theorem History.records {config : Config} {journal : Journal} {noise : Noise}
    (h : History (Engine.start config journal noise) events e) : e.Records events := by
  induction h with
  | start => exact start_records config journal noise
  | next _ operation hleft ih => exact ih.perform hleft

/-! ## Fault, state and clock -/

theorem operation_of_lastState {event : Event} (hpaused : lastState events = .paused)
    (hrunning : lastState (event :: events) = .running) :
    event.operation = .setState .running := by
  obtain ⟨operation, fault⟩ := event
  cases operation with
  | setState state => exact congrArg Operation.setState hrunning
  | step =>
    cases fault with
    | none => exact nomatch hpaused.symm.trans hrunning
    | some f => exact nomatch hrunning
  | _ => exact nomatch hpaused.symm.trans hrunning

theorem Records.step_fault (he : e.Records events) {f : Fault} (h : e.step = .fault f e') :
    f.isFatal = true ∧ e'.state = .paused ∧ e'.fault = some f := by
  have hcase := e.step_case
  rw [h] at hcase
  cases hcase with
  | stops _ hfatal => exact ⟨hfatal, rfl, rfl⟩
  | complains htick hfatal =>
    rw [he.table_eq] at htick
    rw [Machine.isFatal_of_tick htick] at hfatal
    exact nomatch hfatal

theorem step_of_tick_fault {f : Fault} {m' : Machine}
    (h : e.machine.tick e.table e.noise.current = .fault f m') : ∃ e', e.step = .fault f e' := by
  have hcase := e.step_case
  generalize e.step = ended at hcase
  cases hcase with
  | done htick => exact nomatch h.symm.trans htick
  | stops htick =>
    cases h.symm.trans htick
    exact ⟨_, rfl⟩
  | complains htick =>
    cases h.symm.trans htick
    exact ⟨_, rfl⟩
  | crashes htick => exact nomatch h.symm.trans htick

/-- What holds of an engine after any history that begins with a new one.

* While it knows a fault, it is paused.
* It knows the fault of the last failed step, unless it was told to run, got a program (even one
  that did not fit) or was reset since.
* A failed step ends the program: it pauses the engine, which knows the fault then. No fault of
  the machine gets lost on the way.
* Only being told to run makes it run, and whether it runs follows from its history.
* The clock never stands still, and an attempt to stop it fails and changes nothing. -/
theorem history_fault {config : Config} {journal : Journal} {noise : Noise}
    (h : History (start config journal noise) events e) :
    (e.fault ≠ none → e.state = .paused) ∧
    e.fault = standingFault events ∧
    (∀ f e', e.step = .fault f e' →
      f.isFatal = true ∧ e'.state = .paused ∧ e'.fault = some f) ∧
    (∀ f m', e.machine.tick e.table e.noise.current = .fault f m' → ∃ e', e.step = .fault f e') ∧
    (∀ operation e', (e.perform operation).state? = some e' →
      e.state = .paused → e'.state = .running → operation = .setState .running) ∧
    e.state = lastState events ∧
    1 ≤ e.clockSpeed ∧ e.perform (.setClockSpeed 0) = .fault (.invalidClockSpeed 0) e := by
  have he := h.records
  refine ⟨he.paused_of_fault, he.fault_eq, fun f e' => he.step_fault,
    fun f m' => step_of_tick_fault, ?_, he.state_eq, ?_, rfl⟩
  · intro operation e' hleft hpaused hrunning
    have he' := he.perform hleft
    exact operation_of_lastState (he.state_eq.symm.trans hpaused) (he'.state_eq.symm.trans hrunning)
  · have hzero : e.clockSpeed.toNat ≠ 0 := fun hzero =>
      he.clockSpeed_ne_zero (UInt32.toNat_inj.mp hzero)
    exact UInt32.le_iff_toNat_le.mpr (Nat.one_le_iff_ne_zero.mpr hzero)

/-- A return with nothing on the stack stops the engine, which remembers why, whatever is done
to its clock and its keys afterwards. -/
theorem underflow_remembered :
    let new := start default (Journal.ofCapacity 0) ⟨fun _ => 0, 0⟩
    let underflow := Fault.stackUnderflow programStart
    ∃ e, History new
        [⟨.change fun m => m.setV 3 7, none⟩,
          ⟨.setClockSpeed 0, some (.invalidClockSpeed 0)⟩,
          ⟨.step, some underflow⟩,
          ⟨.setState .running, none⟩,
          ⟨.load [0x00, 0xee] programStart, none⟩] e ∧
      e.fault = some underflow ∧ e.state = .paused := by
  intro new underflow
  have hload : new.load [0x00, 0xee] programStart = _ := new.load_of_le (by decide)
  generalize hloaded : Engine.mk _ _ _ _ _ _ _ _ _ _ = loaded at hload
  have hfault : (loaded.setState .running).step.fault? = some underflow := by
    rw [← hloaded]
    decide +kernel
  obtain ⟨stopped, hstep⟩ := Outcome.eq_fault_of_fault? hfault
  have hran := (History.start.done (.load [0x00, 0xee] programStart) hload).done
    (.setState .running) rfl
  have hstopped := (hran.failed .step hstep).failed (.setClockSpeed 0) rfl
  have hchanged := hstopped.done (.change fun m => m.setV 3 7) rfl
  obtain ⟨hpaused, hknown, -⟩ := history_fault hchanged
  exact ⟨_, hchanged, hknown, hpaused (by rw [hknown]; exact nofun)⟩

end Engine

end Chip8
