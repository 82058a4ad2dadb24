import Chip8.Proofs.Reader
import Chip8.Proofs.Schedule

/-!
# Hooks that follow a script

A hook gets the whole engine. What it is meant to do with it is a script (`Script`): it may look at
the machine, the table, the state and the fault, and go on as it likes with what it sees; it may
perform operations of the engine, one after the other, and learns what fault each of them ends with;
and it may write to the journal, which is one of the operations. A script has no way to find out the
clock speed, whether instructions are logged, or what became of an entry.

> `scripted_apply`: what commands do by themselves is scripted;
>
> `run_extends`: a script makes the journal longer at most, and leaves the timer rate alone.
-/

namespace Chip8

/-- What a script can see of an engine. -/
structure Engine.Sight where
  machine : Machine
  table : Table
  state : RunState
  fault : Option Fault

/-- What is to be seen of an engine. -/
def Engine.sight (e : Engine) : Engine.Sight := ⟨e.machine, e.table, e.state, e.fault⟩

/-- What a hook does with an engine, step by step. -/
inductive Script (σ : Type) where
  /-- Ends, and keeps something. -/
  | stop (kept : σ) (ending : Ending)
  /-- Looks at the engine and goes on with what it sees. -/
  | look (next : Engine.Sight → Script σ)
  /-- Performs an operation and goes on with the fault that it ends with. If it crashes, something
  is kept. -/
  | perform (operation : Operation) (kept : σ) (next : Option Fault → Script σ)

namespace Script

variable {σ : Type}

/-- Follows a script. A crash of an operation is a panic, and the engine is the one from before the
operation, as with the commands themselves (`Engine.apply`). -/
def run (e : Engine) : Script σ → σ × Engine × Ending
  | stop kept ending => (kept, e, ending)
  | look next => (next e.sight).run e
  | perform operation kept next =>
    match e.perform operation with
    | .done e' => (next none).run e'
    | .fault f e' => (next (some f)).run e'
    | .crash => (kept, e, .panicked (some "attempt to add with overflow"))

/-- Logs something as the service and ends. -/
def report (kept : σ) (level : Journal.Level) (message : String) : Script σ :=
  .perform (.log level "daemon" message) kept fun _ => .stop kept .returned

/-- What a command does with the keys of a machine. -/
def strike (kept : σ) (stroke : Machine → Except Fault (Machine × Bool)) : Script σ :=
  .look fun sight =>
    match stroke sight.machine with
    | .ok (machine, _) => .perform (.change fun _ => machine) kept fun _ => .stop kept .returned
    | .error f => report kept .warn f.message

/-- What a command does by itself. -/
def ofCommand (kept : σ) : Command → Script σ
  | .load program address => .perform (.load program address) kept fun
    | none => report kept .info
        ("loaded " ++ Text.decimal program.length ++ " bytes at " ++ Text.lowerHex 3 address.toNat)
    | some f => report kept .error f.message
  | .run => .perform (.setState .running) kept fun _ => report kept .info "running"
  | .pause => .perform (.setState .paused) kept fun _ => report kept .info "paused"
  | .keyDown key => strike kept fun m => m.press key.toNat
  | .keyUp key => strike kept fun m => m.release key.toNat
  | .setClockSpeed speed => .perform (.setClockSpeed speed) kept fun
    | none => report kept .info ("clock speed " ++ Text.decimal speed.toNat ++ " Hz")
    | some f => report kept .warn f.message
  | .reset => .perform .reset kept fun _ => report kept .info "reset"
  | .step => .perform .step kept fun _ => .stop kept .returned
  | .custom .. => .stop kept .returned

theorem run_strike (e : Engine) (kept : σ) (stroke : Machine → Except Fault (Machine × Bool)) :
    (strike kept stroke).run e = (kept, e.withKeys (stroke e.machine), .returned) := by
  rw [strike, run]
  dsimp only [Engine.sight]
  cases stroke e.machine with
  | ok | error => rfl

theorem apply_eq_obey {command : Command} (h : command ≠ .step) (e : Engine) :
    Engine.apply command e = (e.obey command, .returned) := by
  cases command with
  | step => exact absurd rfl h
  | _ => rfl

theorem run_ofCommand (e : Engine) (kept : σ) (command : Command) :
    (ofCommand kept command).run e = (kept, Engine.apply command e) := by
  by_cases hstep : command = .step
  · rw [hstep, Engine.apply, ofCommand, run, Engine.perform]
    cases e.step with
    | done | fault | crash => rfl
  · rw [apply_eq_obey hstep]
    cases command with
    | load program address =>
      rw [Engine.obey, ofCommand, run, Engine.perform]
      rcases Nat.lt_or_ge 4096 (program.length + address.toNat) with hlarge | hfits
      · rw [e.load_of_lt hlarge]
        rfl
      · rw [e.load_of_le hfits]
        rfl
    | keyDown key | keyUp key => rw [Engine.obey, ofCommand, run_strike]
    | setClockSpeed speed =>
      rw [Engine.obey, ofCommand, run, Engine.perform]
      cases e.setClockSpeed speed with
      | ok | error => rfl
    | run | pause | reset | custom => rfl
    | step => exact absurd rfl hstep

end Script

/-! ## What scripts leave alone -/

namespace Engine

variable {e e' : Engine}

theorem logNext_extends (e : Engine) : e.journal.Extends e.logNext.journal := by
  unfold logNext
  split
  · exact Journal.extends_log ..
  · exact .refl _

theorem noteFault_extends (e : Engine) (f : Fault) :
    e.journal.Extends (e.noteFault f).journal := by
  unfold noteFault
  split
  · exact Journal.extends_log ..
  · exact .refl _

theorem step_extends (h : e.step.state? = some e') : e.journal.Extends e'.journal := by
  have hlog := e.logNext_extends
  unfold step at h
  dsimp only at h
  generalize e.logNext = logged at hlog h
  cases htick : logged.machine.tick logged.table logged.noise.current with
  | done machine =>
    rw [htick] at h
    obtain rfl := Option.some.inj h
    exact hlog
  | fault f machine =>
    rw [htick] at h
    obtain rfl := Option.some.inj h
    exact hlog.trans (noteFault_extends _ f)
  | crash =>
    rw [htick] at h
    exact nomatch h

/-- Operations add to the journal and do nothing else to it, and they keep the timer rate. -/
theorem perform_extends {operation : Operation} (h : (e.perform operation).state? = some e') :
    e.journal.Extends e'.journal ∧ e'.timerRate = e.timerRate := by
  cases operation with
  | step => exact ⟨step_extends h, step_timerRate h⟩
  | load program address =>
    refine ⟨?_, load_timerRate h⟩
    dsimp only [perform] at h
    rcases Nat.lt_or_ge 4096 (program.length + address.toNat) with hlarge | hfits
    · rw [load_of_lt _ hlarge] at h
      obtain rfl := Option.some.inj h
      exact .refl _
    · rw [load_of_le _ hfits] at h
      obtain rfl := Option.some.inj h
      exact .refl _
  | setClockSpeed speed =>
    dsimp only [perform, setClockSpeed] at h
    by_cases hspeed : speed = 0
    · rw [if_pos hspeed] at h
      obtain rfl := Option.some.inj h
      exact ⟨.refl _, rfl⟩
    · rw [if_neg hspeed] at h
      obtain rfl := Option.some.inj h
      exact ⟨.refl _, rfl⟩
  | log level source message =>
    obtain rfl := Option.some.inj h
    exact ⟨Journal.extends_log .., rfl⟩
  | setState | reset | change =>
    obtain rfl := Option.some.inj h
    exact ⟨.refl _, rfl⟩

end Engine

theorem Script.run_extends {σ : Type} (script : Script σ) (e : Engine) :
    e.journal.Extends (script.run e).2.1.journal ∧ (script.run e).2.1.timerRate = e.timerRate := by
  induction script generalizing e with
  | stop kept ending => exact ⟨.refl _, rfl⟩
  | look next ih => exact ih _ e
  | perform operation kept next ih =>
    have hperform {e' : Engine} (h : (e.perform operation).state? = some e') :=
      Engine.perform_extends h
    rw [run]
    generalize e.perform operation = ended at hperform
    cases ended with
    | done e' =>
      obtain ⟨hjournal, hrate⟩ := hperform rfl
      exact ⟨hjournal.trans (ih none e').1, (ih none e').2.trans hrate⟩
    | fault f e' =>
      obtain ⟨hjournal, hrate⟩ := hperform rfl
      exact ⟨hjournal.trans (ih (some f) e').1, (ih (some f) e').2.trans hrate⟩
    | crash => exact ⟨.refl _, rfl⟩

/-! ## Hooks -/

namespace Hook

variable {σ : Type} {h : Hook σ}

/-- A hook that does what a script says, which may depend on the command, on what the hook keeps and
on what all hooks share. -/
def Scripted (h : Hook σ) : Prop :=
  ∃ script : Store σ → Command → Script (Store σ), ∀ store command e,
    h.act.run store command e = (script store command).run e

theorem scripted_apply [Inhabited σ] : (ofAction Engine.apply : Hook σ).Scripted :=
  ⟨Script.ofCommand, fun store command e => (Script.run_ofCommand e store command).symm⟩

/-- Calls of a hook do not change its script. -/
theorem Scripted.of_descends {h' : Hook σ} (hscripted : h.Scripted) (hd : h.Descends h') :
    h'.Scripted := by
  induction hd with
  | refl => exact hscripted
  | call _ hc ih =>
    obtain ⟨shared, e, rfl⟩ := hc
    exact ih

theorem Scripted.keepsRate (hscripted : h.Scripted) : h.KeepsRate := by
  obtain ⟨script, hact⟩ := hscripted
  intro store command e
  rw [hact]
  exact ((script store command).run_extends e).2

theorem Scripted.callLogged_extends (hscripted : h.Scripted) (command : Command) (shared : σ)
    (e : Engine) : e.journal.Extends (h.callLogged command shared e).2.2.journal := by
  obtain ⟨script, hact⟩ := hscripted
  have hrun := ((script ⟨shared, h.kept⟩ command).run_extends e).1
  unfold callLogged call
  rw [hact]
  generalize (script ⟨shared, h.kept⟩ command).run e = result at hrun
  obtain ⟨store, e', ending⟩ := result
  cases ending with
  | returned => exact hrun
  | panicked reason => exact hrun.trans (Journal.extends_log ..)

end Hook

end Chip8
