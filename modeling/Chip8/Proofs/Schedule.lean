import Chip8.Proofs.History
import Chip8.Proofs.Hooks
import Mathlib.Logic.Function.Basic

/-!
# The order of commands

Callers send commands when they like, and the worker gets to them when it does. A bench has
neither queue nor worker, only an engine, the hooks of each kind and what they share (`Bench`). On a
bench one command is applied after the other, and all that may come in between are steps of the
engine while it runs (`Bench.Interleaving`).

The service is always where a bench can be (`Service.Mirrors`), in the middle of a command too: then
some of the command's hooks were called on the bench, and the others are due. `Service.Advance`
lists what the worker can do with one move. None of this takes the service away from the bench, or
changes the commands that are finished followed by those ahead (`Tracks.advance`), so

> `commands_in_order`: all commands are applied once and in the order in which they were sent.
> As long as the engine does not run, nothing else happens to it, so the commands alone decide
> what becomes of it.

The steps of the worker also make the timers count, of which a bench has no notion. With a timer
rate of zero they stand still, and no hook can start them: an engine offers no way to change the
rate (`Hook.KeepsRate`).
-/

namespace Chip8

/-! ## The timer rate -/

namespace Engine

theorem passTime_zero (e : Engine) : e.passTime 0 = e := by
  have hcount (timer : UInt8) : Machine.countDown 0 timer = timer := UInt8.ofNat_toNat
  rw [passTime, Machine.passTime, hcount, hcount]

theorem step_timerRate {e e' : Engine} (h : e.step.state? = some e') :
    e'.timerRate = e.timerRate := by
  have hcase := e.step_case
  generalize e.step = ended at h hcase
  cases hcase with
  | done | stops | complains =>
    obtain rfl := Option.some.inj h
    rfl
  | crashes => exact nomatch h

theorem load_timerRate {e e' : Engine} {program : List UInt8} {address : UInt16}
    (h : (e.load program address).state? = some e') : e'.timerRate = e.timerRate := by
  rcases Nat.lt_or_ge 4096 (program.length + address.toNat) with hlarge | hfits
  · rw [e.load_of_lt hlarge] at h
    obtain rfl := Option.some.inj h
    rfl
  · rw [e.load_of_le hfits] at h
    obtain rfl := Option.some.inj h
    rfl

theorem withKeys_timerRate (e : Engine) (result : Except Fault (Machine × Bool)) :
    (e.withKeys result).timerRate = e.timerRate := by
  cases result with
  | ok | error => rfl

theorem obey_timerRate (e : Engine) (command : Command) :
    (e.obey command).timerRate = e.timerRate := by
  cases command with
  | load program address =>
    have hload {e' : Engine} (h : (e.load program address).state? = some e') := load_timerRate h
    rw [obey]
    generalize e.load program address = ended at hload
    cases ended with
    | done loaded =>
      change loaded.timerRate = e.timerRate
      exact hload rfl
    | fault f cleared =>
      change cleared.timerRate = e.timerRate
      exact hload rfl
    | crash => rfl
  | keyDown | keyUp => exact e.withKeys_timerRate _
  | setClockSpeed speed =>
    rw [obey, setClockSpeed]
    by_cases hspeed : speed = 0
    · rw [if_pos hspeed]
      rfl
    · rw [if_neg hspeed]
      rfl
  | _ => rfl

theorem apply_timerRate (e : Engine) (command : Command) :
    (apply command e).1.timerRate = e.timerRate := by
  cases command with
  | step =>
    have hstep {e' : Engine} (h : e.step.state? = some e') := step_timerRate h
    rw [apply]
    generalize e.step = ended at hstep
    cases ended with
    | done stepped => exact hstep rfl
    | fault f stepped => exact hstep rfl
    | crash => rfl
  | _ => exact e.obey_timerRate _

end Engine

/-! ## Calling hooks -/

namespace Hook

variable {σ : Type} {h : Hook σ} {hs : List (Hook σ)}

/-- A hook that leaves the timer rate of an engine alone. -/
def KeepsRate (h : Hook σ) : Prop :=
  ∀ store command e, (h.act.run store command e).2.1.timerRate = e.timerRate

theorem keepsRate_apply [Inhabited σ] : (ofAction Engine.apply : Hook σ).KeepsRate :=
  fun _ command e => e.apply_timerRate command

theorem KeepsRate.callLogged (hrate : h.KeepsRate) (command : Command) (shared : σ) (e : Engine) :
    (h.callLogged command shared e).1.KeepsRate ∧
      (h.callLogged command shared e).2.2.timerRate = e.timerRate := by
  have hact := hrate ⟨shared, h.kept⟩ command e
  unfold Hook.callLogged call
  generalize h.act.run ⟨shared, h.kept⟩ command e = result at hact
  obtain ⟨store, e', ending⟩ := result
  cases ending with
  | returned | panicked => exact ⟨hrate, hact⟩

theorem callAll_keepsRate (hrate : ∀ h ∈ hs, h.KeepsRate) (command : Command) (shared : σ)
    (e : Engine) :
    (∀ h ∈ (callAll command hs shared e).1, h.KeepsRate) ∧
      (callAll command hs shared e).2.2.timerRate = e.timerRate := by
  induction hs generalizing shared e with
  | nil => exact ⟨nofun, rfl⟩
  | cons h hs ih =>
    rw [List.forall_mem_cons] at hrate
    obtain ⟨hfirst, hlogged⟩ := hrate.1.callLogged command shared e
    rw [callAll_cons]
    generalize h.callLogged command shared e = next at hfirst hlogged ⊢
    obtain ⟨h', shared', e'⟩ := next
    obtain ⟨hcalled, hengine⟩ := ih hrate.2 shared' e'
    exact ⟨List.forall_mem_cons.mpr ⟨hfirst, hcalled⟩, hengine.trans hlogged⟩

end Hook

/-! ## The bench -/

/-- An engine, the hooks of each kind, and what these share. -/
structure Bench (σ : Type) where
  engine : Engine
  shared : σ
  hooks : CommandKind → List (Hook σ)

namespace Bench

variable {σ : Type} {b b' : Bench σ} {command : Command}

/-- Applies a command: calls its hooks, or warns that there are none. -/
def apply (b : Bench σ) (command : Command) : Bench σ :=
  match b.hooks command.kind with
  | [] =>
    { b with
      engine := b.engine.log .warn "daemon" ("no handler for " ++ command.kind.describe) }
  | due =>
    let (called, shared, engine) := Hook.callAll command due b.shared b.engine
    { engine, shared, hooks := Function.update b.hooks command.kind called }

/-- Applies one command after the other. -/
def applyAll (b : Bench σ) (commands : List Command) : Bench σ := commands.foldl apply b

/-- Where a bench gets to by applying commands in order, if its engine may make steps in between
while it runs. -/
inductive Interleaving (b : Bench σ) : List Command → Bench σ → Prop where
  | start : Interleaving b [] b
  | command {done : List Command} {b' : Bench σ} (h : Interleaving b done b') (command : Command) :
    Interleaving b (done ++ [command]) (b'.apply command)
  | step {done : List Command} {b' : Bench σ} (h : Interleaving b done b') {e : Engine}
    (hrunning : b'.engine.state = .running) (hstep : b'.engine.step.state? = some e) :
    Interleaving b done { b' with engine := e }

/-- A bench without timers, on which nothing starts them. -/
structure Untimed (b : Bench σ) : Prop where
  rate_eq : b.engine.timerRate = 0
  keepsRate : ∀ kind, ∀ h ∈ b.hooks kind, h.KeepsRate

theorem apply_of_nil (hnil : b.hooks command.kind = []) :
    b.apply command =
      { b with
        engine := b.engine.log .warn "daemon" ("no handler for " ++ command.kind.describe) } := by
  rw [apply, hnil]

theorem apply_of_ne_nil (hne : b.hooks command.kind ≠ []) :
    b.apply command =
      { engine := (Hook.callAll command (b.hooks command.kind) b.shared b.engine).2.2
        shared := (Hook.callAll command (b.hooks command.kind) b.shared b.engine).2.1
        hooks := Function.update b.hooks command.kind
          (Hook.callAll command (b.hooks command.kind) b.shared b.engine).1 } := by
  unfold apply
  split
  next hnil => exact absurd hnil hne
  next => rfl

theorem applyAll_concat (b : Bench σ) (commands : List Command) (command : Command) :
    b.applyAll (commands ++ [command]) = (b.applyAll commands).apply command :=
  List.foldl_concat ..

theorem Untimed.apply (h : b.Untimed) (command : Command) : (b.apply command).Untimed := by
  by_cases hnil : b.hooks command.kind = []
  · rw [apply_of_nil hnil]
    exact ⟨h.rate_eq, h.keepsRate⟩
  · -- The hooks that come back do the same as before, only what they keep is new.
    rw [apply_of_ne_nil hnil]
    obtain ⟨hcalled, hengine⟩ := Hook.callAll_keepsRate (h.keepsRate _) command b.shared b.engine
    refine ⟨hengine.trans h.rate_eq, fun kind => ?_⟩
    by_cases hkind : kind = command.kind
    · subst hkind
      dsimp only
      rw [Function.update_self]
      exact hcalled
    · dsimp only
      rw [Function.update_of_ne hkind]
      exact h.keepsRate kind

theorem Untimed.step (h : b.Untimed) {e : Engine} (hstep : b.engine.step.state? = some e) :
    Untimed { b with engine := e } :=
  ⟨(Engine.step_timerRate hstep).trans h.rate_eq, h.keepsRate⟩

/-- Without a chance to run, the engine makes no steps. -/
theorem Interleaving.eq_applyAll {commands : List Command} (h : b.Interleaving commands b')
    (hpaused : ∀ done, done <+: commands → (b.applyAll done).engine.state = .paused) :
    b' = b.applyAll commands := by
  induction h with
  | start => rfl
  | @command done b' _ command ih =>
    have hdone : done <+: done ++ [command] := List.prefix_append _ _
    rw [applyAll_concat, ih fun earlier hle => hpaused earlier (hle.trans hdone)]
  | @step done _ _ _ hrunning _ ih =>
    -- The engine would have had to run after these commands.
    rw [ih hpaused, hpaused done (List.prefix_refl _)] at hrunning
    exact nomatch hrunning

end Bench

/-! ## The registry, kind by kind -/

namespace Registry

variable {σ : Type} (r : Registry σ) (kind : CommandKind)

theorem hooks_without_eq : (r.without kind).hooks = Function.update r.hooks kind [] := by
  funext k
  rw [hooks_without, Function.update_apply]
  by_cases hk : kind = k
  · rw [if_pos hk, if_pos hk.symm]
  · rw [if_neg hk, if_neg (Ne.symm hk)]

theorem hooks_putBack_eq (called : List (Hook σ)) :
    (r.putBack kind called).hooks = Function.update r.hooks kind (called ++ r.hooks kind) := by
  funext k
  rw [hooks_putBack, Function.update_apply]
  by_cases hk : kind = k
  · rw [if_pos hk, if_pos hk.symm, hk]
  · rw [if_neg hk, if_neg (Ne.symm hk), List.nil_append]

end Registry

namespace Service

variable {σ : Type} {s : Service σ}

/-! ## One move of the worker -/

/-- What the worker can do with one move. -/
inductive Advance (s : Service σ) : Service σ → Prop where
  | drains (hphase : s.phase = .polling) (hqueue : s.queue = []) :
    Advance s { s with phase := .drained }
  | warns {command : Command} {rest : List Command} (hphase : s.phase = .polling)
    (hqueue : s.queue = command :: rest) (hnil : s.registry.hooks command.kind = []) :
    Advance s
      { s with
        queue := rest
        engine := s.engine.log .warn "daemon" ("no handler for " ++ command.kind.describe) }
  | begins {command : Command} {rest : List Command} (hphase : s.phase = .polling)
    (hqueue : s.queue = command :: rest) (hne : s.registry.hooks command.kind ≠ []) :
    Advance s
      { s with
        queue := rest
        registry := s.registry.without command.kind
        phase := .applying command [] (s.registry.hooks command.kind) }
  | calls {command : Command} {called due : List (Hook σ)} {h : Hook σ}
    (hphase : s.phase = .applying command called (h :: due)) :
    Advance s
      { s with
        engine := (h.callLogged command s.shared s.engine).2.2
        shared := (h.callLogged command s.shared s.engine).2.1
        phase := .applying command (called ++ [(h.callLogged command s.shared s.engine).1]) due }
  | finishes {command : Command} {called : List (Hook σ)}
    (hphase : s.phase = .applying command called []) :
    Advance s { s with registry := s.registry.putBack command.kind called, phase := .polling }
  | steps {e : Engine} (hphase : s.phase = .drained) (hrunning : s.engine.state = .running)
    (hstep : s.engine.step.state? = some e) :
    Advance s { s with engine := e, phase := .polling }.settleCredit
  | crashes (hphase : s.phase = .drained) (hrunning : s.engine.state = .running) :
    Advance s { s with phase := .ended }
  | rests (hphase : s.phase = .drained) (hpaused : s.engine.state = .paused) :
    Advance s { s with phase := .polling, credit := 0 }
  | ended (hphase : s.phase = .ended) : Advance s s

theorem advance_of_nil (hphase : s.phase = .polling) (hqueue : s.queue = []) :
    s.advance = { s with phase := .drained } := by
  obtain ⟨engine, shared, queue, registry, address, phase, credit⟩ := s
  obtain rfl : phase = .polling := hphase
  obtain rfl : queue = [] := hqueue
  rfl

theorem advance_of_paused (hphase : s.phase = .drained) (hpaused : s.engine.state = .paused) :
    s.advance = { s with phase := .polling, credit := 0 } := by
  rw [advance, hphase]
  dsimp only
  rw [hpaused]

theorem advance_of_running (hphase : s.phase = .drained) (hrunning : s.engine.state = .running) :
    s.advance = s.execute := by
  rw [advance, hphase]
  dsimp only
  rw [hrunning]

theorem advance_of_ended (hphase : s.phase = .ended) : s.advance = s := by
  rw [advance, hphase]

theorem advance_case (s : Service σ) : s.Advance s.advance := by
  cases hphase : s.phase with
  | polling =>
    cases hqueue : s.queue with
    | nil =>
      rw [advance_of_nil hphase hqueue]
      exact .drains hphase hqueue
    | cons command rest =>
      rw [advance_of_command hphase hqueue]
      by_cases hnil : s.registry.hooks command.kind = []
      · rw [begin_of_nil (s := { s with queue := rest }) hnil]
        exact .warns hphase hqueue hnil
      · rw [begin_of_ne_nil (s := { s with queue := rest }) hnil]
        exact .begins hphase hqueue hnil
  | applying command called due =>
    cases due with
    | nil =>
      rw [advance_of_none_due hphase]
      exact .finishes hphase
    | cons h due =>
      rw [advance_of_due hphase, callHook_eq]
      exact .calls hphase
  | drained =>
    cases hstate : s.engine.state with
    | paused =>
      rw [advance_of_paused hphase hstate]
      exact .rests hphase hstate
    | running =>
      -- A failed step is a step too, and its fault is in the engine.
      rw [advance_of_running hphase hstate]
      unfold execute
      split
      next hstep => exact .steps hphase hstate (congrArg Outcome.state? hstep)
      next hstep => exact .steps hphase hstate (congrArg Outcome.state? hstep)
      next => exact .crashes hphase hstate
  | ended =>
    rw [advance_of_ended hphase]
    exact .ended hphase

/-! ## Queue and commands -/

/-- The command that the worker takes out of the queue with its next move, if it takes one. -/
def taken? (s : Service σ) : Option Command :=
  match s.phase with
  | .polling => s.queue.head?
  | _ => none

/-- The command that is being applied. -/
def current? (s : Service σ) : Option Command :=
  match s.phase with
  | .applying command _ _ => some command
  | _ => none

/-- The commands that are not finished: the one that is being applied, and those in the queue. -/
def ahead (s : Service σ) : List Command := s.current?.toList ++ s.queue

/-- The commands that callers send in a run, in order. -/
def sent : List (Move σ) → List Command
  | [] => []
  | .send command :: rest => command :: sent rest
  | _ :: rest => sent rest

/-- The commands that the worker applies in a run, in order. -/
def applied (s : Service σ) : List (Move σ) → List Command
  | [] => []
  | .advance :: rest => s.taken?.toList ++ s.advance.applied rest
  | move :: rest => (s.make move).applied rest

theorem taken?_of_polling (hphase : s.phase = .polling) : s.taken? = s.queue.head? := by
  rw [taken?, hphase]

theorem taken?_of_ne_polling (hphase : s.phase ≠ .polling) : s.taken? = none := by
  unfold taken?
  split
  next hpolling => exact absurd hpolling hphase
  next => rfl

theorem current?_of_applying {command : Command} {called due : List (Hook σ)}
    (hphase : s.phase = .applying command called due) : s.current? = some command := by
  rw [current?, hphase]

/-- The worker takes commands out of the queue at its front. -/
theorem advance_queue (s : Service σ) : s.taken?.toList ++ s.advance.queue = s.queue := by
  have hcase := s.advance_case
  generalize s.advance = t at hcase
  cases hcase with
  | drains hphase hqueue =>
    rw [taken?_of_polling hphase, hqueue]
    rfl
  | warns hphase hqueue | begins hphase hqueue =>
    rw [taken?_of_polling hphase, hqueue]
    rfl
  | calls hphase | finishes hphase | steps hphase | crashes hphase | rests hphase | ended hphase =>
    rw [taken?_of_ne_polling (by rw [hphase]; exact nofun)]
    rfl

/-- Applied commands and queue are the first queue and what was sent. -/
theorem play_queue (s : Service σ) (moves : List (Move σ)) :
    s.applied moves ++ (s.play moves).queue = s.queue ++ sent moves := by
  induction moves generalizing s with
  | nil => exact (List.append_nil _).symm
  | cons move rest ih =>
    cases move with
    | send command =>
      refine (ih (s.send command)).trans ?_
      rw [send, sendAll, List.append_assoc]
      rfl
    | register kind h => exact ih (s.register kind h)
    | advance =>
      calc
        s.applied (.advance :: rest) ++ (s.play (.advance :: rest)).queue
        _ = s.taken?.toList ++ (s.advance.applied rest ++ (s.advance.play rest).queue) :=
          List.append_assoc ..
        _ = s.taken?.toList ++ (s.advance.queue ++ sent rest) := by rw [ih]
        _ = s.queue ++ sent rest := by rw [← List.append_assoc, advance_queue]

/-! ## Service and bench -/

/-- A service without queue and worker. -/
def bench (s : Service σ) : Bench σ := ⟨s.engine, s.shared, s.registry.hooks⟩

/-- The service is where a bench is, apart from the command that is being applied: some of its
hooks were called on the bench, and the others are due. If the worker is gone, the engine was to
make a step. -/
inductive Mirrors (s : Service σ) (b : Bench σ) : Prop where
  | between (hidle : s.current? = none) (hbench : s.bench = b)
    (hended : s.phase = .ended → s.engine.state = .running)
  | during {command : Command} {called due before : List (Hook σ)}
    (hphase : s.phase = .applying command called due)
    (hsplit : b.hooks command.kind = before ++ due) (hne : b.hooks command.kind ≠ [])
    (hcalled : Hook.callAll command before b.shared b.engine = (called, s.shared, s.engine))
    (hhooks : s.registry.hooks = Function.update b.hooks command.kind [])

/-- The service has applied some commands, which a bench can have done too. -/
structure Tracks (start : Bench σ) (finished : List Command) (s : Service σ) (b : Bench σ) :
    Prop where
  interleaving : start.Interleaving finished b
  mirrors : s.Mirrors b
  untimed : b.Untimed
  credit_eq : s.credit = 0

variable {start b : Bench σ} {finished : List Command}

theorem Mirrors.of_idle (h : s.Mirrors b) (hidle : s.current? = none) :
    s.bench = b ∧ (s.phase = .ended → s.engine.state = .running) := by
  cases h with
  | between _ hbench hended => exact ⟨hbench, hended⟩
  | during hphase => exact nomatch hidle.symm.trans (current?_of_applying hphase)

theorem Mirrors.of_applying (h : s.Mirrors b) {command : Command} {called due : List (Hook σ)}
    (hphase : s.phase = .applying command called due) :
    ∃ before, b.hooks command.kind = before ++ due ∧ b.hooks command.kind ≠ [] ∧
      Hook.callAll command before b.shared b.engine = (called, s.shared, s.engine) ∧
      s.registry.hooks = Function.update b.hooks command.kind [] := by
  cases h with
  | between hidle => exact nomatch hidle.symm.trans (current?_of_applying hphase)
  | during hphase' hsplit hne hcalled hhooks =>
    cases hphase.symm.trans hphase'
    exact ⟨_, hsplit, hne, hcalled, hhooks⟩

/-- Without a timer rate and without a credit nothing has to be settled. -/
theorem settleCredit_eq (hrate : s.engine.timerRate = 0) (hcredit : s.credit = 0) :
    s.settleCredit = s := by
  obtain ⟨engine, shared, queue, registry, address, phase, credit⟩ := s
  obtain rfl : credit = 0 := hcredit
  have hzero : engine.timerRate.toNat = 0 := congrArg UInt32.toNat hrate
  rw [settleCredit]
  dsimp only
  rw [hzero, Nat.zero_add, Nat.zero_div, Nat.zero_mod, Engine.passTime_zero]

/-- With each move of the worker a bench can keep up. A command that was ahead is finished at most,
so all of them together stay the same. -/
theorem Tracks.advance (h : Tracks start finished s b) :
    ∃ finished' b', Tracks start finished' s.advance b' ∧
      finished' ++ s.advance.ahead = finished ++ s.ahead := by
  obtain ⟨hinter, hmirrors, huntimed, hcredit⟩ := h
  have hcase := s.advance_case
  generalize s.advance = t at hcase
  cases hcase with
  | drains hphase =>
    have hidle : s.current? = none := by rw [current?, hphase]
    obtain ⟨hbench, -⟩ := hmirrors.of_idle hidle
    refine ⟨finished, b, ⟨hinter, .between rfl hbench nofun, huntimed, hcredit⟩, ?_⟩
    rw [ahead, ahead, hidle]
    rfl
  | @warns command rest hphase hqueue hnil =>
    have hidle : s.current? = none := by rw [current?, hphase]
    obtain ⟨rfl, hended⟩ := hmirrors.of_idle hidle
    have happly := Bench.apply_of_nil (b := s.bench) hnil
    refine ⟨finished ++ [command], s.bench.apply command, ⟨hinter.command command,
      .between hidle happly.symm hended, huntimed.apply command, hcredit⟩, ?_⟩
    change finished ++ [command] ++ (s.current?.toList ++ rest) = _
    rw [ahead, hidle, hqueue, List.append_assoc]
    rfl
  | @begins command rest hphase hqueue hne =>
    have hidle : s.current? = none := by rw [current?, hphase]
    obtain ⟨rfl, -⟩ := hmirrors.of_idle hidle
    refine ⟨finished, s.bench, ⟨hinter, .during rfl (List.nil_append _).symm hne
      rfl (Registry.hooks_without_eq ..), huntimed, hcredit⟩, ?_⟩
    rw [ahead, ahead, hidle, hqueue]
    rfl
  | calls hphase =>
    obtain ⟨before, hsplit, hne, hcalled, hhooks⟩ := hmirrors.of_applying hphase
    refine ⟨finished, b, ⟨hinter, .during rfl (hsplit.trans ?_) hne
      (Hook.callAll_concat hcalled) hhooks, huntimed, hcredit⟩, ?_⟩
    · exact List.append_cons ..
    · rw [ahead, ahead, current?_of_applying hphase]
      rfl
  | @finishes command called hphase =>
    -- All hooks were called, so the bench is done with the command.
    obtain ⟨before, hsplit, hne, hcalled, hhooks⟩ := hmirrors.of_applying hphase
    rw [List.append_nil] at hsplit
    refine ⟨finished ++ [command], b.apply command, ⟨hinter.command command,
      .between rfl ?_ nofun, huntimed.apply command, hcredit⟩, ?_⟩
    · rw [Bench.apply_of_ne_nil hne, hsplit, hcalled, bench, Registry.hooks_putBack_eq, hhooks,
        Function.update_self, Function.update_idem, List.append_nil]
    · rw [ahead, ahead, current?_of_applying hphase, List.append_assoc]
      rfl
  | @steps e hphase hrunning hstep =>
    have hidle : s.current? = none := by rw [current?, hphase]
    obtain ⟨rfl, -⟩ := hmirrors.of_idle hidle
    have huntimed' := huntimed.step hstep
    rw [settleCredit_eq (s := { s with engine := e, phase := .polling }) huntimed'.rate_eq hcredit]
    refine ⟨finished, _, ⟨hinter.step hrunning hstep, .between rfl rfl nofun, huntimed', hcredit⟩,
      ?_⟩
    rw [ahead, ahead, hidle]
    rfl
  | crashes hphase hrunning =>
    have hidle : s.current? = none := by rw [current?, hphase]
    obtain ⟨hbench, -⟩ := hmirrors.of_idle hidle
    refine ⟨finished, b, ⟨hinter, .between rfl hbench fun _ => hrunning, huntimed, hcredit⟩, ?_⟩
    rw [ahead, ahead, hidle]
    rfl
  | rests hphase =>
    have hidle : s.current? = none := by rw [current?, hphase]
    obtain ⟨hbench, -⟩ := hmirrors.of_idle hidle
    refine ⟨finished, b, ⟨hinter, .between rfl hbench nofun, huntimed, rfl⟩, ?_⟩
    rw [ahead, ahead, hidle]
    rfl
  | ended => exact ⟨finished, b, ⟨hinter, hmirrors, huntimed, hcredit⟩, rfl⟩

theorem Tracks.send (h : Tracks start finished s b) (command : Command) :
    Tracks start finished (s.send command) b := by
  obtain ⟨hinter, hmirrors, huntimed, hcredit⟩ := h
  refine ⟨hinter, ?_, huntimed, hcredit⟩
  cases hmirrors with
  | between hidle hbench hended => exact .between hidle hbench hended
  | during hphase hsplit hne hcalled hhooks => exact .during hphase hsplit hne hcalled hhooks

theorem Tracks.play {moves : List (Move σ)} (h : Tracks start finished s b)
    (hfixed : ∀ kind, registered kind moves = []) :
    ∃ finished' b', Tracks start finished' (s.play moves) b' ∧
      finished' ++ (s.play moves).ahead = finished ++ s.ahead ++ sent moves := by
  induction moves generalizing s finished b with
  | nil => exact ⟨finished, b, h, (List.append_nil _).symm⟩
  | cons move rest ih =>
    cases move with
    | send command =>
      obtain ⟨finished', b', h', hahead⟩ := ih (h.send command) hfixed
      refine ⟨finished', b', h', hahead.trans ?_⟩
      have hsend : (s.send command).ahead = s.ahead ++ [command] := (List.append_assoc ..).symm
      rw [hsend, ← List.append_assoc, List.append_assoc]
      rfl
    | register kind hook =>
      have hkind := hfixed kind
      rw [registered, if_pos rfl] at hkind
      exact absurd hkind (List.cons_ne_nil _ _)
    | advance =>
      obtain ⟨finished₁, b₁, h₁, hahead₁⟩ := h.advance
      obtain ⟨finished₂, b₂, h₂, hahead₂⟩ := ih h₁ hfixed
      exact ⟨finished₂, b₂, h₂, hahead₂.trans (congrArg (· ++ sent rest) hahead₁)⟩

/-- Without steps, a service between two commands is where the commands lead. -/
theorem Tracks.bench_eq (h : Tracks start finished s b) (hidle : s.current? = none)
    (hpaused : ∀ done, done <+: finished → (start.applyAll done).engine.state = .paused) :
    s.bench = start.applyAll finished := by
  obtain ⟨hbench, -⟩ := h.mirrors.of_idle hidle
  rw [hbench, h.interleaving.eq_applyAll hpaused]

/-! ## Moves of the worker alone -/

theorem registered_replicate (kind : CommandKind) (n : Nat) :
    registered kind (List.replicate n (.advance : Move σ)) = [] := by
  induction n with
  | zero => rfl
  | succ n ih => exact ih

theorem sent_replicate (n : Nat) : sent (List.replicate n (.advance : Move σ)) = [] := by
  induction n with
  | zero => rfl
  | succ n ih => exact ih

/-- The worker by itself gets to the end of the queue. -/
def Empties (s : Service σ) : Prop :=
  ∃ n, (s.play (List.replicate n .advance)).phase = .polling ∧
    (s.play (List.replicate n .advance)).queue = []

theorem Empties.of_advance (h : s.advance.Empties) : s.Empties := by
  obtain ⟨n, hempty⟩ := h
  exact ⟨n + 1, hempty⟩

theorem empties_of_applying {command : Command} {called due : List (Hook σ)}
    (hphase : s.phase = .applying command called due)
    (hnext : ∀ t : Service σ, t.phase = .polling → t.queue = s.queue → t.Empties) : s.Empties := by
  refine .of_advance ?_
  induction due generalizing s called with
  | nil =>
    rw [advance_of_none_due hphase]
    exact hnext _ rfl rfl
  | cons h due ih =>
    rw [advance_of_due hphase, callHook_eq]
    exact .of_advance (ih rfl hnext)

theorem empties_of_polling (hphase : s.phase = .polling) : s.Empties := by
  generalize hqueue : s.queue = queue
  induction queue generalizing s with
  | nil => exact ⟨0, hphase, hqueue⟩
  | cons command rest ih =>
    refine .of_advance ?_
    rw [advance_of_command hphase hqueue]
    by_cases hnil : s.registry.hooks command.kind = []
    · rw [begin_of_nil (s := { s with queue := rest }) hnil]
      exact ih hphase rfl
    · rw [begin_of_ne_nil (s := { s with queue := rest }) hnil]
      exact empties_of_applying rfl fun t ht hqueue' => ih ht hqueue'

theorem empties_of_paused (hlives : s.phase ≠ .ended)
    (hpaused : s.phase = .drained → s.engine.state = .paused) : s.Empties := by
  cases hphase : s.phase with
  | polling => exact empties_of_polling hphase
  | applying => exact empties_of_applying hphase fun t ht _ => empties_of_polling ht
  | drained =>
    refine .of_advance ?_
    rw [advance_of_paused hphase (hpaused hphase)]
    exact empties_of_polling rfl
  | ended => exact absurd hphase hlives

/-- With nothing to do for it, a move of the worker does not touch a paused engine. -/
theorem advance_idle (hidle : s.current? = none) (hqueue : s.queue = [])
    (hpaused : s.engine.state = .paused) :
    s.advance.engine = s.engine ∧ s.advance.queue = [] ∧ s.advance.current? = none := by
  have hcase := s.advance_case
  generalize s.advance = t at hcase
  cases hcase with
  | drains | crashes | rests => exact ⟨rfl, hqueue, rfl⟩
  | ended => exact ⟨rfl, hqueue, hidle⟩
  | warns _ hqueue' | begins _ hqueue' => exact nomatch hqueue.symm.trans hqueue'
  | calls hphase | finishes hphase =>
    exact nomatch hidle.symm.trans (current?_of_applying hphase)
  | steps _ hrunning => exact nomatch hpaused.symm.trans hrunning

theorem play_idle (n : Nat) (hidle : s.current? = none) (hqueue : s.queue = [])
    (hpaused : s.engine.state = .paused) :
    (s.play (List.replicate n .advance)).engine = s.engine := by
  induction n generalizing s with
  | zero => rfl
  | succ n ih =>
    obtain ⟨hengine, hqueue', hidle'⟩ := advance_idle hidle hqueue hpaused
    exact (ih hidle' hqueue' (hengine ▸ hpaused)).trans hengine

/-! ## Runs from the start -/

/-- A service that has just started, with further hooks. -/
def startWith [Inhabited σ] (config : Config) (noise : Noise)
    (extra : List (CommandKind × Hook σ)) : Service σ :=
  extra.foldl (fun s entry => s.register entry.1 entry.2) (Service.start config noise)

theorem foldl_register (s : Service σ) (extra : List (CommandKind × Hook σ)) :
    extra.foldl (fun s entry => s.register entry.1 entry.2) s =
      { s with registry := ⟨s.registry.entries ++ extra⟩ } := by
  induction extra generalizing s with
  | nil => rw [List.foldl_nil, List.append_nil]
  | cons entry rest ih =>
    rw [List.foldl_cons, ih, register, Registry.add, List.append_assoc]
    rfl

theorem startWith_eq [Inhabited σ] (config : Config) (noise : Noise)
    (extra : List (CommandKind × Hook σ)) :
    startWith config noise extra =
      { Service.start config noise with registry := ⟨Registry.standard.entries ++ extra⟩ } :=
  foldl_register ..

theorem startWith_tracks [Inhabited σ] {config : Config} (hrate : config.timerRate = 0)
    (noise : Noise) {extra : List (CommandKind × Hook σ)}
    (hextra : ∀ entry ∈ extra, entry.2.KeepsRate) :
    Tracks (startWith config noise extra).bench [] (startWith config noise extra)
      (startWith config noise extra).bench := by
  rw [startWith_eq]
  refine ⟨.start, .between rfl rfl nofun, ⟨hrate, fun kind h hmem => ?_⟩, rfl⟩
  obtain ⟨entry, hentry, rfl⟩ := List.mem_map.mp hmem
  rcases List.mem_append.mp (List.mem_filter.mp hentry).1 with hstandard | hmem'
  · obtain ⟨kind', -, rfl⟩ := List.mem_map.mp hstandard
    exact Hook.keepsRate_apply
  · exact hextra entry hmem'

/-- What becomes of the commands in a run of a service with the timers off, in whatever order
callers send and the worker makes its moves. No hooks are registered during the run, and none
changes the timer rate, for which an engine offers no way.

* The commands that were applied and those that wait are those sent, in that order.
* The service is where a bench can be after the commands that were applied, if one step after the
  other comes in between while the engine runs, and only then.
* If the commands sent leave the engine paused at any time, when they are applied one after the
  other, there are no steps. Between two commands, engine and hooks are what the commands make of
  them, and when the worker has got to the end of the queue, as it does, only what was sent counts.
  An engine comes with all that was ever logged.
* With the engine paused and the queue empty, no move of the worker changes the engine. -/
theorem commands_in_order [Inhabited σ] {config : Config} (hrate : config.timerRate = 0)
    (noise : Noise) {extra : List (CommandKind × Hook σ)}
    (hextra : ∀ entry ∈ extra, entry.2.KeepsRate) {moves : List (Move σ)}
    (hfixed : ∀ kind, registered kind moves = []) :
    let s := startWith config noise extra
    let t := s.play moves
    s.applied moves ++ t.queue = sent moves ∧
    (∃ finished b, finished ++ t.current?.toList = s.applied moves ∧
      s.bench.Interleaving finished b ∧ t.Mirrors b) ∧
    ((∀ done, done <+: sent moves → (s.bench.applyAll done).engine.state = .paused) →
      (t.current? = none → t.bench = s.bench.applyAll (s.applied moves)) ∧
      ∃ n, let u := t.play (List.replicate n .advance)
        u.current? = none ∧ u.queue = [] ∧ u.bench = s.bench.applyAll (sent moves)) ∧
    (t.current? = none → t.queue = [] → t.engine.state = .paused →
      ∀ n, (t.play (List.replicate n .advance)).engine = t.engine) := by
  intro s t
  have hs : Tracks s.bench [] s s.bench := startWith_tracks hrate noise hextra
  have hstart : s.queue = [] ∧ s.ahead = [] := by
    have heq : s = _ := startWith_eq config noise extra
    rw [heq]
    exact ⟨rfl, rfl⟩
  have hqueue : s.applied moves ++ t.queue = sent moves := by
    rw [s.play_queue moves, hstart.1, List.nil_append]
  obtain ⟨finished, b, ht, hahead⟩ := hs.play hfixed
  have hall : finished ++ t.ahead = sent moves := by
    rwa [hstart.2, List.nil_append, List.nil_append] at hahead
  have hfinished : finished ++ t.current?.toList = s.applied moves := by
    have hboth : finished ++ t.current?.toList ++ t.queue = s.applied moves ++ t.queue := by
      rw [hqueue, ← hall, ahead, List.append_assoc]
    exact List.append_cancel_right hboth
  refine ⟨hqueue, ⟨finished, b, hfinished, ht.interleaving, ht.mirrors⟩, fun hpaused => ?_,
    fun hidle hempty hstate n => play_idle n hidle hempty hstate⟩
  have hpaused' (done) (hle : done <+: finished) := hpaused done (hle.trans ⟨t.ahead, hall⟩)
  constructor
  · intro hidle
    have hdone : finished = s.applied moves := by
      rw [hidle] at hfinished
      exact (List.append_nil _).symm.trans hfinished
    rw [← hdone]
    exact ht.bench_eq hidle hpaused'
  -- The worker goes on until the queue is empty, and a bench goes on with it.
  have hstate (hidle : t.current? = none) : t.engine.state = .paused := by
    have hbench : t.engine = _ := congrArg Bench.engine (ht.bench_eq hidle hpaused')
    rw [hbench]
    exact hpaused' finished (List.prefix_refl _)
  have hlives : t.phase ≠ .ended := fun hended => by
    have hidle : t.current? = none := by rw [current?, hended]
    obtain ⟨-, hrunning⟩ := ht.mirrors.of_idle hidle
    exact nomatch (hrunning hended).symm.trans (hstate hidle)
  obtain ⟨n, hphase, hempty⟩ := empties_of_paused hlives fun hdrained => hstate (by
    rw [current?, hdrained])
  have hidle : (t.play (List.replicate n .advance)).current? = none := by rw [current?, hphase]
  obtain ⟨finished', b', hu, hahead'⟩ := ht.play fun kind => registered_replicate kind n
  have hall' : finished' = sent moves := by
    rw [ahead, hidle, hempty, sent_replicate, hall] at hahead'
    simpa using hahead'
  refine ⟨n, hidle, hempty, ?_⟩
  rw [← hall'] at hpaused ⊢
  exact hu.bench_eq hidle hpaused

/-- A further hook sees a command that is sent while the engine is paused, before it is paused
once more. The second command comes when the worker is about to call the hook. -/
theorem poke_and_pause :
    let config : Config := { timerRate := 0 }
    let poke := Command.custom "poke" []
    let note (n : Nat) (_ : Command) (e : Engine) : Nat × Engine × Ending :=
      (n + 1, e.log .info "poke" "poked", .returned)
    let notes : Hook Nat := ⟨note, 0⟩
    let s := startWith config ⟨fun _ => 0, 0⟩ [(poke.kind, notes)]
    let moves := [.send poke, .advance, .send .pause, .advance, .advance]
    (s.play moves).queue = [.pause] ∧ s.applied moves = [poke] ∧
      (s.play moves).bench = s.bench.apply poke ∧
      ∃ n, let u := (s.play moves).play (List.replicate n .advance)
        u.queue = [] ∧ u.engine.state = .paused ∧
        u.engine.journal.history.map (·.message) = ["started", "poked", "paused"] := by
  intro config poke note notes s moves
  have hpaused (done) (hle : done <+: sent moves) :
      (s.bench.applyAll done).engine.state = .paused := by
    have hcases : done = [] ∨ ∃ rest, done = poke :: rest ∧ (rest = [] ∨ rest = [.pause]) := by
      simpa [List.prefix_cons_iff, moves, sent] using hle
    rcases hcases with rfl | ⟨rest, rfl, rfl | rfl⟩
    · rfl
    · decide +kernel
    · decide +kernel
  have hextra : ∀ entry ∈ [(poke.kind, notes)], entry.2.KeepsRate := by
    intro entry hmem
    obtain rfl := List.mem_singleton.mp hmem
    exact fun _ _ _ => rfl
  have hfixed : ∀ kind, registered kind moves = [] := fun _ => rfl
  have hrate : config.timerRate = 0 := rfl
  obtain ⟨-, -, hcommands, -⟩ := commands_in_order hrate ⟨fun _ => 0, 0⟩ hextra hfixed
  obtain ⟨hbetween, n, -, hempty, hbench⟩ := hcommands hpaused
  have happlied : s.applied moves = [poke] := by decide +kernel
  have hbench' := hbetween (by decide +kernel)
  rw [happlied] at hbench'
  have hend := hpaused _ (List.prefix_refl _)
  have hlogged : (s.bench.applyAll (sent moves)).engine.journal.history.map (·.message) =
    ["started", "poked", "paused"] := by decide +kernel
  refine ⟨by decide +kernel, happlied, hbench', n, hempty, ?_, ?_⟩
  · exact (congrArg (fun b => b.engine.state) hbench).trans hend
  · have hjournal := congrArg (fun b => b.engine.journal.history.map (·.message)) hbench
    exact hjournal.trans hlogged

end Service

end Chip8
