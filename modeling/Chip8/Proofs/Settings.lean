import Chip8.Proofs.Alike
import Chip8.Proofs.Reader
import Chip8.Proofs.Script

/-!
# What settings change

How fast the clock runs, whether instructions are logged, and how many entries the journal keeps:
with the timers off, none of this reaches the machine, the state or the fault. Two engines that
differ in these settings alone, and in what the journal holds because of them, `Agree`. Operations
take agreeing engines to agreeing engines and end in the same way (`perform_agree`), so scripts do
(`run_agree`), and services whose hooks follow scripts stay in `Lockstep`, whenever the readers of
their journals read or go away.

> `settings_unseen`: services that differ in these settings and in what their readers do have the
> same machine, state and fault all the time, and what the readers are given is accounted for.
-/

namespace Chip8

/-! ## Engines that agree -/

namespace Engine

/-- The second engine is the first with another clock, another journal, and instructions logged or
not. If `all` holds, clocks, logging and histories are the same, and only what the readers have not
read may differ. -/
structure Agree (all : Prop) (e e' : Engine) : Prop where
  rest : e' = { e with clockSpeed := e'.clockSpeed, traced := e'.traced, journal := e'.journal }
  settings : all → e'.clockSpeed = e.clockSpeed ∧ e'.traced = e.traced ∧
    e'.journal.past = e.journal.past

variable {all : Prop} {e e' e'' : Engine}

theorem Agree.exists_eq (h : e.Agree all e') : ∃ clockSpeed traced journal,
    e' = { e with clockSpeed, traced, journal } ∧
      (all → clockSpeed = e.clockSpeed ∧ traced = e.traced ∧ journal.past = e.journal.past) :=
  ⟨e'.clockSpeed, e'.traced, e'.journal, h.rest, h.settings⟩

theorem Agree.refl (e : Engine) : e.Agree all e := ⟨rfl, fun _ => ⟨rfl, rfl, rfl⟩⟩

theorem Agree.trans (h : e.Agree all e') (h' : e'.Agree all e'') : e.Agree all e'' := by
  obtain ⟨_, _, _, rfl, hsettings⟩ := h.exists_eq
  obtain ⟨_, _, _, rfl, hsettings'⟩ := h'.exists_eq
  refine ⟨rfl, fun hall => ?_⟩
  obtain ⟨hclock, htraced, hpast⟩ := hsettings hall
  obtain ⟨hclock', htraced', hpast'⟩ := hsettings' hall
  exact ⟨hclock'.trans hclock, htraced'.trans htraced, hpast'.trans hpast⟩

theorem Agree.symm (h : e.Agree all e') : e'.Agree all e := by
  obtain ⟨_, _, _, rfl, hsettings⟩ := h.exists_eq
  refine ⟨rfl, fun hall => ?_⟩
  obtain ⟨hclock, htraced, hpast⟩ := hsettings hall
  exact ⟨hclock.symm, htraced.symm, hpast.symm⟩

theorem Agree.machine (h : e.Agree all e') : e'.machine = e.machine := by rw [h.rest]

theorem Agree.state (h : e.Agree all e') : e'.state = e.state := by rw [h.rest]

theorem Agree.fault (h : e.Agree all e') : e'.fault = e.fault := by rw [h.rest]

theorem Agree.timerRate (h : e.Agree all e') : e'.timerRate = e.timerRate := by rw [h.rest]

theorem Agree.log (h : e.Agree all e') (level : Journal.Level) (source message : String) :
    (e.log level source message).Agree all (e'.log level source message) := by
  obtain ⟨_, _, _, rfl, hsettings⟩ := h.exists_eq
  refine ⟨rfl, fun hall => ?_⟩
  obtain ⟨hclock, htraced, hpast⟩ := hsettings hall
  exact ⟨hclock, htraced, congrArg (_ :: ·) hpast⟩

theorem Agree.logNext (h : e.Agree all e') : e.logNext.Agree all e'.logNext := by
  constructor
  · obtain ⟨_, hlogged⟩ := e.logNext_eq
    obtain ⟨_, hlogged'⟩ := e'.logNext_eq
    rw [hlogged, hlogged', h.rest]
  · intro hall
    obtain ⟨hclock, htraced, hpast⟩ := h.settings hall
    have htext : e'.traceText = e.traceText := by rw [h.rest]; rfl
    unfold Engine.logNext
    rw [htraced, h.machine, htext]
    split
    · exact (h.log _ _ _).settings hall
    · exact ⟨hclock, htraced, hpast⟩

theorem Agree.noteFault (h : e.Agree all e') (f : Fault) :
    (e.noteFault f).Agree all (e'.noteFault f) := by
  unfold Engine.noteFault
  split
  · have hlog := h.log .error "cpu" f.message
    exact ⟨by rw [hlog.rest], hlog.settings⟩
  · exact h

theorem step_agree (h : e.Agree all e') : e.step.Rel (Agree all) e'.step := by
  have hlog := h.logNext
  unfold step
  dsimp only
  generalize e.logNext = logged at hlog
  generalize e'.logNext = logged' at hlog
  obtain ⟨clockSpeed, traced, journal, rfl, hsettings⟩ := hlog.exists_eq
  dsimp only
  cases logged.machine.tick logged.table logged.noise.current with
  | done machine => exact .done ⟨rfl, hsettings⟩
  | fault f machine => exact .fault f (Agree.noteFault ⟨rfl, hsettings⟩ f)
  | crash => exact .crash

theorem perform_agree (h : e.Agree all e') (operation : Operation) :
    (e.perform operation).Rel (Agree all) (e'.perform operation) := by
  cases operation with
  | step => exact step_agree h
  | log level source message => exact .done (h.log level source message)
  | load program address =>
    obtain ⟨clockSpeed, traced, journal, rfl, hsettings⟩ := h.exists_eq
    dsimp only [perform]
    rcases Nat.lt_or_ge 4096 (program.length + address.toNat) with hlarge | hfits
    · rw [load_of_lt _ hlarge, load_of_lt _ hlarge]
      exact .fault _ ⟨rfl, hsettings⟩
    · rw [load_of_le _ hfits, load_of_le _ hfits]
      exact .done ⟨rfl, hsettings⟩
  | setClockSpeed speed =>
    obtain ⟨clockSpeed, traced, journal, rfl, hsettings⟩ := h.exists_eq
    dsimp only [perform, setClockSpeed]
    by_cases hspeed : speed = 0
    · rw [if_pos hspeed, if_pos hspeed]
      exact .fault _ ⟨rfl, hsettings⟩
    · rw [if_neg hspeed, if_neg hspeed]
      exact .done ⟨rfl, fun hall => ⟨rfl, (hsettings hall).2⟩⟩
  | setState | reset | change =>
    obtain ⟨clockSpeed, traced, journal, rfl, hsettings⟩ := h.exists_eq
    exact .done ⟨rfl, hsettings⟩

end Engine

namespace Script

variable {σ : Type} {all : Prop} {e e' : Engine}

/-- A script does the same with agreeing engines. -/
theorem run_agree (script : Script σ) (h : e.Agree all e') :
    (script.run e').1 = (script.run e).1 ∧ (script.run e).2.1.Agree all (script.run e').2.1 ∧
      (script.run e').2.2 = (script.run e).2.2 := by
  induction script generalizing e e' with
  | stop kept ending => exact ⟨rfl, h, rfl⟩
  | look next ih =>
    have hsight : e'.sight = e.sight := by rw [h.rest]; rfl
    rw [run, run, hsight]
    exact ih _ h
  | perform operation kept next ih =>
    have hperform := Engine.perform_agree h operation
    rw [run, run]
    generalize e.perform operation = ended at hperform
    generalize e'.perform operation = ended' at hperform
    cases hperform with
    | done h => exact ih none h
    | fault f h => exact ih (some f) h
    | crash => exact ⟨rfl, h, rfl⟩

end Script

namespace Hook

variable {σ : Type} {h : Hook σ} {all : Prop} {e e' : Engine}

/-- A scripted hook does the same with agreeing engines, also if it panics. -/
theorem Scripted.callLogged_agree (hscripted : h.Scripted) (command : Command) (shared : σ)
    (hagree : e.Agree all e') :
    (h.callLogged command shared e').1 = (h.callLogged command shared e).1 ∧
      (h.callLogged command shared e').2.1 = (h.callLogged command shared e).2.1 ∧
      (h.callLogged command shared e).2.2.Agree all (h.callLogged command shared e').2.2 := by
  obtain ⟨script, hact⟩ := hscripted
  have hrun := (script ⟨shared, h.kept⟩ command).run_agree hagree
  unfold callLogged call
  rw [hact, hact]
  generalize (script ⟨shared, h.kept⟩ command).run e = result at hrun
  generalize (script ⟨shared, h.kept⟩ command).run e' = result' at hrun
  obtain ⟨store, e₁, ending⟩ := result
  obtain ⟨store', e₁', ending'⟩ := result'
  obtain ⟨rfl, hagree', rfl⟩ := hrun
  cases ending' with
  | returned => exact ⟨rfl, rfl, hagree'⟩
  | panicked reason => exact ⟨rfl, rfl, hagree'.log ..⟩

end Hook

/-! ## Services in lockstep -/

namespace Service

variable {σ : Type} {all : Prop} {s s' s'' : Service σ}

/-- A service without timers, whose hooks follow scripts. -/
structure Quiet (s : Service σ) : Prop where
  credit_eq : s.credit = 0
  rate_eq : s.engine.timerRate = 0
  scripted : ∀ kind, ∀ h ∈ s.hooksOf kind, h.Scripted

theorem scripted_of_descends {hs hs' : List (Hook σ)} (hd : List.Forall₂ Hook.Descends hs hs')
    (hscripted : ∀ h ∈ hs, h.Scripted) : ∀ h ∈ hs', h.Scripted := by
  induction hd with
  | nil => exact nofun
  | cons hhead _ ih =>
    rw [List.forall_mem_cons] at hscripted ⊢
    exact ⟨hscripted.1.of_descends hhead, ih hscripted.2⟩

theorem Quiet.called (h : s.Quiet) {command : Command} {called due : List (Hook σ)}
    {hook : Hook σ} (hphase : s.phase = .applying command called (hook :: due)) :
    hook.Scripted := by
  refine h.scripted command.kind hook (List.mem_append_left _ ?_)
  rw [out_of_applying hphase, if_pos rfl]
  exact List.mem_append_right _ (List.mem_cons_self ..)

theorem Quiet.advance (h : s.Quiet) : s.advance.Quiet := by
  have hscripted (kind : CommandKind) : ∀ hook ∈ s.advance.hooksOf kind, hook.Scripted :=
    scripted_of_descends (s.advance_hooksOf kind) (h.scripted kind)
  suffices hsettled : s.advance.credit = 0 ∧ s.advance.engine.timerRate = 0 from
    ⟨hsettled.1, hsettled.2, hscripted⟩
  have hcase := s.advance_case
  generalize s.advance = t at hcase
  cases hcase with
  | drains | warns | begins | finishes | crashes | ended => exact ⟨h.credit_eq, h.rate_eq⟩
  | rests => exact ⟨rfl, h.rate_eq⟩
  | @calls command _ _ _ hphase =>
    have hrate := ((h.called hphase).keepsRate.callLogged command s.shared s.engine).2
    exact ⟨h.credit_eq, hrate.trans h.rate_eq⟩
  | @steps e _ _ hstep =>
    have hrate : e.timerRate = 0 := (Engine.step_timerRate hstep).trans h.rate_eq
    rw [settleCredit_eq (s := { s with engine := e, phase := .polling }) hrate h.credit_eq]
    exact ⟨h.credit_eq, hrate⟩

theorem Quiet.make (h : s.Quiet) {move : Move σ}
    (hregister : ∀ kind hook, move = .register kind hook → hook.Scripted) :
    (s.make move).Quiet := by
  cases move with
  | send command => exact ⟨h.credit_eq, h.rate_eq, h.scripted⟩
  | advance => exact h.advance
  | register k hook =>
    refine ⟨h.credit_eq, h.rate_eq, fun kind hook' hmem => ?_⟩
    rw [Service.make, hooksOf_register] at hmem
    rcases List.mem_append.mp hmem with hold | hnew
    · exact h.scripted kind hook' hold
    · split at hnew
      · obtain rfl := List.mem_singleton.mp hnew
        exact hregister k hook' rfl
      · exact absurd hnew List.not_mem_nil

/-- The service with another engine. -/
def withEngine (s : Service σ) (e : Engine) : Service σ := { s with engine := e }

/-- Two services that differ in their engines at most, which agree. -/
structure Lockstep (all : Prop) (s s' : Service σ) : Prop where
  agree : s.engine.Agree all s'.engine
  rest : s' = s.withEngine s'.engine
  quiet : s.Quiet

/-- A step of agreeing engines, after which no timer has to be settled. -/
theorem execute_agree {e' : Engine} (hagree : s.engine.Agree all e') (hquiet : s.Quiet) :
    s.execute.engine.Agree all (s.withEngine e').execute.engine ∧
      (s.withEngine e').execute = s.execute.withEngine (s.withEngine e').execute.engine := by
  have hrate {e : Engine} (h : s.engine.step.state? = some e) : e.timerRate = 0 :=
    (Engine.step_timerRate h).trans hquiet.rate_eq
  have hsettled {e : Engine} (he : e.timerRate = 0) :
      { s with engine := e, phase := .polling }.settleCredit =
        { s with engine := e, phase := .polling } :=
    settleCredit_eq (s := { s with engine := e, phase := .polling }) he hquiet.credit_eq
  have hstep := Engine.step_agree hagree
  unfold execute
  dsimp only [withEngine]
  generalize s.engine.step = ended at hstep hrate
  generalize e'.step = ended' at hstep
  cases hstep with
  | @done e₁ e₁' h | @fault _ e₁ e₁' h =>
    dsimp only
    rw [hsettled (hrate rfl), hsettled (h.timerRate.trans (hrate rfl))]
    exact ⟨h, rfl⟩
  | crash => exact ⟨hagree, rfl⟩

theorem Lockstep.advance (h : Lockstep all s s') : Lockstep all s.advance s'.advance := by
  obtain ⟨hagree, hrest, hquiet⟩ := h
  suffices hnext : s.advance.engine.Agree all s'.advance.engine ∧
      s'.advance = s.advance.withEngine s'.advance.engine from
    ⟨hnext.1, hnext.2, hquiet.advance⟩
  generalize s'.engine = e' at hagree hrest
  subst hrest
  match hphase : s.phase with
  | .polling =>
    have hphase' : (s.withEngine e').phase = .polling := hphase
    match hqueue : s.queue with
    | [] =>
      rw [advance_of_nil hphase hqueue, advance_of_nil hphase' hqueue]
      exact ⟨hagree, rfl⟩
    | command :: rest =>
      rw [advance_of_command hphase hqueue, advance_of_command hphase' hqueue]
      by_cases hnil : s.registry.hooks command.kind = []
      · rw [begin_of_nil (s := { s with queue := rest }) hnil,
          begin_of_nil (s := { s.withEngine e' with queue := rest }) hnil]
        exact ⟨hagree.log .., rfl⟩
      · rw [begin_of_ne_nil (s := { s with queue := rest }) hnil,
          begin_of_ne_nil (s := { s.withEngine e' with queue := rest }) hnil]
        exact ⟨hagree, rfl⟩
  | .applying command called [] =>
    have hphase' : (s.withEngine e').phase = .applying command called [] := hphase
    rw [advance_of_none_due hphase, advance_of_none_due hphase']
    exact ⟨hagree, rfl⟩
  | .applying command called (hook :: due) =>
    have hphase' : (s.withEngine e').phase = .applying command called (hook :: due) := hphase
    obtain ⟨hhook, hshared, hcalled⟩ :=
      (hquiet.called hphase).callLogged_agree command s.shared hagree
    rw [advance_of_due hphase, advance_of_due hphase', callHook_eq, callHook_eq]
    dsimp only [withEngine]
    rw [hhook, hshared]
    exact ⟨hcalled, rfl⟩
  | .drained =>
    have hphase' : (s.withEngine e').phase = .drained := hphase
    match hstate : s.engine.state with
    | .paused =>
      rw [advance_of_paused hphase hstate, advance_of_paused hphase' (hagree.state.trans hstate)]
      exact ⟨hagree, rfl⟩
    | .running =>
      rw [advance_of_running hphase hstate, advance_of_running hphase' (hagree.state.trans hstate)]
      exact execute_agree hagree hquiet
  | .ended =>
    have hphase' : (s.withEngine e').phase = .ended := hphase
    rw [advance_of_ended hphase, advance_of_ended hphase']
    exact ⟨hagree, rfl⟩

theorem Lockstep.refl (h : s.Quiet) : Lockstep all s s := ⟨.refl _, rfl, h⟩

theorem Lockstep.symm (h : Lockstep all s s') : Lockstep all s' s := by
  obtain ⟨hagree, hrest, hquiet⟩ := h
  have hrate := hagree.timerRate
  generalize s'.engine = e' at hagree hrest hrate
  subst hrest
  exact ⟨hagree.symm, rfl, hquiet.credit_eq, hrate.trans hquiet.rate_eq, hquiet.scripted⟩

theorem Lockstep.trans (h : Lockstep all s s') (h' : Lockstep all s' s'') :
    Lockstep all s s'' := by
  refine ⟨h.agree.trans h'.agree, ?_, h.quiet⟩
  rw [h'.rest, h.rest]
  rfl

theorem Lockstep.make (h : Lockstep all s s') {move : Move σ}
    (hregister : ∀ kind hook, move = .register kind hook → hook.Scripted) :
    Lockstep all (s.make move) (s'.make move) := by
  cases move with
  | advance => exact h.advance
  | send | register =>
    refine ⟨h.agree, ?_, h.quiet.make hregister⟩
    rw [h.rest]
    rfl

/-! ## Readers -/

/-- A service whose reader did something. -/
def read (s : Service σ) (r : Journal.Reading) : Service σ :=
  { s with engine.journal := (s.engine.journal.read r).1 }

theorem Quiet.read (h : s.Quiet) (r : Journal.Reading) : (s.read r).Quiet :=
  ⟨h.credit_eq, h.rate_eq, h.scripted⟩

/-- Reading is seen in what is unread alone. -/
theorem Quiet.lockstep_read (h : s.Quiet) (r : Journal.Reading) :
    Lockstep all (s.read r) s := by
  have hpast : (s.engine.journal.read r).1.past = s.engine.journal.past := by cases r <;> rfl
  exact ⟨⟨rfl, fun _ => ⟨rfl, rfl, hpast.symm⟩⟩, rfl, h.read r⟩

end Service

/-- A move of callers and worker, or something that the reader of the journal does. -/
inductive Turn (σ : Type) where
  | move (m : Move σ)
  | read (r : Journal.Reading)

namespace Turn

variable {σ : Type}

/-- What the reader does in a turn, if it is his. -/
def reading? : Turn σ → Option Journal.Reading
  | read r => some r
  | move _ => none

/-- The moves of callers and worker, in order. -/
def moves : List (Turn σ) → List (Move σ)
  | [] => []
  | .move m :: rest => m :: moves rest
  | .read _ :: rest => moves rest

end Turn

namespace Service

variable {σ : Type} {all : Prop} {s s' : Service σ} {turns turns' : List (Turn σ)}

/-- A service after a turn. -/
def take (s : Service σ) : Turn σ → Service σ
  | .move m => s.make m
  | .read r => s.read r

/-- A service after some turns. -/
def takeAll (s : Service σ) (turns : List (Turn σ)) : Service σ := turns.foldl take s

/-- What the reader is given in some turns, in order. -/
def received (s : Service σ) : List (Turn σ) → List Journal.Entry
  | [] => []
  | .move m :: rest => (s.make m).received rest
  | .read r :: rest => (s.engine.journal.read r).2 ++ (s.read r).received rest

/-- What happens to the journal in some turns: with a move, the entries come that the history has
more after it. -/
def acts (s : Service σ) : List (Turn σ) → List Journal.Act
  | [] => []
  | .move m :: rest =>
    ((s.make m).engine.journal.history.drop s.engine.journal.history.length).map .add ++
      (s.make m).acts rest
  | .read r :: rest => .read r :: (s.read r).acts rest

/-- All hooks that are registered in some turns follow scripts. -/
def Orderly (turns : List (Turn σ)) : Prop :=
  ∀ kind hook, Move.register kind hook ∈ Turn.moves turns → hook.Scripted

theorem Orderly.of_move {m : Move σ} (h : Orderly (.move m :: turns)) :
    (∀ kind hook, m = .register kind hook → hook.Scripted) ∧ Orderly turns :=
  ⟨fun kind hook heq => h kind hook (heq ▸ List.mem_cons_self ..),
    fun kind hook hmem => h kind hook (List.mem_cons_of_mem _ hmem)⟩

/-- Whatever the reader does, the service is in lockstep with one that nobody reads from. -/
theorem Lockstep.takeAll (h : Lockstep all s s') (horderly : Orderly turns) :
    Lockstep all (s.takeAll turns) (s'.play (Turn.moves turns)) := by
  induction turns generalizing s s' with
  | nil => exact h
  | cons turn rest ih =>
    cases turn with
    | move m =>
      obtain ⟨hregister, hrest⟩ := horderly.of_move
      exact ih (h.make hregister) hrest
    | read r =>
      -- The other service makes no move meanwhile.
      exact ih ((h.quiet.lockstep_read r).trans h) horderly

/-- So services that started in lockstep are in lockstep, if only the readers differ. -/
theorem Lockstep.takeAll_of_moves (h : Lockstep all s s')
    (hmoves : Turn.moves turns' = Turn.moves turns) (horderly : Orderly turns) :
    Lockstep all (s.takeAll turns) (s'.takeAll turns') := by
  have horderly' : Orderly turns' := fun kind hook hmem => horderly kind hook (hmoves ▸ hmem)
  have hunread := h.takeAll horderly
  have hunread' := (Lockstep.refl h.symm.quiet : Lockstep all s' s').takeAll horderly'
  rw [hmoves] at hunread'
  exact hunread.trans hunread'.symm

/-! ## Entries -/

theorem advance_extends (h : s.Quiet) : s.engine.journal.Extends s.advance.engine.journal := by
  have hcase := s.advance_case
  generalize s.advance = t at hcase
  cases hcase with
  | drains | begins | finishes | crashes | rests | ended => exact .refl _
  | warns => exact Journal.extends_log ..
  | calls hphase => exact (h.called hphase).callLogged_extends ..
  | @steps e _ _ hstep =>
    have hjournal : s.engine.journal.Extends e.journal := Engine.step_extends hstep
    exact hjournal

theorem make_extends (h : s.Quiet) (move : Move σ) :
    s.engine.journal.Extends (s.make move).engine.journal := by
  cases move with
  | send | register => exact .refl _
  | advance => exact advance_extends h

/-- The journal is where its acts lead, and the reader has what they give him. -/
theorem journal_takeAll (h : s.Quiet) (horderly : Orderly turns) :
    (s.takeAll turns).engine.journal = s.engine.journal.after (s.acts turns) ∧
      s.received turns = s.engine.journal.given (s.acts turns) := by
  induction turns generalizing s with
  | nil => exact ⟨rfl, rfl⟩
  | cons turn rest ih =>
    cases turn with
    | move m =>
      obtain ⟨hregister, hrest⟩ := horderly.of_move
      obtain ⟨hjournal, hreceived⟩ := ih (h.make hregister) hrest
      -- A move only adds entries, and they can be told from the history.
      have hextends := (make_extends h m).eq
      rw [acts, Journal.after_append, Journal.given_append, Journal.given_add]
      rw [Journal.addAll] at hextends
      rw [← hextends]
      exact ⟨hjournal, hreceived⟩
    | read r =>
      obtain ⟨hjournal, hreceived⟩ := ih (h.read r) horderly
      exact ⟨hjournal, congrArg (_ ++ ·) hreceived⟩

/-- The reader's part of the acts is what he did. -/
theorem readings_acts (s : Service σ) (turns : List (Turn σ)) :
    (s.acts turns).filterMap Journal.Act.reading? = turns.filterMap Turn.reading? := by
  induction turns generalizing s with
  | nil => rfl
  | cons turn rest ih =>
    cases turn with
    | move m =>
      rw [acts, List.filterMap_append, Journal.reading?_add]
      exact ih (s.make m)
    | read r => exact congrArg (r :: ·) (ih (s.read r))

/-! ## From the start -/

theorem start_quiet [Inhabited σ] {config : Config} (hrate : config.timerRate = 0) (noise : Noise) :
    (start config noise : Service σ).Quiet := by
  refine ⟨rfl, hrate, fun kind hook hmem => ?_⟩
  rw [start_hooksOf, builtIn] at hmem
  split at hmem
  · obtain rfl := List.mem_singleton.mp hmem
    exact Hook.scripted_apply
  · exact nomatch hmem

/-- The entry that a journal begins with. -/
def started : Journal.Entry := ⟨.info, "daemon", "started"⟩

/-- The entries of a service that has started come to a journal that begins without any. -/
theorem journal_start [Inhabited σ] {config : Config} (hrate : config.timerRate = 0)
    (noise : Noise) (horderly : Orderly turns) :
    let s : Service σ := start config noise
    let acts := .add started :: s.acts turns
    (s.takeAll turns).engine.journal = (Journal.ofCapacity config.journalCapacity).after acts ∧
      s.received turns = (Journal.ofCapacity config.journalCapacity).given acts ∧
      acts.filterMap Journal.Act.reading? = turns.filterMap Turn.reading? :=
  have hjournal := journal_takeAll (start_quiet hrate noise) horderly
  ⟨hjournal.1, hjournal.2, readings_acts _ turns⟩

/-- Settings aside, services start alike. -/
theorem start_lockstep [Inhabited σ] {config config' : Config} (hrate : config.timerRate = 0)
    (hsettings : config' = { config with
      clockSpeed := config'.clockSpeed
      trace := config'.trace
      journalCapacity := config'.journalCapacity })
    (noise : Noise) :
    Lockstep (config'.clockSpeed = config.clockSpeed ∧ config'.trace = config.trace)
      (start config noise : Service σ) (start config' noise) := by
  obtain ⟨clockSpeed, trace, capacity, rfl⟩ : ∃ clockSpeed trace journalCapacity,
      config' = { config with clockSpeed, trace, journalCapacity } := ⟨_, _, _, hsettings⟩
  refine ⟨Engine.Agree.log ?_ .., ?_, start_quiet hrate noise⟩
  · refine ⟨?_, fun hall => ⟨congrArg (max · 1) hall.1, hall.2, rfl⟩⟩
    rw [Engine.start, Engine.start]
  · rw [withEngine, start, start, log, log]

/-- Two services run with the timers off. Their settings differ only in how fast the clock runs,
whether instructions are logged and how many entries the journal keeps, callers and worker make the
same moves, and all hooks follow scripts. The reader of each journal does what it likes when it
likes.

* Machine, state and fault of the two are the same after every turn, since a run may end anywhere.
* What happens to a journal is that the entries of its history come, and in between its reader does
  what it does, and the account of that holds: entries are given to the reader in order, and none
  is lost unless the journal is full or the reader gone.
* With the same clock and instructions logged by both or by none, the histories are the same. If
  one of the journals has room for all of it and its reader stays, that reader loses nothing. So
  what the other reader is given is a part of that. -/
theorem settings_unseen [Inhabited σ] {config config' : Config} (hrate : config.timerRate = 0)
    (hsettings : config' = { config with
      clockSpeed := config'.clockSpeed
      trace := config'.trace
      journalCapacity := config'.journalCapacity })
    (noise : Noise) (hmoves : Turn.moves turns' = Turn.moves turns) (horderly : Orderly turns) :
    let s : Service σ := start config noise
    let s' : Service σ := start config' noise
    let t := s.takeAll turns
    let t' := s'.takeAll turns'
    let acts := .add started :: s.acts turns
    (t'.engine.machine = t.engine.machine ∧ t'.engine.state = t.engine.state ∧
      t'.engine.fault = t.engine.fault) ∧
    (t.engine.journal = (Journal.ofCapacity config.journalCapacity).after acts ∧
      s.received turns = (Journal.ofCapacity config.journalCapacity).given acts ∧
      acts.filterMap Journal.Act.reading? = turns.filterMap Turn.reading? ∧
      Journal.Account config.journalCapacity acts) ∧
    (config'.clockSpeed = config.clockSpeed → config'.trace = config.trace →
      t'.engine.journal.history = t.engine.journal.history ∧
      (t.engine.journal.history.length ≤ config'.journalCapacity → .read .leave ∉ turns' →
        s'.received turns' ++ t'.engine.journal.unread.toList = t.engine.journal.history ∧
        (s.received turns).Sublist t.engine.journal.history)) := by
  intro s s' t t' acts
  have horderly' : Orderly turns' := fun kind hook hmem => horderly kind hook (hmoves ▸ hmem)
  have hrate' : config'.timerRate = 0 := by rw [hsettings]; exact hrate
  have hlockstep : Lockstep _ t t' :=
    (start_lockstep hrate hsettings noise).takeAll_of_moves hmoves horderly
  obtain ⟨hjournal, hreceived, hreadings⟩ := journal_start hrate noise horderly
  obtain ⟨hjournal', hreceived', hreadings'⟩ := journal_start hrate' noise horderly'
  have haccount := Journal.account config.journalCapacity acts
  have haccount' := Journal.account config'.journalCapacity (.add started :: s'.acts turns')
  have hagree := hlockstep.agree
  refine ⟨⟨hagree.machine, hagree.state, hagree.fault⟩,
    ⟨hjournal, hreceived, hreadings, haccount⟩, fun hclock htrace => ?_⟩
  have hhistory : t'.engine.journal.history = t.engine.journal.history :=
    congrArg List.reverse (hagree.settings ⟨hclock, htrace⟩).2.2
  refine ⟨hhistory, fun hfits hstays => ?_⟩
  have hoffered : Journal.offered acts = t.engine.journal.history := by
    rw [hjournal]
    exact haccount.history.symm
  have hoffered' : Journal.offered (.add started :: s'.acts turns') = t.engine.journal.history := by
    rw [← hhistory, hjournal']
    exact haccount'.history.symm
  have hstays' : .read .leave ∉ .add started :: s'.acts turns' := by
    intro hmem
    have hleave : .leave ∈ turns'.filterMap Turn.reading? :=
      hreadings' ▸ List.mem_filterMap.mpr ⟨_, hmem, rfl⟩
    obtain ⟨turn, hturn, hreads⟩ := List.mem_filterMap.mp hleave
    cases turn with
    | move => exact nomatch hreads
    | read r =>
      obtain rfl := Option.some.inj hreads
      exact hstays hturn
  constructor
  · rw [hreceived', hjournal', haccount'.unread hstays',
      haccount'.ample (hoffered' ▸ hfits) hstays', hoffered']
  · rw [hreceived, ← hoffered]
    exact haccount.given.sublist.trans haccount.kept

/-- A hook logs two entries while the engine runs. A journal for one entry loses the second of them,
although its reader has taken the first entry of all before. Nothing of this shows in the machine,
and neither does another clock with all instructions logged. -/
theorem small_journal_loses :
    let poke := Command.custom "poke" []
    let hook : Hook Nat := ⟨⟨fun store _ e => Script.run e
      (.look fun sight => .perform (.log .info "poke" sight.state.name) store fun _ =>
        .perform (.log .info "poke" "again") store fun _ =>
          .stop { store with own := store.own + 1 } .returned)⟩, 0⟩
    let small : Config := { timerRate := 0, journalCapacity := 1 }
    let large : Config := { timerRate := 0, journalCapacity := 100 }
    let traced : Config := { timerRate := 0, clockSpeed := 7, trace := true }
    let moves : List (Turn Nat) := [.move (.register poke.kind hook), .move (.send poke),
      .move .advance, .move .advance]
    let turns := .read (.take 1) :: moves ++ [.read .drain]
    let s := start small ⟨fun _ => 0, 0⟩
    let s' := start large ⟨fun _ => 0, 0⟩
    let s'' := start traced ⟨fun _ => 0, 0⟩
    (s'.takeAll moves).engine.machine = (s.takeAll turns).engine.machine ∧
      (s''.takeAll moves).engine.machine = (s.takeAll turns).engine.machine ∧
      (s.received turns).map (·.message) = ["started", "Paused"] ∧
      (s.takeAll turns).engine.journal.history.map (·.message) = ["started", "Paused", "again"] ∧
      (s'.takeAll moves).engine.journal.unread.toList =
        (s.takeAll turns).engine.journal.history := by
  intro poke hook small large traced moves turns s s' s''
  have horderly : Orderly turns := by
    intro kind h hmem
    have heq : Move.register kind h = .register poke.kind hook := by
      simpa [turns, moves, Turn.moves] using hmem
    obtain ⟨-, rfl⟩ := Move.register.inj heq
    exact ⟨_, fun _ _ _ => rfl⟩
  have hrate : small.timerRate = 0 := rfl
  have hmoves : Turn.moves moves = Turn.moves turns := rfl
  have hsettings (config' : Config) (hrest : config' = { small with
      clockSpeed := config'.clockSpeed
      trace := config'.trace
      journalCapacity := config'.journalCapacity }) :=
    settings_unseen hrate hrest ⟨fun _ => 0, 0⟩ hmoves horderly
  have hlogged : (s.takeAll turns).engine.journal.history.map (·.message) =
      ["started", "Paused", "again"] := by decide +kernel
  have hfits : (s.takeAll turns).engine.journal.history.length ≤ 100 := by
    rw [← List.length_map (f := (·.message)), hlogged]
    decide
  obtain ⟨⟨hmachine, -⟩, -, hsame⟩ := hsettings large rfl
  obtain ⟨⟨hmachine', -⟩, -⟩ := hsettings traced rfl
  have hunread : s'.received moves ++ (s'.takeAll moves).engine.journal.unread.toList =
      (s.takeAll turns).engine.journal.history := ((hsame rfl rfl).2 hfits (by simp [moves])).1
  have hnone : s'.received moves = [] := rfl
  rw [hnone, List.nil_append] at hunread
  exact ⟨hmachine, hmachine', by decide +kernel, hlogged, hunread⟩

end Service

end Chip8
