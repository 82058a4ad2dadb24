import Chip8.Service.Basic
import Mathlib.Data.List.Forall2

/-!
# Hooks and commands

Callers register hooks at any time, also while the worker applies a command and has the
command's hooks out of the registry. A run of the service is any sequence of what callers do
and of moves of the worker (`Move`, `Service.play`).

The hooks of a kind are those that the worker has taken out for it, followed by those in the
registry (`Service.hooksOf`). One move of the worker changes at most what a hook keeps
(`advance_hooksOf`), and registering adds a hook at the end, so

> `play_hooksOf`: they are at any time the hooks ever registered, in that order;
>
> `play_applying`: while a command is applied, the worker calls one hook after the other
> (`Hook.callAll`), no matter what callers do in the meantime and how the calls end.

`play_start` puts this together for runs from the start.
-/

namespace Chip8

/-! ## The registry -/

namespace Registry

variable {σ : Type} (r : Registry σ) (kind k : CommandKind)

theorem hooks_add (h : Hook σ) :
    (r.add k h).hooks kind = r.hooks kind ++ if k = kind then [h] else [] := by
  unfold add hooks
  rw [List.filter_append, List.map_append]
  by_cases hk : k = kind <;> simp [hk]

theorem hooks_without : (r.without k).hooks kind = if k = kind then [] else r.hooks kind := by
  unfold without hooks
  rw [List.filter_filter]
  by_cases hk : k = kind
  · rw [if_pos hk, List.map_eq_nil_iff, List.filter_eq_nil_iff]
    intro entry _
    simp [hk]
  · rw [if_neg hk]
    congr 1
    refine List.filter_congr fun entry _ => ?_
    by_cases hentry : entry.1 = kind
    · simp [hentry, Ne.symm hk]
    · simp [hentry]

theorem hooks_putBack (called : List (Hook σ)) :
    (r.putBack k called).hooks kind = (if k = kind then called else []) ++ r.hooks kind := by
  unfold putBack hooks
  rw [List.filter_append, List.map_append]
  by_cases hk : k = kind
  · simp [hk, List.filter_map, Function.comp_def]
  · simp [hk, List.filter_map, Function.comp_def]

/-- From the start there is one hook for each kind that is not custom. -/
theorem hooks_standard [Inhabited σ] :
    (standard : Registry σ).hooks kind =
      if kind ∈ CommandKind.builtIn then [Hook.ofAction Engine.apply] else [] := by
  cases kind <;> simp [standard, hooks, CommandKind.builtIn]

end Registry

/-! ## Hooks over time -/

namespace Hook

variable {σ : Type}

/-- The second hook is what the first one is after a call with a command. -/
def CalledWith (command : Command) (h h' : Hook σ) : Prop :=
  ∃ shared e, h' = (h.call command shared e).1

/-- The second hook is the first one after some calls: it does the same, but what it keeps has
changed. -/
inductive Descends (h : Hook σ) : Hook σ → Prop where
  | refl : Descends h h
  | call {h' h'' : Hook σ} (hd : Descends h h') {command : Command}
    (hc : CalledWith command h' h'') : Descends h h''

theorem Descends.trans {h h' h'' : Hook σ} (hd : Descends h h') (hd' : Descends h' h'') :
    Descends h h'' := by
  induction hd' with
  | refl => exact hd
  | call _ hc ih => exact ih.call hc

theorem forall₂_descends_refl (hs : List (Hook σ)) : List.Forall₂ Descends hs hs :=
  List.forall₂_same.mpr fun _ _ => .refl

theorem forall₂_descends_trans {hs hs' hs'' : List (Hook σ)} (hd : List.Forall₂ Descends hs hs')
    (hd' : List.Forall₂ Descends hs' hs'') : List.Forall₂ Descends hs hs'' := by
  induction hd generalizing hs'' with
  | nil => exact hd'
  | cons hhead _ ih =>
    cases hd' with
    | cons hhead' htail' => exact .cons (hhead.trans hhead') (ih htail')

end Hook

/-! ## Calling hooks -/

namespace Hook

variable {σ : Type} {h : Hook σ} {hs : List (Hook σ)} {command : Command}

/-- Calls a hook and logs its panic if it has one. -/
def callLogged (h : Hook σ) (command : Command) (shared : σ) (e : Engine) : Hook σ × σ × Engine :=
  match h.call command shared e with
  | (h, shared, e, .returned) => (h, shared, e)
  | (h, shared, e, .panicked reason) =>
    (h, shared, e.log .error "daemon" ("handler for " ++ command.kind.describe ++ " panicked: "
      ++ reason.getD "unknown cause"))

/-- Calls hooks one after the other. Each finds the engine, and what is shared, as the one before it
left them. -/
def callAll (command : Command) : List (Hook σ) → σ → Engine → List (Hook σ) × σ × Engine
  | [], shared, e => ([], shared, e)
  | h :: hs, shared, e =>
    let (h, shared, e) := h.callLogged command shared e
    let (called, left) := callAll command hs shared e
    (h :: called, left)

theorem calledWith_callLogged (h : Hook σ) (command : Command) (shared : σ) (e : Engine) :
    CalledWith command h (h.callLogged command shared e).1 := by
  refine ⟨shared, e, ?_⟩
  unfold callLogged
  split
  next hcall => rw [hcall]
  next hcall => rw [hcall]

theorem forall₂_calledWith (hs : List (Hook σ)) (command : Command) (shared : σ) (e : Engine) :
    List.Forall₂ (CalledWith command) hs (callAll command hs shared e).1 := by
  induction hs generalizing shared e with
  | nil => exact .nil
  | cons h hs ih => exact .cons (calledWith_callLogged h command shared e) (ih _ _)

theorem callAll_cons (h : Hook σ) (hs : List (Hook σ)) (command : Command) (shared : σ)
    (e : Engine) :
    callAll command (h :: hs) shared e =
      let (h', shared', e') := h.callLogged command shared e
      (h' :: (callAll command hs shared' e').1, (callAll command hs shared' e').2) := rfl

theorem callAll_concat {called : List (Hook σ)} {shared shared' : σ} {e e' : Engine}
    (hcalled : callAll command hs shared e = (called, shared', e')) :
    callAll command (hs ++ [h]) shared e =
      (called ++ [(h.callLogged command shared' e').1], (h.callLogged command shared' e').2) := by
  induction hs generalizing called shared e with
  | nil =>
    cases hcalled
    rfl
  | cons first hs ih =>
    rw [List.cons_append, callAll_cons]
    rw [callAll_cons] at hcalled
    generalize first.callLogged command shared e = next at hcalled ⊢
    obtain ⟨first', mid, between⟩ := next
    obtain ⟨rfl, hleft⟩ := Prod.mk.inj hcalled
    dsimp only
    rw [ih (Prod.ext rfl hleft)]
    rfl

end Hook

/-! ## Runs -/

/-- What may happen to a service: a caller does something, or the worker makes its next move. -/
inductive Move (σ : Type) where
  | send (command : Command)
  | register (kind : CommandKind) (h : Hook σ)
  | advance

namespace Service

variable {σ : Type}

/-- A service after a move. -/
def make (s : Service σ) : Move σ → Service σ
  | .send command => s.send command
  | .register kind h => s.register kind h
  | .advance => s.advance

/-- A service after a run. -/
def play (s : Service σ) (moves : List (Move σ)) : Service σ := moves.foldl make s

/-- The hooks for a kind that callers register in a run, in order. -/
def registered (kind : CommandKind) : List (Move σ) → List (Hook σ)
  | [] => []
  | .register k h :: rest => (if k = kind then [h] else []) ++ registered kind rest
  | _ :: rest => registered kind rest

/-- The number of moves that the worker makes in a run. -/
def advances : List (Move σ) → Nat
  | [] => 0
  | .advance :: rest => advances rest + 1
  | _ :: rest => advances rest

/-- The hook that the worker calls with its next move, if it calls one, and the command. -/
def next? (s : Service σ) : Option (Command × Hook σ) :=
  match s.phase with
  | .applying command _ (h :: _) => some (command, h)
  | _ => none

/-- The hooks that the worker calls in a run, with their commands, in order. -/
def calls (s : Service σ) : List (Move σ) → List (Command × Hook σ)
  | [] => []
  | .advance :: rest => s.next?.toList ++ s.advance.calls rest
  | move :: rest => (s.make move).calls rest

/-- The hooks of a kind that are out of the registry, in order. -/
def out (s : Service σ) (kind : CommandKind) : List (Hook σ) :=
  match s.phase with
  | .applying command called due => if command.kind = kind then called ++ due else []
  | _ => []

/-- The hooks of a kind: those that are out of the registry and those in it. -/
def hooksOf (s : Service σ) (kind : CommandKind) : List (Hook σ) :=
  s.out kind ++ s.registry.hooks kind

/-! ## One move -/

variable (s : Service σ) (kind : CommandKind)

theorem hooksOf_register (k : CommandKind) (h : Hook σ) :
    (s.register k h).hooksOf kind = s.hooksOf kind ++ if k = kind then [h] else [] := by
  unfold hooksOf
  rw [register, Registry.hooks_add, ← List.append_assoc]
  rfl

variable {s kind} {command : Command} {called due : List (Hook σ)} {h : Hook σ}

theorem out_of_applying (hphase : s.phase = .applying command called due) (kind : CommandKind) :
    s.out kind = if command.kind = kind then called ++ due else [] := by
  rw [out, hphase]

theorem begin_of_nil (hnil : s.registry.hooks command.kind = []) :
    s.begin command = s.log .warn ("no handler for " ++ command.kind.describe) := by
  rw [begin, hnil]

theorem begin_of_ne_nil (hne : s.registry.hooks command.kind ≠ []) :
    s.begin command =
      { s with
        registry := s.registry.without command.kind
        phase := .applying command [] (s.registry.hooks command.kind) } := by
  unfold begin
  split
  next hnil => exact absurd hnil hne
  next => rfl

theorem advance_of_command {rest : List Command} (hphase : s.phase = .polling)
    (hqueue : s.queue = command :: rest) : s.advance = { s with queue := rest }.begin command := by
  obtain ⟨engine, shared, queue, registry, address, phase, credit⟩ := s
  obtain rfl : phase = .polling := hphase
  obtain rfl : queue = command :: rest := hqueue
  rfl

theorem advance_of_due (hphase : s.phase = .applying command called (h :: due)) :
    s.advance = s.callHook command called h due := by
  rw [advance, hphase]

theorem advance_of_none_due (hphase : s.phase = .applying command called []) :
    s.advance = s.finish command called := by
  rw [advance, hphase]

theorem callHook_eq (s : Service σ) (command : Command) (called : List (Hook σ)) (h : Hook σ)
    (due : List (Hook σ)) :
    s.callHook command called h due =
      let (h', shared, engine) := h.callLogged command s.shared s.engine
      { s with engine, shared, phase := .applying command (called ++ [h']) due } := by
  unfold callHook Hook.callLogged
  generalize h.call command s.shared s.engine = result
  obtain ⟨h', shared, e, ending⟩ := result
  cases ending with
  | returned | panicked => rfl

theorem execute_registry : s.execute.registry = s.registry := by
  unfold execute
  split <;> rfl

theorem execute_out (kind : CommandKind) : s.execute.out kind = [] := by
  unfold execute
  split <;> rfl

/-- Taking a command's hooks out of the registry does not change the hooks of any kind. -/
theorem begin_hooksOf (hphase : s.phase = .polling) (kind : CommandKind) :
    (s.begin command).hooksOf kind = s.hooksOf kind := by
  have hout : s.out kind = [] := by rw [out, hphase]
  by_cases hnil : s.registry.hooks command.kind = []
  · rw [begin_of_nil hnil]
    rfl
  · rw [begin_of_ne_nil hnil, hooksOf, hooksOf, hout, out_of_applying rfl, Registry.hooks_without]
    by_cases hkind : command.kind = kind
    · rw [if_pos hkind, if_pos hkind, hkind]
      simp
    · rw [if_neg hkind, if_neg hkind]

/-- Nor does putting them back, in front of those that came in the meantime. -/
theorem finish_hooksOf (hphase : s.phase = .applying command called []) (kind : CommandKind) :
    (s.finish command called).hooksOf kind = s.hooksOf kind := by
  have hout : (s.finish command called).out kind = [] := rfl
  rw [hooksOf, hooksOf, hout, out_of_applying hphase, finish, Registry.hooks_putBack,
    List.append_nil, List.nil_append]

theorem callHook_hooksOf (hphase : s.phase = .applying command called (h :: due))
    (kind : CommandKind) :
    List.Forall₂ Hook.Descends (s.hooksOf kind)
      ((s.callHook command called h due).hooksOf kind) := by
  rw [hooksOf, hooksOf, callHook_eq, out_of_applying hphase, out_of_applying rfl]
  by_cases hkind : command.kind = kind
  · rw [if_pos hkind, if_pos hkind, List.append_assoc, List.append_assoc, List.append_assoc]
    refine List.rel_append (Hook.forall₂_descends_refl called) (.cons ?_ ?_)
    · exact .call .refl (h.calledWith_callLogged command s.shared s.engine)
    · exact Hook.forall₂_descends_refl _
  · rw [if_neg hkind, if_neg hkind]
    exact Hook.forall₂_descends_refl _

/-- A move of the worker at most changes what the hooks keep. -/
theorem advance_hooksOf (s : Service σ) (kind : CommandKind) :
    List.Forall₂ Hook.Descends (s.hooksOf kind) (s.advance.hooksOf kind) := by
  have hrefl := Hook.forall₂_descends_refl (s.hooksOf kind)
  -- Where no hooks are out before and after, only the registry counts.
  have hidle (t : Service σ) (hregistry : t.registry = s.registry) (hout : t.out kind = [])
      (hout' : s.out kind = []) :
      List.Forall₂ Hook.Descends (s.hooksOf kind) (t.hooksOf kind) := by
    rw [hooksOf, hooksOf, hregistry, hout, hout']
    exact Hook.forall₂_descends_refl _
  unfold advance
  split
  next hphase =>
    have hout : s.out kind = [] := by rw [out, hphase]
    split
    next => exact hidle _ rfl rfl hout
    next command rest hqueue =>
      have hpolling : { s with queue := rest }.phase = .polling := hphase
      rw [begin_hooksOf hpolling]
      exact hidle _ rfl hout hout
  next command called hphase =>
    rw [finish_hooksOf hphase]
    exact hrefl
  next command called h due hphase => exact callHook_hooksOf hphase kind
  next hphase =>
    have hout : s.out kind = [] := by rw [out, hphase]
    split
    next => exact hidle _ execute_registry (execute_out kind) hout
    next => exact hidle _ rfl rfl hout
  next hphase => exact hrefl

/-! ## Runs -/

/-- After a run the hooks of a kind are those from before it, and behind them those that
callers registered. -/
theorem play_hooksOf (s : Service σ) (kind : CommandKind) (moves : List (Move σ)) :
    List.Forall₂ Hook.Descends (s.hooksOf kind ++ registered kind moves)
      ((s.play moves).hooksOf kind) := by
  induction moves generalizing s with
  | nil =>
    rw [registered, List.append_nil]
    exact Hook.forall₂_descends_refl _
  | cons move rest ih =>
    cases move with
    | send command => exact ih (s.send command)
    | register k h =>
      have hrest := ih (s.register k h)
      rw [hooksOf_register, List.append_assoc] at hrest
      exact hrest
    | advance =>
      refine Hook.forall₂_descends_trans ?_ (ih s.advance)
      exact List.rel_append (advance_hooksOf s kind) (Hook.forall₂_descends_refl _)

/-- A run from the middle of an application, in which the worker makes no more moves than there
are hooks due: each of these moves calls the next hook with what the last one left, and what
callers register in the meantime is behind what is in the registry. -/
theorem play_applying (moves : List (Move σ)) {s : Service σ} {command : Command}
    {called due : List (Hook σ)} (hphase : s.phase = .applying command called due)
    (hle : advances moves ≤ due.length) :
    s.calls moves = (due.take (advances moves)).map (Prod.mk command) ∧
      ∃ called', (s.play moves).phase =
          .applying command (called ++ called') (due.drop (advances moves)) ∧
        Hook.callAll command (due.take (advances moves)) s.shared s.engine =
          (called', (s.play moves).shared, (s.play moves).engine) ∧
        (s.play moves).registry.hooks command.kind =
          s.registry.hooks command.kind ++ registered command.kind moves := by
  induction moves generalizing s called due with
  | nil =>
    refine ⟨rfl, [], ?_, rfl, (List.append_nil _).symm⟩
    rw [List.append_nil]
    exact hphase
  | cons move rest ih =>
    cases move with
    | send c => exact ih (s := s.send c) hphase hle
    | register k h =>
      obtain ⟨hcalls, called', hphase', hcalled, hhooks⟩ := ih (s := s.register k h) hphase hle
      refine ⟨hcalls, called', hphase', hcalled, hhooks.trans ?_⟩
      rw [register, Registry.hooks_add, List.append_assoc]
      rfl
    | advance =>
      -- The only move that counts: the first hook due is called and joins those called.
      cases due with
      | nil => exact absurd hle (Nat.not_succ_le_zero _)
      | cons h due =>
        have hadvance := (advance_of_due hphase).trans (callHook_eq ..)
        have hnext : s.next? = some (command, h) := by rw [next?, hphase]
        have hplay : s.play (.advance :: rest) = s.advance.play rest := rfl
        have hphase₁ := congrArg Service.phase hadvance
        have hshared := congrArg Service.shared hadvance
        have hengine := congrArg Service.engine hadvance
        have hregistry : s.advance.registry = s.registry := by rw [hadvance]
        have hle' : advances rest ≤ due.length := Nat.le_of_succ_le_succ hle
        obtain ⟨hcalls, called', hphase', hcalled, hhooks⟩ := ih hphase₁ hle'
        rw [hshared, hengine] at hcalled
        rw [hregistry] at hhooks
        rw [hplay]
        refine ⟨?_, (h.callLogged command s.shared s.engine).1 :: called', ?_, ?_, hhooks⟩
        · rw [calls, hnext, hcalls]
          rfl
        · rw [List.append_assoc] at hphase'
          exact hphase'
        · rw [advances, List.take_succ_cons, Hook.callAll_cons]
          dsimp only at hcalled ⊢
          rw [hcalled]

/-- The hooks for a kind that a service has from the start. -/
def builtIn [Inhabited σ] (kind : CommandKind) : List (Hook σ) :=
  if kind ∈ CommandKind.builtIn then [Hook.ofAction Engine.apply] else []

theorem start_hooksOf [Inhabited σ] (config : Config) (noise : Noise) (kind : CommandKind) :
    (start config noise : Service σ).hooksOf kind = builtIn kind :=
  Registry.hooks_standard kind

/-- What becomes of the hooks in a run from the start, in whatever order callers and worker make
their moves.

* The hooks of a kind, those taken out first, are those registered for it, in that order, after
  the one from the start if there is one.
* A command without hooks only makes the journal longer.
* For any other command the worker's next moves call its hooks one after the other, each once,
  whatever callers do in the meantime and whether or not a hook panics. These are all that were
  registered for its kind before. Each is given the engine, and what the hooks share, as the one
  before it left them, and nobody else changes these in the meantime. When all were called, they
  go back in front of those that were registered since. -/
theorem play_start [Inhabited σ] (config : Config) (noise : Noise) (moves : List (Move σ)) :
    let s := (start config noise).play moves
    (∀ kind, List.Forall₂ Hook.Descends (builtIn kind ++ registered kind moves)
        (s.out kind ++ s.registry.hooks kind)) ∧
      ∀ command rest, s.phase = .polling → s.queue = command :: rest →
        let due := s.registry.hooks command.kind
        (due = [] → s.advance =
          { s with
            queue := rest
            engine.journal := s.engine.journal.log .warn "daemon"
              ("no handler for " ++ command.kind.describe) }) ∧
        (due ≠ [] →
          List.Forall₂ Hook.Descends
              (builtIn command.kind ++ registered command.kind moves) due ∧
            ∀ during, advances during ≤ due.length →
              let n := advances during
              let t := s.advance.play during
              s.calls (.advance :: during) = (due.take n).map (Prod.mk command) ∧
                ∃ called, t.phase = .applying command called (due.drop n) ∧
                  List.Forall₂ (Hook.CalledWith command) (due.take n) called ∧
                  Hook.callAll command (due.take n) s.shared s.engine =
                    (called, t.shared, t.engine) ∧
                  t.registry.hooks command.kind = registered command.kind during ∧
                  (n = due.length → t.advance.phase = .polling ∧
                    t.advance.registry.hooks command.kind =
                      called ++ registered command.kind during)) := by
  intro s
  have hall (kind : CommandKind) : List.Forall₂ Hook.Descends
      (builtIn kind ++ registered kind moves) (s.out kind ++ s.registry.hooks kind) := by
    have hplay := play_hooksOf (start config noise) kind moves
    rwa [start_hooksOf] at hplay
  refine ⟨hall, ?_⟩
  intro command rest hphase hqueue due
  refine ⟨fun hnil => ?_, fun hne => ⟨?_, ?_⟩⟩
  · rw [advance_of_command hphase hqueue]
    exact begin_of_nil (s := { s with queue := rest }) hnil
  · have hout : s.out command.kind = [] := by rw [out, hphase]
    have hkind := hall command.kind
    rwa [hout, List.nil_append] at hkind
  · intro during hle n t
    have hadvance : s.advance =
        { s with
          queue := rest
          registry := s.registry.without command.kind
          phase := .applying command [] due } := by
      rw [advance_of_command hphase hqueue]
      exact begin_of_ne_nil (s := { s with queue := rest }) hne
    have hphase' : s.advance.phase = .applying command [] due := by rw [hadvance]
    have hhooks' : s.advance.registry.hooks command.kind = [] := by
      rw [hadvance, Registry.hooks_without, if_pos rfl]
    have hnext : s.next? = none := by rw [next?, hphase]
    obtain ⟨hcalls, called, hphase₁, hcalled, hhooks₁⟩ := play_applying during hphase' hle
    rw [hhooks', List.nil_append] at hhooks₁
    rw [List.nil_append] at hphase₁
    -- Taking the hooks out has changed neither the engine nor what is shared.
    have hshared : s.advance.shared = s.shared := by rw [hadvance]
    have hengine : s.advance.engine = s.engine := by rw [hadvance]
    rw [hshared, hengine] at hcalled
    have hcalledWith := Hook.forall₂_calledWith (due.take n) command s.shared s.engine
    rw [hcalled] at hcalledWith
    refine ⟨?_, called, hphase₁, hcalledWith, hcalled, hhooks₁, fun hn => ?_⟩
    · rw [calls, hnext]
      exact hcalls
    · have hcount : advances during = due.length := hn
      have hdone : t.phase = .applying command called [] := by
        rw [hphase₁, hcount, List.drop_length]
      have hfinish : t.advance = t.finish command called := by rw [advance, hdone]
      rw [hfinish]
      refine ⟨rfl, ?_⟩
      rw [finish, Registry.hooks_putBack, if_pos rfl, hhooks₁]

/-- Two hooks are called although the first one panics, and a third one that comes in between
waits for the next command. The second one finds what the first one left in the place that they
share. -/
theorem play_panicking_hook :
    let command := Command.custom "poke" []
    let panics : Hook Nat :=
      ⟨⟨fun store _ e => ({ store with shared := 7 }, e, .panicked none)⟩, 0⟩
    let copies : Hook Nat :=
      ⟨⟨fun store _ e => ({ store with own := store.shared }, e, .returned)⟩, 0⟩
    let moves := [.register command.kind panics, .register command.kind copies, .send command]
    let during := [.advance, .register command.kind panics, .advance]
    let s := (start default ⟨fun _ => 0, 0⟩).play moves
    s.phase = .polling ∧ s.queue = [command] ∧
      s.registry.hooks command.kind = [panics, copies] ∧
      s.calls (.advance :: during) = [(command, panics), (command, copies)] ∧
      (s.advance.play during).advance.registry.hooks command.kind =
        [panics, { copies with kept := 7 }, panics] := by
  intro command panics copies moves during s
  have hs : (start default ⟨fun _ => 0, 0⟩).play moves = s := rfl
  have hhooks : s.registry.hooks command.kind = [panics, copies] := by
    change (((Registry.standard).add _ panics).add _ copies).hooks _ = _
    rw [Registry.hooks_add, Registry.hooks_add, Registry.hooks_standard]
    simp [command, Command.kind, CommandKind.builtIn]
  have hcommand := (play_start default ⟨fun _ => 0, 0⟩ moves).2 command [] rfl rfl
  rw [hs, hhooks] at hcommand
  obtain ⟨-, hdue⟩ := hcommand
  obtain ⟨-, hduring⟩ := hdue (List.cons_ne_nil _ _)
  obtain ⟨hcalls, called, -, -, hall, -, hfinish⟩ := hduring during (Nat.le_refl 2)
  have hcalled : [panics, { copies with kept := 7 }] = called := congrArg Prod.fst hall
  refine ⟨rfl, rfl, hhooks, hcalls, (hfinish rfl).2.trans ?_⟩
  rw [← hcalled]
  simp [registered, during, command, Command.kind]

end Service

end Chip8
