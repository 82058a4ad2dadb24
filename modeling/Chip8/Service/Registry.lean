import Chip8.Command
import Chip8.Engine.Basic

/-!
# Hooks

A hook is called when a command of its kind is applied. It may change the engine, it keeps
something of its own between calls, and there is something that all hooks share: what one
of them leaves there, the next one finds. A registry has hooks in the order in which they
came. The hooks of one kind can be taken out, and when they come back they go in front of
those of their kind that came in the meantime.
-/

namespace Chip8

/-- How a call of a hook ended. -/
inductive Ending where
  /-- In the normal way. -/
  | returned
  /-- By a panic, for which there may be a reason. -/
  | panicked (reason : Option String)
  deriving DecidableEq, Repr

/-- What a hook finds when it is called: what all hooks share, and what it keeps for itself. -/
structure Store (σ : Type) where
  shared : σ
  own : σ

/-- What a hook does when it is called. -/
structure Action (σ : Type) where
  run : Store σ → Command → Engine → Store σ × Engine × Ending

/-- An action that leaves alone what is shared. -/
def Action.apart {σ : Type} (act : σ → Command → Engine → σ × Engine × Ending) : Action σ where
  run store command e :=
    let (own, engine, ending) := act store.own command e
    ({ store with own }, engine, ending)

/-- A function of what a hook keeps, the command and the engine is an action too. -/
instance {σ : Type} : Coe (σ → Command → Engine → σ × Engine × Ending) (Action σ) :=
  ⟨Action.apart⟩

/-- What a hook does, and what it keeps between calls. -/
structure Hook (σ : Type) where
  act : Action σ
  kept : σ

namespace Hook

variable {σ : Type}

/-- Calls a hook with what is shared. -/
def call (h : Hook σ) (command : Command) (shared : σ) (e : Engine) :
    Hook σ × σ × Engine × Ending :=
  let (store, engine, ending) := h.act.run ⟨shared, h.kept⟩ command e
  ({ h with kept := store.own }, store.shared, engine, ending)

/-- A hook that keeps nothing of interest. -/
def ofAction [Inhabited σ] (action : Command → Engine → Engine × Ending) : Hook σ where
  act := ⟨fun store command e => (store, action command e)⟩
  kept := default

end Hook

/-- Hooks with the kinds that they are for, in the order in which they came. -/
structure Registry (σ : Type) where
  entries : List (CommandKind × Hook σ)

namespace Registry

variable {σ : Type}

/-- No hooks. -/
def empty : Registry σ := ⟨[]⟩

/-- Adds a hook behind all others. -/
def add (r : Registry σ) (kind : CommandKind) (h : Hook σ) : Registry σ :=
  ⟨r.entries ++ [(kind, h)]⟩

/-- The hooks of a kind in order. -/
def hooks (r : Registry σ) (kind : CommandKind) : List (Hook σ) :=
  (r.entries.filter fun entry => entry.1 = kind).map Prod.snd

/-- The registry without the hooks of a kind. -/
def without (r : Registry σ) (kind : CommandKind) : Registry σ :=
  ⟨r.entries.filter fun entry => entry.1 ≠ kind⟩

/-- Puts hooks of a kind back, in front of all others. -/
def putBack (r : Registry σ) (kind : CommandKind) (hooks : List (Hook σ)) : Registry σ :=
  ⟨hooks.map (fun h => (kind, h)) ++ r.entries⟩

end Registry

end Chip8
