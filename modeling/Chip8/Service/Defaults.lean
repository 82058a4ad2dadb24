import Chip8.Service.Registry

/-!
# What commands do by themselves

Every kind of command that is not custom has a hook from the start. What it does is logged
by the service, as information if it worked and as a warning or an error if it did not.
-/

namespace Chip8

open Text

namespace Engine

/-- Logs a fault under the service's name. -/
def report (e : Engine) (level : Journal.Level) (f : Fault) : Engine :=
  e.log level "daemon" f.message

/-- Takes the machine that an operation on keys left, or warns of its fault. -/
def withKeys (e : Engine) : Except Fault (Machine × Bool) → Engine
  | .ok (machine, _) => { e with machine }
  | .error f => e.report .warn f

/-- The effect of a command, apart from one more instruction. -/
def obey (e : Engine) : Command → Engine
  | .load program address =>
    match e.load program address with
    | .done loaded =>
      loaded.log .info "daemon"
        ("loaded " ++ decimal program.length ++ " bytes at " ++ lowerHex 3 address.toNat)
    | .fault f cleared => cleared.report .error f
    | .crash => e
  | .run => (e.setState .running).log .info "daemon" "running"
  | .pause => (e.setState .paused).log .info "daemon" "paused"
  | .keyDown key => e.withKeys (e.machine.press key.toNat)
  | .keyUp key => e.withKeys (e.machine.release key.toNat)
  | .setClockSpeed speed =>
    match e.setClockSpeed speed with
    | .ok changed =>
      changed.log .info "daemon" ("clock speed " ++ decimal speed.toNat ++ " Hz")
    | .error f => e.report .warn f
  | .reset => e.reset.log .info "daemon" "reset"
  | .step | .custom .. => e

/-- The effect of any command. Faults of a step are already in the journal.

A step that crashes panics. It does so only when the count of instructions is at its limit, after
the instruction was carried out. Of such a step nothing is kept here: the engine is the one from
before it, without the entry that the step may have logged and without the instruction's effects. -/
def apply (command : Command) (e : Engine) : Engine × Ending :=
  match command with
  | .step =>
    match e.step with
    | .done stepped => (stepped, .returned)
    | .fault _ stepped => (stepped, .returned)
    | .crash => (e, .panicked (some "attempt to add with overflow"))
  | other => (e.obey other, .returned)

end Engine

/-- A hook for every kind that is not custom. -/
def Registry.standard {σ : Type} [Inhabited σ] : Registry σ :=
  ⟨CommandKind.builtIn.map fun kind => (kind, Hook.ofAction Engine.apply)⟩

end Chip8
