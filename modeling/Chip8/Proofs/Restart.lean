import Chip8.Proofs.History

/-!
# Starting over

A reset gives the machine the remembered program again and says nothing about how that went. It
always goes well: a program is remembered when it was loaded, so it fits. What is left of the old
machine are the held keys and the saved registers, whatever ran on it before.

> `reset_replays`: a reset of an engine is a load of the last program that fitted, and a load
> that fails in between makes no difference to it.
-/

namespace Chip8

/-- A machine that starts over is a new one apart from keys and saved registers. -/
theorem Machine.reset_eq (m : Machine) :
    m.reset = { Machine.fresh with keys := m.keys, rpl := m.rpl } := rfl

theorem Machine.reset_reset (m : Machine) : m.reset.reset = m.reset := by
  rw [reset_eq m.reset, reset_eq]

theorem Machine.reset_memory (m : Machine) : m.reset.memory = Memory.fresh := by
  rw [reset, idle]

namespace Engine

variable {events : List Event} {e failed : Engine} {program : List UInt8} {address : UInt16}

/-- What a reset does if the remembered program fits. -/
theorem reset_of_program (hprogram : e.program = some (program, address))
    (hfits : program.length + address.toNat ≤ 4096) :
    e.reset = { e with
      machine := { e.machine.reset with
        memory := Memory.fresh.writeBytes address.toNat program }
      fault := none } := by
  rw [reset, hprogram]
  dsimp only
  rw [Machine.load_of_le _ hfits]
  rfl

theorem load_fault {f : Fault} (h : e.load program address = .fault f failed) :
    failed = { e with machine := e.machine.reset, fault := none } := by
  rcases Nat.lt_or_ge 4096 (program.length + address.toNat) with hlarge | hfits
  · rw [e.load_of_lt hlarge] at h
    cases h
    rfl
  · rw [e.load_of_le hfits] at h
    exact nomatch h

/-- After any history that begins with a new engine:

* the program that the engine remembers is that of the last load that worked;
* it fits, so that loading it works, and a reset is that load: it leaves a new machine with the
  program's bytes in memory, apart from the keys and the saved registers, which stay;
* a load that fails leaves a new machine with the same keys and saved registers behind, and no
  fault; all else stays, and a reset then does what it would have done before. -/
theorem reset_replays {config : Config} {journal : Journal} {noise : Noise}
    (h : History (start config journal noise) events e) :
    e.program = lastLoaded events ∧
    (∀ program address, e.program = some (program, address) →
      program.length + address.toNat ≤ 4096 ∧
      e.machine.reset.load program address = .ok e.reset.machine ∧
      e.load program address = .done e.reset ∧
      ∃ memory : Memory,
        e.reset = { e with
          machine := { Machine.fresh with memory, keys := e.machine.keys, rpl := e.machine.rpl }
          fault := none } ∧
        (∀ k (hk : k < program.length), memory.peek (address.toNat + k) = program[k]) ∧
        ∀ c < 4096, c < address.toNat ∨ address.toNat + program.length ≤ c →
          memory.peek c = Memory.fresh.peek c) ∧
    ∀ program address f failed, e.load program address = .fault f failed →
      failed = { e with
        machine := { Machine.fresh with keys := e.machine.keys, rpl := e.machine.rpl }
        fault := none } ∧
      failed.reset = e.reset := by
  have he := h.records
  refine ⟨he.program_eq, fun program address hprogram => ?_,
    fun program address f failed hload => ?_⟩
  · have hfits := he.program_fits program address hprogram
    have hreset := reset_of_program hprogram hfits
    refine ⟨hfits, ?_, ?_, Memory.fresh.writeBytes address.toNat program, ?_,
      fun k hk => Memory.peek_writeBytes_add (by omega) hk,
      fun c hc hout => Memory.peek_writeBytes_of_ne fun k hk => by omega⟩
    · rw [Machine.load_of_le _ hfits, Machine.reset_memory, hreset]
    · rw [e.load_of_le hfits, hreset, hprogram]
    · rw [hreset, Machine.reset_eq]
  · obtain rfl := load_fault hload
    refine ⟨by rw [Machine.reset_eq], ?_⟩
    rw [reset, reset]
    dsimp only
    rw [Machine.reset_reset]

/-- A program of two bytes comes back although a third of a larger one was refused since. -/
theorem replay_after_refusal :
    let new := start default (Journal.ofCapacity 0) ⟨fun _ => 0, 0⟩
    let program : List UInt8 := [0x60, 0x2a]
    ∃ before after : Engine, History new
        [⟨.load [1, 2, 3] 0xffe, some (.romTooLarge 3 0xffe)⟩,
          ⟨.change fun m => m.setV 3 7, none⟩,
          ⟨.load program programStart, none⟩] after ∧
      before.load [1, 2, 3] 0xffe = .fault (.romTooLarge 3 0xffe) after ∧
      after.reset = before.reset ∧
      after.program = some (program, programStart) ∧
      after.load program programStart = .done after.reset ∧
      after.reset.machine.memory.peek 0x201 = 0x2a := by
  intro new program
  have hload : new.load program programStart = _ := new.load_of_le (by decide)
  generalize Engine.mk _ _ _ _ _ _ _ _ _ _ = loaded at hload
  have hloaded : History new [⟨.load program programStart, none⟩] loaded :=
    History.start.done (.load program programStart) hload
  have hchanged := hloaded.done (.change fun m => m.setV 3 7) rfl
  generalize Engine.mk _ _ _ _ _ _ _ _ _ _ = changed at hchanged
  have hrefused : changed.load [1, 2, 3] 0xffe = _ := changed.load_of_lt (by decide)
  have hafter := hchanged.failed (.load [1, 2, 3] 0xffe) hrefused
  obtain ⟨-, -, hfailed⟩ := reset_replays hchanged
  obtain ⟨hprogram, hreplay, -⟩ := reset_replays hafter
  obtain ⟨-, -, hload', memory, hreset, hbytes, -⟩ := hreplay program programStart hprogram
  refine ⟨_, _, hafter, hrefused, (hfailed _ _ _ _ hrefused).2, hprogram, hload', ?_⟩
  rw [hreset]
  exact hbytes 1 (by decide)

end Engine

end Chip8
