import Chip8.Proofs.Lookup
import Chip8.Proofs.Execute
import Chip8.Proofs.Words

/-!
# What a tick can do

`Tick` lists the ways in which a tick may end, each with everything that is known when it ends
that way:

> `tick_case`: a tick ends in one of them.

A word can be fetched exactly where a whole instruction fits (`readWord_of_le`,
`readWord_of_lt`), so with a program counter in range a tick fails only after decoding. With the
standard table only an instruction changes anything (`tick_standard`).
-/

namespace Chip8

/-! ## Fetching -/

namespace Memory

/-- A check of two bytes at a 16-bit address looks at the end of memory only. -/
theorem check_word (address : UInt16) :
    check address.toNat 2 =
      if address.toNat ≤ 4094 then .ok ()
      else .error (.fault (.invalidAddressRange address.toNat 2)) := by
  have haddress := address.toNat_lt
  have hlimit : countLimit = 18446744073709551616 := rfl
  by_cases h : address.toNat ≤ 4094
  · rw [if_pos h, check_of_fits (by omega)]
  · rw [if_neg h, check_of_outside (by omega) (by omega)]

end Memory

namespace Machine

variable {m m' : Machine} {table : Table} {noise : UInt8}

/-- The word at an address and behind it, whatever reads it. -/
def wordAt (m : Machine) (address : Nat) : UInt16 :=
  Memory.joinBytes (m.memory.peek address) (m.memory.peek (address + 1))

theorem readWord_eq {address : UInt16} (h : address ≤ lastInstruction) :
    m.readWord address = .ok (m.wordAt address.toNat) :=
  Memory.readWord_of_fits (Nat.add_le_add_right (UInt16.le_iff_toNat_le.mp h) 2)

theorem readWord_of_le {address : UInt16} (h : address ≤ lastInstruction) :
    ∃ word, m.readWord address = .ok word := ⟨_, readWord_eq h⟩

theorem readWord_of_lt {address : UInt16} (h : lastInstruction < address) :
    m.readWord address = .error (.fault (.invalidAddressRange address.toNat 2)) := by
  have hlt : 4094 < address.toNat := UInt16.lt_iff_toNat_lt.mp h
  unfold readWord Memory.readWord
  rw [Memory.check_word, if_neg (Nat.not_le.mpr hlt)]
  rfl

/-! ## The ways a tick may end -/

/-- The handler that a tick runs, the operands that it gets, and how it ended. It starts with
the program counter behind the instruction. -/
structure Runs (m : Machine) (table : Table) (noise : UInt8) (h : Handler)
    (ended : Outcome Machine) : Prop where
  idle : m.waiting = none
  fetched : ∃ word, m.readWord m.pc = .ok word ∧ table.lookup word = some h ∧
    h.execute noise (Operands.ofWord word) (m.withPc (m.pc + 2)) = ended

/-- The ways in which a tick may end. -/
inductive Tick (m : Machine) (table : Table) (noise : UInt8) : Outcome Machine → Prop where
  | waits (h : m.waiting ≠ none) : Tick m table noise (.done m)
  | unreadable (h : lastInstruction < m.pc) :
    Tick m table noise (.fault (.invalidAddressRange m.pc.toNat 2) m)
  | unknown {word : UInt16} (hword : m.readWord m.pc = .ok word)
    (hnone : table.lookup word = none) :
    Tick m table noise (.fault (.unimplementedInstruction word m.pc) m)
  | refused {h : Handler} {f : Fault} {after : Machine}
    (hruns : m.Runs table noise h (.fault f after)) :
    Tick m table noise (.fault f (after.withPc m.pc))
  | strays {h : Handler} {after : Machine} (hruns : m.Runs table noise h (.done after))
    (hpc : lastInstruction < after.pc) :
    Tick m table noise (.fault (.programCounterOutOfRange after.pc m.pc) (after.withPc m.pc))
  | counts {h : Handler} {after : Machine} (hruns : m.Runs table noise h (.done after))
    (hpc : after.pc ≤ lastInstruction) (hcycle : after.cycle + 1 < countLimit) :
    Tick m table noise (.done { after with cycle := after.cycle + 1 })
  | overflows {h : Handler} {after : Machine} (hruns : m.Runs table noise h (.done after))
    (hcycle : countLimit ≤ after.cycle + 1) : Tick m table noise .crash
  | crashes {h : Handler} (hruns : m.Runs table noise h .crash) : Tick m table noise .crash

/-- Once the handler has ended, the tick ends accordingly. -/
theorem tick_conclude {h : Handler} {ended : Outcome Machine}
    (hruns : m.Runs table noise h ended) : Tick m table noise (conclude m.pc ended) := by
  match ended, hruns with
  | .crash, hruns => exact .crashes hruns
  | .fault f after, hruns => exact .refused hruns
  | .done after, hruns =>
    rw [conclude]
    split
    next hpc => exact .strays hruns hpc
    next hpc =>
      unfold count
      split
      next hcycle => exact .counts hruns (UInt16.not_lt.mp hpc) hcycle
      next hcycle => exact .overflows hruns (Nat.not_lt.mp hcycle)

theorem tick_of_waiting (h : m.waiting ≠ none) : m.tick table noise = .done m :=
  if_pos (Option.isSome_iff_ne_none.mpr h)

theorem tick_of_idle (h : m.waiting = none) :
    m.tick table noise = match m.readWord m.pc with
      | .error .crash => .crash
      | .error (.fault f) => .fault f m
      | .ok word => m.perform table noise m.pc word := by
  rw [tick, isWaiting, h]
  exact if_neg nofun

/-- A word without a handler is reported, and nothing changes. -/
theorem tick_of_unknown (hidle : m.waiting = none) {word : UInt16}
    (hword : m.readWord m.pc = .ok word) (hnone : table.lookup word = none) :
    m.tick table noise = .fault (.unimplementedInstruction word m.pc) m := by
  rw [tick_of_idle hidle, hword]
  dsimp only [perform, Table.decode]
  rw [hnone]
  rfl

theorem Runs.tick_eq {h : Handler} {ended : Outcome Machine} (hruns : m.Runs table noise h ended) :
    m.tick table noise = conclude m.pc ended := by
  obtain ⟨hidle, word, hword, hlookup, hrun⟩ := hruns
  rw [tick_of_idle hidle, hword]
  dsimp only [perform, Table.decode]
  rw [hlookup]
  dsimp only [Option.map_some]
  rw [hrun]

theorem Runs.tick_done {h : Handler} {after : Machine} (hruns : m.Runs table noise h (.done after))
    (hpc : after.pc ≤ lastInstruction) : m.tick table noise = after.count := by
  rw [hruns.tick_eq, conclude, if_neg (UInt16.not_lt.mpr hpc)]

theorem Runs.tick_refused {h : Handler} {f : Fault} {after : Machine}
    (hruns : m.Runs table noise h (.fault f after)) :
    m.tick table noise = .fault f (after.withPc m.pc) := by
  rw [hruns.tick_eq, conclude]

theorem tick_case (m : Machine) (table : Table) (noise : UInt8) :
    m.Tick table noise (m.tick table noise) := by
  by_cases hidle : m.waiting = none
  · -- A word is fetched or not, and then there is a handler for it or not.
    by_cases hpc : lastInstruction < m.pc
    · rw [tick_of_idle hidle, readWord_of_lt hpc]
      exact .unreadable hpc
    · obtain ⟨word, hword⟩ := m.readWord_of_le (UInt16.not_lt.mp hpc)
      cases hlookup : table.lookup word with
      | none =>
        rw [tick_of_unknown hidle hword hlookup]
        exact .unknown hword hlookup
      | some h =>
        have hruns : m.Runs table noise h _ := ⟨hidle, word, hword, hlookup, rfl⟩
        rw [hruns.tick_eq]
        exact tick_conclude hruns
  · rw [tick_of_waiting hidle]
    exact .waits hidle

end Machine

/-! ## Which handler runs -/

namespace Table

/-- Further handlers on top of the standard ones. A word gets a standard handler or one of
them. -/
theorem lookup_extended {extra : List Handler} {word : UInt16} {h : Handler}
    (hlookup : (standard.registerAll extra).lookup word = some h) :
    (∃ op : Op, h = op.handler) ∨ h ∈ extra := by
  have hall : standard.registerAll extra =
      empty.registerAll (Op.all.map Op.handler ++ extra) := by
    rw [standard, registerAll, registerAll, registerAll, List.foldl_append]
  rw [hall] at hlookup
  rcases List.mem_append.mp (mem_of_lookup_registerAll hlookup) with hmem | hmem
  · obtain ⟨op, -, rfl⟩ := List.mem_map.mp hmem
    exact Or.inl ⟨op, rfl⟩
  · exact Or.inr hmem

theorem lookup_standard {word : UInt16} {h : Handler} (hlookup : standard.lookup word = some h) :
    ∃ op : Op, h = op.handler := by
  have hmem := mem_of_lookup_registerAll hlookup
  obtain ⟨op, -, rfl⟩ := List.mem_map.mp hmem
  exact ⟨op, rfl⟩

end Table

namespace Machine

/-- In the standard table only a return, a call and the end of the program fail by themselves, and
then they have changed nothing yet. -/
theorem Runs.refused_standard {m after : Machine} {noise : UInt8} {h : Handler} {f : Fault}
    (hruns : m.Runs Table.standard noise h (.fault f after)) :
    after = m.withPc (m.pc + 2) ∧ ∃ address,
      f = .stackUnderflow address ∨ f = .stackOverflow address ∨ f = .exited address := by
  obtain ⟨-, word, -, hlookup, hrun⟩ := hruns
  obtain ⟨op, rfl⟩ := Table.lookup_standard hlookup
  obtain ⟨hafter, hfault⟩ := Op.execute_fault hrun
  refine ⟨hafter, (m.withPc (m.pc + 2)).here, ?_⟩
  rcases hfault with ⟨-, -, hret⟩ | ⟨-, -, hcall⟩ | ⟨-, hexit⟩
  · exact Or.inl hret
  · exact Or.inr (Or.inl hcall)
  · exact Or.inr (Or.inr hexit)

/-- What a tick with the standard table leaves behind, failed or not, is the machine as it was or
what an instruction made of it, but for program counter and count. -/
theorem tick_standard {m m' : Machine} {noise : UInt8}
    (hleft : (m.tick Table.standard noise).state? = some m') :
    m' = m ∨ ∃ (op : Op) (o : Operands) (after : Machine),
      op.execute noise o (m.withPc (m.pc + 2)) = .done after ∧
        ∃ pc cycle, m' = { after with pc, cycle } := by
  have hcase := m.tick_case Table.standard noise
  generalize m.tick Table.standard noise = ended at hleft hcase
  cases hcase with
  | waits | unreadable | unknown => exact Or.inl (Option.some.inj hleft).symm
  | refused hruns =>
    obtain ⟨rfl, -⟩ := hruns.refused_standard
    exact Or.inl (Option.some.inj hleft).symm
  | strays hruns | counts hruns =>
    obtain ⟨-, word, -, hlookup, hrun⟩ := hruns
    obtain ⟨op, rfl⟩ := Table.lookup_standard hlookup
    exact Or.inr ⟨op, _, _, hrun, _, _, (Option.some.inj hleft).symm⟩
  | overflows | crashes => exact nomatch hleft

end Machine

end Chip8
