import Chip8.Proofs.History
import Chip8.Proofs.WellFormed

/-!
# Loading a program

A program is checked twice before it is copied: the machine adds up its length and its address, and
memory asks whether the bytes from there on are a range. Both draw the line at the same place, also
for an empty program, which has an address but no bytes (`Memory.load_eq`). So

> `load_all_or_nothing`: a load puts the whole program where it belongs and changes nothing else, or
> it is refused by the machine's own check and changes nothing at all.
-/

namespace Chip8

theorem Memory.exists_load_iff (memory : Memory) (address : UInt16) (program : List UInt8) :
    (∃ memory', memory.load address program = .ok memory') ↔
      program.length + address.toNat ≤ 4096 := by
  rw [load_eq]
  split
  next hfits => exact iff_of_true ⟨_, rfl⟩ hfits
  next hlarge =>
    refine iff_of_false ?_ hlarge
    rintro ⟨memory', h⟩
    exact nomatch h

namespace Machine

variable {m m' : Machine} {program : List UInt8} {address : UInt16}

/-- The bytes of the program are in memory from the address on, and nothing else is different. -/
structure Holding (m : Machine) (program : List UInt8) (address : UInt16)
    (m' : Machine) : Prop where
  written : ∀ k (hk : k < program.length), m'.memory.peek (address.toNat + k) = program[k]
  others : ∀ a < 4096, a < address.toNat ∨ address.toNat + program.length ≤ a →
    m'.memory.peek a = m.memory.peek a
  rest : m' = { m with memory := m'.memory }

/-- The machine's own check is the same as that of memory, so it could be left out. -/
theorem load_eq_map (m : Machine) (program : List UInt8) (address : UInt16) :
    m.load program address =
      (m.memory.load address program).map fun memory => { m with memory } := by
  rw [Memory.load_eq]
  rcases Nat.lt_or_ge 4096 (program.length + address.toNat) with hlarge | hfits
  · rw [m.load_of_lt hlarge, if_neg (Nat.not_le.mpr hlarge)]
    rfl
  · rw [m.load_of_le hfits, if_pos hfits]
    rfl

theorem load_holding (h : m.load program address = .ok m') : m.Holding program address m' := by
  rcases Nat.lt_or_ge 4096 (program.length + address.toNat) with hlarge | hfits
  · rw [m.load_of_lt hlarge] at h
    exact nomatch h
  · rw [m.load_of_le hfits] at h
    obtain rfl := Except.ok.inj h
    constructor
    · intro k hk
      exact Memory.peek_writeBytes_add (by omega) hk
    · intro a ha hout
      refine Memory.peek_writeBytes_of_ne ?_
      intro k hk
      -- Within memory an address is its own remainder.
      omega
    · rfl

theorem load_error {f : Fault} (h : m.load program address = .error f) :
    f = .romTooLarge program.length address := by
  rcases Nat.lt_or_ge 4096 (program.length + address.toNat) with hlarge | hfits
  · rw [m.load_of_lt hlarge] at h
    exact (Except.error.inj h).symm
  · rw [m.load_of_le hfits] at h
    exact nomatch h

/-- A program of any length is loaded at an address exactly if it ends within memory.

* If it is loaded, its bytes are there, one after the other, and every other byte and every other
  part of the machine is as before.
* If it is refused, the fault has its length and the address, and the machine is the same.
* Memory by itself takes exactly the same programs at the same addresses. The machine that checks
  first and then leaves the copying to it does the same as one that would only ask memory. -/
theorem load_all_or_nothing (m : Machine) (program : List UInt8) (address : UInt16) :
    ((∃ m', m.load program address = .ok m') ↔ program.length + address.toNat ≤ 4096) ∧
    (∀ m', m.load program address = .ok m' → m.Holding program address m') ∧
    (∀ f, m.load program address = .error f →
      f = .romTooLarge program.length address ∧ (Request.load program address).apply m = m) ∧
    (∀ memory : Memory, (∃ memory', memory.load address program = .ok memory') ↔
      program.length + address.toNat ≤ 4096) ∧
    m.load program address =
      (m.memory.load address program).map fun memory => { m with memory } := by
  refine ⟨?_, fun m' => load_holding, ?_, fun memory => memory.exists_load_iff address program,
    m.load_eq_map program address⟩
  · constructor
    · rintro ⟨m', h⟩
      by_contra hlarge
      rw [m.load_of_lt (Nat.not_le.mp hlarge)] at h
      exact nomatch h
    · intro hfits
      exact ⟨_, m.load_of_le hfits⟩
  · intro f h
    refine ⟨load_error h, ?_⟩
    rw [Request.apply, h]
    rfl

/-- Right behind the last byte there is room for an empty program, and one byte further there is
not even that. -/
theorem nothing_behind_the_end :
    (∃ m', fresh.load [] 0x1000 = .ok m' ∧ m' = { fresh with memory := m'.memory }) ∧
      (∃ memory', Memory.fresh.load 0x1000 [] = .ok memory') ∧
      (∃ m', fresh.load [0x2a] 0xfff = .ok m' ∧ m'.memory.peek 0xfff = 0x2a) ∧
      fresh.load [] 0x1001 = .error (.romTooLarge 0 0x1001) ∧
      ¬ ∃ memory', Memory.fresh.load 0x1001 [] = .ok memory' := by
  obtain ⟨hloads, hholding, -, hmemory, -⟩ := load_all_or_nothing fresh [] 0x1000
  obtain ⟨hlast, hlast', -⟩ := load_all_or_nothing fresh [0x2a] 0xfff
  obtain ⟨hbehind, -, hrefused, hmemory', -⟩ := load_all_or_nothing fresh [] 0x1001
  obtain ⟨m', h⟩ := hloads.mpr (by decide)
  obtain ⟨m'', h'⟩ := hlast.mpr (by decide)
  have hbyte := (hlast' m'' h').written 0 (by decide)
  refine ⟨⟨m', h, (hholding m' h).rest⟩, (hmemory Memory.fresh).mpr (by decide), ⟨m'', h', hbyte⟩,
    ?_, ?_⟩
  · cases hended : fresh.load [] 0x1001 with
    | ok m' => exact absurd (hbehind.mp ⟨m', hended⟩) (by decide)
    | error f => rw [(hrefused f hended).1]; rfl
  · rw [hmemory' Memory.fresh]
    decide

end Machine

end Chip8
