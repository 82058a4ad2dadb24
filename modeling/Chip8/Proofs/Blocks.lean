import Chip8.Proofs.Decode

/-!
# Blocks of registers and bytes

Two pairs of instructions copy registers out and back again, to memory and to the saved registers,
and one instruction writes a register to memory in decimal. `Stores`, `Loads`, `Saves`, `Restores`
and `Spells` say what each of them leaves: the places that it writes, with what is there then, and
that all the rest stays. A block of bytes begins where the index register points, and each of its
addresses is reduced to 12 bits by itself (`blockAddress`).

> `block_transfers`: each of the five words does what its relation says, to every machine, and what
> is copied back is what was copied out, whatever else the machine did in between.

A block is never longer than memory, so no byte of it is written over by a later one. That is what
`Memory.peek_writeBytes_add` is about.
-/

namespace Chip8.Machine

/-- The address of byte `k` of the block where the index register points. -/
def blockAddress (m : Machine) (k : Nat) : Nat := (m.i.toNat + k) % 4096

/-! ## What the instructions leave -/

/-- Registers 0 to `x` are in memory afterwards, where the index register points. -/
structure Stores (m : Machine) (x : Nibble) (m' : Machine) : Prop where
  written : ∀ k ≤ x, m'.memory.peek (m.blockAddress k.val) = m.reg k
  others : ∀ a < 4096, (∀ k ≤ x, m.blockAddress k.val ≠ a) → m'.memory.peek a = m.memory.peek a
  rest : m' = { m with memory := m'.memory }

/-- Registers 0 to `x` are afterwards the bytes where the index register points. -/
structure Loads (m : Machine) (x : Nibble) (m' : Machine) : Prop where
  written : ∀ k ≤ x, m'.reg k = m.memory.peek (m.blockAddress k.val)
  others : ∀ k, x < k → m'.reg k = m.reg k
  rest : m' = { m with v := m'.v }

/-- Registers 0 to `x`, the first eight at most, are saved afterwards. -/
structure Saves (m : Machine) (x : Nibble) (m' : Machine) : Prop where
  written : ∀ k : Fin 8, k.val ≤ x.val → m'.rpl.get k = m.reg (k.castAdd 8)
  others : ∀ k : Fin 8, x.val < k.val → m'.rpl.get k = m.rpl.get k
  rest : m' = { m with rpl := m'.rpl }

/-- Registers 0 to `x`, the first eight at most, are afterwards those that were saved. -/
structure Restores (m : Machine) (x : Nibble) (m' : Machine) : Prop where
  written : ∀ k : Fin 8, k.val ≤ x.val → m'.reg (k.castAdd 8) = m.rpl.get k
  others : ∀ k : Nibble, min x.val 7 < k.val → m'.reg k = m.reg k
  rest : m' = { m with v := m'.v }

/-- The three decimal digits of `b` are in memory afterwards, where the index register points. -/
structure Spells (m : Machine) (b : UInt8) (m' : Machine) : Prop where
  digits : ∀ k ≤ 2, m'.memory.peek (m.blockAddress k) ≤ 9
  value : 100 * (m'.memory.peek (m.blockAddress 0)).toNat +
    10 * (m'.memory.peek (m.blockAddress 1)).toNat +
    (m'.memory.peek (m.blockAddress 2)).toNat = b.toNat
  others : ∀ a < 4096, (∀ k ≤ 2, m.blockAddress k ≠ a) → m'.memory.peek a = m.memory.peek a
  rest : m' = { m with memory := m'.memory }

variable {m stored loaded saved restored between : Machine} {x : Nibble}

/-! ## Bytes -/

/-- What a block of bytes leaves in memory, byte by byte. -/
theorem peek_block {data : List UInt8} (hlength : data.length ≤ 4096) {k : Nat}
    (hk : k < data.length) :
    (m.memory.writeBytes m.i.toNat data).peek (m.blockAddress k) = data[k] := by
  rw [blockAddress, Memory.peek_mod]
  exact Memory.peek_writeBytes_add hlength hk

theorem peek_outside_block {data : List UInt8} {a : Nat} (ha : a < 4096)
    (hout : ∀ k < data.length, m.blockAddress k ≠ a) :
    (m.memory.writeBytes m.i.toNat data).peek a = m.memory.peek a := by
  refine Memory.peek_writeBytes_of_ne ?_
  intro k hk heq
  rw [Nat.mod_eq_of_lt ha] at heq
  exact hout k hk heq

theorem storeRegisters_stores (m : Machine) (x : Nibble) : m.Stores x (m.storeRegisters x) := by
  have hlength : (m.v.toList.take (x.val + 1)).length = x.val + 1 := m.length_take_registers x
  constructor
  · intro k hk
    have hlt : k.val < (m.v.toList.take (x.val + 1)).length := by
      rw [hlength]
      exact Nat.lt_succ_of_le hk
    show (m.memory.writeBytes m.i.toNat (m.v.toList.take (x.val + 1))).peek _ = m.reg k
    rw [peek_block (by omega) hlt, List.getElem_take, Vector.getElem_toList]
    rfl
  · intro a ha hout
    refine peek_outside_block ha ?_
    intro k hk
    have hle : k ≤ x.val := by omega
    exact hout ⟨k, by omega⟩ hle
  · rfl

theorem loadRegisters_loads (m : Machine) (x : Nibble) : m.Loads x (m.loadRegisters x) := by
  have hreg (k : Nibble) : (m.loadRegisters x).reg k =
      if k ≤ x then m.memory.peek (m.i.toNat + k.val) else m.reg k :=
    Vector.getElem_ofFn k.isLt
  constructor
  · intro k hk
    rw [hreg, if_pos hk, blockAddress, Memory.peek_mod]
  · intro k hk
    rw [hreg, if_neg (Fin.not_le.mpr hk)]
  · rfl

/-- What was stored is loaded again. -/
theorem Stores.reg_of_loads (hstored : m.Stores x stored) (hmemory : between.memory = stored.memory)
    (hi : between.i = stored.i) (hloaded : between.Loads x loaded) :
    ∀ k ≤ x, loaded.reg k = m.reg k := by
  intro k hk
  have hindex : stored.i = m.i := by rw [hstored.rest]
  have haddress : between.blockAddress k.val = m.blockAddress k.val := by
    rw [blockAddress, hi, hindex, blockAddress]
  rw [hloaded.written k hk, hmemory, haddress, hstored.written k hk]

/-! ## Saved registers -/

theorem afterSave_saves (m : Machine) (x : Nibble) : m.Saves x (m.afterSave x) := by
  have hrpl (k : Fin 8) : (m.afterSave x).rpl.get k =
      if k.val ≤ x.val then m.reg (k.castAdd 8) else m.rpl.get k :=
    Vector.getElem_ofFn k.isLt
  constructor
  · intro k hk
    rw [hrpl, if_pos hk]
  · intro k hk
    rw [hrpl, if_neg (Nat.not_le.mpr hk)]
  · rfl

theorem afterRestore_restores (m : Machine) (x : Nibble) :
    m.Restores x (m.afterRestore x) := by
  have hreg (k : Nibble) : (m.afterRestore x).reg k =
      if h : k.val < 8 then (if k ≤ x then m.rpl.get ⟨k.val, h⟩ else m.reg k) else m.reg k :=
    Vector.getElem_ofFn k.isLt
  constructor
  · intro k hk
    have hle : k.castAdd 8 ≤ x := hk
    have hlt : (k.castAdd 8).val < 8 := k.isLt
    rw [hreg, dif_pos hlt, if_pos hle]
    rfl
  · intro k hk
    rw [hreg]
    split
    next hlt =>
      -- Below the eighth register the bound is `x` itself.
      have hbeyond : ¬ k.val ≤ x.val := by omega
      exact if_neg hbeyond
    next => rfl
  · rfl

/-- What was saved is restored. -/
theorem Saves.reg_of_restores (hsaved : m.Saves x saved) (hrpl : between.rpl = saved.rpl)
    (hrestored : between.Restores x restored) :
    ∀ k : Nibble, k.val ≤ min x.val 7 → restored.reg k = m.reg k := by
  intro k hk
  have hle : k.val ≤ x.val := by omega
  have hwritten := hrestored.written ⟨k.val, by omega⟩ hle
  rw [hrpl, hsaved.written ⟨k.val, by omega⟩ hle] at hwritten
  exact hwritten

/-! ## Decimal digits -/

theorem writeDigits_spells (m : Machine) (b : UInt8) : m.Spells b (m.writeDigits b) := by
  have hb := b.toNat_lt
  have hdigit (k : Nat) (hk : k < 3) : (m.writeDigits b).memory.peek (m.blockAddress k) =
      [b / 100 % 10, b / 10 % 10, b % 10][k] := peek_block (by simp) hk
  constructor
  · intro k hk
    rw [hdigit k (by omega), UInt8.le_iff_toNat_le]
    show _ ≤ 9
    match k, hk with
    | 0, _ | 1, _ | 2, _ =>
      simp
      omega
  · rw [hdigit 0 (by omega), hdigit 1 (by omega), hdigit 2 (by omega)]
    simp
    omega
  · intro a ha hout
    refine peek_outside_block ha ?_
    intro k hk
    exact hout k (Nat.le_of_lt_succ hk)
  · rfl

/-! ## The five words -/

section Words

variable {noise : UInt8}

/-- A word that works on one register does so with the one in its second digit. -/
theorem obey_register (op : Op) (next : Nibble → Machine) {a c d : Nibble} (hop : op ≠ .sys)
    (hacc : op.pattern.accepts (wordOf a x c d) = true)
    (hexecute : ∀ o : Operands, op.execute noise o m = .done (next o.x)) :
    m.obey noise (wordOf a x c d) = some (.done (next x)) := by
  refine obey_wordOf op hop hacc ?_
  intro o hx _ _
  rw [hexecute, hx]

theorem obey_store : m.obey noise (wordOf 0xf x 0x5 0x5) = some (.done (m.storeRegisters x)) :=
  obey_register .ldMemVx m.storeRegisters nofun (Pattern.accepts_wordOf ..) fun _ => rfl

theorem obey_load : m.obey noise (wordOf 0xf x 0x6 0x5) = some (.done (m.loadRegisters x)) :=
  obey_register .ldVxMem m.loadRegisters nofun (Pattern.accepts_wordOf ..) fun _ => rfl

theorem obey_save : m.obey noise (wordOf 0xf x 0x7 0x5) = some (.done (m.afterSave x)) :=
  obey_register .ldRVx m.afterSave nofun (Pattern.accepts_wordOf ..) fun _ => Op.execute_ldRVx

theorem obey_restore :
    m.obey noise (wordOf 0xf x 0x8 0x5) = some (.done (m.afterRestore x)) :=
  obey_register .ldVxR m.afterRestore nofun (Pattern.accepts_wordOf ..) fun _ => Op.execute_ldVxR

theorem obey_spell :
    m.obey noise (wordOf 0xf x 0x3 0x3) = some (.done (m.writeDigits (m.reg x))) :=
  obey_register .ldBVx (fun x => m.writeDigits (m.reg x)) nofun (Pattern.accepts_wordOf ..)
    fun _ => rfl

end Words

/-- Block transfers, for every machine and every register `x`.

* The words `Fx55` and `Fx65` copy registers 0 to `x` to memory and back. Whatever machine there is
  by then, if it has the memory and the index register that were left, the registers come back.
* The words `Fx75` and `Fx85` do the same with the first eight registers and the saved ones.
* The word `Fx33` writes the three decimal digits of register `x` to memory.

Nothing else changes with any of them. -/
theorem block_transfers (m : Machine) (noise : UInt8) (x : Nibble) :
    (∃ stored, m.obey noise (wordOf 0xf x 0x5 0x5) = some (.done stored) ∧ m.Stores x stored ∧
      ∀ (between : Machine) (noise' : UInt8), between.memory = stored.memory →
        between.i = stored.i →
          ∃ loaded, between.obey noise' (wordOf 0xf x 0x6 0x5) = some (.done loaded) ∧
            ∀ k ≤ x, loaded.reg k = m.reg k) ∧
    (∃ loaded, m.obey noise (wordOf 0xf x 0x6 0x5) = some (.done loaded) ∧ m.Loads x loaded) ∧
    (∃ saved, m.obey noise (wordOf 0xf x 0x7 0x5) = some (.done saved) ∧ m.Saves x saved ∧
      ∀ (between : Machine) (noise' : UInt8), between.rpl = saved.rpl →
        ∃ restored, between.obey noise' (wordOf 0xf x 0x8 0x5) = some (.done restored) ∧
          ∀ k : Nibble, k.val ≤ min x.val 7 → restored.reg k = m.reg k) ∧
    (∃ restored, m.obey noise (wordOf 0xf x 0x8 0x5) = some (.done restored) ∧
      m.Restores x restored) ∧
    ∃ spelled, m.obey noise (wordOf 0xf x 0x3 0x3) = some (.done spelled) ∧
      m.Spells (m.reg x) spelled := by
  have hstores := m.storeRegisters_stores x
  have hsaves := m.afterSave_saves x
  refine ⟨⟨_, obey_store, hstores, ?_⟩, ⟨_, obey_load, m.loadRegisters_loads x⟩,
    ⟨_, obey_save, hsaves, ?_⟩, ⟨_, obey_restore, m.afterRestore_restores x⟩,
    ⟨_, obey_spell, m.writeDigits_spells (m.reg x)⟩⟩
  · intro between noise' hmemory hi
    exact ⟨_, obey_load, hstores.reg_of_loads hmemory hi (between.loadRegisters_loads x)⟩
  · intro between noise' hrpl
    exact ⟨_, obey_restore, hsaves.reg_of_restores hrpl (between.afterRestore_restores x)⟩

/-- Four registers go around the end of memory from an address that has more than 12 bits. The
index register stays as it is, and the registers come back after all sixteen have been cleared. A
tick does the same as the word that it finds. -/
theorem transfer_around_end :
    ∃ m stored loaded : Machine,
      m.memory = Memory.fresh.writeBytes 0x200 [0xf3, 0x55] ∧ m.i = 0xfffe ∧ m.reg 3 = 0x2a ∧
      m.tick Table.standard 0 = .done { stored with cycle := 1 } ∧
      stored.memory.peek 1 = 0x2a ∧ stored.i = 0xfffe ∧
      { stored with v := Vector.replicate 16 0 }.obey 0 0xf365 = some (.done loaded) ∧
      loaded.reg 3 = 0x2a := by
  obtain ⟨memory, hmemory⟩ : ∃ memory, memory = Memory.fresh.writeBytes 0x200 [0xf3, 0x55] :=
    ⟨_, rfl⟩
  have hword : memory.readWord 0x200 = .ok 0xf355 := by
    rw [hmemory]
    decide +kernel
  have hstore : wordOf 0xf 3 0x5 0x5 = 0xf355 := rfl
  have hfirst : 0 + 1 < countLimit := by decide
  let m : Machine := { fresh with memory, i := 0xfffe, v := setNibble fresh.v 3 0x2a }
  have hreg : m.reg 3 = 0x2a := (get_setNibble ..).trans (if_pos rfl)
  obtain ⟨⟨stored, hobey, hstores, hback⟩, -⟩ := block_transfers (m.withPc (m.pc + 2)) 0 3
  obtain ⟨loaded, hload, hloaded⟩ :=
    hback { stored with v := Vector.replicate 16 0 } 0 rfl rfl
  have haddress : (m.withPc (m.pc + 2)).blockAddress 3 = 1 := by
    show ((0xfffe : UInt16).toNat + 3) % 4096 = 1
    decide
  have hwritten : stored.memory.peek 1 = m.reg 3 := by
    rw [← haddress]
    exact hstores.written 3 (Nat.le_refl 3)
  have hi : stored.i = 0xfffe := congrArg Machine.i hstores.rest
  have hpc : stored.pc = 0x202 := congrArg Machine.pc hstores.rest
  have hrange : ¬ lastInstruction < stored.pc := by rw [hpc]; decide
  have hcycle : stored.cycle = 0 := congrArg Machine.cycle hstores.rest
  refine ⟨m, stored, loaded, hmemory, rfl, hreg, ?_, hwritten.trans hreg, hi, hload,
    (hloaded 3 (Nat.le_refl 3)).trans hreg⟩
  rw [hstore] at hobey
  rw [tick_eq_obey (m := m) rfl hword, hobey]
  show conclude m.pc (.done stored) = _
  rw [conclude, if_neg hrange, count, hcycle, if_pos hfirst]

end Chip8.Machine
