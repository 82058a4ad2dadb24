import Chip8.Proofs.Decode

/-!
# Arithmetic on registers

The words `8xyn` compute with the bytes in registers `x` and `y`, and `7xkk` with one register and
the byte in the word. `arithmetic` says in whole numbers what comes out, the result and the flag.
Each instruction agrees with it (`Gives`), in whatever way `x`, `y` and register `F` coincide: both
bytes are read before anything is written, the result is written first and the flag after it.

> `arithmetic_exact`: what the words give, and what the flags of sum and difference are for: with
> the flag as a ninth digit, sum and difference are exact.
-/

namespace Chip8

/-! ## Exact numbers -/

/-- What the word `8xyn` makes of the numbers `a` and `b` in registers `x` and `y`: the result, and
the flag for those that set one. -/
def arithmetic (n : Nibble) (a b : Nat) : Option (Nat × Option Nat) :=
  match n.val with
  | 0x0 => some (b, none)
  | 0x1 => some (a ||| b, none)
  | 0x2 => some (a &&& b, none)
  | 0x3 => some (a ^^^ b, none)
  | 0x4 => some ((a + b) % 256, some (decide (256 ≤ a + b)).toNat)
  | 0x5 => some (((a - b : Int) % 256).toNat, some (decide (b ≤ a)).toNat)
  | 0x6 => some (a / 2, some (a % 2))
  | 0x7 => some (((b - a : Int) % 256).toNat, some (decide (a ≤ b)).toNat)
  | 0xe => some (2 * a % 256, some (a / 128))
  | _ => none

section Bytes

variable (a b : UInt8)

theorem toUInt8_toNat (c : Bool) : c.toUInt8.toNat = c.toNat := by
  cases c <;> rfl

theorem sub_exact : (a - b).toNat = ((a.toNat - b.toNat : Int) % 256).toNat := by
  have ha := a.toNat_lt
  have hb := b.toNat_lt
  rw [UInt8.toNat_sub]
  omega

/-- What a difference does not borrow. -/
theorem atMost_exact : (decide (a ≤ b)).toUInt8.toNat = (decide (a.toNat ≤ b.toNat)).toNat := by
  rw [toUInt8_toNat, decide_eq_decide.mpr UInt8.le_iff_toNat_le]

theorem shiftRight_exact : (a >>> 1).toNat = a.toNat / 2 := by
  rw [UInt8.toNat_shiftRight]
  exact Nat.shiftRight_eq_div_pow a.toNat 1

theorem shiftLeft_exact : (a <<< 1).toNat = 2 * a.toNat % 256 := by
  rw [UInt8.toNat_shiftLeft]
  show a.toNat <<< 1 % 256 = _
  rw [Nat.shiftLeft_eq, Nat.mul_comm]

/-- A byte that is one bit is the flag that tells it. -/
theorem flag_exact {bit : UInt8} (h : bit.toNat < 2) :
    (decide (bit = 1)).toUInt8.toNat = bit.toNat := by
  have hcases : bit = 0 ∨ bit = 1 := by
    simp only [← UInt8.toNat_inj, UInt8.toNat_zero, UInt8.toNat_one]
    omega
  rcases hcases with rfl | rfl <;> rfl

/-- The bit that a shift to the right drops. -/
theorem lowBit_exact : (decide (a &&& 1 = 1)).toUInt8.toNat = a.toNat % 2 := by
  have hbit : (a &&& 1).toNat = a.toNat % 2 := by
    rw [UInt8.toNat_and]
    exact Nat.and_one_is_mod a.toNat
  rw [flag_exact (by omega), hbit]

/-- The bit that a shift to the left drops. -/
theorem highBit_exact : (decide (a >>> 7 = 1)).toUInt8.toNat = a.toNat / 128 := by
  have ha := a.toNat_lt
  have hbit : (a >>> 7).toNat = a.toNat / 128 := by
    rw [UInt8.toNat_shiftRight]
    exact Nat.shiftRight_eq_div_pow a.toNat 7
  rw [flag_exact (by omega), hbit]

end Bytes

namespace Machine

/-! ## Results and flags -/

/-- The number `r` is put into register `x`, and the flag, if there is one, into register `F` after
that. Nothing else changes. -/
def Assigned (m : Machine) (x : Nibble) (r : Nat) (flag : Option Nat) (m' : Machine) : Prop :=
  match flag with
  | none => ∃ result : UInt8, result.toNat = r ∧ m' = { m with v := setNibble m.v x result }
  | some f => ∃ result bit : UInt8, result.toNat = r ∧ bit.toNat = f ∧
      m' = { m with v := setNibble (setNibble m.v x result) 15 bit }

/-- What a word gives as an instruction: a number for register `x`, and perhaps a flag. -/
def Gives (m : Machine) (noise : UInt8) (word : UInt16) (x : Nibble) (r : Nat)
    (flag : Option Nat) : Prop :=
  ∃ m', m.obey noise word = some (.done m') ∧ m.Assigned x r flag m'

variable {m m' : Machine} {noise : UInt8} {x y : Nibble}

theorem withReg_assigned {b : UInt8} {r : Nat} (hb : b.toNat = r) :
    m.Assigned x r none (m.withReg x b) := ⟨b, hb, rfl⟩

theorem withResult_assigned {b : UInt8} {flag : Bool} {r f : Nat} (hb : b.toNat = r)
    (hf : flag.toUInt8.toNat = f) : m.Assigned x r (some f) (m.withResult x b flag) :=
  ⟨b, flag.toUInt8, hb, hf, rfl⟩

/-- A word that computes with two registers does so with the ones in its digits. -/
theorem gives_of_execute (op : Op) {n : Nibble} {r : Nat} {flag : Option Nat} (hop : op ≠ .sys)
    (hacc : op.pattern.accepts (wordOf 0x8 x y n) = true)
    (hexecute : ∀ o : Operands, o.x = x → o.y = y → op.execute noise o m = .done m')
    (hassigned : m.Assigned x r flag m') : m.Gives noise (wordOf 0x8 x y n) x r flag :=
  ⟨m', obey_wordOf op hop hacc fun o hx hy _ => hexecute o hx hy, hassigned⟩

theorem gives_arithmetic (m : Machine) (noise : UInt8) (x y n : Nibble) {r : Nat}
    {flag : Option Nat} (h : arithmetic n (m.reg x).toNat (m.reg y).toNat = some (r, flag)) :
    m.Gives noise (wordOf 0x8 x y n) x r flag := by
  unfold arithmetic at h
  split at h
  case h_1 hn =>
    obtain rfl : n = 0x0 := Fin.ext hn
    cases h
    refine gives_of_execute .ldVxVy nofun (Pattern.accepts_wordOf ..) ?_
      (withReg_assigned rfl)
    rintro o rfl rfl
    rfl
  case h_2 hn =>
    obtain rfl : n = 0x1 := Fin.ext hn
    cases h
    refine gives_of_execute .orVxVy nofun (Pattern.accepts_wordOf ..) ?_
      (withReg_assigned (UInt8.toNat_or ..))
    rintro o rfl rfl
    rfl
  case h_3 hn =>
    obtain rfl : n = 0x2 := Fin.ext hn
    cases h
    refine gives_of_execute .andVxVy nofun (Pattern.accepts_wordOf ..) ?_
      (withReg_assigned (UInt8.toNat_and ..))
    rintro o rfl rfl
    rfl
  case h_4 hn =>
    obtain rfl : n = 0x3 := Fin.ext hn
    cases h
    refine gives_of_execute .xorVxVy nofun (Pattern.accepts_wordOf ..) ?_
      (withReg_assigned (UInt8.toNat_xor ..))
    rintro o rfl rfl
    rfl
  case h_5 hn =>
    obtain rfl : n = 0x4 := Fin.ext hn
    cases h
    refine gives_of_execute .addVxVy nofun (Pattern.accepts_wordOf ..) ?_
      (withResult_assigned (UInt8.toNat_add ..) (toUInt8_toNat _))
    rintro o rfl rfl
    rfl
  case h_6 hn =>
    obtain rfl : n = 0x5 := Fin.ext hn
    cases h
    refine gives_of_execute .subVxVy nofun (Pattern.accepts_wordOf ..) ?_
      (withResult_assigned (sub_exact ..) (atMost_exact ..))
    rintro o rfl rfl
    rfl
  case h_7 hn =>
    obtain rfl : n = 0x6 := Fin.ext hn
    cases h
    refine gives_of_execute .shrVx nofun (Pattern.accepts_wordOf ..) ?_
      (withResult_assigned (shiftRight_exact _) (lowBit_exact _))
    rintro o rfl rfl
    rfl
  case h_8 hn =>
    obtain rfl : n = 0x7 := Fin.ext hn
    cases h
    refine gives_of_execute .subnVxVy nofun (Pattern.accepts_wordOf ..) ?_
      (withResult_assigned (sub_exact ..) (atMost_exact ..))
    rintro o rfl rfl
    rfl
  case h_9 hn =>
    obtain rfl : n = 0xe := Fin.ext hn
    cases h
    refine gives_of_execute .shlVx nofun (Pattern.accepts_wordOf ..) ?_
      (withResult_assigned (shiftLeft_exact _) (highBit_exact _))
    rintro o rfl rfl
    rfl
  case h_10 => exact nomatch h

theorem gives_immediate (m : Machine) (noise : UInt8) (x c d : Nibble) :
    m.Gives noise (wordOf 0x7 x c d) x (((m.reg x).toNat + (16 * c.val + d.val)) % 256) none := by
  refine ⟨_, obey_wordOf .addVxKk nofun (Pattern.accepts_wordOf ..) ?_,
    withReg_assigned (b := m.reg x + UInt8.ofNat (16 * c.val + d.val)) ?_⟩
  · rintro o rfl - hkk
    have hbyte : o.kk = UInt8.ofNat (16 * c.val + d.val) := by
      rw [← hkk, UInt8.ofNat_toNat]
    rw [← hbyte]
    rfl
  · rw [UInt8.toNat_add, UInt8.toNat_ofNat_of_lt' (show 16 * c.val + d.val < 256 by omega)]

/-! ## The ninth digit -/

theorem Gives.assigned {word : UInt16} {r : Nat} {flag : Option Nat}
    (h : m.Gives noise word x r flag) (hobey : m.obey noise word = some (.done m')) :
    m.Assigned x r flag m' := by
  obtain ⟨given, hgiven, hassigned⟩ := h
  rw [hobey] at hgiven
  cases hgiven
  exact hassigned

/-- A result that is not in register `F` and its flag are both there afterwards. -/
theorem Assigned.reg {r f : Nat} (h : m.Assigned x r (some f) m') (hx : x ≠ 15) :
    (m'.reg x).toNat = r ∧ (m'.reg 15).toNat = f := by
  obtain ⟨result, bit, hresult, hbit, rfl⟩ := h
  have hreg : (setNibble (setNibble m.v x result) 15 bit).get x = result := by
    rw [get_setNibble, if_neg (Ne.symm hx), get_setNibble, if_pos rfl]
  have hflag : (setNibble (setNibble m.v x result) 15 bit).get 15 = bit := by
    rw [get_setNibble, if_pos rfl]
  exact ⟨(congrArg UInt8.toNat hreg).trans hresult, (congrArg UInt8.toNat hflag).trans hbit⟩

/-- The flag of a sum carries what the result leaves out. -/
theorem carry_sum {a b : Nat} (ha : a < 256) (hb : b < 256) :
    a + b = 256 * (decide (256 ≤ a + b)).toNat + (a + b) % 256 := by
  by_cases h : 256 ≤ a + b
  · rw [decide_eq_true h, Bool.toNat_true]
    omega
  · rw [decide_eq_false h, Bool.toNat_false]
    omega

/-- The flag of a difference is missing where something was borrowed. -/
theorem borrow_difference {a b : Nat} (ha : a < 256) (hb : b < 256) :
    ((a - b : Int) % 256).toNat + b = a + 256 * (1 - (decide (b ≤ a)).toNat) := by
  by_cases h : b ≤ a
  · rw [decide_eq_true h, Bool.toNat_true]
    omega
  · rw [decide_eq_false h, Bool.toNat_false]
    omega

/-- Arithmetic on registers, for every machine and however the registers coincide.

* A word `8xyn` that computes puts the exact result into register `x`, as far as it fits, and then
  the flag, if there is one, into register `F`.
* A word `7xkk` adds the byte to register `x` and sets no flag.
* Where `x` is not `F`, flag and result of `8xy4` make up the sum, and those of `8xy5` the
  difference, with 256 for what was borrowed. -/
theorem arithmetic_exact (m : Machine) (noise : UInt8) (x : Nibble) :
    (∀ (y n : Nibble) (r : Nat) (flag : Option Nat),
      arithmetic n (m.reg x).toNat (m.reg y).toNat = some (r, flag) →
        m.Gives noise (wordOf 0x8 x y n) x r flag) ∧
    (∀ c d : Nibble, m.Gives noise (wordOf 0x7 x c d) x
      (((m.reg x).toNat + (16 * c.val + d.val)) % 256) none) ∧
    (x ≠ 15 → ∀ (y : Nibble) (m' : Machine),
      (m.obey noise (wordOf 0x8 x y 0x4) = some (.done m') →
        (m.reg x).toNat + (m.reg y).toNat = 256 * (m'.reg 15).toNat + (m'.reg x).toNat) ∧
      (m.obey noise (wordOf 0x8 x y 0x5) = some (.done m') →
        (m'.reg x).toNat + (m.reg y).toNat =
          (m.reg x).toNat + 256 * (1 - (m'.reg 15).toNat))) := by
  refine ⟨fun y n r flag h => m.gives_arithmetic noise x y n h, m.gives_immediate noise x, ?_⟩
  intro hx y m'
  have ha := (m.reg x).toNat_lt
  have hb := (m.reg y).toNat_lt
  constructor
  · intro hobey
    have hassigned := (m.gives_arithmetic noise x y 0x4 rfl).assigned hobey
    obtain ⟨hresult, hflag⟩ := hassigned.reg hx
    rw [hresult, hflag]
    exact carry_sum ha hb
  · intro hobey
    have hassigned := (m.gives_arithmetic noise x y 0x5 rfl).assigned hobey
    obtain ⟨hresult, hflag⟩ := hassigned.reg hx
    rw [hresult, hflag]
    exact borrow_difference ha hb

/-- Register `F` added to itself ends up with the flag and loses the sum. Register 1 added to itself
keeps it, and with the flag it is all there. -/
theorem flag_over_sum :
    let m : Machine := { fresh with v := setNibble (setNibble fresh.v 15 0x90) 1 0x80 }
    (∃ m', m.obey 0 0x8ff4 = some (.done m') ∧ m'.reg 15 = 1) ∧
      (1 : Nibble) ≠ 15 ∧ ∃ m', m.obey 0 0x8114 = some (.done m') ∧
        0x80 + 0x80 = 256 * (m'.reg 15).toNat + (m'.reg 1).toNat := by
  intro m
  have hF : (m.reg 15).toNat = 0x90 := by decide
  have h1 : (m.reg 1).toNat = 0x80 := by decide
  have hne : (1 : Nibble) ≠ 15 := by decide
  obtain ⟨hgives, -⟩ := arithmetic_exact m 0 15
  obtain ⟨hgives', -, hsum⟩ := arithmetic_exact m 0 1
  obtain ⟨m', hobey, result, bit, -, hbit, rfl⟩ := hgives 15 0x4 _ _ rfl
  obtain ⟨m'', hobey', -⟩ := hgives' 1 0x4 _ _ rfl
  refine ⟨⟨_, hobey, ?_⟩, hne, m'', hobey', ?_⟩
  · have hflag : (setNibble (setNibble m.v 15 result) 15 bit).get 15 = bit := by
      rw [get_setNibble, if_pos rfl]
    rw [hF] at hbit
    exact hflag.trans (UInt8.toNat_inj.mp hbit)
  · have hexact := (hsum hne 1 m'').1 hobey'
    rwa [h1] at hexact

end Machine

end Chip8
