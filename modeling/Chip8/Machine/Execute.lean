import Chip8.Instruction.Op
import Chip8.Machine.Basic
import Chip8.Screen.Scroll
import Chip8.Screen.Sprite

/-!
# What the instructions do

An instruction works on a machine whose program counter already points behind it. A flag
goes to register `F` and is written last, so it wins where `F` is also the result.

Addresses that instructions compute from the index register are reduced to 12 bits, byte
by byte, so blocks go around at the end of memory.

A cell that the screen does not have, a slot outside the stack, a block longer than the registers
that it is copied to or from, and an address that does not fit are crashes.
-/

namespace Chip8

namespace Machine

/-- The register with number `r`. -/
def reg (m : Machine) (r : Nibble) : UInt8 := m.v.get r

/-- Puts a byte into register `r`. -/
def withReg (m : Machine) (r : Nibble) (b : UInt8) : Machine := { m with v := setNibble m.v r b }

/-- Puts a result into register `r` and then a flag into register `F`. -/
def withResult (m : Machine) (r : Nibble) (b : UInt8) (flag : Bool) : Machine :=
  (m.withReg r b).withReg 15 flag.toUInt8

/-- Skips an instruction if `c` holds. -/
def skipIf (m : Machine) (c : Bool) : Machine := if c then { m with pc := m.pc + 2 } else m

/-- The address of the instruction being carried out. -/
def here (m : Machine) : UInt16 := m.pc - 2

/-! ## Subroutines -/

/-- Goes back to the address on top of the stack and takes it off. -/
def ret (m : Machine) : Outcome Machine :=
  match m.sp with
  | 0 => .fault (.stackUnderflow m.here) m
  | top + 1 => if h : top < 16 then .done { m with sp := top, pc := m.stack[top] } else .crash

/-- Puts the address of the next instruction on the stack and goes to `target`. -/
def call (m : Machine) (target : UInt16) : Outcome Machine :=
  if h : m.sp < 16 then
    .done { m with stack := m.stack.set m.sp m.pc, sp := m.sp + 1, pc := target }
  else .fault (.stackOverflow m.here) m

/-! ## Drawing and scrolling -/

/-- The sprite that the index register points at: `n` rows of one byte, or sixteen rows of
two bytes if `n` is 0 on the large screen. -/
def spriteAtI (m : Machine) (n : UInt8) : Sprite :=
  if n = 0 ∧ m.screen.mode = .extended then ⟨m.memory.bytes m.i.toNat 32, 2⟩
  else ⟨m.memory.bytes m.i.toNat n.toNat, 1⟩

/-- Draws the sprite at the corner that registers `x` and `y` give. -/
def draw (m : Machine) (x y : Nibble) (n : UInt8) : Outcome Machine :=
  match m.screen.draw? (m.reg x).toNat (m.reg y).toNat (m.spriteAtI n) with
  | none => .crash
  | some (screen, hit) => .done ({ m with screen }.withReg 15 hit.toUInt8)

/-- Takes over a scrolled screen. Without one the scroll has crashed. -/
def scrolled (m : Machine) : Option Screen → Outcome Machine
  | none => .crash
  | some screen => .done { m with screen }

/-! ## Blocks -/

/-- Writes a byte as three decimal digits, one byte each, where the index register points. -/
def writeDigits (m : Machine) (b : UInt8) : Machine :=
  { m with memory := m.memory.writeBytes m.i.toNat [b / 100 % 10, b / 10 % 10, b % 10] }

/-- Writes registers 0 to `x` where the index register points. -/
def storeRegisters (m : Machine) (x : Nibble) : Machine :=
  { m with memory := m.memory.writeBytes m.i.toNat (m.v.toList.take (x.val + 1)) }

/-- Reads registers 0 to `x` from where the index register points. -/
def loadRegisters (m : Machine) (x : Nibble) : Machine :=
  { m with v := Vector.ofFn fun r => if r ≤ x then m.memory.peek (m.i.toNat + r.val) else m.v[r] }

/-- `target` with its first `n` values taken from `source`, if there are so many in both. -/
def copyFirst? {α : Type} {k l : Nat} (target : Vector α k) (source : Vector α l) (n : Nat) :
    Option (Vector α k) :=
  if h : n ≤ k ∧ n ≤ l then
    some (Vector.ofFn fun j => if hj : j.val < n then source[j.val] else target[j])
  else none

/-- How many of the registers 0 to `x` are saved or restored. There is room for eight. -/
def savedCount (x : Nibble) : Nat := min (x.val + 1) 8

/-- Saves registers 0 to `x`, the first eight at most. -/
def saveRegisters (m : Machine) (x : Nibble) : Outcome Machine :=
  match copyFirst? m.rpl m.v (savedCount x) with
  | none => .crash
  | some rpl => .done { m with rpl }

/-- Restores registers 0 to `x`, the first eight at most. -/
def restoreRegisters (m : Machine) (x : Nibble) : Outcome Machine :=
  match copyFirst? m.v m.rpl (savedCount x) with
  | none => .crash
  | some v => .done { m with v }

/-! ## Digit sprites -/

/-- Points the index register at an address, which is computed in 16 bits. -/
def pointAt (m : Machine) (address : Nat) : Outcome Machine :=
  if address < 65536 then .done { m with i := address.toUInt16 } else .crash

end Machine

/-- The effect of an instruction with its operands. `noise` is the byte that chance
provides, which only one instruction looks at. -/
def Op.execute (op : Op) (noise : UInt8) (o : Operands) (m : Machine) : Outcome Machine :=
  let x := m.reg o.x
  let y := m.reg o.y
  let key := m.keys.get (Fin.ofNat 16 x.toNat)
  match op with
  | cls => .done { m with screen := m.screen.clear }
  | ret => m.ret
  | sys => .done m
  | jp => .done { m with pc := o.nnn }
  | call => m.call o.nnn
  | seVxKk => .done (m.skipIf (x = o.kk))
  | sneVxKk => .done (m.skipIf (x ≠ o.kk))
  | seVxVy => .done (m.skipIf (x = y))
  | ldVxKk => .done (m.withReg o.x o.kk)
  | addVxKk => .done (m.withReg o.x (x + o.kk))
  | ldVxVy => .done (m.withReg o.x y)
  | orVxVy => .done (m.withReg o.x (x ||| y))
  | andVxVy => .done (m.withReg o.x (x &&& y))
  | xorVxVy => .done (m.withReg o.x (x ^^^ y))
  | addVxVy => .done (m.withResult o.x (x + y) (256 ≤ x.toNat + y.toNat))
  | subVxVy => .done (m.withResult o.x (x - y) (y ≤ x))
  | shrVx => .done (m.withResult o.x (x >>> 1) (x &&& 1 = 1))
  | subnVxVy => .done (m.withResult o.x (y - x) (x ≤ y))
  | shlVx => .done (m.withResult o.x (x <<< 1) (x >>> 7 = 1))
  | sneVxVy => .done (m.skipIf (x ≠ y))
  | ldIAddr => .done { m with i := o.nnn }
  | jpV0Addr => .done { m with pc := o.nnn + (m.reg 0).toUInt16 }
  | rndVxKk => .done (m.withReg o.x (noise &&& o.kk))
  | drwVxVyN => m.draw o.x o.y o.n
  | skpVx => .done (m.skipIf key)
  | sknpVx => .done (m.skipIf (!key))
  | ldVxDt => .done (m.withReg o.x m.delay)
  | ldVxK => .done { m with waiting := some o.x }
  | ldDtVx => .done { m with delay := x }
  | ldStVx => .done { m with sound := x }
  | addIVx => .done { m with i := m.i + x.toUInt16 }
  | ldFVx => m.pointAt (Memory.smallDigitsAddress + 5 * (x.toNat % 16))
  | ldBVx => .done (m.writeDigits x)
  | ldMemVx => .done (m.storeRegisters o.x)
  | ldVxMem => .done (m.loadRegisters o.x)
  | scd => m.scrolled (m.screen.scrollDown? o.n.toNat)
  | scr => m.scrolled (m.screen.scrollRight? 4)
  | scl => m.scrolled (m.screen.scrollLeft? 4)
  | exit => .fault (.exited m.here) m
  | low => .done { m with screen := m.screen.setMode .standard }
  | high => .done { m with screen := m.screen.setMode .extended }
  | ldHfVx => m.pointAt (Memory.largeDigitsAddress + 10 * (x.toNat % 10))
  | ldRVx => m.saveRegisters o.x
  | ldVxR => m.restoreRegisters o.x

end Chip8
