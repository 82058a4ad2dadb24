import Chip8.Fault

/-!
# Memory

Memory is 4096 bytes, and an address is 12 bits wide: `peek` and `poke` take any number
for an address and use its remainder by 4096, so they reach a byte whatever they are
given. Access by `readByte`, `readWord` and their writing counterparts is strict instead:
bytes that are not there are a fault. Words lie in memory with the high byte first.

`peek_poke`, `peek_writeBytes_add` and `peek_writeBytes_of_ne` say what every later read finds
after a write.
-/

namespace Chip8

/-- The machine's 4096 bytes. -/
structure Memory where
  cells : Vector UInt8 4096
  deriving DecidableEq

namespace Memory

/-- Nothing but zeros. -/
def blank : Memory := ⟨Vector.replicate 4096 0⟩

/-- The byte at the low 12 bits of `a`. -/
def peek (m : Memory) (a : Nat) : UInt8 := m.cells[a % 4096]

/-- Puts a byte at the low 12 bits of `a`. -/
def poke (m : Memory) (a : Nat) (b : UInt8) : Memory := ⟨m.cells.set (a % 4096) b⟩

/-- Puts bytes one after the other from `a` on, going around at the end of memory. -/
def writeBytes (m : Memory) (a : Nat) : List UInt8 → Memory
  | [] => m
  | b :: rest => (m.poke a b).writeBytes (a + 1) rest

/-- The `count` bytes from `a` on, going around at the end of memory. -/
def bytes (m : Memory) (a count : Nat) : List UInt8 :=
  (List.range count).map fun k => m.peek (a + k)

/-- All of memory, from address 0 on. -/
def toList (m : Memory) : List UInt8 := m.cells.toList

/-! ## Ranges -/

/-- Whether the addresses from `first` up to but without `last` are a range in memory. -/
def isRange (first last : Nat) : Bool := first ≤ last && last ≤ 4096

/-- The bytes from `first` up to but without `last`, if that is a range in memory. -/
def slice? (m : Memory) (first last : Nat) : Option (List UInt8) :=
  if isRange first last then some (m.bytes first (last - first)) else none

/-- Fills the bytes from `first` up to but without `last`, if that is a range in memory. -/
def fill? (m : Memory) (first last : Nat) (b : UInt8) : Option Memory :=
  if isRange first last then some (m.writeBytes first (List.replicate (last - first) b))
  else none

/-- Copies `data` to `address` if the bytes it takes are a range in memory. -/
def load (m : Memory) (address : UInt16) (data : List UInt8) : Except Fault Memory :=
  if isRange address.toNat (address.toNat + data.length) then
    .ok (m.writeBytes address.toNat data)
  else .error (.romTooLarge data.length address)

/-! ## Strict access

The end of an access, `a + count`, is computed in 64 bits before it is compared with the
size of memory, so an access at the very top of the number range crashes. -/

/-- Whether the `count` bytes from `a` on are there. -/
def check (a count : Nat) : Except Stop Unit :=
  if countLimit ≤ a + count then .error .crash
  else if isRange a (a + count) then .ok ()
  else .error (.fault (.invalidAddressRange a count))

/-- The byte at `a`. -/
def readByte (m : Memory) (a : Nat) : Except Stop UInt8 := do
  check a 1
  return m.peek a

/-- Puts a byte at `a`. -/
def writeByte (m : Memory) (a : Nat) (b : UInt8) : Except Stop Memory := do
  check a 1
  return m.poke a b

/-- The word made of two bytes, the first of them its high byte. -/
def joinBytes (high low : UInt8) : UInt16 := high.toUInt16 <<< 8 ||| low.toUInt16

/-- The high byte of a word. -/
def highByte (w : UInt16) : UInt8 := (w >>> 8).toUInt8

/-- The low byte of a word. -/
def lowByte (w : UInt16) : UInt8 := w.toUInt8

/-- The word at `a` and `a + 1`. -/
def readWord (m : Memory) (a : Nat) : Except Stop UInt16 := do
  check a 2
  return joinBytes (m.peek a) (m.peek (a + 1))

/-- Puts a word at `a` and `a + 1`. -/
def writeWord (m : Memory) (a : Nat) (w : UInt16) : Except Stop Memory := do
  check a 2
  return (m.poke a (highByte w)).poke (a + 1) (lowByte w)

/-! ## Lenient access

What strict access refuses reads as zero and is not written. A crash stays a crash. -/

/-- A value, or the default where there was a fault. -/
def lenient {α : Type} (default : α) : Except Stop α → Except Stop α
  | .error (.fault _) => .ok default
  | result => result

/-- The byte at `a`, zero if there is none. -/
def byteOrZero (m : Memory) (a : Nat) : Except Stop UInt8 := lenient 0 (m.readByte a)

/-- The word at `a`, zero if there is none. -/
def wordOrZero (m : Memory) (a : Nat) : Except Stop UInt16 := lenient 0 (m.readWord a)

/-- Puts a byte at `a` if memory reaches there. -/
def tryWriteByte (m : Memory) (a : Nat) (b : UInt8) : Except Stop Memory :=
  lenient m (m.writeByte a b)

/-- Puts a word at `a` if memory reaches there. -/
def tryWriteWord (m : Memory) (a : Nat) (w : UInt16) : Except Stop Memory :=
  lenient m (m.writeWord a w)

/-- The one-line description, which leaves the bytes out. -/
def describe (_ : Memory) : String := Text.openRecord "Mem" [("len", Text.decimal 4096)]

/-! ## What a read finds -/

theorem peek_mod (m : Memory) (a : Nat) : m.peek (a % 4096) = m.peek a := by
  simp [peek]

@[simp] theorem peek_blank (a : Nat) : blank.peek a = 0 := by
  simp [peek, blank]

theorem peek_poke (m : Memory) (a c : Nat) (b : UInt8) :
    (m.poke a b).peek c = if a % 4096 = c % 4096 then b else m.peek c := by
  simp [peek, poke, Vector.getElem_set]

/-- A byte that a block does not reach is as before. -/
theorem peek_writeBytes_of_ne {m : Memory} {a c : Nat} {data : List UInt8}
    (h : ∀ k < data.length, (a + k) % 4096 ≠ c % 4096) :
    (m.writeBytes a data).peek c = m.peek c := by
  induction data generalizing m a with
  | nil => rfl
  | cons b rest ih =>
    have h0 : a % 4096 ≠ c % 4096 := h 0 (Nat.zero_lt_succ _)
    rw [writeBytes, ih, peek_poke, if_neg h0]
    intro k hk
    rw [Nat.add_assoc, Nat.add_comm 1 k]
    exact h (k + 1) (Nat.succ_lt_succ hk)

/-- What is no longer than memory does not write over itself, even around the end. -/
theorem peek_writeBytes_add {m : Memory} {a : Nat} {data : List UInt8}
    (hlen : data.length ≤ 4096) {k : Nat} (hk : k < data.length) :
    (m.writeBytes a data).peek (a + k) = data[k] := by
  induction data generalizing m a k with
  | nil => exact nomatch hk
  | cons b rest ih =>
    rw [List.length_cons] at hlen hk
    rw [writeBytes]
    cases k with
    | zero =>
      -- The other bytes are too few to come around to the first one.
      rw [peek_writeBytes_of_ne (by intro j hj; omega), Nat.add_zero, peek_poke, if_pos rfl]
      rfl
    | succ k =>
      have hrest := ih (m := m.poke a b) (a := a + 1) (Nat.le_of_succ_le hlen)
        (Nat.lt_of_succ_lt_succ hk)
      rwa [Nat.add_assoc, Nat.add_comm 1 k] at hrest

end Memory

end Chip8
