import Chip8.Machine.Basic
import Chip8.Text.Column

/-!
# A machine as text

The dump shows counters, registers and timers over several lines, four registers to a
line. The description is one line and leaves out memory and the saved registers.
-/

namespace Chip8.Machine

open Text

/-- A register in the dump: its number, its value, and a space or the end of the line. -/
def registerCell (r : Nat) (b : UInt8) : String :=
  "v" ++ upperHex 1 r ++ ": " ++ lowerHex 2 b.toNat ++ (if r % 4 = 3 then "\n" else " ")

/-- Counters, registers and timers over several lines. -/
def dump (m : Machine) : String :=
  "PC: " ++ lowerHex 4 m.pc.toNat ++ ", SP: " ++ lowerHex 2 m.sp ++ ", I: "
    ++ lowerHex 4 m.i.toNat ++ "\n"
    ++ String.join (m.v.toList.zipIdx.map fun (b, r) => registerCell r b)
    ++ "DLY: " ++ decimal m.delay.toNat ++ ", SND: " ++ decimal m.sound.toNat
    ++ ", CYC: " ++ atRight 6 (decimal m.cycle)

/-- The one-line description. Of the stack it shows the addresses that are on it. -/
def describe (m : Machine) : String :=
  openRecord "CPU"
    [ ("stack", numbers ((m.stack.toList.take m.sp).map UInt16.toNat)),
      ("pc", decimal m.pc.toNat),
      ("i", decimal m.i.toNat),
      ("v", numbers (m.v.toList.map UInt8.toNat)),
      ("delay", decimal m.delay.toNat),
      ("sound", decimal m.sound.toNat),
      ("screen", m.screen.describe),
      ("keys", bracketed (m.keys.toList.map truth)),
      ("waiting", optional (m.waiting.map fun r => decimal r.val)),
      ("cycle", decimal m.cycle) ]

end Chip8.Machine
