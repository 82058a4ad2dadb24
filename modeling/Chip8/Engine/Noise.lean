/-!
# Noise

Chance is a stream of bytes that is fixed beforehand, together with the number of bytes
that were taken from it. Every attempt to carry out an instruction takes one.
-/

namespace Chip8

/-- A stream of bytes and how many of them are gone. -/
structure Noise where
  bytes : Nat → UInt8
  taken : Nat := 0

namespace Noise

/-- The next byte of the stream. -/
def current (n : Noise) : UInt8 := n.bytes n.taken

/-- The stream without its next byte. -/
def next (n : Noise) : Noise := { n with taken := n.taken + 1 }

/-- A word whose bits are well mixed, for any number. -/
def mix (n : UInt64) : UInt64 :=
  let a := n * 0x9E3779B97F4A7C15
  let b := (a ^^^ (a >>> 30)) * 0xBF58476D1CE4E5B9
  let c := (b ^^^ (b >>> 27)) * 0x94D049BB133111EB
  c ^^^ (c >>> 31)

/-- The stream that a seed stands for. -/
def ofSeed (seed : UInt64) : Noise where
  bytes k := (mix (seed + k.toUInt64 + 1)).toUInt8

end Noise

end Chip8
