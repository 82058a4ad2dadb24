import Chip8.Machine.Execute
import Chip8.Table.Basic

/-!
# The standard table

The table with the 44 instructions, each under its own pattern.
-/

namespace Chip8

/-- The handler of a standard instruction. -/
def Op.handler (op : Op) : Handler := ⟨op, op.pattern, op.execute, op.mnemonic⟩

/-- All standard instructions, in their usual order. -/
def Table.standard : Table := Table.empty.registerAll (Op.all.map Op.handler)

end Chip8
