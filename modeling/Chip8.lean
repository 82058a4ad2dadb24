import Chip8.Screen.Picture
import Chip8.Table.Listing
import Chip8.Service.Basic
import Chip8.Data.Numeral
import Chip8.Data.Settings
import Chip8.CommandLine.FileTree
import Chip8.CommandLine.Options
import Chip8.CommandLine.Disassemble
import Chip8.CommandLine.Run
import Chip8.Main
import Chip8.Proofs.Words
import Chip8.Proofs.Lookup
import Chip8.Proofs.Execute
import Chip8.Proofs.Tick
import Chip8.Proofs.Unchanged
import Chip8.Proofs.Residue
import Chip8.Proofs.Hooks
import Chip8.Proofs.History
import Chip8.Proofs.WellFormed
import Chip8.Proofs.Restart
import Chip8.Proofs.Decode
import Chip8.Proofs.Subroutine
import Chip8.Proofs.Schedule
import Chip8.Proofs.Keys
import Chip8.Proofs.Alike
import Chip8.Proofs.Reader
import Chip8.Proofs.Script
import Chip8.Proofs.Writes
import Chip8.Proofs.Settings
import Chip8.Proofs.Drawing
import Chip8.Proofs.DrawInstruction
import Chip8.Proofs.Mnemonic
import Chip8.Proofs.Trace
import Chip8.Proofs.Listing
import Chip8.Proofs.Scrolling
import Chip8.Proofs.Picture
import Chip8.Proofs.Registration
import Chip8.Proofs.Flow
import Chip8.Proofs.Arithmetic
import Chip8.Proofs.Blocks
import Chip8.Proofs.Loading
import Chip8.Proofs.ReadBack
import Chip8.Proofs.Limits
import Chip8.Proofs.Pattern
