import Handheld.Main
import Handheld.Proofs.Machine.MasterEnable
import Handheld.Proofs.Machine.Stores
import Handheld.Proofs.Strict.Device
import Handheld.Proofs.Strict.Board
import Handheld.Proofs.Bus.Frame
import Handheld.Proofs.Strict.Write
import Handheld.Proofs.Strict.Execute
import Handheld.Proofs.Lcd.Frame
import Handheld.Proofs.Lcd.Batches
import Handheld.Proofs.Strict.Lcd
import Handheld.Proofs.Strict.Rig
import Handheld.Proofs.Console.Actions
import Handheld.Proofs.Machine.Clocks
import Handheld.Proofs.Console.Accounts
import Handheld.Proofs.Bus.Requests
import Handheld.Proofs.Console.Requests
import Handheld.Proofs.Machine.Fields
import Handheld.Proofs.Console.Heads
import Handheld.Proofs.Machine.Fetch
import Handheld.Proofs.Console.Faults
import Handheld.Proofs.Machine.Halt
import Handheld.Proofs.Console.Halt
import Handheld.Proofs.Bus.Actions
import Handheld.Proofs.Bus.Blocks
import Handheld.Proofs.Bus.CopyProgress
import Handheld.Proofs.Lcd.Registers
import Handheld.Proofs.Lcd.ClosedForm
import Handheld.Proofs.Lcd.Status
import Handheld.Proofs.Lcd.StatusHistory
import Handheld.Proofs.Cartridge.Image
import Handheld.Proofs.Cartridge.Ram
import Handheld.Proofs.Bus.Cells
import Handheld.Proofs.Rig.ColorPorts
import Handheld.Proofs.Timer.ClosedForm
import Handheld.Proofs.Cartridge.Make
import Handheld.Proofs.Bus.Cartridge
import Handheld.Proofs.Console.Frames
import Handheld.Proofs.CommandLine.Numerals
import Handheld.Proofs.CommandLine.Desk
import Handheld.Proofs.CommandLine.Outcome
import Handheld.Proofs.CommandLine.Paths
import Handheld.Proofs.CommandLine.Saves
import Handheld.Proofs.CommandLine.Images
import Handheld.Proofs.Cpu.Columns
import Handheld.Proofs.Machine.LongArithmetic
import Handheld.Proofs.Cpu.Decimal
import Handheld.Proofs.Machine.LongDecimal
import Handheld.Proofs.Machine.Flow
import Handheld.Proofs.Machine.Footprint
import Handheld.Proofs.Bus.Ram
import Handheld.Proofs.Machine.Stack
import Handheld.Proofs.Machine.Nesting
import Handheld.Proofs.Machine.EmptyRoutine
import Handheld.Proofs.Machine.RepeatedFetch
import Handheld.Proofs.Lcd.LineCopies
import Handheld.Proofs.Lcd.Seam
import Handheld.Proofs.Cartridge.Clock
import Handheld.Proofs.Bus.ObjectCopy
import Handheld.Proofs.Bus.Serial
import Handheld.Proofs.Bus.Keys
import Handheld.Proofs.Bus.Palettes
import Handheld.Proofs.Machine.WordSums
