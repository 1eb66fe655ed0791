import ChipEight.Emulator.Operation
import ChipEight.Number.Shortest
import ChipEight.Config.Read
import ChipEight.Host.Failure
import ChipEight.Config.Text
import ChipEight.CommandLine
import ChipEight.Main
import ChipEight.Proofs.Instr.WellFormed
import ChipEight.Proofs.Machine.Effect
import ChipEight.Proofs.Emulator.History
import ChipEight.Proofs.CallStack.Nesting
import ChipEight.Proofs.Display.Toggling
import ChipEight.Proofs.Machine.Bounds
import ChipEight.Proofs.Emulator.Checked
import ChipEight.Proofs.Emulator.Agreement
import ChipEight.Proofs.Memory.LastWrite
import ChipEight.Proofs.Timer.Countdown
import ChipEight.Proofs.Emulator.Stall
import ChipEight.Proofs.Host.EarlyExit
import ChipEight.Proofs.Host.History
import ChipEight.Proofs.Host.Script
import ChipEight.Proofs.Keypad.Resuming
import ChipEight.Proofs.Host.Batch
import ChipEight.Proofs.Host.Lockstep
import ChipEight.Proofs.Host.Ignoring
import ChipEight.Proofs.Emulator.Outcomes
import ChipEight.Proofs.Noise.Drawing
import ChipEight.Proofs.Noise.Masking
import ChipEight.Proofs.Emulator.Scheduling
import ChipEight.Proofs.Host.Loading
import ChipEight.Proofs.Emulator.Signals
import ChipEight.Proofs.Emulator.Hidden
import ChipEight.Proofs.Host.Limit
import ChipEight.Proofs.Host.Lost
import ChipEight.Proofs.Memory.Glyphs
import ChipEight.Proofs.Config.Accepting
import ChipEight.Proofs.CommandLine.Reporting
import ChipEight.Proofs.Instr.Table
import ChipEight.Proofs.Registers.Arithmetic
import ChipEight.Proofs.Keypad.Flagging
import ChipEight.Proofs.Memory.Access
import ChipEight.Proofs.Display.Picturing
import ChipEight.Proofs.Emulator.Batching
import ChipEight.Proofs.Keypad.Holding
import ChipEight.Proofs.Emulator.Path
import ChipEight.Proofs.Maze.Code
import ChipEight.Proofs.Maze.Picture
import ChipEight.Proofs.Text.Reading
import ChipEight.Proofs.Instr.Wording
import ChipEight.Proofs.Emulator.Tracing
