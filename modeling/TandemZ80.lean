import TandemZ80.Bench.Monitor
import TandemZ80.Bench.Recorder
import TandemZ80.Bench.Script
import TandemZ80.Cpu.Query
import TandemZ80.Cpu.Trace
import TandemZ80.Json.Edit
import TandemZ80.Machine.Query
import TandemZ80.Machine.Rom
import TandemZ80.Machine.Snapshot
import TandemZ80.Memory.Dump
import TandemZ80.Proofs.Flags.Reference
import TandemZ80.Proofs.Flags.Eager
import TandemZ80.Proofs.Schedule.Contract
import TandemZ80.Proofs.Transcript
import TandemZ80.Proofs.Schedule.Turn
import TandemZ80.Proofs.Schedule.Order
import TandemZ80.Proofs.Schedule.Progress
import TandemZ80.Proofs.Schedule.Overtaking
import TandemZ80.Proofs.Schedule.Leapfrog
import TandemZ80.Proofs.Schedule.Returns
import TandemZ80.Proofs.Cpu.Tentative
import TandemZ80.Proofs.Cpu.Parts
import TandemZ80.Proofs.Cpu.Timing
import TandemZ80.Proofs.Cpu.Refusal
import TandemZ80.Proofs.Memory.Cell
import TandemZ80.Proofs.Memory.Held
import TandemZ80.Proofs.Memory.Ledger
import TandemZ80.Proofs.Alike
import TandemZ80.Proofs.Memory.Agreement
import TandemZ80.Proofs.Memory.Fresh
import TandemZ80.Proofs.Schedule.Alike
import TandemZ80.Proofs.Machine.Parts
import TandemZ80.Proofs.Machine.Kept
import TandemZ80.Proofs.Machine.Operation
import TandemZ80.Proofs.Cpu.Congruence
import TandemZ80.Proofs.Machine.Layers
import TandemZ80.Proofs.Machine.Windows
import TandemZ80.Proofs.Machine.Likeness
import TandemZ80.Proofs.Machine.Plain
import TandemZ80.Proofs.Machine.Reach
import TandemZ80.Proofs.Machine.Resumption
import TandemZ80.Proofs.Schedule.Idle
import TandemZ80.Proofs.Machine.Waiting
import TandemZ80.Proofs.Machine.IdleSkip
import TandemZ80.Proofs.Cpu.Built
import TandemZ80.Proofs.Cpu.Polite
import TandemZ80.Proofs.Cpu.Timeless
import TandemZ80.Proofs.Cpu.Fetching
import TandemZ80.Proofs.Cpu.Dispatch
import TandemZ80.Proofs.Cpu.Contract
import TandemZ80.Proofs.Schedule.Lone
import TandemZ80.Proofs.Schedule.Bookkeeping
import TandemZ80.Proofs.Schedule.Ratio
import TandemZ80.Proofs.Schedule.Frame
import TandemZ80.Proofs.Schedule.InStep
import TandemZ80.Proofs.Schedule.Through
import TandemZ80.Proofs.Schedule.Fruitless
import TandemZ80.Proofs.Schedule.Apart
import TandemZ80.Proofs.Machine.Runs
import TandemZ80.Proofs.Machine.Untimed
import TandemZ80.Proofs.Machine.History
import TandemZ80.Proofs.Machine.Rates
import TandemZ80.Proofs.Ports.Register
import TandemZ80.Proofs.Machine.Apart
import TandemZ80.Proofs.Cpu.Prefixes
import TandemZ80.Proofs.Cpu.Retries
import TandemZ80.Proofs.Cpu.Interrupts
import TandemZ80.Proofs.Cpu.Blocks
import TandemZ80.Proofs.Cpu.BlockLoad
import TandemZ80.Proofs.Cpu.BlockCompare
import TandemZ80.Proofs.Cpu.BlockOutput
import TandemZ80.Proofs.Cpu.Renaming
import TandemZ80.Proofs.Cpu.Exchange
import TandemZ80.Proofs.Cpu.PrefixRenames
import TandemZ80.Proofs.Cpu.PrefixChains
import TandemZ80.Proofs.Memory.Extent
import TandemZ80.Proofs.Memory.Backed
import TandemZ80.Proofs.Memory.Image
import TandemZ80.Proofs.Machine.Changes
import TandemZ80.Proofs.Machine.Overlay
import TandemZ80.Proofs.Machine.Handles
import TandemZ80.Proofs.Machine.Mailboxes
import TandemZ80.Proofs.Memory.Grounded
import TandemZ80.Proofs.Machine.Grounded
import TandemZ80.Proofs.Cpu.Idle
import TandemZ80.Proofs.Machine.Slices
import TandemZ80.Proofs.Machine.Counters
import TandemZ80.Proofs.Alu.PackedDecimal
import TandemZ80.Proofs.Cpu.Pending
import TandemZ80.Proofs.Ports.Departure
import TandemZ80.Proofs.Cpu.Stack
import TandemZ80.Proofs.Cpu.Refresh
import TandemZ80.Proofs.Json.Grammar
import TandemZ80.Proofs.Json.Reading
import TandemZ80.Proofs.Json.Writing
import TandemZ80.Proofs.Config
