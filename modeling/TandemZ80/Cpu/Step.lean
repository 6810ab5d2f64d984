import TandemZ80.Cpu.Bits
import TandemZ80.Cpu.Extended

/-!
# One step

A step executes one instruction, accepts one interrupt, or waits out one slot of a halt. It returns
the T-states it took. It returns 0 if a shared port was refused; then the step is undone as far as
the next attempt needs it: PC, R and the hold-off after EI are as before.

* `Exec.opcode`, an opcode with its prefixes;
* `acceptNMI`, `acceptInt`, and `Action`, what the next step will do;
* `Cpu.step`.
-/

namespace TandemZ80

namespace Exec

/-! ### Opcodes -/

/-- A step counts its T-states in 32 bits, four for each index prefix, so no step holds more
prefixes than this. -/
def prefixLimit : Nat := UInt32.size / 4

/-- Execute an opcode that has been fetched. `x` is the register that stands in for HL, `elapsed`
the T-states of the step so far; the result is the cost from here on. Of two index prefixes in a row
the first is a step of its own. The bytes are fetched a second time after that test, so `n` bounds
how many prefixes a bus that changes its mind can bring into one step. -/
def opcode (n : Nat) (x : Index) (elapsed : Nat) (op : UInt8) : Exec Nat :=
  match n with
  | 0 => fault .overflow
  | n + 1 =>
    match Opcode.decode op with
    | .plain i => i.execute x elapsed
    | .bits => do
      if x = .hl then (BitInstruction.decode (← fetchOpcode)).execute
      else
        let d ← fetchByte
        (BitInstruction.decode (← fetchByte)).executeIndexed x d
    | .extended => do (ExtendedInstruction.decode (← fetchOpcode)).execute elapsed
    | .index y => do
      -- Only the last of several index prefixes takes effect.
      if Opcode.isIndex (← peekOpcode) then return 4
      let op ← fetchOpcode
      let rest ← opcode n y (elapsed + 4) op
      return 4 + rest

/-- Execute an opcode, `elapsed` T-states into the step. -/
def instruction (elapsed : Nat) (op : UInt8) : Exec Nat := opcode prefixLimit .hl elapsed op

/-! ### Interrupts -/

/-- Accept a non-maskable interrupt: a call of address 66, with interrupts masked. -/
def acceptNMI : Exec Nat := do
  modify fun s => { s with nmiPending := false }
  update fun r => { r with halted := false, iff2 := r.iff1, iff1 := false }.refresh
  push (← regs).pc
  jump 0x0066
  return 11

/-- Accept a maskable interrupt. -/
def acceptInt : Exec Nat := do
  update fun r => { r with halted := false, iff1 := false, iff2 := false }.refresh
  match (← regs).im with
  | .mode0 =>
    let op ← call .acknowledge
    let rest ← instruction 2 op
    return 2 + rest
  | .mode1 =>
    push (← regs).pc
    jump 0x0038
    return 13
  | .mode2 =>
    let vector := word (← regs).i (← call .acknowledge)
    push (← regs).pc
    jump (← readWord vector)
    return 19

/-- Wait out one slot of a halt. -/
def wait : Exec Nat := do
  update Registers.refresh
  return 4

/-- Fetch and execute the next instruction. -/
def next : Exec Nat := do instruction 0 (← fetchOpcode)

end Exec

/-! ### Steps -/

/-- What a step does. -/
inductive Action
  | acceptNMI
  | acceptInt
  | wait
  | execute
  deriving DecidableEq

namespace Cpu

/-- What the next step does. A non-maskable interrupt comes first, then an unmasked interrupt unless
the last instruction was EI, then a halt. -/
def action (s : Cpu) : Action :=
  if s.nmiPending then .acceptNMI
  else if s.intLine && s.regs.iff1 && !s.afterEI then .acceptInt
  else if s.regs.halted then .wait
  else .execute

/-- The body of a step. -/
def perform : Action → Exec Nat
  | .acceptNMI => Exec.acceptNMI
  | .acceptInt => Exec.acceptInt
  | .wait => Exec.wait
  | .execute => Exec.next

/-- Undo what a refused step did to PC, R and the hold-off after EI. `s` is the processor before the
step. -/
def retract (s t : Cpu) : Cpu :=
  { t with regs := { t.regs with pc := s.regs.pc, r := s.regs.r }, afterEI := s.afterEI }

/-- The end of a step that began in `s`. -/
def finish (s : Cpu) : Option Nat × Cpu → Bus.Program (Nat × Cpu)
  | (none, t) => .done (0, retract s t)
  | (some cost, t) =>
    if cost < UInt32.size then
      match t.ticks.add (.ofCost (UInt32.ofNat cost)) with
      | .ok ticks => .done (cost, { t with ticks })
      | .error f => .fail f
    else .fail .overflow

/-- One step: its cost, 0 if it was refused, and the processor after it. -/
def step (s : Cpu) : Bus.Program (Nat × Cpu) :=
  perform s.action { s with afterEI := false } >>= finish s

end Cpu
end TandemZ80
