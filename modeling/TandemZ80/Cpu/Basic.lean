import TandemZ80.Bus.Basic
import TandemZ80.Cpu.Registers
import TandemZ80.Ticks

/-!
# The processor

* `Cpu`, its state between two steps, and `Cpu.initial`, the state it is created in;
* the lines and settings that the outside drives: `setIntLine`, `nmi`, `setPC`, `setSP`, `reset`;
* `interruptPending`;
* `advanceIdle`, which credits a halted processor with time it was not stepped for.
-/

namespace TandemZ80

/-- A processor between two steps. -/
structure Cpu where
  regs : Registers
  /-- The window that the last opcodes were fetched through. -/
  window : Option Window
  /-- The level of the maskable interrupt line. -/
  intLine : Bool
  /-- A non-maskable interrupt was requested. -/
  nmiPending : Bool
  /-- The last instruction enabled interrupts, which hold off for one more instruction. -/
  afterEI : Bool
  /-- All T-states since creation. -/
  ticks : Ticks
  deriving DecidableEq

namespace Cpu

/-- A new processor. -/
def initial : Cpu :=
  { regs := .powerOn, window := none, intLine := false, nmiPending := false, afterEI := false
    ticks := .zero }

instance : Inhabited Cpu := ⟨initial⟩

/-- Back to the power-on state. Time goes on. -/
def reset (s : Cpu) : Cpu := { initial with ticks := s.ticks }

/-- Drive the maskable interrupt line. -/
def setIntLine (s : Cpu) (level : Bool) : Cpu := { s with intLine := level }

/-- Request a non-maskable interrupt. -/
def nmi (s : Cpu) : Cpu := { s with nmiPending := true }

/-- Go on at another address; a halt ends. -/
def setPC (s : Cpu) (a : UInt16) : Cpu :=
  { s with regs := { s.regs with pc := a, halted := false } }

/-- Move the stack. -/
def setSP (s : Cpu) (a : UInt16) : Cpu := { s with regs := { s.regs with sp := a } }

/-- Whether an interrupt is waiting that the processor does not mask. -/
def interruptPending (s : Cpu) : Bool := s.nmiPending || s.intLine && s.regs.iff1

/-- Halted, with no interrupt line up and no interrupt waiting: nothing happens until the outside
drives a line. -/
def isIdle (s : Cpu) : Bool := s.regs.halted && !s.intLine && !s.interruptPending

/-- Credit a halted processor with time that it was not stepped for. The refresh counter moves as if
the processor had waited in slots of four T-states. -/
def advanceIdle (s : Cpu) (t : Ticks) : Except Fault Cpu := do
  Fault.require s.regs.halted .misuse
  let ticks ← s.ticks.add t
  let slots := (t.count.toNat / 4) % 128
  return { s with regs := Nat.repeat Registers.refresh slots s.regs, ticks }

end Cpu
end TandemZ80
