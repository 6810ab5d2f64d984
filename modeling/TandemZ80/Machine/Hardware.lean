import TandemZ80.Bus.Backplane
import TandemZ80.Cpu.Step
import TandemZ80.ParallelLink
import TandemZ80.Schedule.Run

/-!
# The hardware of a machine

Each processor sits on a *board* with its memory map and its ports. The devices are common to both
boards.

* `Part`, what the arena of a machine holds;
* `Board`, `Hardware`;
* `Hardware.step`, one step of a processor on its board; `Hardware.skipIdle`;
* `Hardware.processors`, the two processors as the scheduler sees them.
-/

namespace TandemZ80

/-- A device of a machine. -/
inductive Part (δ : Type)
  /-- The owner of a processor's RAM. All accesses go to its buffer. -/
  | ram
  /-- The owner of an image that lies over the RAM. -/
  | rom
  | link (l : ParallelLink)
  /-- A device that was added from outside. -/
  | external (d : δ)

namespace Part

variable {δ : Type} [Device δ]

/-- What a part publishes. -/
def descriptor : Part δ → Descriptor
  | ram => { name := "ram", inputs := [], outputs := [] }
  | rom => { name := "rom", inputs := [], outputs := [] }
  | link l => Device.descriptor l
  | external d => Device.descriptor d

/-- Answer an input. -/
def input (p : Part δ) (func : Nat) (port : UInt16) : Except Fault (UInt8 × Part δ) :=
  match p with
  | ram => .ok (0xFF, ram)
  | rom => .ok (0xFF, rom)
  | link l => (fun (v, l) => (v, link l)) <$> Device.input l func port
  | external d => (fun (v, d) => (v, external d)) <$> Device.input d func port

/-- Take an output. -/
def output (p : Part δ) (func : Nat) (port : UInt16) (v : UInt8) : Except Fault (Part δ) :=
  match p with
  | ram => .ok ram
  | rom => .ok rom
  | link l => link <$> Device.output l func port v
  | external d => external <$> Device.output d func port v

/-- Answer a read of memory. -/
def memRead (p : Part δ) (a : UInt16) : Except Fault (UInt8 × Part δ) :=
  match p with
  | ram => .ok (0xFF, ram)
  | rom => .ok (0xFF, rom)
  | link l => (fun (v, l) => (v, link l)) <$> Device.memRead l a
  | external d => (fun (v, d) => (v, external d)) <$> Device.memRead d a

/-- Take a write to memory. -/
def memWrite (p : Part δ) (a : UInt16) (v : UInt8) : Except Fault (Part δ) :=
  match p with
  | ram => .ok ram
  | rom => .ok rom
  | link l => link <$> Device.memWrite l a v
  | external d => external <$> Device.memWrite d a v

/-- Back to the power-on state. -/
def reset : Part δ → Part δ
  | ram => ram
  | rom => rom
  | link l => link (Device.reset l)
  | external d => external (Device.reset d)

instance : Device (Part δ) where
  descriptor := descriptor
  input := input
  output := output
  memRead := memRead
  memWrite := memWrite
  reset := reset

end Part

/-- A processor with its memory map and its ports. -/
structure Board where
  cpu : Cpu
  memory : MemoryMap
  ports : Ports

/-- Both boards, and the devices. -/
structure Hardware (δ : Type) where
  boards : PerSide Board
  devices : Devices (Part δ)

namespace Hardware

variable {δ : Type} [Device δ]

/-- Let a processor take one step on its board. -/
def step (s : Side) : Hardware δ → Rendezvous.Program (Nat × Hardware δ)
  | ⟨boards, devices⟩ =>
    match boards.split s with
    | (⟨cpu, memory, ports⟩, partner) =>
      cpu.step.relay Backplane.serve ⟨memory, ports, devices⟩ >>= fun
        | ((cost, cpu), ⟨memory, ports, devices⟩) =>
          .done (cost, ⟨.join s ⟨cpu, memory, ports⟩ partner, devices⟩)

/-- Credit a processor with time that it was not stepped for. -/
def skipIdle (s : Side) (clocks : UInt64) : Hardware δ → Except Fault (Hardware δ)
  | ⟨boards, devices⟩ =>
    match boards.split s with
    | (⟨cpu, memory, ports⟩, partner) => do
      let cpu ← cpu.advanceIdle ⟨clocks⟩
      return ⟨.join s ⟨cpu, memory, ports⟩ partner, devices⟩

/-- The processors as the scheduler sees them. -/
def processors : Processors (Hardware δ) where
  step := step
  skipIdle := skipIdle

end Hardware
end TandemZ80
