import TandemZ80.Config
import TandemZ80.Machine.Hardware
import TandemZ80.Schedule.Scheduler

/-!
# The machine

Two processors, each with 64K of RAM behind everything else that is mapped, and a scheduler that
runs them.

* `Machine`, `Machine.new`, `Machine.reset`;
* `Machine.execute`;
* lines and memory from outside: `updateCpu`, `read`, `write`, `loadRam`, `ram`;
* `attachLink`, `link?`.
-/

namespace TandemZ80

/-- A machine with external devices of type `δ`. -/
structure Machine (δ : Type) where
  config : Config
  hardware : Hardware δ
  scheduler : Scheduler
  /-- The buffer with the RAM of each processor. -/
  ramBuffers : PerSide BufferId
  /-- The parallel link, once it is attached. -/
  linkId : Option DeviceId

/-- The bytes of RAM of each processor. -/
def ramSize : Nat := 65536

/-- Memory in which the backstop maps a buffer of RAM everywhere. -/
def MemoryMap.ofRam (device : DeviceId) : MemoryMap :=
  let m := { empty with
    buffers := #[Array.replicate ramSize 0]
    clients := empty.clients.set Slot.last (some device) Slot.last.isLt
    backstop := some .last }
  m.grant .last (fun _ => true) (fun p => .direct ⟨0⟩ (p * pageSize)) .readWrite

namespace Machine

variable {δ : Type} [Device δ]

/-- A machine with RAM and nothing else attached. -/
def new (config : Config) : Except ConfigError (Machine δ) := do
  config.validate
  let (main, devices) := Devices.empty.add (Part.ram (δ := δ))
  let (sub, devices) := devices.add .ram
  let board (device : DeviceId) : Board :=
    { cpu := .initial, memory := .ofRam device, ports := .empty }
  return {
    config
    hardware := { boards := ⟨board main, board sub⟩, devices }
    scheduler := .initial
    ramBuffers := .both ⟨0⟩
    linkId := none }

/-! ### Boards -/

/-- The board of a processor. -/
def board (m : Machine δ) (s : Side) : Board := m.hardware.boards.get s

/-- A processor. -/
def cpu (m : Machine δ) (s : Side) : Cpu := (m.board s).cpu

/-- Change the hardware. -/
def withHardware {α : Type} (f : Hardware δ → α × Hardware δ) : Machine δ → α × Machine δ
  | ⟨config, hardware, scheduler, ramBuffers, linkId⟩ =>
    match f hardware with
    | (a, hardware) => (a, ⟨config, hardware, scheduler, ramBuffers, linkId⟩)

/-- Change a board. -/
def withBoard {α : Type} (s : Side) (f : Board → α × Board) : Machine δ → α × Machine δ :=
  withHardware fun
    | ⟨boards, devices⟩ =>
      match boards.split s with
      | (own, partner) =>
        match f own with
        | (a, own) => (a, ⟨.join s own partner, devices⟩)

/-- Change the memory map of a processor. -/
def withMemory {α : Type} (s : Side) (f : MemoryMap → α × MemoryMap) :
    Machine δ → α × Machine δ :=
  withBoard s fun
    | ⟨cpu, memory, ports⟩ =>
      match f memory with
      | (a, memory) => (a, ⟨cpu, memory, ports⟩)

/-- Change a processor. -/
def updateCpu (m : Machine δ) (s : Side) (f : Cpu → Cpu) : Machine δ :=
  (m.withBoard s fun b => ((), { b with cpu := f b.cpu })).2

/-- Change the ports of a processor, with a look at the devices. -/
def withPorts {α : Type} (s : Side) (f : Devices (Part δ) → Ports → α × Ports) :
    Machine δ → α × Machine δ :=
  withHardware fun h =>
    let b := h.boards.get s
    let (a, ports) := f h.devices b.ports
    (a, { h with boards := h.boards.set s { b with ports } })

/-- Change the devices. -/
def withDevices {α : Type} (f : Devices (Part δ) → α × Devices (Part δ)) :
    Machine δ → α × Machine δ :=
  withHardware fun
    | ⟨boards, devices⟩ =>
      match f devices with
      | (a, devices) => (a, ⟨boards, devices⟩)

/-! ### Running -/

/-- Run for so many T-states of the main processor. The result is how far it came. A sub processor
that waits for an interrupt is left out, if the configuration says so. -/
def execute (budget : UInt32) : Machine δ → Except Fault (UInt64 × Machine δ)
  | ⟨config, hardware, scheduler, ramBuffers, linkId⟩ => do
    let exec :=
      if config.idleSkip && hardware.boards.sub.cpu.isIdle then
        Scheduler.execMain Hardware.processors budget scheduler
      else Scheduler.execBoth Hardware.processors config.ratio.weights budget scheduler
    let (advance, scheduler, hardware) ← exec hardware
    return (advance, ⟨config, hardware, scheduler, ramBuffers, linkId⟩)

/-- Reset both processors, every device and the scheduler. Memory stays as it is. -/
def reset (m : Machine δ) : Machine δ :=
  let boards := m.hardware.boards.map fun b => { b with cpu := b.cpu.reset }
  { m with
    hardware := { boards, devices := m.hardware.devices.resetAll }
    scheduler := m.scheduler.reset }

/-! ### Memory -/

/-- Read through the memory map of a processor. -/
def read (m : Machine δ) (s : Side) (a : UInt16) : Except Fault (UInt8 × Machine δ) := do
  let (v, devices) ← (m.board s).memory.read a m.hardware.devices
  return (v, { m with hardware := { m.hardware with devices } })

/-- Write through the memory map of a processor. -/
def write (s : Side) (a : UInt16) (v : UInt8) : Machine δ → Except Fault (Machine δ)
  | ⟨config, ⟨boards, devices⟩, scheduler, ramBuffers, linkId⟩ =>
    match boards.split s with
    | (⟨cpu, memory, ports⟩, partner) => do
      let (memory, devices) ← memory.write a v devices
      let boards := .join s ⟨cpu, memory, ports⟩ partner
      return ⟨config, ⟨boards, devices⟩, scheduler, ramBuffers, linkId⟩

/-- The RAM of a processor, whatever lies over it. -/
def ram (m : Machine δ) (s : Side) : Array UInt8 :=
  ((m.board s).memory.bytes? (m.ramBuffers.get s)).getD #[]

/-- Store bytes in the RAM of a processor from an address on, wrapping at its end. -/
def loadRam (m : Machine δ) (s : Side) (a : UInt16) (bytes : List UInt8) : Machine δ :=
  let b := m.ramBuffers.get s
  (m.withMemory s fun memory => ((), memory.store b a bytes)).2

/-! ### The link -/

/-- Attach the parallel link to both processors, if it is not attached yet. -/
def attachLink (m : Machine δ) : DeviceId × Machine δ :=
  match m.linkId with
  | some id => (id, m)
  | none =>
    let (id, m) := m.withDevices fun ds => ds.add (.link .initial)
    let wire (s : Side) (m : Machine δ) : Machine δ :=
      (m.withPorts s fun ds ports => ports.connect ds id (ParallelLink.connectors s)).2
    (id, { wire .sub (wire .main m) with linkId := some id })

/-- The parallel link, if it is attached and not gone. -/
def link? (m : Machine δ) : Option ParallelLink := do
  match m.hardware.devices.get? (← m.linkId) with
  | some (.link l) => some l
  | _ => none

end Machine
end TandemZ80
