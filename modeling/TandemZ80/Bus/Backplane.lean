import TandemZ80.Bus.Rendezvous
import TandemZ80.Memory.Access
import TandemZ80.Ports

/-!
# The backplane

The bus of a processor in a machine: its memory map, its ports, and the devices that both lead to.
The backplane answers all calls by itself except those meant for the partner, which it passes on as
rendezvous.

* `Backplane`, its state;
* `Backplane.serve`, the bus.
-/

namespace TandemZ80

/-- The memory and ports of one processor, with the devices behind them. -/
structure Backplane (δ : Type) where
  memory : MemoryMap
  ports : Ports
  devices : Devices δ

namespace Backplane

variable {δ : Type} [Device δ]

/-- The number of the port that a port address selects. -/
def portOf (address : UInt16) : UInt16 := UInt16.ofNat (address.toNat % 256)

/-- Read from a device or from memory. -/
def reading {α : Type} (access : Devices δ → Except Fault (α × Devices δ)) :
    Backplane δ → Rendezvous.Program (α × Backplane δ)
  | ⟨memory, ports, devices⟩ =>
    match access devices with
    | .ok (v, devices) => .done (v, ⟨memory, ports, devices⟩)
    | .error f => .fail f

/-- Answer a call of the processor. -/
def serve : (q : Bus.Call) → Backplane δ → Rendezvous.Program (Bus.Reply q × Backplane δ)
  | .read a, b => reading (b.memory.read a) b
  | .write a v, ⟨memory, ports, devices⟩ =>
    match memory.write a v devices with
    | .ok (memory, devices) => .done ((), ⟨memory, ports, devices⟩)
    | .error f => .fail f
  | .input p, b => reading (b.ports.input (portOf p)) b
  | .output p v, b =>
    reading (fun devices => do return ((), ← b.ports.output (portOf p) v devices)) b
  | .acknowledge, b => reading b.ports.acknowledge b
  | .window a, b => .done (b.memory.window a, b)
  | .readWindow w a, b => .done (b.memory.readWindow w a, b)
  | .isShared p, b => .done (b.ports.isShared (portOf p), b)
  | .sync elapsed, b => .ask (.sync elapsed) fun granted => .done (granted, b)
  | .stop clocks, b => .ask (.stop clocks) fun _ => .done ((), b)

end Backplane
end TandemZ80
