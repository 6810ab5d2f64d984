import TandemZ80.Device.Arena

/-!
# Ports

A processor has 256 ports, told apart by the low byte of the address it puts out, and one more line
that it reads while it acknowledges an interrupt. On each line there are two lists of handlers, one
for inputs and one for outputs, in the order in which they were attached. An input asks every
handler and gives the AND of their answers; an output goes to every handler.

* `Line`, `Handler`, `Ports`; `Connector`, a row of a device's wiring;
* `attach`, `connect`, `disconnect`, `setShared`;
* `input`, `output`, `acknowledge`.
-/

namespace TandemZ80

/-- Whether a handler serves inputs or outputs. -/
inductive Direction
  | input
  | output
  deriving DecidableEq

/-- A function of a device, attached to a port. -/
structure Handler where
  device : DeviceId
  func : Nat
  deriving DecidableEq

/-- A port with what is attached to it. -/
structure Line where
  inputs : List Handler
  outputs : List Handler
  /-- The partner has to catch up before the port may be touched. -/
  shared : Bool
  deriving DecidableEq

namespace Line

/-- Nothing is attached. -/
def empty : Line := { inputs := [], outputs := [], shared := false }

/-- The handlers of one direction. -/
def handlers (l : Line) : Direction → List Handler
  | .input => l.inputs
  | .output => l.outputs

/-- Attach a handler behind the others. -/
def attach (l : Line) (h : Handler) : Direction → Line
  | .input => { l with inputs := l.inputs ++ [h] }
  | .output => { l with outputs := l.outputs ++ [h] }

/-- Detach every handler of a device. A port with no handler left is not shared. -/
def detach (l : Line) (device : DeviceId) : Line :=
  let others := List.filter fun h : Handler => h.device ≠ device
  let inputs := others l.inputs
  let outputs := others l.outputs
  { inputs, outputs, shared := l.shared && !(inputs.isEmpty && outputs.isEmpty) }

end Line

/-- A row of a device's wiring. -/
structure Connector where
  /-- The low byte of a port address, or `Ports.acknowledgePort`. -/
  port : UInt16
  direction : Direction
  /-- The place of the function in the device's list. -/
  func : Nat
  /-- Make the port a shared one. -/
  shared : Bool
  deriving DecidableEq

/-- The ports of one processor. -/
structure Ports where
  lines : Vector Line 257

namespace Ports

/-- Nothing is attached to any port. -/
def empty : Ports := ⟨Vector.replicate 257 .empty⟩

instance : Inhabited Ports := ⟨empty⟩

/-- The number by which the line for interrupt acknowledge cycles is wired. -/
def acknowledgePort : UInt16 := 0x100

/-- The line of a port number. -/
def lineOf (port : UInt16) : Fin 257 :=
  if port = acknowledgePort then 256 else ⟨port.toNat % 256, by omega⟩

/-- A port with what is attached to it. -/
def line (p : Ports) (port : UInt16) : Line := p.lines[lineOf port]

/-- Change one port. -/
def modify (p : Ports) (port : UInt16) (f : Line → Line) : Ports :=
  ⟨p.lines.set (lineOf port) (f (p.line port))⟩

/-- Attach a function of a device to a port, without a look at what the device publishes. -/
def attach (p : Ports) (direction : Direction) (port : UInt16) (device : DeviceId) (func : Nat) :
    Ports :=
  p.modify port fun l => l.attach ⟨device, func⟩ direction

/-- Make a port a shared one, or one that is not. -/
def setShared (p : Ports) (port : UInt16) (shared : Bool) : Ports :=
  p.modify port fun l => { l with shared }

/-- Whether the partner has to catch up before the port may be touched. -/
def isShared (p : Ports) (port : UInt16) : Bool := (p.line port).shared

/-- Whether a row names a function that the device publishes, and a line that exists. -/
def Fits (d : Descriptor) (c : Connector) : Prop :=
  c.func < (match c.direction with | .input => d.inputs | .output => d.outputs).length ∧
    c.port ≤ acknowledgePort

instance (d : Descriptor) (c : Connector) : Decidable (Fits d c) :=
  inferInstanceAs (Decidable (_ ∧ _))

/-- Wire one row. -/
def wire (device : DeviceId) (p : Ports) (c : Connector) : Ports :=
  let p := p.attach c.direction c.port device c.func
  if c.shared then p.setShared c.port true else p

/-- Wire a device row by row. Nothing is wired if one row does not fit the device, or the device is
gone. -/
def connect {δ : Type} [Device δ] (p : Ports) (ds : Devices δ) (device : DeviceId)
    (rows : List Connector) : Bool × Ports :=
  match ds.descriptor? device with
  | none => (false, p)
  | some d => if ∀ c ∈ rows, Fits d c then (true, rows.foldl (wire device) p) else (false, p)

/-- Detach a device from every port. -/
def disconnect (p : Ports) (device : DeviceId) : Ports := ⟨p.lines.map fun l => l.detach device⟩

/-! ### Access -/

variable {δ : Type} [Device δ]

/-- Ask every handler in turn, and combine the answers. -/
def askAll (port : UInt16) : List Handler → Devices δ → Except Fault (UInt8 × Devices δ)
  | [], ds => .ok (0xFF, ds)
  | h :: hs, ds => do
    let (v, ds) ← ds.input h.device h.func port
    let (rest, ds) ← askAll port hs ds
    return (v &&& rest, ds)

/-- Tell every handler in turn. -/
def tellAll (port : UInt16) (v : UInt8) : List Handler → Devices δ → Except Fault (Devices δ)
  | [], ds => .ok ds
  | h :: hs, ds => do
    let ds ← ds.output h.device h.func port v
    tellAll port v hs ds

/-- An input from a port. A port that nobody drives reads `FF`. -/
def input (p : Ports) (port : UInt16) (ds : Devices δ) : Except Fault (UInt8 × Devices δ) :=
  askAll port (p.line port).inputs ds

/-- An output to a port. -/
def output (p : Ports) (port : UInt16) (v : UInt8) (ds : Devices δ) : Except Fault (Devices δ) :=
  tellAll port v (p.line port).outputs ds

/-- The byte on the data bus during an interrupt acknowledge cycle. -/
def acknowledge (p : Ports) (ds : Devices δ) : Except Fault (UInt8 × Devices δ) :=
  p.input acknowledgePort ds

end Ports
end TandemZ80
