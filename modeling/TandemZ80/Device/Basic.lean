import TandemZ80.Fault

/-!
# Devices

A device is attached to ports and to pages of memory. It publishes named functions, is asked by the
number of one of them, and changes its own state only.

* `Descriptor`, what a device publishes;
* `Device`, what a device does. A device need not define any handler: reads then float high and
  writes are ignored.
-/

namespace TandemZ80

/-- The name of a device and of its functions. The place of a name in its list is the number that
the function is wired by. -/
structure Descriptor where
  name : String
  inputs : List String
  outputs : List String
  deriving DecidableEq

/-- The state type of a kind of device. -/
class Device (δ : Type) where
  descriptor : δ → Descriptor
  /-- Answer an input from a port by a numbered function. -/
  input (d : δ) (func : Nat) (port : UInt16) : Except Fault (UInt8 × δ) := .ok (0xFF, d)
  /-- Take an output to a port by a numbered function. -/
  output (d : δ) (func : Nat) (port : UInt16) (v : UInt8) : Except Fault δ := .ok d
  /-- Answer a read of a page that is routed to the device. -/
  memRead (d : δ) (a : UInt16) : Except Fault (UInt8 × δ) := .ok (0xFF, d)
  /-- Take a write to a page that is routed to the device. -/
  memWrite (d : δ) (a : UInt16) (v : UInt8) : Except Fault δ := .ok d
  /-- Back to the power-on state. -/
  reset (d : δ) : δ := d

end TandemZ80
