import TandemZ80.Dialogue

/-!
# The bus

Everything outside a processor is reached over its bus: memory, ports, the interrupt acknowledge
cycle. A bus may also hand out windows, through which the bytes at a stretch of addresses can be
fetched without looking the addresses up, and it carries the calls by which two processors keep
step with each other.

* `Window`, a stretch of directly readable bytes;
* `Call`, the ten calls of a processor on its bus, with the answers in `Reply`;
* `Bus`, a handler of these calls;
* `Plain`, the four calls every bus has to answer, and `Plain.toBus`, which answers the others as a
  bus without windows and without a partner does.
-/

namespace TandemZ80

/-- A stretch of addresses whose bytes can be fetched directly. -/
structure Window where
  /-- The first address. -/
  base : UInt16
  /-- The number of addresses. -/
  len : UInt16
  /-- The storage behind the window. -/
  buffer : UInt32
  /-- Where `base` lies in the storage. -/
  offset : UInt32
  /-- The state of the memory map that the window was issued in. -/
  generation : UInt32
  deriving DecidableEq

/-- Whether an address lies in the window, which may wrap around the end of memory. -/
def Window.contains (w : Window) (a : UInt16) : Bool := a - w.base < w.len

/-- Where an address of the window lies in its storage. -/
def Window.index (w : Window) (a : UInt16) : Nat := w.offset.toNat + (a - w.base).toNat

namespace Bus

/-- A call of a processor on its bus. -/
inductive Call
  | read (a : UInt16)
  | write (a : UInt16) (v : UInt8)
  | input (port : UInt16)
  | output (port : UInt16) (v : UInt8)
  /-- The byte on the data bus during an interrupt acknowledge cycle. -/
  | acknowledge
  /-- A window around an address, if plain bytes lie there. -/
  | window (a : UInt16)
  /-- A byte through a window; none if the window is stale. -/
  | readWindow (w : Window) (a : UInt16)
  /-- Whether the partner has to catch up before the port may be touched. -/
  | isShared (port : UInt16)
  /-- May a shared port be touched, so many T-states into the instruction? -/
  | sync (elapsed : Nat)
  /-- End the running time slice in so many T-states. -/
  | stop (clocks : Nat)
  deriving DecidableEq

/-- What a call is answered by. -/
@[reducible] def Reply : Call → Type
  | .read _ | .input _ | .acknowledge => UInt8
  | .write .. | .output .. | .stop _ => Unit
  | .window _ => Option Window
  | .readWindow .. => Option UInt8
  | .isShared _ | .sync _ => Bool

/-- A program on a bus. -/
abbrev Program (α : Type) : Type := Dialogue Reply α

end Bus

/-- A bus with state `σ`. -/
abbrev Bus (σ : Type) : Type := Dialogue.Handler Bus.Reply σ

namespace Bus

variable {σ : Type}

/-- The calls that every bus has to answer. -/
structure Plain (σ : Type) where
  read : UInt16 → σ → Except Fault (UInt8 × σ)
  write : UInt16 → UInt8 → σ → Except Fault (Unit × σ)
  input : UInt16 → σ → Except Fault (UInt8 × σ)
  output : UInt16 → UInt8 → σ → Except Fault (Unit × σ)

/-- A plain bus acknowledges interrupts with `FF`, issues no windows, shares no port and never
holds its processor back. -/
def Plain.toBus (b : Plain σ) : Bus σ
  | .read a, s => b.read a s
  | .write a v, s => b.write a v s
  | .input p, s => b.input p s
  | .output p v, s => b.output p v s
  | .acknowledge, s => .ok ((0xFF : UInt8), s)
  | .window _, s => .ok (none, s)
  | .readWindow .., s => .ok (none, s)
  | .isShared _, s => .ok (false, s)
  | .sync _, s => .ok (true, s)
  | .stop _, s => .ok ((), s)

end Bus
end TandemZ80
