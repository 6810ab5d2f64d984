import TandemZ80.Bus.Basic

/-!
# Flat memory

The simplest bus: 64K of memory, a latch behind each of 256 input ports, and a record of all
outputs. It issues a window for each run of 256 addresses, and lets its processor run alone.

* `Flat`, its state; `load`, `peek`, `poke`, `setPort`;
* `Flat.bus`, the bus itself.
-/

namespace TandemZ80

/-- Memory and ports of a flat bus. -/
structure Flat where
  memory : Vector UInt8 65536
  /-- What an input from each port gives. -/
  ports : Vector UInt8 256
  /-- The outputs so far, with their ports, in order. -/
  outputs : Array (UInt16 × UInt8)
  /-- The byte for interrupt acknowledge cycles. -/
  acknowledge : UInt8

namespace Flat

/-- Clear memory, ports that float high, no outputs. -/
def empty : Flat :=
  { memory := Vector.replicate 65536 0
    ports := Vector.replicate 256 0xFF
    outputs := #[]
    acknowledge := 0xFF }

instance : Inhabited Flat := ⟨empty⟩

/-- The byte at an address. -/
def peek (m : Flat) (a : UInt16) : UInt8 := m.memory[a.toFin]

/-- Memory with one byte changed. -/
def poke (m : Flat) (a : UInt16) (v : UInt8) : Flat :=
  { m with memory := m.memory.set a.toNat v a.toNat_lt }

/-- Memory with bytes stored from an address on, wrapping at its end. -/
def load (m : Flat) (a : UInt16) : List UInt8 → Flat
  | [] => m
  | v :: vs => (m.poke a v).load (a + 1) vs

/-- The byte that a port gives; the low byte of its address selects the latch. -/
def port (m : Flat) (p : UInt16) : UInt8 := m.ports[p.toNat % 256]

/-- Set the byte that the port gives from now on. -/
def setPort (m : Flat) (p : UInt16) (v : UInt8) : Flat :=
  { m with ports := m.ports.set (p.toNat % 256) v }

/-- The window around an address: the 256 addresses with its high byte. -/
def window (a : UInt16) : Window :=
  { base := a &&& 0xFF00
    len := 0x100
    buffer := 0
    offset := (a &&& 0xFF00).toUInt32
    generation := 0 }

/-- A byte through a window. Windows of flat memory never go stale. -/
def readWindow (m : Flat) (w : Window) (a : UInt16) : Option UInt8 := m.memory[w.index a]?

/-- The flat bus. -/
def bus : Bus Flat
  | .read a, m => .ok (m.peek a, m)
  | .write a v, m => .ok ((), m.poke a v)
  | .input p, m => .ok (m.port p, m)
  | .output p v, m => .ok ((), { m with outputs := m.outputs.push (p, v) })
  | .acknowledge, m => .ok (m.acknowledge, m)
  | .window a, m => .ok (some (window a), m)
  | .readWindow w a, m => .ok (m.readWindow w a, m)
  | .isShared _, m => .ok (false, m)
  | .sync _, m => .ok (true, m)
  | .stop _, m => .ok ((), m)

/-! ### Memory as a function -/

theorem peek_poke_self (m : Flat) (a : UInt16) (v : UInt8) : (m.poke a v).peek a = v := by
  simp [peek, poke]

theorem peek_poke_of_ne (m : Flat) {a b : UInt16} (v : UInt8) (h : a ≠ b) :
    (m.poke a v).peek b = m.peek b := by
  have h' : a.toNat ≠ b.toNat := fun e => h (UInt16.toNat_inj.mp e)
  simp [peek, poke, h']

theorem peek_poke (m : Flat) (a b : UInt16) (v : UInt8) :
    (m.poke a v).peek b = if a = b then v else m.peek b := by
  split
  · next h => rw [← h, peek_poke_self]
  · next h => exact peek_poke_of_ne m v h

/-- A window of flat memory shows the memory behind it. -/
theorem readWindow_window (m : Flat) {a b : UInt16} (h : (window a).contains b) :
    m.readWindow (window a) b = some (m.peek b) := by
  have hb : (a &&& 0xFF00).toNat + (b - (a &&& 0xFF00)).toNat = b.toNat := by
    simp only [Window.contains, window, decide_eq_true_eq, UInt16.lt_iff_toNat_lt,
      UInt16.toNat_sub, UInt16.toNat_ofNat] at h
    have h1 : (a &&& 0xFF00).toNat % 256 = 0 := by
      rw [UInt16.toNat_and]
      have : (0xFF00 : UInt16).toNat = 0xFF00 := rfl
      rw [this, show (256 : Nat) = 2 ^ 8 from rfl, Nat.and_mod_two_pow]
      simp
    have h2 := (a &&& 0xFF00).toNat_lt
    have h3 := b.toNat_lt
    rw [UInt16.toNat_sub]
    omega
  have hi : (window a).index b = b.toNat := by
    simp only [Window.index, window, UInt16.toNat_toUInt32]
    exact hb
  rw [readWindow, hi, peek]
  simp

end Flat
end TandemZ80
