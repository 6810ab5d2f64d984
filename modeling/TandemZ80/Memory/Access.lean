import TandemZ80.Bus.Basic
import TandemZ80.Memory.Map

/-!
# Access through a memory map

* `MemoryMap.read`, `MemoryMap.write`: bytes of a buffer, or an answer of the device that the page
  is routed to. An unmapped page reads `FF` and drops writes;
* `MemoryMap.window`, `MemoryMap.readWindow`: a window shows one page of a buffer, and is stale as
  soon as the mapping has changed.
-/

namespace TandemZ80.MemoryMap

variable {δ : Type} [Device δ]

/-- Where an address lies in its page. -/
def inPage (a : UInt16) : Nat := a.toNat % pageSize

/-- Read the byte at an address. -/
def read (m : MemoryMap) (a : UInt16) (ds : Devices δ) : Except Fault (UInt8 × Devices δ) :=
  match m.page a .read with
  | .direct b offset => do
    let v ← m.byte b (offset + inPage a)
    return (v, ds)
  | .routed device => ds.memRead device a
  | .unmapped => .ok (0xFF, ds)

/-- Write a byte to an address. -/
def write (m : MemoryMap) (a : UInt16) (v : UInt8) (ds : Devices δ) :
    Except Fault (MemoryMap × Devices δ) :=
  match m.page a .write with
  | .direct b offset => do
    let m ← m.setByte b (offset + inPage a) v
    return (m, ds)
  | .routed device => do
    let ds ← ds.memWrite device a v
    return (m, ds)
  | .unmapped => .ok (m, ds)

/-- The window on the page of an address, if bytes of a buffer are shown there. -/
def window (m : MemoryMap) (a : UInt16) : Option Window :=
  match m.page a .read with
  | .direct b offset =>
    some
      { base := UInt16.ofNat (a.toNat - inPage a)
        len := UInt16.ofNat pageSize
        buffer := UInt32.ofNat b.index
        offset := UInt32.ofNat offset
        generation := m.generation }
  | _ => none

/-- Read through a window; none if the mapping has changed since it was issued. -/
def readWindow (m : MemoryMap) (w : Window) (a : UInt16) : Option UInt8 :=
  if w.generation = m.generation then
    m.buffers[w.buffer.toNat]?.bind fun bytes => bytes[w.index a]?
  else none

end TandemZ80.MemoryMap
