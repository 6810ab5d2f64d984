import TandemZ80.Device.Basic

/-!
# The arena of devices

Buses do not hold devices, they name them. All devices live in one arena and are named by the place
they were given in it, which is never given again. A name can outlive its device: what is asked of
a device that is gone reads `FF`, and what is written to it is lost.

* `DeviceId`, `Devices`; `add`, `remove`, `get?`, `resetAll`, `count`;
* the handlers of a device by its name: `input`, `output`, `memRead`, `memWrite`;
* which devices each operation leaves alone.
-/

namespace TandemZ80

/-- The name of a device: its place in the arena. -/
structure DeviceId where
  index : Nat
  deriving DecidableEq

theorem DeviceId.index_ne {id other : DeviceId} (h : id ≠ other) : id.index ≠ other.index :=
  fun heq => h (congrArg DeviceId.mk heq)

/-- The devices of a machine; the place of a device that is gone stays empty. -/
structure Devices (δ : Type) where
  slots : Array (Option δ)

namespace Devices

variable {δ : Type}

/-- No devices. -/
def empty : Devices δ := ⟨#[]⟩

instance : Inhabited (Devices δ) := ⟨empty⟩

/-- The device of that name, if it is not gone. -/
def get? (ds : Devices δ) (id : DeviceId) : Option δ := ds.slots[id.index]?.join

/-- Fill the place of a device. -/
def put (ds : Devices δ) (id : DeviceId) (d : Option δ) : Devices δ :=
  ⟨ds.slots.setIfInBounds id.index d⟩

/-- Add a device, and name it. -/
def add (ds : Devices δ) (d : δ) : DeviceId × Devices δ :=
  (⟨ds.slots.size⟩, ⟨ds.slots.push (some d)⟩)

/-- Take a device out. -/
def remove (ds : Devices δ) (id : DeviceId) : Option δ × Devices δ := (ds.get? id, ds.put id none)

/-- The number of devices that are not gone. -/
def count (ds : Devices δ) : Nat := ds.slots.countP Option.isSome

/-! ### Names -/

/-- A device that is there has its place in the arena. -/
theorem index_lt_of_get? {ds : Devices δ} {id : DeviceId} {d : δ} (h : ds.get? id = some d) :
    id.index < ds.slots.size := by
  refine Nat.lt_of_not_le fun hge => ?_
  rw [get?, Array.getElem?_eq_none hge] at h
  cases h

/-- No places come or go with the devices that fill them. -/
theorem size_put (ds : Devices δ) (id : DeviceId) (d : Option δ) :
    (ds.put id d).slots.size = ds.slots.size :=
  Array.size_setIfInBounds

theorem get?_put {ds : Devices δ} {id : DeviceId} {d : δ} (h : ds.get? id = some d) (d' : δ) :
    (ds.put id (some d')).get? id = some d' := by
  rw [get?, put, Array.getElem?_setIfInBounds_self_of_lt (index_lt_of_get? h)]
  rfl

theorem get?_put_of_ne {ds : Devices δ} {id other : DeviceId} (h : id ≠ other) (d : Option δ) :
    (ds.put other d).get? id = ds.get? id := by
  rw [get?, put, Array.getElem?_setIfInBounds_ne (DeviceId.index_ne h).symm]
  rfl

/-- A new device is found under its name. -/
theorem get?_add_self (ds : Devices δ) (d : δ) : (ds.add d).2.get? (ds.add d).1 = some d := by
  simp [add, get?]

/-- A new device takes no name that was in use, and the devices there are stay. -/
theorem get?_add_of_ne (ds : Devices δ) (d : δ) {id : DeviceId} (h : id ≠ (ds.add d).1) :
    (ds.add d).2.get? id = ds.get? id := by
  have h : id.index ≠ ds.slots.size := DeviceId.index_ne h
  simp only [add, get?, Array.getElem?_push, h, if_false]

/-- A device that was taken out is gone. -/
theorem get?_remove_self (ds : Devices δ) (id : DeviceId) : (ds.remove id).2.get? id = none := by
  simp [remove, get?, put, Array.getElem?_setIfInBounds]
  split <;> rfl

/-- Taking a device out leaves the others. -/
theorem get?_remove_of_ne (ds : Devices δ) {id other : DeviceId} (h : other ≠ id) :
    (ds.remove id).2.get? other = ds.get? other :=
  get?_put_of_ne h none

/-! ### Handlers -/

variable [Device δ]

/-- What a device publishes. -/
def descriptor? (ds : Devices δ) (id : DeviceId) : Option Descriptor :=
  (ds.get? id).map Device.descriptor

/-- Reset every device. -/
def resetAll (ds : Devices δ) : Devices δ := ⟨ds.slots.map (Option.map Device.reset)⟩

/-- Read from a device. One that is gone reads `FF`. -/
def readBy (handler : δ → Except Fault (UInt8 × δ)) (id : DeviceId) (ds : Devices δ) :
    Except Fault (UInt8 × Devices δ) :=
  match ds.get? id with
  | none => .ok (0xFF, ds)
  | some d => do
    let (v, d) ← handler d
    return (v, ds.put id (some d))

/-- Write to a device. One that is gone drops the write. -/
def writeBy (handler : δ → Except Fault δ) (id : DeviceId) (ds : Devices δ) :
    Except Fault (Devices δ) :=
  match ds.get? id with
  | none => .ok ds
  | some d => do
    let d ← handler d
    return ds.put id (some d)

/-- An input by a function of a device. -/
def input (id : DeviceId) (func : Nat) (port : UInt16) :
    Devices δ → Except Fault (UInt8 × Devices δ) :=
  readBy (Device.input · func port) id

/-- An output by a function of a device. -/
def output (id : DeviceId) (func : Nat) (port : UInt16) (v : UInt8) :
    Devices δ → Except Fault (Devices δ) :=
  writeBy (Device.output · func port v) id

/-- A read of a page that is routed to a device. -/
def memRead (id : DeviceId) (a : UInt16) : Devices δ → Except Fault (UInt8 × Devices δ) :=
  readBy (Device.memRead · a) id

/-- A write to a page that is routed to a device. -/
def memWrite (id : DeviceId) (a : UInt16) (v : UInt8) : Devices δ → Except Fault (Devices δ) :=
  writeBy (Device.memWrite · a v) id

end Devices
end TandemZ80
