import TandemZ80.Machine.Basic

/-!
# Images over the RAM

An image is mapped for reading over the RAM of a processor. It fills whole pages; what it does not
cover in them reads `FF`. Writes go to what lies beneath.

* `RomImage`, `RomImage.place`, the pages that an image fills;
* `Machine.loadRom`, `Machine.unloadRom`.
-/

namespace TandemZ80

/-- The handle of an image that was mapped. -/
structure RomHandle where
  side : Side
  slot : Slot
  device : DeviceId
  deriving DecidableEq

/-- An image filled up to whole pages. -/
structure RomImage where
  /-- The address of the first page. -/
  base : UInt16
  bytes : Array UInt8

/-- Fill the pages that hold an image from an address on. What reaches beyond the last address is
cut off. -/
def RomImage.place (a : UInt16) (bytes : List UInt8) : RomImage :=
  let lead := a.toNat % pageSize
  let base := a.toNat - lead
  -- The bytes from `base` on up to the end of the image.
  let used := min (lead + bytes.length) (ramSize - base)
  let pages := (used + (pageSize - 1)) / pageSize
  { base := UInt16.ofNat base
    bytes := Array.replicate lead 0xFF ++ (bytes.take (used - lead)).toArray ++
      Array.replicate (pages * pageSize - used) 0xFF }

/-- Map an image. -/
def MemoryMap.mapRom (m : MemoryMap) (s : Slot) (image : RomImage) : MemoryMap :=
  let (b, m) := m.addBuffer image.bytes
  let first := (Page.of image.base).val
  m.grant s (Page.meets image.base image.bytes.size)
    (fun p => .direct b ((p - first) * pageSize)) .read

namespace Machine

variable {δ : Type} [Device δ]

/-- Map an image for a processor, above all that is mapped already. There is none if the image is
empty or no slot is free. -/
def loadRom (m : Machine δ) (side : Side) (a : UInt16) (bytes : List UInt8) :
    Option RomHandle × Machine δ :=
  if bytes.isEmpty then (none, m)
  else
    let (device, m) := m.withDevices fun ds => ds.add .rom
    let (slot, m) := m.withMemory side fun memory => memory.connect device true
    match slot with
    -- The name of the device is used up all the same.
    | none => (none, (m.withDevices fun ds => ds.remove device).2)
    | some slot =>
      let image := RomImage.place a bytes
      (some { side, slot, device },
        (m.withMemory side fun memory => ((), memory.mapRom slot image)).2)

/-- Take an image away. -/
def unloadRom (m : Machine δ) (rom : RomHandle) : Machine δ :=
  let m := (m.withMemory rom.side fun memory => memory.disconnect rom.slot).2
  (m.withDevices fun ds => ds.remove rom.device).2

end Machine
end TandemZ80
