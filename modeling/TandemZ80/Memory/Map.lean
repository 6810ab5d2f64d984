import TandemZ80.Memory.Cell

/-!
# Memory maps

The memory map of one processor: buffers of bytes, the clients that map them, and a cell for each
page and direction. Clients come and go; whatever a client mapped is given back when it leaves, and
what lay beneath shows again. The first client of the last slot is the *backstop*, which never
gives anything back.

* `Access`, `Target`; `MemoryMap`;
* `addBuffer`, `bytes?`, `setByte`, `store`, `replaceBuffer`;
* `connect`, `disconnect`, `alloc`, `release`;
* what a map shows: `page`, `ownPage`, `owner`.

Every change of the mapping starts a new *generation*, by which a stale window is told from a fresh
one.
-/

namespace TandemZ80

/-- The directions that an operation is about. -/
inductive Access
  | read
  | write
  | readWrite
  deriving DecidableEq

/-- Whether reading is meant. -/
def Access.reads : Access → Bool
  | .read | .readWrite => true
  | .write => false

/-- Whether writing is meant. -/
def Access.writes : Access → Bool
  | .write | .readWrite => true
  | .read => false

/-- What a range of pages is mapped to. -/
inductive Target
  /-- Bytes of a buffer. The first page lies at the offset and each further page one stride on; a
  stride of 0 shows the same bytes in all of them. -/
  | buffer (buffer : BufferId) (offset stride : Nat)
  /-- The client's device. -/
  | device
  deriving DecidableEq

/-- The memory map of one processor. -/
structure MemoryMap where
  buffers : Array (Array UInt8)
  /-- The device of the client in each slot. -/
  clients : Vector (Option DeviceId) slotCount
  backstop : Option Slot
  reading : Vector Cell pageCount
  writing : Vector Cell pageCount
  generation : UInt32

/-- Whether a page holds an address of the `len` addresses from `addr` on. -/
def Page.meets (addr : UInt16) (len : Nat) (p : Page) : Bool :=
  0 < len && addr.toNat < (p + 1) * pageSize && p * pageSize < addr.toNat + len

/-- The number of pages that hold one of the `len` addresses from `addr` on. -/
def Page.countMeeting (addr : UInt16) (len : Nat) : Nat :=
  (List.finRange pageCount).countP (Page.meets addr len)

namespace MemoryMap

/-- Nothing is mapped and nobody connected. -/
def empty : MemoryMap :=
  { buffers := #[]
    clients := Vector.replicate slotCount none
    backstop := none
    reading := Vector.replicate pageCount .empty
    writing := Vector.replicate pageCount .empty
    generation := 0 }

instance : Inhabited MemoryMap := ⟨empty⟩

/-! ### Buffers -/

/-- Add a buffer, and name it. -/
def addBuffer (m : MemoryMap) (bytes : Array UInt8) : BufferId × MemoryMap :=
  (⟨m.buffers.size⟩, { m with buffers := m.buffers.push bytes })

/-- The bytes of a buffer. -/
def bytes? (m : MemoryMap) (b : BufferId) : Option (Array UInt8) := m.buffers[b.index]?

/-- The number of bytes in a buffer, 0 where there is none. -/
def bufferSize (m : MemoryMap) (b : BufferId) : Nat :=
  match m.bytes? b with
  | some bytes => bytes.size
  | none => 0

/-- A byte of a buffer. -/
def byte (m : MemoryMap) (b : BufferId) (i : Nat) : Except Fault UInt8 :=
  match (m.bytes? b).bind fun bytes => bytes[i]? with
  | some v => .ok v
  | none => .error .outOfBounds

/-- Change a byte of a buffer. -/
def setByte (m : MemoryMap) (b : BufferId) (i : Nat) (v : UInt8) : Except Fault MemoryMap :=
  if i < m.bufferSize b then
    .ok { m with buffers := m.buffers.modify b.index fun bytes => bytes.setIfInBounds i v }
  else .error .outOfBounds

/-- An array with bytes stored from an address on, wrapping at 64K. -/
def storeFrom (a : UInt16) : List UInt8 → Array UInt8 → Array UInt8
  | [], buffer => buffer
  | v :: vs, buffer => storeFrom (a + 1) vs (buffer.setIfInBounds a.toNat v)

/-- Store bytes in a buffer from an address on, wrapping at 64K. -/
def store (m : MemoryMap) (b : BufferId) (a : UInt16) (bytes : List UInt8) : MemoryMap :=
  { m with buffers := m.buffers.modify b.index (storeFrom a bytes) }

/-- Change all bytes of a buffer. -/
def replaceBuffer (m : MemoryMap) (b : BufferId) (bytes : Array UInt8) : MemoryMap :=
  { m with buffers := m.buffers.setIfInBounds b.index bytes }

/-! ### Clients -/

/-- The slot for the next client: the lowest free one if it asks for priority, otherwise the
highest. -/
def freeSlot? (m : MemoryMap) (priority : Bool) : Option Slot :=
  let slots := List.finRange slotCount
  (if priority then slots else slots.reverse).find? fun s => (m.clients.get s).isNone

/-- Connect a device as a client, if a slot is free. -/
def connect (m : MemoryMap) (device : DeviceId) (priority : Bool) : Option Slot × MemoryMap :=
  match m.freeSlot? priority with
  | none => (none, m)
  | some s =>
    (some s,
      { m with
        clients := m.clients.set s (some device) s.isLt
        backstop := if s = .last ∧ m.backstop = none then some s else m.backstop })

/-- Change the cells of some pages, which starts a new generation. -/
def remap (m : MemoryMap) (access : Access) (f : Page → Cell → Cell) : MemoryMap :=
  let change (cells : Vector Cell pageCount) := cells.mapFinIdx fun i c h => f ⟨i, h⟩ c
  { m with
    reading := if access.reads then change m.reading else m.reading
    writing := if access.writes then change m.writing else m.writing
    generation := m.generation + 1 }

/-- Let a slot hold pages, each with its own mapping. -/
def grant (m : MemoryMap) (s : Slot) (pages : Page → Bool) (mapping : Page → Mapping)
    (access : Access) : MemoryMap :=
  m.remap access fun p c => if pages p then c.grant s (mapping p) else c

/-- Take pages away from a slot. -/
def revoke (m : MemoryMap) (s : Slot) (pages : Page → Bool) (access : Access) : MemoryMap :=
  m.remap access fun p c => if pages p then c.revoke s else c

/-- The end of an address range, which has to fit a machine word of 64 bits. -/
def checkRange (addr : UInt16) (len : Nat) : Except Fault Unit :=
  Fault.require (addr.toNat + len < UInt64.size) .overflow

/-- Map every page that holds one of the `len` addresses from `addr` on. Nothing is mapped for a
slot without a client, or if the pages reach beyond the buffer. -/
def alloc (m : MemoryMap) (s : Slot) (addr : UInt16) (len : Nat) (target : Target)
    (access : Access) : Except Fault (Bool × MemoryMap) :=
  match m.clients.get s with
  | none => .ok (false, m)
  | some device => do
    checkRange addr len
    let pages := Page.meets addr len
    match target with
    | .buffer b offset stride =>
      -- An empty range counts as one page here; it is refused only after the check.
      let last := offset + (Page.countMeeting addr len - 1) * stride
      Fault.require (last + pageSize < UInt64.size) .overflow
      if len = 0 ∨ m.bufferSize b < last + pageSize then return (false, m)
      let place (p : Page) : Nat := offset + (p - (Page.of addr).val) * stride
      return (true, m.grant s pages (fun p => .direct b (place p)) access)
    | .device => return (true, m.grant s pages (fun _ => .routed device) access)

/-- Give back every page that holds one of the `len` addresses from `addr` on. The backstop gives
nothing back. -/
def release (m : MemoryMap) (s : Slot) (addr : UInt16) (len : Nat) (access : Access) :
    Except Fault MemoryMap :=
  if m.backstop = some s ∨ m.clients.get s = none then .ok m
  else do
    checkRange addr len
    return m.revoke s (Page.meets addr len) access

/-- Give back all pages of a client, and free its slot. The backstop stays. -/
def disconnect (m : MemoryMap) (s : Slot) : Bool × MemoryMap :=
  if m.backstop = some s ∨ m.clients.get s = none then (false, m)
  else
    let m := m.revoke s (fun _ => true) .readWrite
    (true, { m with clients := m.clients.set s none s.isLt })

/-! ### What a map shows -/

/-- The cell of an address. Where both directions are meant, the one for reading is shown. -/
def cell (m : MemoryMap) (a : UInt16) (access : Access) : Cell :=
  (if access.reads then m.reading else m.writing).get (Page.of a)

/-- What lies at an address. -/
def page (m : MemoryMap) (a : UInt16) (access : Access) : Mapping := (m.cell a access).shown

/-- What a client has put at an address, whether it is shown or not. -/
def ownPage (m : MemoryMap) (s : Slot) (a : UInt16) (access : Access) : Option Mapping :=
  if (m.clients.get s).isSome then some ((m.cell a access).own.get s) else none

/-- The client whose mapping is shown at an address. -/
def owner (m : MemoryMap) (a : UInt16) (access : Access) : Option Slot := (m.cell a access).top

end MemoryMap
end TandemZ80
