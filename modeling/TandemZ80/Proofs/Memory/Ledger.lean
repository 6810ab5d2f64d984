import TandemZ80.Memory.Access
import TandemZ80.Proofs.Memory.Range
import TandemZ80.Proofs.System

/-!
# The ledger

What a memory map is for, told without tables of what is shown: a ledger has for every client the
device and the mappings that it was granted, page by page. Every access looks up who holds the page,
and takes the mapping of the client in the lowest slot.

* `Ledger`, its operations, and what it shows;
* `MemoryMap.Operation`, what can be done with an address space, and `MemoryMap.View`, what shows of
  it;
* `MemoryMap.system` and `Ledger.system`, memory maps and ledgers as systems, with devices beside
  them.
-/

namespace TandemZ80

open Page (Holds)

/-- A client, with what it holds. -/
structure Ledger.Client where
  device : DeviceId
  reading : Page → Option Mapping
  writing : Page → Option Mapping

/-- The clients by their slots, and the buffers. -/
structure Ledger where
  buffers : List (List UInt8)
  clients : Slot → Option Ledger.Client

namespace Ledger

/-- Nobody is connected. -/
def empty : Ledger := { buffers := [], clients := fun _ => none }

/-- What a client holds in one direction. -/
def Client.grants (c : Client) (q : Access) : Page → Option Mapping :=
  if q.reads then c.reading else c.writing

/-- Change what a client holds. -/
def Client.change (c : Client) (access : Access) (f : Page → Option Mapping → Option Mapping) :
    Client :=
  { c with
    reading := fun p => if access.reads then f p (c.reading p) else c.reading p
    writing := fun p => if access.writes then f p (c.writing p) else c.writing p }

/-! ### Who holds a page -/

/-- What the client in a slot holds of a page. -/
def grant? (n : Ledger) (q : Access) (p : Page) (s : Slot) : Option Mapping :=
  (n.clients s).bind fun c => c.grants q p

/-- The lowest slot whose client holds a page. -/
def holder? (n : Ledger) (q : Access) (p : Page) : Option Slot :=
  (List.finRange slotCount).find? fun s => (n.grant? q p s).isSome

/-- What shows in a page. -/
def shown (n : Ledger) (q : Access) (p : Page) : Mapping :=
  match n.holder? q p with
  | some s => (n.grant? q p s).getD .unmapped
  | none => .unmapped

/-! ### Buffers and accesses -/

/-- The bytes of a buffer. -/
def bytes (n : Ledger) (b : BufferId) : List UInt8 := n.buffers[b.index]?.getD []

/-- Change a byte of a buffer. -/
def setByte (n : Ledger) (b : BufferId) (i : ℕ) (v : UInt8) : Except Fault Ledger :=
  if i < (n.bytes b).length then
    .ok { n with buffers := n.buffers.modify b.index fun bytes => bytes.set i v }
  else .error .outOfBounds

variable {δ : Type} [Device δ]

/-- Read the byte at an address. -/
def read (n : Ledger) (a : UInt16) (ds : Devices δ) : Except Fault (UInt8 × Devices δ) :=
  match n.shown .read (.of a) with
  | .direct b offset =>
    match (n.bytes b)[offset + a.toNat % pageSize]? with
    | some v => .ok (v, ds)
    | none => .error .outOfBounds
  | .routed device => ds.memRead device a
  | .unmapped => .ok (0xFF, ds)

/-- Write a byte to an address. -/
def write (n : Ledger) (a : UInt16) (v : UInt8) (ds : Devices δ) :
    Except Fault (Ledger × Devices δ) :=
  match n.shown .write (.of a) with
  | .direct b offset => (·, ds) <$> n.setByte b (offset + a.toNat % pageSize) v
  | .routed device => (n, ·) <$> ds.memWrite device a v
  | .unmapped => .ok (n, ds)

/-! ### Clients -/

/-- Put a client in a slot, or clear the slot. -/
def setClient (n : Ledger) (s : Slot) (c : Option Client) : Ledger :=
  { n with clients := Function.update n.clients s c }

/-- Change what the client in a slot holds. -/
def change (n : Ledger) (s : Slot) (access : Access) (f : Page → Option Mapping → Option Mapping) :
    Ledger :=
  n.setClient s ((n.clients s).map fun c => c.change access f)

/-- The slot for the next client: the lowest or the highest free one. -/
def free? (n : Ledger) (priority : Bool) : Option Slot :=
  let free (s : Slot) : Bool := (n.clients s).isNone
  if priority then (List.finRange slotCount).find? free
  else (List.finRange slotCount).reverse.find? free

/-- Connect a device. A new client holds nothing. -/
def connect (n : Ledger) (device : DeviceId) (priority : Bool) : Option Slot × Ledger :=
  match n.free? priority with
  | none => (none, n)
  | some s => (some s, n.setClient s (some ⟨device, fun _ => none, fun _ => none⟩))

/-- Grant a client the pages of a range. A buffer has to reach to the end of each of them, and a
range of a buffer must not be empty. -/
def alloc (n : Ledger) (s : Slot) (addr : UInt16) (len : ℕ) (target : Target) (access : Access) :
    Bool × Ledger :=
  let granted (mapping : Page → Mapping) : Ledger :=
    n.change s access fun p old => if Holds addr len p then some (mapping p) else old
  match n.clients s, target with
  | none, _ => (false, n)
  | some _, .buffer b offset stride =>
    let place (p : Page) : ℕ := offset + (p - (Page.of addr).val) * stride
    if 0 < len ∧ ∀ p, Holds addr len p → place p + pageSize ≤ (n.bytes b).length then
      (true, granted fun p => .direct b (place p))
    else (false, n)
  | some c, .device => (true, granted fun _ => .routed c.device)

/-- A client of the last slot stays, with all that it holds. -/
def Leaves (n : Ledger) (s : Slot) : Prop := s ≠ .last ∧ (n.clients s).isSome

instance (n : Ledger) (s : Slot) : Decidable (n.Leaves s) := inferInstanceAs (Decidable (_ ∧ _))

/-- Take the pages of a range away from a client. The end of the range has to fit 64 bits. -/
def release (n : Ledger) (s : Slot) (addr : UInt16) (len : ℕ) (access : Access) :
    Except Fault Ledger :=
  if n.Leaves s then
    if addr.toNat + len < UInt64.size then
      .ok (n.change s access fun p old => if Holds addr len p then none else old)
    else .error .overflow
  else .ok n

/-- A client leaves, and what it held is gone. -/
def disconnect (n : Ledger) (s : Slot) : Bool × Ledger :=
  if n.Leaves s then (true, n.setClient s none) else (false, n)

end Ledger

/-! ### Operations -/

namespace MemoryMap

/-- What can be done with an address space. -/
inductive Operation
  | addBuffer (bytes : Array UInt8)
  /-- Change a byte of a buffer. -/
  | setByte (b : BufferId) (i : ℕ) (v : UInt8)
  | connect (device : DeviceId) (priority : Bool)
  | disconnect (s : Slot)
  | alloc (s : Slot) (addr : UInt16) (len : ℕ) (target : Target) (access : Access)
  | release (s : Slot) (addr : UInt16) (len : ℕ) (access : Access)
  | read (a : UInt16)
  | write (a : UInt16) (v : UInt8)

/-- What an operation answers. -/
inductive Answer
  | done
  | buffer (b : BufferId)
  | slot (s : Option Slot)
  | accepted (b : Bool)
  | byte (v : UInt8)
  deriving DecidableEq

/-- All that shows of an address space. -/
@[ext]
structure View where
  page : UInt16 → Access → Mapping
  ownPage : Slot → UInt16 → Access → Option Mapping
  owner : UInt16 → Access → Option Slot

/-- The numbers that `alloc` computes from its range fit 64 bits. -/
def Operation.Fits : Operation → Prop
  | alloc _ addr len target _ =>
    addr.toNat + len < UInt64.size ∧
      match target with
      | .buffer _ offset stride =>
        offset + (Page.countMeeting addr len - 1) * stride + pageSize < UInt64.size
      | .device => True
  | _ => True

instance : DecidablePred Operation.Fits
  | .alloc _ _ _ (.buffer ..) _ => inferInstanceAs (Decidable (_ ∧ _))
  | .alloc _ _ _ .device _ => inferInstanceAs (Decidable (_ ∧ True))
  | .addBuffer .. | .setByte .. | .connect .. | .disconnect .. | .release .. | .read ..
  | .write .. =>
    inferInstanceAs (Decidable True)

end MemoryMap

open MemoryMap (Operation Answer View)

variable {δ : Type} [Device δ]

/-- Memory maps as a system. -/
def MemoryMap.system : System Operation Answer View (MemoryMap × Devices δ) where
  perform
    | .addBuffer bytes, (m, ds) => let (b, m) := m.addBuffer bytes; .ok (.buffer b, m, ds)
    | .setByte b i v, (m, ds) => (.done, ·, ds) <$> m.setByte b i v
    | .connect device priority, (m, ds) =>
      let (s, m) := m.connect device priority; .ok (.slot s, m, ds)
    | .disconnect s, (m, ds) => let (b, m) := m.disconnect s; .ok (.accepted b, m, ds)
    | .alloc s addr len target access, (m, ds) =>
      (fun (b, m) => (.accepted b, m, ds)) <$> m.alloc s addr len target access
    | .release s addr len access, (m, ds) => (.done, ·, ds) <$> m.release s addr len access
    | .read a, (m, ds) => (fun (v, ds) => (.byte v, m, ds)) <$> m.read a ds
    | .write a v, (m, ds) => (.done, ·) <$> m.write a v ds
  view := fun (m, _) => { page := m.page, ownPage := m.ownPage, owner := m.owner }

/-- Ledgers as a system. -/
def Ledger.system : System Operation Answer View (Ledger × Devices δ) where
  perform
    | .addBuffer bytes, (n, ds) =>
      .ok (.buffer ⟨n.buffers.length⟩, { n with buffers := n.buffers ++ [bytes.toList] }, ds)
    | .setByte b i v, (n, ds) => (.done, ·, ds) <$> n.setByte b i v
    | .connect device priority, (n, ds) =>
      let (s, n) := n.connect device priority; .ok (.slot s, n, ds)
    | .disconnect s, (n, ds) => let (b, n) := n.disconnect s; .ok (.accepted b, n, ds)
    | .alloc s addr len target access, (n, ds) =>
      let (b, n) := n.alloc s addr len target access; .ok (.accepted b, n, ds)
    | .release s addr len access, (n, ds) => (.done, ·, ds) <$> n.release s addr len access
    | .read a, (n, ds) => (fun (v, ds) => (.byte v, n, ds)) <$> n.read a ds
    | .write a v, (n, ds) => (.done, ·) <$> n.write a v ds
  view := fun (n, _) =>
    { page := fun a q => n.shown q (.of a)
      ownPage := fun s a q => (n.clients s).map fun c => (c.grants q (.of a)).getD .unmapped
      owner := fun a q => n.holder? q (.of a) }

end TandemZ80
