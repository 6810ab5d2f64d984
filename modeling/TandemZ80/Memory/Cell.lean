import TandemZ80.Device.Arena

/-!
# One page of an address space

An address space has 64 pages of 1024 bytes. Up to sixteen clients map pages into it, each from a
*slot* of its own; where several map the same page, the client in the lowest slot is shown. Reading
and writing are mapped apart. A *cell* is what there is to know about one page in one direction:
who holds it, what each holder has put there, and what is shown.

* `Page`, `Slot`, `BufferId`; `Mapping`, what a page may hold;
* `Cell`; `Cell.top`, `Cell.grant`, `Cell.revoke`;
* `Cell.top_eq_some`, the holder in the lowest slot.
-/

namespace TandemZ80

/-- The number of address bits within a page. -/
def pageBits : Nat := 10

/-- The bytes in a page. -/
def pageSize : Nat := 1024

/-- The pages of an address space. -/
def pageCount : Nat := 64

/-- The clients that an address space has room for. -/
def slotCount : Nat := 16

/-- The number of a page. -/
abbrev Page : Type := Fin pageCount

/-- The page of an address. -/
def Page.of (a : UInt16) : Page :=
  ⟨a.toNat / pageSize, by have := a.toNat_lt; simp [pageSize, pageCount]; omega⟩

/-- A place in the order of priority; the lowest comes first. -/
abbrev Slot : Type := Fin slotCount

/-- The last slot, below all others. -/
def Slot.last : Slot := ⟨slotCount - 1, by decide⟩

/-- The name of a buffer: its place among the buffers of its memory. -/
structure BufferId where
  index : Nat
  deriving DecidableEq

/-- What lies in a page. -/
inductive Mapping
  /-- Bytes of a buffer, the first of them at the offset. -/
  | direct (buffer : BufferId) (offset : Nat)
  /-- A device, which answers every access itself. -/
  | routed (device : DeviceId)
  | unmapped
  deriving DecidableEq

/-- One page in one direction. -/
structure Cell where
  shown : Mapping
  /-- Which slots hold the page. -/
  holders : Vector Bool slotCount
  /-- What the client in each slot has put there, whether it is shown or not. -/
  own : Vector Mapping slotCount

namespace Cell

/-- Nobody holds the page. -/
def empty : Cell :=
  { shown := .unmapped
    holders := Vector.replicate slotCount false
    own := Vector.replicate slotCount .unmapped }

/-- The lowest slot that holds the page. -/
def top (c : Cell) : Option Slot := (List.finRange slotCount).find? fun s => c.holders.get s

/-- Let a slot hold the page with mapping `e`, which is shown if no lower slot holds it. -/
def grant (c : Cell) (s : Slot) (e : Mapping) : Cell :=
  let c := { c with holders := c.holders.set s true s.isLt, own := c.own.set s e s.isLt }
  if c.top = some s then { c with shown := e } else c

/-- Take the page away from a slot. If its mapping was shown, that of the next holder is shown from
now on. -/
def revoke (c : Cell) (s : Slot) : Cell :=
  if c.holders.get s then
    let wasTop := c.top = some s
    let c := { c with
      holders := c.holders.set s false s.isLt
      own := c.own.set s .unmapped s.isLt }
    if wasTop then
      { c with
        shown :=
          match c.top with
          | some next => c.own.get next
          | none => .unmapped }
    else c
  else c

/-- The top holder is the lowest slot that holds the page. -/
theorem top_eq_some {c : Cell} {s : Slot} :
    c.top = some s ↔ c.holders.get s = true ∧ ∀ t < s, c.holders.get t = false := by
  simp only [top, List.find?_eq_some_iff_getElem, List.getElem_finRange, Bool.not_eq_true']
  constructor
  · rintro ⟨hs, i, hi, rfl, hlow⟩
    exact ⟨hs, fun t ht => hlow t ht⟩
  · rintro ⟨hs, hlow⟩
    exact ⟨hs, s, by simp, rfl, fun j hj => hlow ⟨j, by omega⟩ hj⟩

end Cell
end TandemZ80
