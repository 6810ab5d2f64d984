import TandemZ80.Machine.Rom
import TandemZ80.Proofs.Memory.Backed
import TandemZ80.Proofs.Memory.Extent

/-!
# Images in a memory map

An image is laid out in a buffer of its own, filled up to whole pages and cut off at the end of the
address space. The pages of that buffer are those that hold an address of the image, each at its
place. Where no lower slot holds the page they are what is read.

* `RomImage.byteAt`, what an image shows at an address, and `RomImage.getElem?_place`, where it is
  laid out; `RomImage.holds_place`, the pages of an image;
* `MemoryMap.alloc_image`, mapping an image is an allocation that is granted;
* `MemoryMap.Sound.page_of_held` and `MemoryMap.Sound.page_congr`, what is shown by what is held;
* `MemoryMap.Exposed`, addresses at which an image shows; `MemoryMap.page_exposed` and
  `MemoryMap.page_unexposed`, what is shown there and elsewhere.
-/

namespace TandemZ80

open Page (Holds)

/-! ### The layout of an image -/

namespace RomImage

variable {a x : UInt16} {bytes : List UInt8} {p : Page}

/-- The byte that an image from `a` on shows at an address. Around the image there is `FF`. -/
def byteAt (a : UInt16) (bytes : List UInt8) (x : UInt16) : UInt8 :=
  if a.toNat ≤ x.toNat then bytes.getD (x.toNat - a.toNat) 0xFF else 0xFF

/-- The number of bytes from the first page on to the end of an image. -/
def used (a : UInt16) (bytes : List UInt8) : ℕ :=
  min (a.toNat % pageSize + bytes.length) (ramSize - (a.toNat - a.toNat % pageSize))

theorem toNat_base (a : UInt16) (bytes : List UInt8) :
    (place a bytes).base.toNat = a.toNat - a.toNat % pageSize := by
  have ha := a.toNat_lt
  show (UInt16.ofNat (a.toNat - a.toNat % pageSize)).toNat = _
  rw [UInt16.toNat_ofNat_of_lt' (by simp only [UInt16.size]; omega)]

theorem page_base (a : UInt16) (bytes : List UInt8) : Page.of (place a bytes).base = Page.of a := by
  refine Fin.ext ?_
  simp only [Page.val_of, toNat_base, pageSize]
  omega

theorem size_place (a : UInt16) (bytes : List UInt8) :
    (place a bytes).bytes.size = (used a bytes + (pageSize - 1)) / pageSize * pageSize := by
  have ha := a.toNat_lt
  unfold place used
  simp only [Array.size_append, Array.size_replicate, List.size_toArray, List.length_take, pageSize,
    ramSize]
  omega

/-- The pages of an image are those that hold an address of it. -/
theorem holds_place (hbytes : bytes ≠ []) :
    Holds (place a bytes).base (place a bytes).bytes.size p ↔ Holds a bytes.length p := by
  have ha := a.toNat_lt
  have hp := p.isLt
  have hlen := List.length_pos_of_ne_nil hbytes
  rw [← Page.meets_iff_holds, ← Page.meets_iff_holds]
  simp only [Page.meets, Bool.and_eq_true, decide_eq_true_eq, toNat_base, size_place, used]
  simp only [pageSize, pageCount, ramSize] at hp ⊢
  omega

/-- Bytes with so many others in front of them and behind them. -/
theorem getElem?_padded (bytes : List UInt8) (v : UInt8) (lead n rest i : ℕ)
    (hi : i < lead + n + rest) (hn : n ≤ bytes.length) :
    (Array.replicate lead v ++ (bytes.take n).toArray ++ Array.replicate rest v)[i]? =
      some (if lead ≤ i ∧ i < lead + n then bytes.getD (i - lead) v else v) := by
  have hsize : (Array.replicate lead v ++ (bytes.take n).toArray).size = lead + n := by
    simp only [Array.size_append, Array.size_replicate, List.size_toArray, List.length_take]
    omega
  rw [Array.getElem?_append, hsize, Array.getElem?_append, Array.size_replicate]
  simp only [Array.getElem?_replicate, List.getElem?_toArray, List.getElem?_take,
    List.getD_eq_getElem?_getD]
  by_cases hlead : i < lead
  · rw [if_pos (by omega), if_pos hlead, if_pos hlead, if_neg (by omega)]
  · by_cases hmid : i < lead + n
    · rw [if_pos hmid, if_neg hlead, if_pos (by omega), if_pos ⟨not_lt.1 hlead, hmid⟩,
        List.getElem?_eq_getElem (by omega)]
      rfl
    · rw [if_neg hmid, if_pos (by omega), if_neg fun h => hmid h.2]

/-- Where the byte of an image for an address is laid out. -/
theorem getElem?_place (hx : Holds a bytes.length (Page.of x)) :
    (place a bytes).bytes[((Page.of x).val - (Page.of a).val) * pageSize + MemoryMap.inPage x]? =
      some (byteAt a bytes x) := by
  have ha := a.toNat_lt
  have hx' := x.toNat_lt
  rw [← Page.meets_iff_holds] at hx
  simp only [Page.meets, Bool.and_eq_true, decide_eq_true_eq] at hx
  simp only [Page.val_of] at hx ⊢
  -- The place is the distance from the first page.
  have hplace : (x.toNat / pageSize - a.toNat / pageSize) * pageSize + MemoryMap.inPage x =
      x.toNat - (a.toNat - a.toNat % pageSize) := by
    simp only [MemoryMap.inPage, pageSize] at hx ⊢
    omega
  rw [hplace]
  unfold place byteAt
  simp only [pageSize, ramSize] at hx ⊢
  rw [getElem?_padded _ _ _ _ _ _ (by omega) (by omega)]
  have hsub : x.toNat - (a.toNat - a.toNat % 1024) - a.toNat % 1024 = x.toNat - a.toNat := by omega
  rw [hsub]
  by_cases hax : a.toNat ≤ x.toNat
  · rw [if_pos hax]
    by_cases hin : x.toNat - a.toNat < bytes.length
    · rw [if_pos (by omega)]
    · rw [if_neg (by omega), List.getD_eq_getElem?_getD, List.getElem?_eq_none (not_lt.1 hin)]
      rfl
  · rw [if_neg hax, if_neg (by omega)]

end RomImage

/-! ### Mapping an image -/

namespace MemoryMap

variable {m m' : MemoryMap} {s : Slot} {a x : UInt16} {bytes : List UInt8} {q : Access}

theorem bytes?_addBuffer (m : MemoryMap) (bytes : Array UInt8) :
    (m.addBuffer bytes).2.bytes? ⟨m.buffers.size⟩ = some bytes :=
  Array.getElem?_push_size

/-- Mapping an image is an allocation, which is always granted. -/
theorem alloc_image (hs : m.clients.get s ≠ none) (a : UInt16) (hbytes : bytes ≠ []) :
    (m.addBuffer (RomImage.place a bytes).bytes).2.alloc s (RomImage.place a bytes).base
        (RomImage.place a bytes).bytes.size (.buffer ⟨m.buffers.size⟩ 0 pageSize) .read =
      .ok (true, m.mapRom s (RomImage.place a bytes)) := by
  have ha := a.toNat_lt
  have hlen := List.length_pos_of_ne_nil hbytes
  generalize himage : RomImage.place a bytes = image
  have hbase : image.base.toNat = a.toNat - a.toNat % 1024 := himage ▸ RomImage.toNat_base a bytes
  have hsize : image.bytes.size = (RomImage.used a bytes + 1023) / 1024 * 1024 :=
    himage ▸ RomImage.size_place a bytes
  simp only [RomImage.used, pageSize, ramSize] at hsize
  -- Every page lies in the buffer with its whole length.
  have hplace : ∀ p, Holds image.base image.bytes.size p →
      place image.base 0 pageSize p + pageSize ≤ image.bytes.size := by
    intro p hp
    rw [← Page.meets_iff_holds] at hp
    simp only [Page.meets, Bool.and_eq_true, decide_eq_true_eq] at hp
    simp only [place, Page.val_of, pageSize] at hp ⊢
    omega
  have hcovers : (m.addBuffer image.bytes).2.Covers ⟨m.buffers.size⟩ image.base image.bytes.size 0
      pageSize := ⟨image.bytes, m.bytes?_addBuffer image.bytes, hplace⟩
  have hcountable : Countable image.base image.bytes.size 0 pageSize := by
    refine ⟨?_, by decide, fun p hp => lt_of_le_of_lt (hplace p hp) ?_⟩
    · simp only [UInt64.size]
      omega
    · simp only [UInt64.size]
      omega
  have hpos : 0 < image.bytes.size := by omega
  rw [alloc_of_countable (m := (m.addBuffer image.bytes).2) hs hcountable, if_neg]
  · simp only [place, Nat.zero_add]
    rfl
  · rw [not_or, not_lt]
    exact ⟨hpos.ne', (covers_iff hpos).1 hcovers⟩

theorem Backed.mapRom (h : m.Backed) (hs : m.clients.get s ≠ none) (a : UInt16)
    (hbytes : bytes ≠ []) : (m.mapRom s (RomImage.place a bytes)).Backed :=
  (h.addBuffer _).alloc (alloc_image hs a hbytes)

/-- A new client with an image. -/
theorem Backed.connect_mapRom (h : m.Backed) (device : DeviceId) (hfree : m.freeSlot? true = some s)
    (a : UInt16) (hbytes : bytes ≠ []) :
    ((m.connect device true).2.mapRom s (RomImage.place a bytes)).Backed :=
  (h.connect device true).mapRom (client_connect_ne_none hfree) a hbytes

theorem held_mapRom (m : MemoryMap) (s : Slot) (a : UInt16) (hbytes : bytes ≠ []) (q : Access)
    (p : Page) (t : Slot) :
    (m.mapRom s (RomImage.place a bytes)).held q p t =
      if q.reads ∧ Holds a bytes.length p ∧ t = s then
        some (.direct ⟨m.buffers.size⟩ ((p - (Page.of a).val) * pageSize))
      else m.held q p t := by
  have hcovers : Access.read.covers q = q.reads := by cases q <;> rfl
  unfold mapRom
  rw [held_grant]
  simp only [Page.meets_iff_holds, RomImage.holds_place hbytes, RomImage.page_base, hcovers]
  rfl

/-! ### What is shown by what is held -/

theorem holder?_eq_some {p : Page} :
    m.holder? q p = some s ↔ (m.held q p s).isSome ∧ ∀ t < s, m.held q p t = none := by
  have htop := Cell.top_eq ((m.cells q).get p)
  unfold holder? held
  rw [← htop]
  exact Cell.top_eq_some_iff

/-- The client in the lowest slot that holds a page is the one that is shown. -/
theorem Sound.page_of_held (h : m.Sound) {e : Mapping} (hs : m.held q (Page.of a) s = some e)
    (hlow : ∀ t < s, m.held q (Page.of a) t = none) : m.page a q = e := by
  have hholder : m.holder? q (Page.of a) = some s :=
    holder?_eq_some.2 ⟨Option.isSome_of_eq_some hs, hlow⟩
  rw [h.page_eq, hholder, Option.bind_some, hs]
  rfl

/-- What is held decides what is shown. -/
theorem Sound.page_congr (h : m.Sound) (h' : m'.Sound)
    (hheld : ∀ t, m'.held q (Page.of a) t = m.held q (Page.of a) t) : m'.page a q = m.page a q := by
  have hholder : m'.holder? q (Page.of a) = m.holder? q (Page.of a) := by
    unfold holder?
    simp only [hheld]
  rw [h.page_eq, h'.page_eq, hholder, funext hheld]

/-! ### Where an image shows -/

/-- An image in a slot shows at an address: its page is one of the image's, and the clients in lower
slots hold nothing there for reading. -/
def Exposed (m : MemoryMap) (s : Slot) (a : UInt16) (bytes : List UInt8) (x : UInt16) : Prop :=
  Holds a bytes.length (Page.of x) ∧ ∀ t < s, m.held .read (Page.of x) t = none

variable (hm : m.Sound) (hm' : (m.mapRom s (RomImage.place a bytes)).Sound)
include hm'

/-- Where an image shows, its buffer is read. -/
theorem page_exposed (hbytes : bytes ≠ []) (hx : m.Exposed s a bytes x) :
    (m.mapRom s (RomImage.place a bytes)).page x .read =
      .direct ⟨m.buffers.size⟩ (((Page.of x).val - (Page.of a).val) * pageSize) := by
  refine hm'.page_of_held (s := s) ?_ fun t ht => ?_
  · rw [held_mapRom m s a hbytes, if_pos ⟨rfl, hx.1, rfl⟩]
  · rw [held_mapRom m s a hbytes, if_neg fun h => ht.ne h.2.2]
    exact hx.2 t ht

include hm

/-- An image changes nothing else that is shown. -/
theorem page_unexposed (hbytes : bytes ≠ [])
    (hx : ¬(q.reads = true ∧ m.Exposed s a bytes x)) :
    (m.mapRom s (RomImage.place a bytes)).page x q = m.page x q := by
  by_cases hpage : q.reads = true ∧ Holds a bytes.length (Page.of x)
  swap
  · refine hm.page_congr hm' fun t => ?_
    rw [held_mapRom m s a hbytes, if_neg fun h => hpage ⟨h.1, h.2.1⟩]
  -- A lower slot holds the page, and so does the lowest of them in both.
  obtain ⟨t, ht, hheld⟩ : ∃ t < s, m.held .read (Page.of x) t ≠ none := by
    by_contra hnone
    push Not at hnone
    exact hx ⟨hpage.1, hpage.2, hnone⟩
  have hreads : ∀ (m : MemoryMap) p t, m.held q p t = m.held .read p t := fun m p t => by
    cases q
    · rfl
    · cases hpage.1
    · rfl
  have hholder : (m.holder? q (Page.of x)).isSome := by
    rw [holder?, List.find?_isSome]
    exact ⟨t, List.mem_finRange t, by rw [hreads]; exact Option.isSome_iff_ne_none.2 hheld⟩
  obtain ⟨u, hu⟩ := Option.isSome_iff_exists.1 hholder
  obtain ⟨hsome, hlow⟩ := holder?_eq_some.1 hu
  obtain ⟨e, he⟩ := Option.isSome_iff_exists.1 hsome
  have hlt : u < s := by
    refine lt_of_le_of_lt (not_lt.1 fun hlt => hheld ?_) ht
    rw [← hreads]
    exact hlow t hlt
  have hsame : ∀ v < s, (m.mapRom s (RomImage.place a bytes)).held q (Page.of x) v =
      m.held q (Page.of x) v := fun v hv => by
    rw [held_mapRom m s a hbytes, if_neg fun h => hv.ne h.2.2]
  rw [hm.page_of_held he hlow, hm'.page_of_held ((hsame u hlt).trans he) fun v hv => ?_]
  rw [hsame v (hv.trans hlt)]
  exact hlow v hv

end MemoryMap
end TandemZ80
