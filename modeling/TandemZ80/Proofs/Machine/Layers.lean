import TandemZ80.Machine.Rom
import TandemZ80.Proofs.Memory.Held
import TandemZ80.Proofs.Memory.Range
import TandemZ80.Proofs.Memory.Sizes

/-!
# Images over RAM

In the memory of a machine the backstop shows its RAM everywhere, and the other clients show images
over it. What can be read then is what each client has put at each address.

* `MemoryMap.image?`, the byte of a client; `MemoryMap.view`, the one that is shown;
* `MemoryMap.Layered`, memory of this kind, which every operation of a machine keeps;
* `Layered.read_eq`, `Layered.write_eq`, `Layered.image?_write`;
* `Layered.mapRom` and `Layered.disconnect`, the changes of the mapping.
-/

namespace TandemZ80.MemoryMap

variable {m m' : MemoryMap} {s t : Slot} {a : UInt16}

/-- The byte that a client has mapped for reading at an address. -/
def image? (m : MemoryMap) (s : Slot) (a : UInt16) : Option UInt8 :=
  match m.held .read (.of a) s with
  | some (.direct b offset) => (m.bytes? b).bind fun bytes => bytes[offset + inPage a]?
  | _ => none

/-- The byte of the first client that has mapped one. -/
def view (m : MemoryMap) (a : UInt16) : UInt8 :=
  ((List.finRange slotCount).findSome? fun s => m.image? s a).getD 0xFF

/-- RAM in buffer 0 behind everything, and over it images in other buffers, for reading only. -/
structure Layered (m : MemoryMap) : Prop where
  sound : m.Sound
  within : m.Within
  ram : m.bufferSize ⟨0⟩ = ramSize
  last : ∀ q p, m.held q p Slot.last = some (.direct ⟨0⟩ (p * pageSize))
  images : ∀ q p s e, s ≠ Slot.last → m.held q p s = some e →
    q.reads = true ∧ ∃ b offset, e = .direct b offset ∧ 0 < b.index ∧ offset < ramSize

theorem place_eq (a : UInt16) : (Page.of a).val * pageSize + inPage a = a.toNat :=
  Nat.div_add_mod' a.toNat pageSize

namespace Layered

/-! ### What is shown -/

/-- Every mapping shows bytes of a buffer. -/
theorem direct (h : m.Layered) {q : Access} {p : Page} {e : Mapping} (he : m.held q p s = some e) :
    ∃ b offset, e = .direct b offset ∧ offset < ramSize := by
  by_cases hs : s = .last
  · subst hs
    rw [h.last] at he
    cases he
    refine ⟨_, _, rfl, ?_⟩
    have := p.isLt
    simp only [pageCount, pageSize, ramSize] at this ⊢
    omega
  · obtain ⟨-, b, offset, rfl, -, hoffset⟩ := h.images q p s e hs he
    exact ⟨b, offset, rfl, hoffset⟩

theorem image?_of_held (h : m.Layered) {b : BufferId} {offset : ℕ}
    (he : m.held .read (.of a) s = some (.direct b offset)) :
    ∃ v, m.image? s a = some v ∧ m.byte b (offset + inPage a) = .ok v := by
  have hlt : offset + inPage a < m.bufferSize b := by
    have := h.within _ _ s b offset he
    have := inPage_lt a
    omega
  obtain ⟨v, hv⟩ := exists_byte hlt
  refine ⟨v, ?_, hv⟩
  unfold image?
  rw [he]
  exact byte_eq_ok.1 hv

/-- What the page of an address shows is the first image there. -/
theorem page_read (h : m.Layered) (a : UInt16) :
    ∃ b offset, m.page a .read = .direct b offset ∧ offset < ramSize ∧
      m.byte b (offset + inPage a) = .ok (m.view a) := by
  obtain ⟨s, hs⟩ : ∃ s, m.holder? .read (.of a) = some s := by
    rw [← Option.isSome_iff_exists, holder?, List.find?_isSome]
    exact ⟨.last, List.mem_finRange _, by rw [h.last]; rfl⟩
  obtain ⟨hheld, first, rest, hlist, hfirst⟩ := List.find?_eq_some_iff_append.1 hs
  obtain ⟨e, he⟩ := Option.isSome_iff_exists.1 hheld
  obtain ⟨b, offset, rfl, hoffset⟩ := h.direct he
  obtain ⟨v, hv, hbyte⟩ := h.image?_of_held he
  refine ⟨b, offset, ?_, hoffset, ?_⟩
  · rw [h.sound.page_eq, hs, Option.bind_some, he]
    rfl
  · have hview : (List.finRange slotCount).findSome? (fun s => m.image? s a) = some v := by
      rw [List.findSome?_eq_some_iff]
      refine ⟨first, s, rest, hlist, hv, fun t ht => ?_⟩
      have hnone : m.held .read (.of a) t = none := by
        have := hfirst t ht
        rwa [Bool.not_eq_true', Option.isSome_eq_false_iff, Option.isNone_iff_eq_none] at this
      unfold image?
      rw [hnone]
    rw [hbyte, view, hview]
    rfl

theorem page_write (h : m.Layered) (a : UInt16) :
    m.page a .write = .direct ⟨0⟩ ((Page.of a).val * pageSize) := by
  have hs : m.holder? .write (.of a) = some .last := by
    obtain ⟨s, hs⟩ : ∃ s, m.holder? .write (.of a) = some s := by
      rw [← Option.isSome_iff_exists, holder?, List.find?_isSome]
      exact ⟨.last, List.mem_finRange _, by rw [h.last]; rfl⟩
    obtain ⟨e, he⟩ := Option.isSome_iff_exists.1
      (List.find?_some (p := fun s => (m.held .write (.of a) s).isSome) hs)
    by_cases hlast : s = .last
    · rw [hs, hlast]
    · cases (h.images .write _ s e hlast he).1
  rw [h.sound.page_eq, hs, Option.bind_some, h.last]
  rfl

theorem image?_last (h : m.Layered) (a : UInt16) :
    m.image? .last a = (m.bytes? ⟨0⟩).bind fun bytes => bytes[a.toNat]? := by
  unfold image?
  rw [h.last]
  dsimp only
  rw [place_eq]

/-- The image of a client other than the backstop does not lie in RAM. -/
theorem image?_congr (h : m.Layered) (hs : s ≠ .last) (hheld : m'.held = m.held)
    (hbytes : ∀ b, 0 < b.index → b.index < m.buffers.size → m'.bytes? b = m.bytes? b) :
    m'.image? s a = m.image? s a := by
  unfold image?
  rw [hheld]
  cases he : m.held .read (.of a) s with
  | none => rfl
  | some e =>
    obtain ⟨-, b, offset, rfl, hb, -⟩ := h.images .read _ s e hs he
    dsimp only
    have := h.within _ _ s b offset he
    rw [hbytes b hb (index_lt (by simp only [pageSize] at this; omega))]

/-! ### Access -/

section Access

variable {δ : Type} [Device δ]

theorem read_eq (h : m.Layered) (a : UInt16) (ds : Devices δ) :
    m.read a ds = .ok (m.view a, ds) := by
  obtain ⟨b, offset, hp, -, hbyte⟩ := h.page_read a
  unfold read
  rw [hp]
  dsimp only
  rw [hbyte]
  rfl

theorem write_eq (h : m.Layered) (a : UInt16) (v : UInt8) (ds : Devices δ) :
    m.write a v ds = .ok (m.store ⟨0⟩ a [v], ds) := by
  have hlt : a.toNat < m.bufferSize ⟨0⟩ := by
    rw [h.ram]
    exact a.toNat_lt
  unfold write
  rw [h.page_write]
  dsimp only
  rw [place_eq, setByte, if_pos hlt]
  rfl

end Access

/-! ### Changes of RAM -/

/-- Only the bytes of RAM have changed. -/
theorem of_ram (h : m.Layered) {buffers : Array (Array UInt8)}
    (hsize : ∀ b, { m with buffers }.bufferSize b = m.bufferSize b) :
    { m with buffers }.Layered where
  sound := h.sound.of_buffers buffers
  within := fun q p s b offset he => by
    rw [hsize]
    exact h.within q p s b offset he
  ram := by rw [hsize, h.ram]
  last := h.last
  images := h.images

theorem store (h : m.Layered) (a : UInt16) (vs : List UInt8) : (m.store ⟨0⟩ a vs).Layered :=
  h.of_ram (bufferSize_modify m (size_storeFrom a vs) 0)

theorem replaceBuffer (h : m.Layered) {bytes : Array UInt8} (hbytes : bytes.size = ramSize) :
    (m.replaceBuffer ⟨0⟩ bytes).Layered := by
  refine h.of_ram fun b => ?_
  show (m.replaceBuffer ⟨0⟩ bytes).bufferSize b = m.bufferSize b
  by_cases hb : 0 = b.index
  · obtain rfl : b = ⟨0⟩ := by
      cases b
      cases hb
      rfl
    have hram : 0 < m.bufferSize ⟨0⟩ := by
      rw [h.ram]
      decide
    rw [h.ram, bufferSize, bytes?_replaceBuffer hram]
    exact hbytes
  · unfold bufferSize bytes? MemoryMap.replaceBuffer
    rw [Array.getElem?_setIfInBounds_ne hb]

theorem bytes?_ram (h : m.Layered) : ∃ bytes, m.bytes? ⟨0⟩ = some bytes ∧ bytes.size = ramSize := by
  have hram := h.ram
  unfold bufferSize at hram
  cases hb : m.bytes? ⟨0⟩ with
  | none =>
    rw [hb] at hram
    cases hram
  | some bytes =>
    rw [hb] at hram
    exact ⟨bytes, rfl, hram⟩

/-- RAM is what the backstop shows. -/
theorem bytes?_congr (h : m.Layered) (h' : m'.Layered)
    (himages : ∀ a, m'.image? .last a = m.image? .last a) : m'.bytes? ⟨0⟩ = m.bytes? ⟨0⟩ := by
  obtain ⟨bytes, hbytes, hsize⟩ := h.bytes?_ram
  obtain ⟨bytes', hbytes', hsize'⟩ := h'.bytes?_ram
  rw [hbytes, hbytes']
  refine congrArg some (Array.ext (hsize'.trans hsize.symm) fun i hi' hi => ?_)
  have hlt : i < UInt16.size := hi.trans_eq hsize
  have hat := himages (.ofNat i)
  rw [h.image?_last, h'.image?_last, hbytes, hbytes', UInt16.toNat_ofNat_of_lt' hlt] at hat
  simpa [hi, hi'] using hat

/-- A write changes what the backstop shows, at one address. -/
theorem image?_write (h : m.Layered) (a : UInt16) (v : UInt8) (s : Slot) (a' : UInt16) :
    (m.store ⟨0⟩ a [v]).image? s a' = if s = .last ∧ a' = a then some v else m.image? s a' := by
  by_cases hs : s = .last
  · subst hs
    obtain ⟨bytes, hbytes, hsize⟩ := h.bytes?_ram
    have hnew : (m.store ⟨0⟩ a [v]).bytes? ⟨0⟩ = some (bytes.setIfInBounds a.toNat v) := by
      unfold bytes? MemoryMap.store at *
      rw [Array.getElem?_modify, if_pos rfl, hbytes]
      rfl
    rw [(h.store a [v]).image?_last, h.image?_last, hnew, hbytes]
    simp only [Option.bind_some, Array.getElem?_setIfInBounds, hsize, true_and]
    have hlt : a.toNat < ramSize := a.toNat_lt
    simp only [UInt16.toNat_inj, hlt, if_true, eq_comm (a := a)]
  · rw [if_neg fun hb => hs hb.1]
    refine h.image?_congr hs rfl fun b hb _ => ?_
    unfold bytes? MemoryMap.store
    rw [Array.getElem?_modify, if_neg hb.ne]

/-! ### Changes of the mapping -/

theorem isSome_client_last (h : m.Layered) : (m.clients.get Slot.last).isSome := by
  rw [Option.isSome_iff_ne_none]
  intro hnone
  have hheld := h.sound.clients .read (.of 0) Slot.last hnone
  rw [h.last] at hheld
  cases hheld

theorem backstop_eq (h : m.Layered) : m.backstop = some .last := by
  rw [h.sound.backstop, if_pos h.isSome_client_last]

/-- A new client is never the last one. -/
theorem ne_last_of_free (h : m.Layered) {priority : Bool} (hs : m.freeSlot? priority = some s) :
    s ≠ .last := by
  rintro rfl
  have := h.isSome_client_last
  rw [freeSlot?_eq_some hs] at this
  cases this

theorem connect (h : m.Layered) (device : DeviceId) (priority : Bool) :
    (m.connect device priority).2.Layered := by
  have hsound := h.sound.connect device priority
  unfold MemoryMap.connect at hsound ⊢
  cases hs : m.freeSlot? priority with
  | none => exact h
  | some s =>
    rw [hs] at hsound
    exact ⟨hsound, h.within, h.ram, h.last, h.images⟩

theorem bufferSize_pos (h : m.Layered) {q : Access} {p : Page} {b : BufferId} {offset : ℕ}
    (he : m.held q p s = some (.direct b offset)) : 0 < m.bufferSize b := by
  have := h.within q p s b offset he
  simp only [pageSize] at this
  omega

theorem addBuffer (h : m.Layered) (bytes : Array UInt8) : (m.addBuffer bytes).2.Layered := by
  have hkeeps := retains_addBuffer m bytes
  refine ⟨h.sound.of_buffers _, fun q p s b offset he => ?_, ?_, h.last, h.images⟩
  · rw [hkeeps b (h.bufferSize_pos he)]
    exact h.within q p s b offset he
  · rw [hkeeps ⟨0⟩ (by rw [h.ram]; decide), h.ram]

/-- A client may be granted pages of a buffer for reading. -/
theorem grant (h : m.Layered) (hs : s ≠ .last) (hclient : (m.clients.get s).isSome) {b : BufferId}
    (hb : 0 < b.index) {pages : Page → Bool} {place : Page → ℕ}
    (hplace : ∀ p, pages p = true → place p < ramSize ∧ place p + pageSize ≤ m.bufferSize b) :
    (m.grant s pages (fun p => .direct b (place p)) .read).Layered := by
  refine ⟨h.sound.grant hclient _ _ _, fun q p t b' offset he => ?_, h.ram, fun q p => ?_,
    fun q p t e ht he => ?_⟩
  · rw [held_grant] at he
    split_ifs at he with hp
    · cases he
      exact (hplace p hp.2.1).2
    · exact h.within q p t b' offset he
  · rw [held_grant, if_neg fun hp => hs hp.2.2.symm]
    exact h.last q p
  · rw [held_grant] at he
    split_ifs at he with hp
    · cases he
      refine ⟨?_, b, place p, rfl, hb, (hplace p hp.2.1).1⟩
      have hq := hp.1
      unfold Access.covers at hq
      cases hreads : q.reads
      · rw [hreads] at hq
        cases hq
      · rfl
    · exact h.images q p t e ht he

theorem disconnect (h : m.Layered) (s : Slot) : (m.disconnect s).2.Layered := by
  have hsound := h.sound.disconnect s
  unfold MemoryMap.disconnect at hsound ⊢
  split_ifs at hsound ⊢ with hs
  · exact h
  · have hlast : s ≠ .last := by
      rintro rfl
      exact hs (.inl h.backstop_eq)
    have hheld : ∀ {q p t e}, (m.revoke s (fun _ => true) .readWrite).held q p t = some e →
        m.held q p t = some e := by
      intro q p t e he
      rw [held_revoke] at he
      split_ifs at he
      exact he
    refine ⟨hsound, fun q p t b offset he => h.within q p t b offset (hheld he), h.ram,
      fun q p => ?_, fun q p t e ht he => h.images q p t e ht (hheld he)⟩
    show (m.revoke s (fun _ => true) .readWrite).held q p .last = _
    rw [held_revoke, if_neg fun hp => hlast hp.2.2.symm]
    exact h.last q p

end Layered
end TandemZ80.MemoryMap

/-! ### Images -/

namespace TandemZ80

/-- An image of whole pages. -/
def RomImage.Whole (image : RomImage) : Prop :=
  image.base.toNat % pageSize = 0 ∧ image.bytes.size % pageSize = 0

theorem RomImage.whole_place (a : UInt16) (bytes : List UInt8) :
    (RomImage.place a bytes).Whole := by
  have ha := a.toNat_lt
  constructor
  · show (UInt16.ofNat (a.toNat - a.toNat % pageSize)).toNat % pageSize = 0
    rw [UInt16.toNat_ofNat_of_lt' (by simp only [UInt16.size]; omega)]
    simp only [pageSize]
    omega
  · unfold place
    simp only [Array.size_append, Array.size_replicate, List.size_toArray, List.length_take,
      pageSize, ramSize]
    omega

namespace MemoryMap

variable {m : MemoryMap} {s : Slot}

theorem Layered.mapRom (h : m.Layered) (hs : s ≠ .last) (hclient : (m.clients.get s).isSome)
    {image : RomImage} (hwhole : image.Whole) : (m.mapRom s image).Layered := by
  have hbuffer : 0 < (m.addBuffer image.bytes).1.index := by
    have hram : 0 < m.bufferSize ⟨0⟩ := by
      rw [h.ram]
      decide
    exact index_lt hram
  have hsize : (m.addBuffer image.bytes).2.bufferSize (m.addBuffer image.bytes).1 =
      image.bytes.size := by
    unfold bufferSize bytes? MemoryMap.addBuffer
    rw [Array.getElem?_push_size]
  refine (h.addBuffer image.bytes).grant hs hclient hbuffer fun p hp => ?_
  rw [hsize]
  obtain ⟨hbase, hbytes⟩ := hwhole
  have hplt := p.isLt
  simp only [Page.meets, Bool.and_eq_true, decide_eq_true_eq] at hp
  simp only [Page.val_of, pageSize, pageCount, ramSize] at *
  omega

end MemoryMap
end TandemZ80
