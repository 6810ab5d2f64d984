import TandemZ80.Proofs.Machine.Changes

/-!
# Images over the memory of a machine

An image that has been mapped is read wherever no lower slot holds the page: byte by byte, and `FF`
around it. Everything else is mapped as it was, and what is written goes to what lies beneath. That
stays so as long as no mapping is changed.

* `MemoryMap.Operation.passive`, operations that change no mapping; `MemoryMap.samePages_changes`
  and `MemoryMap.bytes?_changes`;
* `MemoryMap.byte_setByte`, what a write changes;
* `MemoryMap.Covered`, memory with an image mapped over it;
* `Machine.Overlaid`, a machine that shows an image, and `Machine.loadRom_overlays`.
-/

namespace TandemZ80

/-! ### As long as no mapping is changed -/

namespace MemoryMap

variable {m m' : MemoryMap} {ram b : BufferId} {bytes : Array UInt8}

/-- Operations that change no mapping, and bytes only through it. -/
def Operation.passive : Operation → Prop
  | .addBuffer _ | .read _ | .write .. => True
  | _ => False

theorem Change.retains {P : Operation → Prop} (h : Change P ram m m') : m.Retains m' := by
  cases h with
  | store a bytes => exact retains_store _ _ _ _
  | replace hsize => exact retains_replaceBuffer hsize
  | perform _ hr => exact retains_perform hr

theorem Changes.retains {P : Operation → Prop} (h : Changes P ram m m') : m.Retains m' := by
  induction h with
  | refl => exact .refl m
  | tail _ hc ih => exact ih.trans hc.retains

theorem samePages_change (h : Change Operation.passive ram m m') : m.SamePages m' := by
  cases h with
  | store a bytes => exact samePages_store ..
  | replace hsize => exact samePages_replaceBuffer ..
  | @perform _ _ _ op hop x ds ds' hr =>
    cases op with
    | addBuffer bytes =>
      cases hr
      exact ⟨rfl, rfl, rfl, rfl⟩
    | read a =>
      obtain ⟨⟨v, ds₁⟩, -, hr⟩ := Fault.map_eq_ok hr
      cases hr
      exact .refl m
    | write a v =>
      obtain ⟨⟨m₁, ds₁⟩, hwrite, hr⟩ := Fault.map_eq_ok hr
      cases hr
      exact samePages_write hwrite
    | _ => exact hop.elim

theorem samePages_changes (h : Changes Operation.passive ram m m') : m.SamePages m' := by
  induction h with
  | refl => exact .refl m
  | tail _ hc ih => exact ih.trans (samePages_change hc)

theorem bytes?_modify (m : MemoryMap) (c : BufferId) (f : Array UInt8 → Array UInt8)
    (b : BufferId) :
    { m with buffers := m.buffers.modify c.index f }.bytes? b =
      if b = c then (m.bytes? b).map f else m.bytes? b := by
  unfold bytes?
  rw [Array.getElem?_modify]
  by_cases h : b = c
  · rw [if_pos h, if_pos (congrArg _ h.symm)]
  · rw [if_neg h, if_neg fun heq => h (by cases b; cases c; cases heq; rfl)]

/-- A buffer that is not RAM, and to which no page leads for writing, keeps its bytes. -/
theorem bytes?_change (h : Change Operation.passive ram m m') (hb : b ≠ ram)
    (hwrite : ∀ x offset, m.page x .write ≠ .direct b offset) (hbytes : m.bytes? b = some bytes) :
    m'.bytes? b = some bytes := by
  cases h with
  | store a bytes =>
    rw [store, bytes?_modify, if_neg hb]
    exact hbytes
  | replace hsize =>
    rw [← hbytes]
    unfold bytes? replaceBuffer
    rw [Array.getElem?_setIfInBounds_ne]
    intro heq
    exact hb (by cases b; cases ram; cases heq; rfl)
  | @perform _ _ _ op hop x ds ds' hr =>
    cases op with
    | addBuffer new =>
      cases hr
      have hlt : b.index < m.buffers.size := (Array.getElem?_eq_some_iff.1 hbytes).1
      rw [← hbytes]
      show (m.buffers.push new)[b.index]? = m.buffers[b.index]?
      rw [Array.getElem?_push, if_neg hlt.ne]
    | read a =>
      obtain ⟨⟨v, ds₁⟩, -, hr⟩ := Fault.map_eq_ok hr
      cases hr
      exact hbytes
    | write a v =>
      obtain ⟨⟨m₁, ds₁⟩, hw, hr⟩ := Fault.map_eq_ok hr
      cases hr
      rcases write_cases hw with ⟨c, offset, hp, hset, -⟩ | ⟨rfl, -⟩
      · have hne : b ≠ c := fun heq => hwrite a offset (heq ▸ hp)
        obtain ⟨-, rfl⟩ := setByte_eq_ok hset
        rw [bytes?_modify, if_neg hne]
        exact hbytes
      · exact hbytes
    | _ => exact hop.elim

theorem bytes?_changes (h : Changes Operation.passive ram m m') (hb : b ≠ ram)
    (hwrite : ∀ x offset, m.page x .write ≠ .direct b offset) (hbytes : m.bytes? b = some bytes) :
    m'.bytes? b = some bytes := by
  induction h with
  | refl => exact hbytes
  | tail hs hc ih =>
    refine bytes?_change hc hb (fun x offset => ?_) ih
    rw [(samePages_changes hs).page]
    exact hwrite x offset

theorem byte_setByte {i : ℕ} {v : UInt8} (h : m.setByte b i v = .ok m') (c : BufferId) (j : ℕ) :
    m'.byte c j = if c = b ∧ j = i then .ok v else m.byte c j := by
  obtain ⟨hi, rfl⟩ := setByte_eq_ok h
  unfold byte
  rw [bytes?_modify]
  by_cases hc : c = b
  swap
  · rw [if_neg hc, if_neg fun h => hc h.1]
  subst hc
  rw [if_pos rfl]
  unfold bufferSize at hi
  cases hbytes : m.bytes? c with
  | none =>
    rw [hbytes] at hi
    exact absurd hi (Nat.not_lt_zero i)
  | some bytes =>
    rw [hbytes] at hi
    simp only [Option.map_some, Option.bind_some, Array.getElem?_setIfInBounds]
    by_cases hj : j = i
    · rw [if_pos hj.symm, if_pos (hj ▸ hi), if_pos ⟨trivial, hj⟩]
    · rw [if_neg (Ne.symm hj), if_neg fun h => hj h.2]

end MemoryMap

/-! ### Memory with an image over it -/

namespace MemoryMap

/-- Memory `m'` with an image from `a` on in a slot, over the memory `m`. -/
structure Covered (m : MemoryMap) (s : Slot) (a : UInt16) (bytes : List UInt8) (m' : MemoryMap) :
    Prop where
  shown : ∀ x, m.Exposed s a bytes x →
    m'.page x .read = .direct ⟨m.buffers.size⟩ (((Page.of x).val - (Page.of a).val) * pageSize)
  others : ∀ x q, ¬(q.reads = true ∧ m.Exposed s a bytes x) → m'.page x q = m.page x q
  image : m'.bytes? ⟨m.buffers.size⟩ = some (RomImage.place a bytes).bytes
  retains : m.Retains m'

variable {m m' m'' : MemoryMap} {s : Slot} {a : UInt16} {bytes : List UInt8}

/-- A client in a free slot covers memory with an image. -/
theorem Backed.covered (h : m.Backed) {device : DeviceId} (hfree : m.freeSlot? true = some s)
    (a : UInt16) (hbytes : bytes ≠ []) :
    m.Covered s a bytes ((m.connect device true).2.mapRom s (RomImage.place a bytes)) := by
  have hmapped := (h.connect_mapRom device hfree a hbytes).sound
  have hexposed : ∀ x, (m.connect device true).2.Exposed s a bytes x ↔ m.Exposed s a bytes x :=
    fun x => by
    unfold Exposed
    simp only [held_connect]
  refine ⟨fun x hx => ?_, fun x q hx => ?_, ?_, ?_⟩
  · rw [page_exposed hmapped hbytes ((hexposed x).2 hx), buffers_connect]
  · rw [← hexposed x] at hx
    rw [page_unexposed (h.connect device true).sound hmapped hbytes hx, page_connect]
  · have hbuffers : (m.connect device true).2.buffers = m.buffers := buffers_connect
    rw [← hbuffers]
    exact bytes?_addBuffer _ _
  · exact (retains_connect m device true).trans (Machine.retains_mapRom _ s _)

namespace Covered

/-- No page leads to the image for writing. -/
theorem page_write_ne (h : m.Covered s a bytes m') (hm : m.Backed) (x : UInt16) (offset : ℕ) :
    m'.page x .write ≠ .direct ⟨m.buffers.size⟩ offset := by
  rw [h.others x .write fun hx => Bool.false_ne_true hx.1]
  intro hp
  have hsize := hm.sound.page_within hm.within hp
  have hpos : 0 < m.bufferSize ⟨m.buffers.size⟩ :=
    lt_of_lt_of_le (by decide) (le_of_add_le_right hsize)
  exact lt_irrefl _ (index_lt hpos)

/-- An image stays as long as no mapping is changed. -/
theorem of_changes (h : m.Covered s a bytes m') (hm : m.Backed) {ram : BufferId}
    (hram : 0 < m.bufferSize ram) (hc : Changes Operation.passive ram m' m'') :
    m.Covered s a bytes m'' := by
  have hpages := samePages_changes hc
  have hne : (⟨m.buffers.size⟩ : BufferId) ≠ ram := by
    rintro rfl
    exact lt_irrefl _ (index_lt hram)
  refine ⟨fun x hx => ?_, fun x q hx => ?_, bytes?_changes hc hne (h.page_write_ne hm) h.image,
    h.retains.trans hc.retains⟩
  · rw [hpages.page]
    exact h.shown x hx
  · rw [hpages.page]
    exact h.others x q hx

variable {δ : Type} [Device δ]

/-- The bytes of the image are read. -/
theorem read_eq (h : m.Covered s a bytes m') {x : UInt16} (hx : m.Exposed s a bytes x)
    (ds : Devices δ) : m'.read x ds = .ok (RomImage.byteAt a bytes x, ds) := by
  have hbyte : m'.byte ⟨m.buffers.size⟩
      (((Page.of x).val - (Page.of a).val) * pageSize + inPage x) =
        .ok (RomImage.byteAt a bytes x) := by
    rw [byte_eq_ok, h.image, Option.bind_some]
    exact RomImage.getElem?_place hx.1
  unfold read
  rw [h.shown x hx]
  dsimp only
  rw [hbyte]
  rfl

end Covered

/-! ### Reading elsewhere, and writing -/

/-- What is written to a page that has been mapped to bytes for writing all along goes there. -/
theorem Backed.write_eq (hm : m.Backed) (hretains : m.Retains m') {x : UInt16}
    (hpage : m'.page x .write = m.page x .write) {b : BufferId} {offset : ℕ}
    (hp : m.page x .write = .direct b offset) (v : UInt8) {δ : Type} [Device δ] (ds : Devices δ) :
    ∃ m'', m'.setByte b (offset + inPage x) v = .ok m'' ∧ m'.write x v ds = .ok (m'', ds) := by
  have hsize := hm.sound.page_within hm.within hp
  have hin := inPage_lt x
  have hlt : offset + inPage x < m'.bufferSize b := by
    rw [hretains b (by simp only [pageSize] at hsize; omega)]
    omega
  obtain ⟨m'', hset⟩ : ∃ m'', m'.setByte b (offset + inPage x) v = .ok m'' := ⟨_, if_pos hlt⟩
  refine ⟨m'', hset, ?_⟩
  unfold write
  rw [hpage, hp]
  dsimp only
  rw [hset]
  rfl

theorem bytes?_mapRom (m : MemoryMap) (s : Slot) (image : RomImage) {b : BufferId}
    (hb : b.index < m.buffers.size) : (m.mapRom s image).bytes? b = m.bytes? b := by
  show (m.buffers.push image.bytes)[b.index]? = m.buffers[b.index]?
  rw [Array.getElem?_push, if_neg hb.ne]

/-- The same mapping reads the same byte, if buffers and devices show the same. -/
theorem fst_read_congr {δ : Type} [Device δ] {x : UInt16} {ds ds' : Devices δ}
    (hpage : m'.page x .read = m.page x .read)
    (hbytes : ∀ b offset, m.page x .read = .direct b offset → m'.bytes? b = m.bytes? b)
    (hdevices : ∀ id, Prod.fst <$> ds'.memRead id x = Prod.fst <$> ds.memRead id x) :
    Prod.fst <$> m'.read x ds' = Prod.fst <$> m.read x ds := by
  unfold read
  rw [hpage]
  cases hp : m.page x .read with
  | unmapped => rfl
  | routed id => exact hdevices id
  | direct b offset =>
    have hbyte : m'.byte b (offset + inPage x) = m.byte b (offset + inPage x) := by
      unfold byte
      rw [hbytes b offset hp]
    dsimp only
    rw [hbyte]
    cases m.byte b (offset + inPage x) <;> rfl

end MemoryMap

/-! ### The device of an image -/

namespace Devices

theorem get?_next {δ : Type} (ds : Devices δ) (d : δ) : ds.get? (ds.add d).1 = none := by
  show (ds.slots[ds.slots.size]?).join = none
  rw [Array.getElem?_eq_none le_rfl]
  rfl

/-- A device that is taken out at once has only used up a name. -/
theorem get?_remove_add {δ : Type} (ds : Devices δ) (d : δ) (id : DeviceId) :
    ((ds.add d).2.remove (ds.add d).1).2.get? id = ds.get? id := by
  by_cases h : id = (ds.add d).1
  · rw [h, get?_remove_self, get?_next]
  · rw [get?_remove_of_ne _ h, get?_add_of_ne _ _ h]

theorem count_remove_add {δ : Type} (ds : Devices δ) (d : δ) :
    ((ds.add d).2.remove (ds.add d).1).2.count = ds.count := by
  have hslots : ((ds.add d).2.remove (ds.add d).1).2.slots = ds.slots.push none := by
    show (ds.slots.push (some d)).setIfInBounds ds.slots.size none = ds.slots.push none
    refine Array.ext_getElem? fun i => ?_
    rw [Array.getElem?_setIfInBounds, Array.getElem?_push, Array.getElem?_push, Array.size_push]
    split_ifs <;> first | rfl | omega
  unfold count
  rw [hslots, Array.countP_push]
  rfl

/-- The device of an image reads as if there were none. -/
theorem fst_memRead_addRom {δ : Type} [Device δ] (ds : Devices (Part δ)) (id : DeviceId)
    (x : UInt16) :
    Prod.fst <$> (ds.add Part.rom).2.memRead id x = Prod.fst <$> ds.memRead id x := by
  unfold memRead readBy
  by_cases h : id = (ds.add Part.rom).1
  · rw [h, get?_add_self, get?_next]
    rfl
  · rw [get?_add_of_ne _ _ h]
    cases ds.get? id with
    | none => rfl
    | some d =>
      dsimp only
      cases Device.memRead d x <;> rfl

end Devices

/-- Where no image is mapped nothing has happened, except that a name may have been used up. -/
theorem Machine.loadRom_refused {δ : Type} {m m' : Machine δ} {s : Side} {a : UInt16}
    {bytes : List UInt8} (h : m.loadRom s a bytes = (none, m')) :
    m'.hardware.boards = m.hardware.boards ∧
      (∀ id, m'.hardware.devices.get? id = m.hardware.devices.get? id) ∧
      m'.hardware.devices.count = m.hardware.devices.count := by
  rcases m.loadRom_cases s a bytes with ⟨-, he⟩ | ⟨-, -, he⟩ | ⟨-, slot, -, he⟩ <;>
    rw [he] at h <;> cases h
  · exact ⟨rfl, fun id => rfl, rfl⟩
  · exact ⟨congrArg (·.hardware.boards) (remapped_self m s), Devices.get?_remove_add _ _,
      Devices.count_remove_add _ _⟩

/-! ### Machines with an image over their memory -/

namespace Machine

variable {δ : Type} [Device δ] {m m' : Machine δ} {s : Side} {a : UInt16} {bytes : List UInt8}
  {rom : RomHandle}

/-- A machine `n` in which an image from `a` on lies over what is mapped in the machine `m`. -/
structure Overlaid (m : Machine δ) (rom : RomHandle) (a : UInt16) (bytes : List UInt8)
    (n : Machine δ) : Prop where
  /-- The image is read on its pages, wherever no lower slot holds them. -/
  shown : ∀ x, (m.board rom.side).memory.Exposed rom.slot a bytes x →
    n.read rom.side x = .ok (RomImage.byteAt a bytes x, n)
  /-- All else is mapped as it was, and so is everything for writing. -/
  others : ∀ t x q,
    ¬(t = rom.side ∧ q.reads = true ∧ (m.board t).memory.Exposed rom.slot a bytes x) →
      (n.board t).memory.page x q = (m.board t).memory.page x q
  /-- What is written goes to what was mapped for writing, and nothing else changes. -/
  beneath : ∀ t x v b offset, (m.board t).memory.page x .write = .direct b offset →
    ∃ n', n.write t x v = .ok n' ∧ ∀ u c i, (n'.board u).memory.byte c i =
      if u = t ∧ c = b ∧ i = offset + MemoryMap.inPage x then .ok v else (n.board u).memory.byte c i

theorem Overlaid.of_memory (hm : ∀ t, (m.board t).memory.Backed) {n : Machine δ}
    (hside : (m.board rom.side).memory.Covered rom.slot a bytes (n.board rom.side).memory)
    (hpartner : ∀ t ≠ rom.side, (m.board t).memory.SamePages (n.board t).memory ∧
      (m.board t).memory.Retains (n.board t).memory) : m.Overlaid rom a bytes n := by
  have hothers : ∀ t x q,
      ¬(t = rom.side ∧ q.reads = true ∧ (m.board t).memory.Exposed rom.slot a bytes x) →
        (n.board t).memory.page x q = (m.board t).memory.page x q := by
    intro t x q hx
    by_cases ht : t = rom.side
    · subst ht
      exact hside.others x q fun h => hx ⟨rfl, h⟩
    · exact (hpartner t ht).1.page x q
  have hretains : ∀ t, (m.board t).memory.Retains (n.board t).memory := fun t => by
    by_cases ht : t = rom.side
    · subst ht
      exact hside.retains
    · exact (hpartner t ht).2
  refine ⟨fun x hx => ?_, hothers, fun t x v b offset hp => ?_⟩
  · unfold read
    rw [hside.read_eq hx]
    rfl
  · have hpage := hothers t x .write fun h => Bool.false_ne_true h.2.1
    obtain ⟨memory, hset, hwrite⟩ := (hm t).write_eq (hretains t) hpage hp v n.hardware.devices
    refine ⟨n.remapped t memory n.hardware.devices, ?_, fun u c i => ?_⟩
    · rw [write_eq, hwrite]
      rfl
    · rw [memory_remapped]
      by_cases hu : u = t
      · subst hu
        rw [if_pos rfl, MemoryMap.byte_setByte hset]
        simp only [true_and]
      · rw [if_neg hu, if_neg fun h => hu h.1]

theorem fst_read (m : Machine δ) (s : Side) (x : UInt16) :
    Prod.fst <$> m.read s x = Prod.fst <$> (m.board s).memory.read x m.hardware.devices := by
  unfold read
  cases (m.board s).memory.read x m.hardware.devices <;> rfl

/-- Mapping an image changes no byte that is read elsewhere. -/
theorem fst_read_remapped (hm : ∀ t, (m.board t).memory.Backed) {slot : Slot} {device : DeviceId}
    (hfree : (m.board s).memory.freeSlot? true = some slot) (hbytes : bytes ≠ []) {t : Side}
    {x : UInt16} (hx : ¬(t = s ∧ (m.board t).memory.Exposed slot a bytes x)) :
    Prod.fst <$> (m.remapped s (((m.board s).memory.connect device true).2.mapRom slot
        (RomImage.place a bytes)) (m.hardware.devices.add .rom).2).read t x =
      Prod.fst <$> m.read t x := by
  rw [fst_read, fst_read, memory_remapped]
  by_cases ht : t = s
  swap
  · rw [if_neg ht]
    exact MemoryMap.fst_read_congr rfl (fun _ _ _ => rfl) (Devices.fst_memRead_addRom _ · x)
  subst ht
  rw [if_pos rfl]
  refine MemoryMap.fst_read_congr
    (((hm t).covered hfree a hbytes).others x .read fun h => hx ⟨rfl, h.2⟩)
    (fun b offset hp => ?_) (Devices.fst_memRead_addRom _ · x)
  have hsize := (hm t).sound.page_within (hm t).within hp
  have hpos : 0 < (m.board t).memory.bufferSize b :=
    lt_of_lt_of_le (by decide) (le_of_add_le_right hsize)
  have hb : b.index < ((m.board t).memory.connect device true).2.buffers.size := by
    rw [MemoryMap.buffers_connect]
    exact MemoryMap.index_lt hpos
  rw [MemoryMap.bytes?_mapRom _ _ _ hb]
  unfold MemoryMap.bytes?
  rw [MemoryMap.buffers_connect]

/-- A machine with an image, and whatever happens to it while no mapping is changed. -/
theorem Overlaid.of_changed (hm : ∀ t, (m.board t).memory.Backed) (hram : m.HasRam) {slot : Slot}
    {device : DeviceId} (hfree : (m.board s).memory.freeSlot? true = some slot)
    (hbytes : bytes ≠ []) {devices : Devices (Part δ)} {n : Machine δ}
    (hn : Changed MemoryMap.Operation.passive (m.remapped s
      (((m.board s).memory.connect device true).2.mapRom slot (RomImage.place a bytes))
      devices) n) :
    m.Overlaid ⟨s, slot, device⟩ a bytes n := by
  refine .of_memory hm ?_ fun t ht => ?_
  · have hc := hn.memory s
    rw [memory_remapped, if_pos rfl] at hc
    have hpos : 0 < (m.board s).memory.bufferSize (m.ramBuffers.get s) := by
      rw [hram s]
      decide
    exact ((hm s).covered hfree a hbytes).of_changes (hm s) hpos hc
  · have hc := hn.memory t
    rw [memory_remapped, if_neg ht] at hc
    exact ⟨MemoryMap.samePages_changes hc, hc.retains⟩

/-- An image is mapped for reading on the pages that hold it, and shows there, wherever no lower
slot holds them, until a mapping is changed. Nothing else is mapped otherwise. It takes a free slot;
without one nothing is mapped, and no device is added. -/
theorem loadRom_overlays (hm : m.Reached) (s : Side) (a : UInt16) (bytes : List UInt8) :
    ((m.loadRom s a bytes).1.isSome ↔
      bytes ≠ [] ∧ ∃ slot, (m.board s).memory.clients.get slot = none) ∧
    (∀ rom m', m.loadRom s a bytes = (some rom, m') →
      rom.side = s ∧ (m.board s).memory.freeSlot? true = some rom.slot ∧
      (∀ t x, ¬(t = s ∧ (m.board t).memory.Exposed rom.slot a bytes x) →
        Prod.fst <$> m'.read t x = Prod.fst <$> m.read t x) ∧
      ∀ ops images t, (∀ op ∈ ops, op.Limited MemoryMap.Operation.passive) →
        system.run ops ⟨m', images⟩ = .ok t → m.Overlaid rom a bytes t.machine) ∧
    ∀ m', m.loadRom s a bytes = (none, m') →
      m'.hardware.boards = m.hardware.boards ∧
      (∀ id, m'.hardware.devices.get? id = m.hardware.devices.get? id) ∧
      m'.hardware.devices.count = m.hardware.devices.count := by
  have hbacked := hm.backed
  refine ⟨?_, fun rom m' he => ?_, fun m' => loadRom_refused⟩
  · rcases m.loadRom_cases s a bytes with
      ⟨hempty, h⟩ | ⟨hbytes, hfree, h⟩ | ⟨hbytes, slot, hfree, h⟩ <;>
      rw [h]
    · exact iff_of_false Bool.false_ne_true fun hsome => hsome.1 hempty
    · exact iff_of_false Bool.false_ne_true fun ⟨_, slot, hslot⟩ =>
        MemoryMap.freeSlot?_eq_none hfree slot hslot
    · exact iff_of_true rfl ⟨hbytes, slot, MemoryMap.freeSlot?_eq_some hfree⟩
  · have hram : m'.HasRam := by
      have hloaded : (m.loadRom s a bytes).2.HasRam := hm.hasRam.loadRom s a bytes
      rwa [he] at hloaded
    obtain ⟨hbytes, slot, hfree, rfl, rfl⟩ := loadRom_mapped he
    refine ⟨rfl, hfree, fun t x hx => fst_read_remapped hbacked hfree hbytes hx,
      fun ops images t hops hrun => ?_⟩
    exact .of_changed hbacked hm.hasRam hfree hbytes
      (run_changes (fun _ _ => trivial) hram hops hrun).2

/-- An image that starts inside a page. It is read after its RAM has been overwritten and after a
reset, and a write to it ends up in RAM. -/
theorem loadRom_overlays_reset :
    ∃ (m : Machine ParallelLink) (rom : RomHandle) (m' : Machine ParallelLink)
      (t : Session ParallelLink) (m'' : Machine ParallelLink),
      m.Reached ∧ m.loadRom .main 0x0410 [0xAA, 0xBB] = (some rom, m') ∧
      m'.read .main 0x0410 = .ok (0xAA, m') ∧ m'.read .main 0x0400 = .ok (0xFF, m') ∧
      system.run [.loadRam .main 0x0411 [0x11], .reset] ⟨m', []⟩ = .ok t ∧
      t.machine.read .main 0x0411 = .ok (0xBB, t.machine) ∧
      t.machine.write .main 0x0411 0x22 = .ok m'' ∧
      (m''.board .main).memory.byte ⟨0⟩ 0x0411 = .ok 0x22 := by
  obtain ⟨m, hnew⟩ : ∃ m : Machine ParallelLink, new .standard = .ok m := ⟨_, rfl⟩
  have hreached : m.Reached := ⟨.standard, m, [], [], hnew, rfl⟩
  have hmemory : (m.board .main).memory = .ofRam ⟨0⟩ := by
    rw [new_eq_ok hnew]
    rfl
  obtain ⟨hsome, hmapped, -⟩ := loadRom_overlays hreached .main 0x0410 [0xAA, 0xBB]
  rw [hmemory] at hsome
  obtain ⟨rom, hrom⟩ :=
    Option.isSome_iff_exists.1 (hsome.2 ⟨List.cons_ne_nil _ _, ⟨0, by decide⟩, rfl⟩)
  obtain ⟨m', hload⟩ : ∃ m', m.loadRom .main 0x0410 [0xAA, 0xBB] = (some rom, m') :=
    ⟨_, Prod.ext hrom rfl⟩
  obtain ⟨hside, -, -, hstays⟩ := hmapped rom m' hload
  have hexposed : ∀ x, Page.of x = Page.of 0x0410 →
      (m.board rom.side).memory.Exposed rom.slot 0x0410 [0xAA, 0xBB] x := fun x hx => by
    rw [hside, hmemory]
    refine ⟨⟨0, by decide, by rw [hx]; rfl⟩, fun u hu => ?_⟩
    -- Only the backstop holds anything yet.
    have hlast : u ≠ .last := by
      rintro rfl
      exact absurd hu (not_lt.2 (Nat.le_of_lt_succ rom.slot.isLt))
    rw [held_ofRam, if_neg hlast]
  have hnow := hstays [] [] ⟨m', []⟩ (by simp) rfl
  obtain ⟨t, hrun⟩ : ∃ t, system.run [.loadRam .main 0x0411 [0x11], .reset] ⟨m', []⟩ = .ok t :=
    ⟨_, rfl⟩
  have hlater := hstays _ [] t (by simp [Operation.Limited]) hrun
  have hwritten : (m.board .main).memory.page 0x0411 .write = .direct ⟨0⟩ 0x0400 := by
    rw [hmemory]
    exact (layered_ofRam _).page_write _
  obtain ⟨m'', hwrite, hbyte⟩ := hlater.beneath .main 0x0411 0x22 ⟨0⟩ 0x0400 hwritten
  refine ⟨m, rom, m', t, m'', hreached, hload, ?_, ?_, hrun, ?_, hwrite, ?_⟩
  · exact hside ▸ hnow.shown 0x0410 (hexposed _ rfl)
  · exact hside ▸ hnow.shown 0x0400 (hexposed _ rfl)
  · exact hside ▸ hlater.shown 0x0411 (hexposed _ rfl)
  · rw [hbyte, if_pos ⟨rfl, rfl, rfl⟩]

end Machine
end TandemZ80
