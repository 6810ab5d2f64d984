import TandemZ80.Proofs.Machine.Overlay

/-!
# Handles of images that are gone

A handle names a slot and a device. The name of a device is never given again, but a slot is. A
handle whose image has been taken away therefore leads to nothing, or to an image that was mapped
later and has got the slot: which then is taken away, while its device stays.

* `MemoryMap.held_loaded`, what a new image does to the pages of each slot, and
  `MemoryMap.Backed.page_unloaded`;
* `Machine.Session.Orderly`, sessions whose handles name devices of their own;
* `Machine.Session.Occupied`, a slot that has been taken again, and `Machine.Session.Vacated`, what
  is left of an image that was taken away; `Machine.Session.Vacated.perform`;
* `Machine.unloadRom_again`.
-/

namespace TandemZ80

/-! ### Slots -/

namespace MemoryMap

variable {m : MemoryMap} {s : Slot} {device : DeviceId} {a : UInt16} {bytes : List UInt8}

/-- A new image holds its pages in its slot, and nothing else changes. -/
theorem held_loaded (hbytes : bytes ≠ []) (q : Access) (p : Page) (t : Slot) :
    ((m.connect device true).2.mapRom s (RomImage.place a bytes)).held q p t =
      if q.reads ∧ Page.Holds a bytes.length p ∧ t = s then
        some (.direct ⟨m.buffers.size⟩ ((p - (Page.of a).val) * pageSize))
      else m.held q p t := by
  rw [held_mapRom _ s a hbytes, held_connect, buffers_connect]

theorem client_loaded (hfree : m.freeSlot? true = some s) (t : Slot) :
    ((m.connect device true).2.mapRom s (RomImage.place a bytes)).clients.get t =
      if t = s then some device else m.clients.get t :=
  client_connect hfree t

/-- An image that is taken away uncovers what was mapped before it. -/
theorem Backed.page_unloaded (h : m.Backed) (hfree : m.freeSlot? true = some s)
    (hbytes : bytes ≠ []) (x : UInt16) (q : Access) :
    (((m.connect device true).2.mapRom s (RomImage.place a bytes)).disconnect s).2.page x q =
      m.page x q := by
  have hloaded := h.connect_mapRom device hfree a hbytes
  refine h.sound.page_congr (hloaded.disconnect s).sound fun t => ?_
  rw [hloaded.held_disconnect (h.free_ne_last hfree)]
  split_ifs with ht
  · rw [ht, h.sound.clients q _ s (freeSlot?_eq_some hfree)]
  · rw [held_loaded hbytes, if_neg fun hs => ht hs.2.2]

end MemoryMap

namespace Devices

/-- There is nothing to be taken out under the name of a device that is gone. -/
theorem remove_of_gone {δ : Type} {ds : Devices δ} {id : DeviceId} (h : ds.get? id = none) :
    (ds.remove id).2 = ds := by
  unfold get? at h
  show (⟨ds.slots.setIfInBounds id.index none⟩ : Devices δ) = ds
  congr 1
  refine Array.ext_getElem? fun i => ?_
  rw [Array.getElem?_setIfInBounds]
  split_ifs with hi hlt
  · subst hi
    rw [Array.getElem?_eq_getElem hlt] at h ⊢
    exact congrArg some h.symm
  · subst hi
    rw [Array.getElem?_eq_none (not_lt.1 hlt)]
  · rfl

end Devices

/-! ### Sessions -/

namespace Machine

variable {δ : Type}

/-- Mapping an image, or taking one away. -/
def Operation.onImages : Operation δ → Prop
  | .loadRom .. | .unloadRom _ => True
  | _ => False

/-- The `k`-th image was mapped, with this handle. -/
def Session.Issued (t : Session δ) (k : ℕ) (rom : RomHandle) : Prop :=
  t.images[k]? = some (some rom)

/-- Every handle names a device of its own, and a slot that is not that of the backstop. -/
structure Session.Orderly (t : Session δ) : Prop where
  backed : ∀ s, (t.machine.board s).memory.Backed
  named : ∀ {k rom}, t.Issued k rom → rom.device.index < t.machine.hardware.devices.slots.size
  above : ∀ {k rom}, t.Issued k rom → rom.slot ≠ .last
  distinct : ∀ {j k rom rom'}, t.Issued j rom → t.Issued k rom' → rom.device = rom'.device → j = k

/-- The slot of `rom` is that of the `k`-th image, which was not yet there after `since` images. -/
structure Session.Occupied (t : Session δ) (since : ℕ) (rom : RomHandle) (k : ℕ)
    (rom' : RomHandle) : Prop where
  later : since ≤ k
  issued : t.Issued k rom'
  side : rom'.side = rom.side
  slot : rom'.slot = rom.slot
  client : (t.machine.board rom.side).memory.clients.get rom.slot = some rom'.device
  device : t.machine.hardware.devices.get? rom'.device = some .rom
  held : ∃ p, (t.machine.board rom.side).memory.held .read p rom.slot ≠ none

/-- What is left of an image that was taken away: its device is gone, and its slot is free or has
been taken by another image since. -/
structure Session.Vacated (t : Session δ) (since : ℕ) (rom : RomHandle) : Prop where
  orderly : t.Orderly
  above : rom.slot ≠ .last
  named : rom.device.index < t.machine.hardware.devices.slots.size
  earlier : since ≤ t.images.length
  gone : t.machine.hardware.devices.get? rom.device = none
  slot : (t.machine.board rom.side).memory.clients.get rom.slot = none ∨
    ∃ k rom', t.Occupied since rom k rom'

variable {m : Machine δ} {t t' : Session δ} {since k : ℕ} {rom rom' : RomHandle}

theorem memory_unloadRom (m : Machine δ) (rom : RomHandle) (s : Side) :
    ((m.unloadRom rom).board s).memory =
      if s = rom.side then ((m.board rom.side).memory.disconnect rom.slot).2
        else (m.board s).memory := by
  rw [unloadRom_eq, memory_remapped]

theorem devices_unloadRom_eq (m : Machine δ) (rom : RomHandle) :
    (m.unloadRom rom).hardware.devices = (m.hardware.devices.remove rom.device).2 := by
  rw [unloadRom_eq]
  rfl

namespace Session

theorem Issued.of_append (h : t.Issued k rom) (machine : Machine δ) (r : Option RomHandle) :
    Session.Issued ⟨machine, t.images ++ [r]⟩ k rom := by
  have hlt : k < t.images.length := (List.getElem?_eq_some_iff.1 h).1
  show (t.images ++ [r])[k]? = _
  rw [List.getElem?_append_left hlt]
  exact h

/-- An image is one of the old ones, or the new one. -/
theorem Issued.cases_append {machine : Machine δ} {r : Option RomHandle}
    (h : Session.Issued ⟨machine, t.images ++ [r]⟩ k rom) :
    t.Issued k rom ∨ (k = t.images.length ∧ r = some rom) := by
  by_cases hlt : k < t.images.length
  · refine .inl ?_
    exact (List.getElem?_append_left hlt).symm.trans h
  · have hsingle : [r][k - t.images.length]? = some (some rom) := by
      rw [← List.getElem?_append_right (not_lt.1 hlt)]
      exact h
    obtain ⟨hk, hr⟩ := List.getElem?_eq_some_iff.1 hsingle
    rw [List.length_singleton, Nat.lt_one_iff] at hk
    refine .inr ⟨by omega, ?_⟩
    simpa [hk] using hr

/-! ### Orderly sessions -/

namespace Orderly

theorem of_unloadRom (h : t.Orderly) (rom : RomHandle) :
    Session.Orderly { t with machine := t.machine.unloadRom rom } where
  backed s :=
    ((Changed.unloadRom (P := fun _ => True) (fun _ => trivial) t.machine rom).memory s).backed
      (h.backed s)
  named hrom := (h.named hrom).trans_eq (devices_unloadRom t.machine rom).2.symm
  above := h.above
  distinct := h.distinct

theorem of_loadRom (h : t.Orderly) (s : Side) (a : UInt16) (bytes : List UInt8) :
    Session.Orderly
      ⟨(t.machine.loadRom s a bytes).2, t.images ++ [(t.machine.loadRom s a bytes).1]⟩ := by
  obtain ⟨-, hsize, hnew⟩ := devices_loadRom t.machine s a bytes
  have hbacked := fun u => ((Changed.loadRom (P := fun _ => True) (fun _ => trivial) t.machine s a
    bytes).memory u).backed (h.backed u)
  have habove : ∀ rom, (t.machine.loadRom s a bytes).1 = some rom → rom.slot ≠ .last := by
    intro rom hrom
    obtain ⟨-, slot, hfree, rfl, -⟩ := loadRom_mapped (Prod.ext hrom rfl)
    exact (h.backed s).free_ne_last hfree
  refine ⟨hbacked, fun hrom => ?_, fun hrom => ?_, fun hj hk hdevice => ?_⟩
  · rcases hrom.cases_append with hold | ⟨-, hlast⟩
    · exact (h.named hold).trans_le hsize
    · obtain ⟨hname, hlt⟩ := hnew _ hlast
      rw [hname]
      exact hlt
  · rcases hrom.cases_append with hold | ⟨-, hlast⟩
    · exact h.above hold
    · exact habove _ hlast
  · -- The next name is none of the old ones.
    have hne : ∀ {k rom rom'}, t.Issued k rom → (t.machine.loadRom s a bytes).1 = some rom' →
        rom.device ≠ rom'.device := by
      intro k rom rom' hrom hrom' heq
      have hlt := h.named hrom
      rw [heq, (hnew _ hrom').1] at hlt
      exact lt_irrefl _ hlt
    rcases hj.cases_append with hj | ⟨hj, hj'⟩ <;> rcases hk.cases_append with hk | ⟨hk, hk'⟩
    · exact h.distinct hj hk hdevice
    · exact absurd hdevice (hne hj hk')
    · exact absurd hdevice.symm (hne hk hj')
    · exact hj.trans hk.symm

theorem start {m : Machine δ} (h : ∀ s, (m.board s).memory.Backed) : Session.Orderly ⟨m, []⟩ := by
  refine ⟨h, fun hrom => ?_, fun hrom => ?_, fun hj => ?_⟩ <;> contradiction

end Orderly

/-! ### After an image was taken away -/

namespace Vacated

/-- The slot of an image that was taken away is free. -/
theorem of_unloadRom (h : t.Orderly) (hrom : t.Issued k rom) :
    Session.Vacated { t with machine := t.machine.unloadRom rom } t.images.length rom where
  orderly := h.of_unloadRom rom
  above := h.above hrom
  named := (h.named hrom).trans_eq (devices_unloadRom t.machine rom).2.symm
  earlier := le_rfl
  gone := by
    rw [devices_unloadRom_eq]
    exact Devices.get?_remove_self _ _
  slot := by
    rw [memory_unloadRom, if_pos rfl, (h.backed rom.side).client_disconnect (h.above hrom),
      if_pos rfl]
    exact .inl rfl

/-- Nothing has happened to the slot, nor to a device of an image in it. -/
theorem of_kept (h : t.Vacated since rom) (horderly : t'.Orderly)
    (himages : ∀ {k rom'}, t.Issued k rom' → t'.Issued k rom')
    (hlength : t.images.length ≤ t'.images.length)
    (hsize : t.machine.hardware.devices.slots.size ≤ t'.machine.hardware.devices.slots.size)
    (hgone : t'.machine.hardware.devices.get? rom.device = none)
    (hclient : (t'.machine.board rom.side).memory.clients.get rom.slot =
      (t.machine.board rom.side).memory.clients.get rom.slot)
    (hheld : ∀ p, (t'.machine.board rom.side).memory.held .read p rom.slot =
      (t.machine.board rom.side).memory.held .read p rom.slot)
    (hdevice : ∀ {k rom'}, t.Occupied since rom k rom' →
      t'.machine.hardware.devices.get? rom'.device = some .rom) : t'.Vacated since rom where
  orderly := horderly
  above := h.above
  named := h.named.trans_le hsize
  earlier := h.earlier.trans hlength
  gone := hgone
  slot := by
    rw [hclient]
    refine h.slot.imp_right fun ⟨k, rom', ho⟩ => ⟨k, rom', ?_⟩
    obtain ⟨p, hp⟩ := ho.held
    exact ⟨ho.later, himages ho.issued, ho.side, ho.slot, hclient.trans ho.client, hdevice ho, p,
      (hheld p).symm ▸ hp⟩

/-- A new image may take the slot. -/
theorem loadRom (h : t.Vacated since rom) (s : Side) (a : UInt16) (bytes : List UInt8) :
    Session.Vacated ⟨(t.machine.loadRom s a bytes).2, t.images ++ [(t.machine.loadRom s a bytes).1]⟩
      since rom := by
  have horderly := h.orderly.of_loadRom s a bytes
  have hlength : ∀ r : Option RomHandle, t.images.length ≤ (t.images ++ [r]).length := fun r => by
    rw [List.length_append]
    exact Nat.le_add_right _ _
  obtain ⟨-, hsize, -⟩ := devices_loadRom t.machine s a bytes
  rcases hr : t.machine.loadRom s a bytes with ⟨r, m'⟩
  rw [hr] at horderly hsize
  cases r with
  | none =>
    obtain ⟨hboards, hdevices, -⟩ := loadRom_refused hr
    have hmemory : ∀ u, (m'.board u).memory = (t.machine.board u).memory := fun u =>
      congrArg (fun boards : PerSide Board => (boards.get u).memory) hboards
    refine h.of_kept horderly (·.of_append _ _) (hlength _) hsize ((hdevices _).trans h.gone) ?_
      (fun p => ?_) fun ho => (hdevices _).trans ho.device
    · rw [hmemory]
    · rw [hmemory]
  | some new =>
    obtain ⟨hbytes, slot, hfree, rfl, rfl⟩ := loadRom_mapped hr
    -- Names that are in use are not given again.
    have hold : ∀ id : DeviceId, id.index < t.machine.hardware.devices.slots.size →
        (t.machine.hardware.devices.add Part.rom).2.get? id =
          t.machine.hardware.devices.get? id := by
      intro id hid
      refine Devices.get?_add_of_ne _ _ ?_
      rintro rfl
      exact lt_irrefl _ hid
    by_cases hslot : rom.side = s ∧ rom.slot = slot
    · -- The image takes the slot, under the next name and number.
      obtain ⟨rfl, rfl⟩ := hslot
      have hissued : Session.Issued ⟨t.machine.remapped rom.side
          (((t.machine.board rom.side).memory.connect
            (t.machine.hardware.devices.add .rom).1 true).2.mapRom rom.slot
              (RomImage.place a bytes)) (t.machine.hardware.devices.add .rom).2,
          t.images ++ [some ⟨rom.side, rom.slot, (t.machine.hardware.devices.add .rom).1⟩]⟩
          t.images.length
          ⟨rom.side, rom.slot, (t.machine.hardware.devices.add .rom).1⟩ :=
        List.getElem?_concat_length ..
      refine ⟨horderly, h.above, h.named.trans_le hsize, h.earlier.trans (hlength _),
        (hold _ h.named).trans h.gone, .inr ⟨_, _, h.earlier, hissued, rfl, rfl, ?_,
          Devices.get?_add_self _ _, Page.of a, ?_⟩⟩
      · rw [memory_remapped, if_pos rfl, MemoryMap.client_loaded hfree, if_pos rfl]
      · have hholds : Page.Holds a bytes.length (Page.of a) :=
          ⟨0, List.length_pos_of_ne_nil hbytes, rfl⟩
        rw [memory_remapped, if_pos rfl, MemoryMap.held_loaded hbytes, if_pos ⟨rfl, hholds, rfl⟩]
        exact Option.some_ne_none _
    · refine h.of_kept horderly (·.of_append _ _) (hlength _) hsize
        ((hold _ h.named).trans h.gone) ?_
        (fun p => ?_) fun ho => (hold _ (h.orderly.named ho.issued)).trans ho.device
      · rw [memory_remapped]
        split_ifs with hside
        · subst hside
          rw [MemoryMap.client_loaded hfree, if_neg fun heq => hslot ⟨rfl, heq⟩]
        · rfl
      · rw [memory_remapped]
        split_ifs with hside
        · subst hside
          rw [MemoryMap.held_loaded hbytes, if_neg fun heq => hslot ⟨rfl, heq.2.2⟩]
        · rfl

/-- Another image is taken away, which may be the one in the slot. -/
theorem unloadRom (h : t.Vacated since rom) (hrom' : t.Issued k rom') :
    Session.Vacated { t with machine := t.machine.unloadRom rom' } since rom := by
  have horderly := h.orderly.of_unloadRom rom'
  have hsize := (devices_unloadRom t.machine rom').2.ge
  have hgone : (t.machine.unloadRom rom').hardware.devices.get? rom.device = none := by
    rw [devices_unloadRom_eq]
    by_cases heq : rom.device = rom'.device
    · rw [heq, Devices.get?_remove_self]
    · rw [Devices.get?_remove_of_ne _ heq, h.gone]
  by_cases hslot : rom.side = rom'.side ∧ rom.slot = rom'.slot
  · refine ⟨horderly, h.above, h.named.trans_le hsize, h.earlier, hgone, .inl ?_⟩
    obtain ⟨hside, hslot⟩ := hslot
    rw [memory_unloadRom, if_pos hside, hslot,
      (h.orderly.backed rom'.side).client_disconnect (h.orderly.above hrom'), if_pos rfl]
  · refine h.of_kept horderly id le_rfl hsize hgone ?_ (fun p => ?_) fun ho => ?_
    · rw [memory_unloadRom]
      split_ifs with hside
      · rw [(h.orderly.backed rom'.side).client_disconnect (h.orderly.above hrom'),
          if_neg fun heq => hslot ⟨hside, heq⟩, hside]
      · rfl
    · rw [memory_unloadRom]
      split_ifs with hside
      · rw [(h.orderly.backed rom'.side).held_disconnect (h.orderly.above hrom'),
          if_neg fun heq => hslot ⟨hside, heq⟩, hside]
      · rfl
    · -- An image with the device of the one in the slot would be that very image.
      have hne : _ ≠ rom'.device := fun heq => by
        obtain rfl := h.orderly.distinct ho.issued hrom' heq
        obtain rfl := Option.some.inj (Option.some.inj (ho.issued.symm.trans hrom'))
        exact hslot ⟨ho.side.symm, ho.slot.symm⟩
      show (t.machine.unloadRom rom').hardware.devices.get? _ = _
      rw [devices_unloadRom_eq, Devices.get?_remove_of_ne _ hne, ho.device]

end Vacated

variable [Device δ]

/-- What an operation on images does to a session. -/
theorem perform_onImages {op : Operation δ} (hop : op.onImages) {I : Session δ → Prop}
    (hself : I t)
    (hload : ∀ s a bytes,
      I ⟨(t.machine.loadRom s a bytes).2, t.images ++ [(t.machine.loadRom s a bytes).1]⟩)
    (hunload : ∀ k rom, t.Issued k rom → I { t with machine := t.machine.unloadRom rom })
    {r : Answer × Session δ} (hr : system.perform op t = .ok r) : I r.2 := by
  cases op with
  | loadRom s a bytes =>
    cases hr
    exact hload s a bytes
  | unloadRom n =>
    cases hr
    dsimp only
    cases hrom : t.images[n]?.join with
    | none => exact hself
    | some rom => exact hunload n rom (Option.join_eq_some_iff.1 hrom)
  | _ => exact hop.elim

theorem Orderly.run {ops : List (Operation δ)} (hops : ∀ op ∈ ops, op.onImages) (h : t.Orderly)
    (hrun : system.run ops t = .ok t') : t'.Orderly :=
  System.run_keeps (P := Operation.onImages) (I := Orderly)
    (fun _ hop _ _ ht hr => perform_onImages (I := Orderly) hop ht ht.of_loadRom
      (fun _ rom _ => ht.of_unloadRom rom) hr)
    hops h hrun

theorem Vacated.run {ops : List (Operation δ)} (hops : ∀ op ∈ ops, op.onImages)
    (h : t.Vacated since rom) (hrun : system.run ops t = .ok t') : t'.Vacated since rom :=
  System.run_keeps (P := Operation.onImages) (I := fun t => t.Vacated since rom)
    (fun _ hop _ _ ht hr => perform_onImages (I := fun t => t.Vacated since rom) hop ht ht.loadRom
      (fun _ _ hrom => ht.unloadRom hrom) hr)
    hops h hrun

end Session

/-! ### The same handle again -/

variable [Device δ]

/-- After images have been mapped and taken away, one that has been taken away before is taken away
once more. Its device is long gone, so no device is. If its slot is free nothing at all happens.
Otherwise the slot is that of an image that was mapped later, and that image loses its pages, though
its device stays; nothing else does. -/
theorem unloadRom_again (hm : m.Reached) {ops ops' : List (Operation δ)}
    (hops : ∀ op ∈ ops ++ ops', op.onImages) {n : ℕ} (hrun : system.run ops ⟨m, []⟩ = .ok t)
    (hrom : t.Issued n rom) (hrun' : system.run (.unloadRom n :: ops') t = .ok t') :
    (t'.machine.unloadRom rom).hardware.devices = t'.machine.hardware.devices ∧
    (∀ s q p u, ((t'.machine.unloadRom rom).board s).memory.held q p u =
      if s = rom.side ∧ u = rom.slot then none else (t'.machine.board s).memory.held q p u) ∧
    (t'.machine.unloadRom rom = t'.machine ↔
      (t'.machine.board rom.side).memory.clients.get rom.slot = none) ∧
    ((t'.machine.board rom.side).memory.clients.get rom.slot ≠ none →
      ∃ k rom', t'.Occupied t.images.length rom k rom') := by
  have hstart : t.Orderly :=
    .run (fun op hop => hops op (List.mem_append_left _ hop)) (.start hm.backed) hrun
  obtain ⟨r, hr, hrun'⟩ := Fault.bind_eq_ok hrun'
  have hfirst : r.2.Vacated t.images.length rom := by
    cases hr
    dsimp only
    rw [hrom, Option.join_some]
    exact .of_unloadRom hstart hrom
  have hend := hfirst.run (fun op hop => hops op (List.mem_append_right _ hop)) hrun'
  have hdevices : (t'.machine.unloadRom rom).hardware.devices = t'.machine.hardware.devices := by
    rw [devices_unloadRom_eq, Devices.remove_of_gone hend.gone]
  have hheld : ∀ s q p u, ((t'.machine.unloadRom rom).board s).memory.held q p u =
      if s = rom.side ∧ u = rom.slot then none else (t'.machine.board s).memory.held q p u := by
    intro s q p u
    rw [memory_unloadRom]
    by_cases hs : s = rom.side
    · subst hs
      rw [if_pos rfl, (hend.orderly.backed rom.side).held_disconnect hend.above]
      simp only [true_and]
    · rw [if_neg hs, if_neg fun h => hs h.1]
  refine ⟨hdevices, hheld, ⟨fun hsame => ?_, fun hfree => ?_⟩, hend.slot.resolve_left⟩
  · by_contra htaken
    obtain ⟨k, rom', ho⟩ := hend.slot.resolve_left htaken
    obtain ⟨p, hp⟩ := ho.held
    have hlost := hheld rom.side .read p rom.slot
    rw [hsame, if_pos ⟨rfl, rfl⟩] at hlost
    exact hp hlost
  · rw [unloadRom_eq, MemoryMap.disconnect_of_free hfree, Devices.remove_of_gone hend.gone,
      remapped_self]

/-- An image is taken away and another is mapped. The handle of the first, used once more, takes
away the second: RAM shows in its place. -/
theorem unloadRom_again_uncovers :
    ∃ (m : Machine ParallelLink) (t t' : Session ParallelLink) (rom : RomHandle),
      m.Reached ∧ system.run [.loadRom .main 0 [0x11]] ⟨m, []⟩ = .ok t ∧ t.Issued 0 rom ∧
      system.run [.unloadRom 0, .loadRom .main 0 [0x22]] t = .ok t' ∧
      (t'.machine.unloadRom rom).hardware.devices = t'.machine.hardware.devices ∧
      (∃ k rom', t'.Occupied t.images.length rom k rom') ∧
      (t'.machine.board .main).memory.page 0 .read = .direct ⟨2⟩ 0 ∧
      ((t'.machine.unloadRom rom).board .main).memory.page 0 .read = .direct ⟨0⟩ 0 := by
  obtain ⟨m, hnew⟩ : ∃ m : Machine ParallelLink, new .standard = .ok m := ⟨_, rfl⟩
  have hreached : m.Reached := ⟨.standard, m, [], [], hnew, rfl⟩
  have hops :
      ∀ op ∈ ([.loadRom .main 0 [0x11]] ++ [.loadRom .main 0 [0x22]] :
        List (Operation ParallelLink)), op.onImages := by
    simp [Operation.onImages]
  obtain ⟨t, hrun⟩ : ∃ t, system.run [.loadRom .main 0 [0x11]] ⟨m, []⟩ = .ok t := ⟨_, rfl⟩
  obtain ⟨t', hrun'⟩ : ∃ t', system.run [.unloadRom 0, .loadRom .main 0 [0x22]] t = .ok t' :=
    ⟨_, rfl⟩
  obtain ⟨slot, hslot⟩ : ∃ slot : Slot, slot.val = 0 := ⟨⟨0, by decide⟩, rfl⟩
  have hrom : t.Issued 0 ⟨.main, slot, ⟨2⟩⟩ := by
    cases hrun
    rw [new_eq_ok hnew]
    obtain rfl : slot = ⟨0, by decide⟩ := Fin.ext hslot
    rfl
  obtain ⟨hdevices, -, -, hoccupied⟩ := unloadRom_again hreached hops hrun hrom hrun'
  -- Between the two images the memory is that of a new machine, with one more buffer.
  obtain ⟨memory, hbacked, hfree, hbuffers, hpage, hmemory⟩ : ∃ memory : MemoryMap, memory.Backed ∧
      memory.freeSlot? true = some slot ∧ memory.buffers.size = 2 ∧
      memory.page 0 .read = .direct ⟨0⟩ 0 ∧
      (t'.machine.board .main).memory =
        (memory.connect ⟨3⟩ true).2.mapRom slot (RomImage.place 0 [0x22]) := by
    obtain rfl : slot = ⟨0, by decide⟩ := Fin.ext hslot
    have hram := MemoryMap.backed_ofRam ⟨0⟩
    refine ⟨_, (hram.connect_mapRom ⟨2⟩ (s := ⟨0, by decide⟩) rfl 0
      (List.cons_ne_nil 0x11 [])).disconnect ⟨0, by decide⟩, rfl, rfl, ?_, ?_⟩
    · rw [hram.page_unloaded rfl (List.cons_ne_nil _ _)]
      rfl
    · cases hrun
      cases hrun'
      rw [new_eq_ok hnew]
      rfl
  refine ⟨m, t, t', _, hreached, hrun, hrom, hrun', hdevices, hoccupied ?_, ?_, ?_⟩
  · show (t'.machine.board .main).memory.clients.get slot ≠ none
    rw [hmemory, MemoryMap.client_loaded hfree, if_pos rfl]
    exact Option.some_ne_none _
  · have hexposed : memory.Exposed slot 0 [0x22] 0 :=
      ⟨⟨0, Nat.one_pos, rfl⟩,
        fun u hu => absurd hu (by rw [Fin.lt_def, hslot]; exact Nat.not_lt_zero _)⟩
    rw [hmemory, (hbacked.covered hfree 0 (List.cons_ne_nil _ _)).shown 0 hexposed, hbuffers]
    rfl
  · rw [memory_unloadRom, if_pos rfl, hmemory]
    exact (hbacked.page_unloaded hfree (List.cons_ne_nil _ _) 0 .read).trans hpage

end Machine
end TandemZ80
