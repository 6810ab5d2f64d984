import TandemZ80.Proofs.Machine.Reach
import TandemZ80.Proofs.Memory.Image

/-!
# What happens to the memory of a machine

Whatever is done to a machine comes to a few things for the memory of each processor: operations on
its map, and bytes that are stored in its RAM. What all of these keep holds of every machine.

* `MemoryMap.Change` and `MemoryMap.Changes`, one such thing, and any number of them;
  `Changes.backed`;
* `Machine.loadRom_cases` and `Machine.unloadRom_eq`, what an image does to a machine;
* `Machine.Operation.Limited`, operations by what they may do to a memory map, and
  `Machine.run_changes`;
* `Machine.Reached.backed`.
-/

namespace TandemZ80

/-! ### Memory maps -/

namespace MemoryMap

/-- What may happen to a memory map in one go: an operation of some kind, or new bytes in the
RAM. -/
inductive Change (P : Operation → Prop) (ram : BufferId) : MemoryMap → MemoryMap → Prop
  | store (m : MemoryMap) (a : UInt16) (bytes : List UInt8) : Change P ram m (m.store ram a bytes)
  | replace {m : MemoryMap} {bytes : Array UInt8} (h : bytes.size = m.bufferSize ram) :
      Change P ram m (m.replaceBuffer ram bytes)
  | perform {m m' : MemoryMap} {δ : Type} [Device δ] {op : Operation} (hop : P op) {x : Answer}
      {ds ds' : Devices δ} (h : MemoryMap.system.perform op (m, ds) = .ok (x, m', ds')) :
    Change P ram m m'

/-- Any number of changes. -/
abbrev Changes (P : Operation → Prop) (ram : BufferId) : MemoryMap → MemoryMap → Prop :=
  Relation.ReflTransGen (Change P ram)

variable {P : Operation → Prop} {ram : BufferId} {m m' : MemoryMap}

theorem samePages_store (m : MemoryMap) (b : BufferId) (a : UInt16) (bytes : List UInt8) :
    m.SamePages (m.store b a bytes) := ⟨rfl, rfl, rfl, rfl⟩

theorem samePages_replaceBuffer (m : MemoryMap) (b : BufferId) (bytes : Array UInt8) :
    m.SamePages (m.replaceBuffer b bytes) := ⟨rfl, rfl, rfl, rfl⟩

theorem Backed.change (h : m.Backed) (hc : Change P ram m m') : m'.Backed := by
  cases hc with
  | store a bytes => exact h.of_samePages (samePages_store ..) (retains_store _ _ _ _)
  | replace hsize =>
    exact h.of_samePages (samePages_replaceBuffer ..) (retains_replaceBuffer hsize)
  | perform _ hr => exact h.perform hr

theorem Changes.backed (hc : Changes P ram m m') (h : m.Backed) : m'.Backed := by
  induction hc with
  | refl => exact h
  | tail _ hc ih => exact ih.change hc

theorem Changes.write (hP : ∀ a v, P (.write a v)) {δ : Type} [Device δ] {a : UInt16} {v : UInt8}
    {ds ds' : Devices δ} (h : m.write a v ds = .ok (m', ds')) : Changes P ram m m' := by
  have hperform : system.perform (.write a v) (m, ds) = .ok (.done, m', ds') := by
    unfold system
    dsimp only
    rw [h]
    rfl
  exact .single (.perform (hP a v) hperform)

theorem Changes.alloc (hP : ∀ op, P op) {s : Slot} {addr : UInt16} {len : ℕ} {target : Target}
    {access : Access} {r : Bool} (h : m.alloc s addr len target access = .ok (r, m')) :
    Changes P ram m m' :=
  .single (.perform (hP _) (perform_alloc (.empty : Devices ParallelLink) h))

/-- Connecting a client and mapping its image are three operations. -/
theorem Changes.connect_mapRom (hP : ∀ op, P op) {device : DeviceId} {slot : Slot}
    (hfree : m.freeSlot? true = some slot) (a : UInt16) {bytes : List UInt8} (hbytes : bytes ≠ []) :
    Changes P ram m ((m.connect device true).2.mapRom slot (RomImage.place a bytes)) := by
  have hconnect : Changes P ram m (m.connect device true).2 :=
    .single (.perform (hP _) (perform_connect (.empty : Devices ParallelLink) m device true))
  have hclient : (m.connect device true).2.clients.get slot ≠ none := client_connect_ne_none hfree
  generalize (m.connect device true).2 = connected at hconnect hclient ⊢
  have hbuffer : Changes P ram connected (connected.addBuffer (RomImage.place a bytes).bytes).2 :=
    .single (.perform (hP _) (perform_addBuffer (.empty : Devices ParallelLink) connected _))
  exact (hconnect.trans hbuffer).trans (Changes.alloc hP (alloc_image hclient a hbytes))

theorem backed_ofRam (device : DeviceId) : (ofRam device).Backed where
  sound := (Machine.layered_ofRam device).sound
  within := (Machine.layered_ofRam device).within
  last := (Machine.layered_ofRam device).isSome_client_last

end MemoryMap

/-! ### Machines -/

namespace Machine

variable {δ : Type} {m m' : Machine δ} {s : Side}

/-- A machine with another memory map on one side, and other devices. -/
def remapped (m : Machine δ) (s : Side) (memory : MemoryMap) (devices : Devices (Part δ)) :
    Machine δ :=
  { m with hardware := ⟨m.hardware.boards.set s { m.board s with memory }, devices⟩ }

theorem memory_remapped (m : Machine δ) (s : Side) (memory : MemoryMap) (devices : Devices (Part δ))
    (t : Side) :
    ((m.remapped s memory devices).board t).memory = if t = s then memory
      else (m.board t).memory := by
  show ((m.setBoard s { m.board s with memory }).board t).memory = _
  rw [board_setBoard]
  split_ifs <;> rfl

theorem remapped_self (m : Machine δ) (s : Side) :
    m.remapped s (m.board s).memory m.hardware.devices = m := by
  obtain ⟨config, ⟨⟨main, sub⟩, devices⟩, scheduler, ramBuffers, linkId⟩ := m
  cases s <;> rfl

/-- An image is mapped in the lowest free slot, for a device with the next name. Where no slot is
free the name is given to a device that is gone at once. -/
theorem loadRom_cases (m : Machine δ) (s : Side) (a : UInt16) (bytes : List UInt8) :
    (bytes = [] ∧ m.loadRom s a bytes = (none, m)) ∨
    (bytes ≠ [] ∧ (m.board s).memory.freeSlot? true = none ∧ m.loadRom s a bytes =
      (none, m.remapped s (m.board s).memory
        ((m.hardware.devices.add .rom).2.remove (m.hardware.devices.add .rom).1).2)) ∨
    (bytes ≠ [] ∧ ∃ slot, (m.board s).memory.freeSlot? true = some slot ∧ m.loadRom s a bytes =
      (some ⟨s, slot, (m.hardware.devices.add .rom).1⟩, m.remapped s
        (((m.board s).memory.connect (m.hardware.devices.add .rom).1 true).2.mapRom slot
          (RomImage.place a bytes))
        (m.hardware.devices.add .rom).2)) := by
  rw [loadRom_eq]
  split_ifs with hempty
  · exact .inl ⟨List.isEmpty_iff.1 hempty, rfl⟩
  have hbytes : bytes ≠ [] := fun h => hempty (List.isEmpty_iff.2 h)
  dsimp only
  rw [withMemory_fst]
  cases hslot : ((((m.withDevices fun ds => ds.add Part.rom).2).board s).memory.connect
      ⟨m.hardware.devices.slots.size⟩ true).1 with
  | none =>
    refine .inr (.inl ⟨hbytes, ?_, ?_⟩)
    · rw [withDevices_snd, MemoryMap.connect_fst] at hslot
      exact hslot
    · dsimp only
      rw [withDevices_snd, withMemory_snd, MemoryMap.connect_eq_none hslot, withDevices_snd]
      rfl
  | some slot =>
    refine .inr (.inr ⟨hbytes, slot, ?_, ?_⟩)
    · rw [withDevices_snd, MemoryMap.connect_fst] at hslot
      exact hslot
    · dsimp only
      rw [withMemory_snd, withMemory_snd, board_setBoard, if_pos rfl, setBoard_setBoard,
        withDevices_snd]
      rfl

/-- What has happened where an image is mapped. -/
theorem loadRom_mapped {a : UInt16} {bytes : List UInt8} {rom : RomHandle}
    (h : m.loadRom s a bytes = (some rom, m')) :
    bytes ≠ [] ∧ ∃ slot, (m.board s).memory.freeSlot? true = some slot ∧
      rom = ⟨s, slot, (m.hardware.devices.add .rom).1⟩ ∧ m' = m.remapped s
        (((m.board s).memory.connect (m.hardware.devices.add .rom).1 true).2.mapRom slot
          (RomImage.place a bytes))
        (m.hardware.devices.add .rom).2 := by
  rcases m.loadRom_cases s a bytes with ⟨-, he⟩ | ⟨-, -, he⟩ | ⟨hbytes, slot, hfree, he⟩ <;>
    rw [he] at h <;> cases h
  exact ⟨hbytes, slot, hfree, rfl, rfl⟩

/-- An image that is taken away leaves its slot and its device. -/
theorem unloadRom_eq (m : Machine δ) (rom : RomHandle) :
    m.unloadRom rom = m.remapped rom.side ((m.board rom.side).memory.disconnect rom.slot).2
      (m.hardware.devices.remove rom.device).2 := by
  unfold unloadRom
  rw [withDevices_snd, withMemory_snd]
  rfl

/-! ### Operations -/

/-- An operation does no more to a memory map than `P` says. Images need every operation on it. -/
def Operation.Limited (P : MemoryMap.Operation → Prop) : Operation δ → Prop
  | .memory _ op => P op
  | .loadRom .. | .unloadRom _ => ∀ op, P op
  | _ => True

theorem Operation.limited {P : MemoryMap.Operation → Prop} (hP : ∀ op, P op) (op : Operation δ) :
    op.Limited P := by
  cases op <;> first | trivial | exact hP | exact hP _

section Changes

variable {P : MemoryMap.Operation → Prop}

/-- The memory of both sides has changed by operations as `P` says, and RAM is where it was. -/
structure Changed (P : MemoryMap.Operation → Prop) (m m' : Machine δ) : Prop where
  ramBuffers : m'.ramBuffers = m.ramBuffers
  memory : ∀ s, MemoryMap.Changes P (m.ramBuffers.get s) (m.board s).memory (m'.board s).memory

namespace Changed

theorem refl (m : Machine δ) : Changed P m m := ⟨rfl, fun _ => .refl⟩

theorem trans {m'' : Machine δ} (h : Changed P m m') (h' : Changed P m' m'') : Changed P m m'' :=
  ⟨h'.ramBuffers.trans h.ramBuffers, fun s => (h.memory s).trans (h.ramBuffers ▸ h'.memory s)⟩

theorem of_sameMemory (h : SameMemory m m') : Changed P m m' :=
  ⟨h.ramBuffers, fun s => h.memory s ▸ .refl⟩

theorem remapped {memory : MemoryMap} {devices : Devices (Part δ)}
    (h : MemoryMap.Changes P (m.ramBuffers.get s) (m.board s).memory memory) :
    Changed P m (m.remapped s memory devices) := by
  refine ⟨rfl, fun t => ?_⟩
  rw [memory_remapped]
  split_ifs with hts
  · exact hts ▸ h
  · exact .refl

theorem loadRom (hP : ∀ op, P op) (m : Machine δ) (s : Side) (a : UInt16) (bytes : List UInt8) :
    Changed P m (m.loadRom s a bytes).2 := by
  rcases m.loadRom_cases s a bytes with ⟨-, h⟩ | ⟨-, -, h⟩ | ⟨hbytes, slot, hfree, h⟩ <;> rw [h]
  · exact .refl m
  · exact .remapped .refl
  · exact .remapped (MemoryMap.Changes.connect_mapRom hP hfree a hbytes)

theorem unloadRom (hP : ∀ op, P op) (m : Machine δ) (rom : RomHandle) :
    Changed P m (m.unloadRom rom) := by
  rw [unloadRom_eq]
  exact .remapped (.single (.perform (hP _)
    (MemoryMap.perform_disconnect (.empty : Devices ParallelLink) _ rom.slot)))

variable [Device δ]

theorem perform (hP : ∀ a v, P (.write a v)) {t : Session δ} (hram : t.machine.HasRam)
    {op : Operation δ} (hop : op.Limited P) {r : Answer × Session δ}
    (hr : system.perform op t = .ok r) : Changed P t.machine r.2.machine := by
  cases op with
  | execute budget =>
    obtain ⟨⟨n, m⟩, he, rfl⟩ := Fault.map_eq_ok hr
    obtain ⟨hbuffers, hmemory⟩ := execute_keeps
      (I := fun s => MemoryMap.Changes P (t.machine.ramBuffers.get s) (t.machine.board s).memory)
      (fun s memory memory' a v ds ds' hm hw => hm.trans (MemoryMap.Changes.write hP hw))
        (fun s => .refl) he
    exact ⟨hbuffers, hmemory⟩
  | write s a v =>
    obtain ⟨m, he, rfl⟩ := Fault.map_eq_ok hr
    rw [write_eq] at he
    obtain ⟨⟨memory, devices⟩, hmem, rfl⟩ := Fault.map_eq_ok he
    exact .remapped (MemoryMap.Changes.write hP hmem)
  | loadRam s a bytes =>
    cases hr
    show Changed P t.machine (t.machine.loadRam s a bytes)
    unfold Machine.loadRam
    rw [withMemory_snd]
    exact .remapped (.single (.store _ a bytes))
  | loadRom s a bytes =>
    cases hr
    exact .loadRom hop ..
  | unloadRom n =>
    cases hr
    dsimp only
    cases t.images[n]?.join with
    | none => exact .refl _
    | some rom => exact .unloadRom hop ..
  | load p =>
    obtain ⟨⟨r, m⟩, he, rfl⟩ := Fault.map_eq_ok hr
    rcases load_of_hasRam hram p with ⟨e, he'⟩ | ⟨cpus, scheduler, hp, -, -, he'⟩
    · rw [he'] at he
      cases he
      exact .refl _
    · rw [he'] at he
      cases he
      refine ⟨(fields_restored t.machine p cpus scheduler).2.2.1, fun s => ?_⟩
      rw [board_restored]
      exact .single (.replace (((refusal?_eq_none hp).2.1 s).trans (hram s).symm))
  | memory s op =>
    obtain ⟨⟨a, memory, devices⟩, hperform, hr⟩ := Fault.bind_eq_ok hr
    cases hr
    rw [withDevices_snd]
    exact .remapped (.single (.perform hop hperform))
  | _ => exact .of_sameMemory (.perform hr trivial)

end Changed

/-- What operations do to the memory of a machine, one after the other. -/
theorem run_changes [Device δ] (hP : ∀ a v, P (.write a v)) {t t' : Session δ}
    (hram : t.machine.HasRam) {ops : List (Operation δ)} (hops : ∀ op ∈ ops, op.Limited P)
    (hrun : system.run ops t = .ok t') :
    t'.machine.HasRam ∧ Changed P t.machine t'.machine :=
  System.run_keeps (I := fun u => u.machine.HasRam ∧ Changed P t.machine u.machine)
    (fun _ hop _ _ ⟨hram, hchanged⟩ hr =>
      ⟨hram.perform hr, hchanged.trans (.perform hP hram hop hr)⟩)
    hops ⟨hram, .refl _⟩ hrun

end Changes

/-- The memory of every machine is sound and keeps its backstop. -/
theorem Reached.backed [Device δ] (h : m.Reached) (s : Side) : (m.board s).memory.Backed := by
  obtain ⟨config, m₀, ops, images, hnew, hrun⟩ := h
  obtain ⟨-, hchanged⟩ := run_changes (P := fun _ => True) (fun _ _ => trivial) (hasRam_new hnew)
    (fun op _ => op.limited fun _ => trivial) hrun
  refine (hchanged.memory s).backed ?_
  rw [new_eq_ok hnew]
  cases s <;> exact MemoryMap.backed_ofRam _

end Machine
end TandemZ80
