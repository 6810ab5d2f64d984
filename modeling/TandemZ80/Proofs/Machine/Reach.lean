import TandemZ80.Proofs.Machine.Plain

/-!
# What plain operations reach

Most operations leave the parts of a machine to the machine. They reach plain machines only, as long
as the changes of a mapping can be told apart by their generations.

* `Machine.Session.Plain`, a plain machine with handles of its images;
  `Machine.Session.Plain.perform`;
* `Machine.Session.Accounted`, what holds after plain operations;
* `Machine.PlainlyReached`, and `Machine.PlainlyReached.exists_plain`.
-/

namespace TandemZ80.Machine

variable {δ : Type}

/-- The handle of an image does not lead to the link, nor to a device that is still to come. -/
def Owns (m : Machine δ) (rom : RomHandle) : Prop :=
  rom.device.index < m.hardware.devices.slots.size ∧ m.linkId ≠ some rom.device

/-- A plain machine, with handles of its images. -/
structure Session.Plain (k : ℕ) (t : Session δ) : Prop where
  machine : t.machine.Plain k
  images : ∀ rom, some rom ∈ t.images → t.machine.Owns rom

variable {m m' : Machine δ} {k k' : ℕ} {t : Session δ}

/-! ### What happens to the devices -/

theorem Owns.of_le {rom : RomHandle} (h : m.Owns rom) (hlink : m'.linkId = m.linkId)
    (hsize : m.hardware.devices.slots.size ≤ m'.hardware.devices.slots.size) : m'.Owns rom :=
  ⟨h.1.trans_le hsize, hlink ▸ h.2⟩

theorem size_remove (ds : Devices (Part δ)) (id : DeviceId) :
    (ds.remove id).2.slots.size = ds.slots.size :=
  Devices.size_put ds id none

/-- An image takes the next name, and nothing happens to the link. -/
theorem devices_loadRom (m : Machine δ) (s : Side) (a : UInt16) (bytes : List UInt8) :
    (m.loadRom s a bytes).2.linkId = m.linkId ∧
      m.hardware.devices.slots.size ≤ (m.loadRom s a bytes).2.hardware.devices.slots.size ∧
      ∀ rom, (m.loadRom s a bytes).1 = some rom →
        rom.device = ⟨m.hardware.devices.slots.size⟩ ∧
          m.hardware.devices.slots.size < (m.loadRom s a bytes).2.hardware.devices.slots.size := by
  have hpush : (m.hardware.devices.add Part.rom).2.slots.size = m.hardware.devices.slots.size + 1 :=
    Array.size_push _
  rw [loadRom_eq]
  split_ifs
  · exact ⟨rfl, le_rfl, fun rom hrom => by cases hrom⟩
  · dsimp only
    split
    · rw [withDevices_snd, withMemory_snd, withDevices_snd]
      refine ⟨rfl, ?_, fun rom hrom => by cases hrom⟩
      dsimp only [setBoard]
      rw [size_remove, hpush]
      exact Nat.le_succ _
    · rw [withMemory_snd, withMemory_snd, withDevices_snd]
      dsimp only [setBoard]
      rw [hpush]
      refine ⟨rfl, Nat.le_succ _, fun rom hrom => ?_⟩
      cases hrom
      exact ⟨rfl, Nat.lt_succ_self _⟩

/-- Taking an image away leaves its name in use. -/
theorem devices_unloadRom (m : Machine δ) (rom : RomHandle) :
    (m.unloadRom rom).linkId = m.linkId ∧
      (m.unloadRom rom).hardware.devices.slots.size = m.hardware.devices.slots.size := by
  unfold unloadRom
  rw [withDevices_snd, withMemory_snd]
  exact ⟨rfl, size_remove _ _⟩

/-! ### Plain operations -/

namespace Session.Plain

/-- The machine has changed, and no name has been given to the link. -/
theorem of_machine (h : t.Plain k) (hm : m.Plain k') (hlink : m.linkId = t.machine.linkId)
    (hsize : t.machine.hardware.devices.slots.size ≤ m.hardware.devices.slots.size) :
    Session.Plain k' { t with machine := m } :=
  ⟨hm, fun rom hrom => (h.images rom hrom).of_le hlink hsize⟩

theorem updateCpu (h : t.Plain k) {s : Side} {f : Cpu → Cpu}
    (hf : ∀ u, (f u).window = u.window ∨ (f u).window = none) :
    Session.Plain k { t with machine := t.machine.updateCpu s f } := by
  refine h.of_machine (h.machine.updateCpu hf) ?_ ?_ <;> rw [updateCpu_eq] <;> rfl

theorem loadRom (h : t.Plain k) (s : Side) (a : UInt16) (bytes : List UInt8) :
    Session.Plain (k + (t.machine.loadRom s a bytes).1.isSome.toNat)
      ⟨(t.machine.loadRom s a bytes).2, t.images ++ [(t.machine.loadRom s a bytes).1]⟩ := by
  obtain ⟨hlink, hsize, hnew⟩ := devices_loadRom t.machine s a bytes
  refine ⟨h.machine.loadRom s a bytes, fun rom hrom => ?_⟩
  rcases List.mem_append.1 hrom with hold | hlast
  · exact (h.images rom hold).of_le hlink hsize
  · obtain ⟨hdevice, hlt⟩ := hnew rom (List.mem_singleton.1 hlast).symm
    unfold Owns
    rw [hdevice, hlink]
    exact ⟨hlt, h.machine.ne_link_of_size⟩

theorem attachLink [Device δ] (h : t.Plain k) :
    Session.Plain k { t with machine := t.machine.attachLink.2 } := by
  refine ⟨h.machine.attachLink, fun rom hrom => ?_⟩
  have howns := h.images rom hrom
  show t.machine.attachLink.2.Owns rom
  cases hid : t.machine.linkId with
  | some id =>
    rw [attachLink_of_some hid]
    exact howns
  | none =>
    rw [attachLink_of_none hid]
    obtain ⟨hlt, -⟩ := howns
    refine ⟨?_, fun hsome => ?_⟩
    · show rom.device.index < (t.machine.hardware.devices.slots.push _).size
      rw [Array.size_push]
      exact hlt.trans (Nat.lt_succ_self _)
    · rw [← Option.some.inj hsome] at hlt
      exact absurd hlt (lt_irrefl _)

theorem load (h : t.Plain k) {p : Snapshot} {r : Except StateError Unit}
    (hl : t.machine.load p = .ok (r, m)) : Session.Plain k { t with machine := m } := by
  rcases load_of_hasRam h.machine.hasRam p with
    ⟨e, he⟩ | ⟨cpus, scheduler, hp, hcpus, hscheduler, he⟩
  · rw [he] at hl
    cases hl
    exact h
  · rw [he] at hl
    cases hl
    exact h.of_machine (h.machine.restored hp hcpus hscheduler)
      (fields_restored t.machine p cpus scheduler).2.2.2
        (h.machine.size_restored hp cpus scheduler).ge

variable [Device δ]

theorem execute (h : t.Plain k) (hk : k < UInt32.size) {budget : UInt32} {n : UInt64}
    (he : t.machine.execute budget = .ok (n, m)) : Session.Plain k { t with machine := m } := by
  obtain ⟨hm, hsetting, -⟩ := h.machine.execute hk he
  exact h.of_machine hm (congrArg Setting.link hsetting) (congrArg Setting.names hsetting).ge

/-- Plain operations keep a machine plain. -/
theorem perform (h : t.Plain k) (hk : k < UInt32.size) {op : Operation δ} (hop : op.plain)
    {r : Answer × Session δ} (hr : system.perform op t = .ok r) : r.2.Plain (k + t.remaps op) := by
  cases op with
  | execute budget =>
    obtain ⟨⟨n, m⟩, he, rfl⟩ := Fault.map_eq_ok hr
    exact h.execute hk he
  | reset =>
    cases hr
    refine h.of_machine h.machine.reset rfl ?_
    show _ ≤ (t.machine.hardware.devices.slots.map _).size
    rw [Array.size_map]
  | setIntLine s level =>
    cases hr
    exact h.updateCpu fun _ => .inl rfl
  | nmi s =>
    cases hr
    exact h.updateCpu fun _ => .inl rfl
  | read s a =>
    obtain ⟨⟨v, m⟩, he, rfl⟩ := Fault.map_eq_ok hr
    rw [read_of_layered (h.machine.layered s)] at he
    cases he
    exact h
  | write s a v =>
    obtain ⟨m, he, rfl⟩ := Fault.map_eq_ok hr
    rw [write_of_layered (h.machine.layered s)] at he
    cases he
    exact h.of_machine (h.machine.write s a v) rfl le_rfl
  | loadRam s a bytes =>
    cases hr
    refine h.of_machine (h.machine.loadRam a bytes) ?_ ?_ <;> rw [loadRam, withMemory_snd] <;> rfl
  | loadRom s a bytes =>
    cases hr
    exact h.loadRom s a bytes
  | unloadRom n =>
    cases hr
    unfold Session.remaps
    dsimp only
    cases hrom : t.images[n]?.join with
    | none => exact h
    | some rom =>
      have howns := h.images rom (List.mem_of_getElem? (Option.join_eq_some_iff.1 hrom))
      obtain ⟨hlink, hsize⟩ := devices_unloadRom t.machine rom
      exact h.of_machine (h.machine.unloadRom howns.2) hlink hsize.ge
  | attachLink =>
    cases hr
    exact h.attachLink
  | load p =>
    obtain ⟨⟨r, m⟩, he, rfl⟩ := Fault.map_eq_ok hr
    exact h.load he
  | cpu s f =>
    cases hr
    exact h.updateCpu hop
  | memory s op => exact hop.elim
  | ports s f => exact hop.elim
  | devices f => exact hop.elim

end Session.Plain

/-! ### Plain machines that are reached -/

/-- In a new machine the backstop holds everything, and nobody else holds anything. -/
theorem held_ofRam (device : DeviceId) (q : Access) (p : Page) (s : Slot) :
    (MemoryMap.ofRam device).held q p s =
      if s = .last then some (.direct ⟨0⟩ (p * pageSize)) else none := by
  have hempty : MemoryMap.empty.held q p s = none :=
    MemoryMap.Sound.empty.clients q p s (by simp [MemoryMap.empty, Vector.get])
  unfold MemoryMap.ofRam
  rw [MemoryMap.held_grant]
  have hcovers : Access.readWrite.covers q = true := by cases q <;> rfl
  simp only [hcovers, true_and]
  split_ifs
  · rfl
  · exact hempty

/-- The memory of a new machine shows its RAM. -/
theorem layered_ofRam (device : DeviceId) : (MemoryMap.ofRam device).Layered where
  sound := by
    have hclient :
        (MemoryMap.empty.clients.set Slot.last (some device) Slot.last.isLt).get Slot.last =
          some device := by rw [MemoryMap.get_set_client, if_pos rfl]
    have hsome := congrArg Option.isSome hclient
    unfold MemoryMap.ofRam
    refine MemoryMap.Sound.grant (.mk ?_ (fun q p s _ => ?_) ?_) ?_ _ _ _
    · exact MemoryMap.Sound.empty.coherent
    · exact MemoryMap.Sound.empty.clients q p s (by simp [MemoryMap.empty, Vector.get])
    · exact (if_pos hsome).symm
    · exact hsome
  within q p s b offset he := by
    rw [held_ofRam] at he
    split_ifs at he
    cases he
    rw [bufferSize_ofRam]
    have := p.isLt
    simp only [pageCount, pageSize, ramSize] at this ⊢
    omega
  ram := bufferSize_ofRam device
  last q p := by rw [held_ofRam, if_pos rfl]
  images q p s e hs he := by
    rw [held_ofRam, if_neg hs] at he
    cases he

theorem plain_new {config : Config} (h : new config = .ok m) : m.Plain 0 := by
  have hdated : ∀ device, MemoryMap.Dated 0 (.ofRam device) none := fun device =>
    ⟨le_rfl, 0, le_rfl, rfl, fun w hw => by cases hw⟩
  rw [new_eq_ok h]
  refine ⟨rfl, fun s => ?_, fun s => ?_, fun s => ?_, fun id hid => ?_, fun s => ?_⟩
  · cases s <;> exact layered_ofRam _
  · cases s <;> exact hdated _
  · cases s <;> rfl
  · cases hid
  · exact Scheduler.weightFits_ratio .oneToOne s

/-- A session whose changes of mappings are counted, and which is plain unless they have run out of
generations. -/
structure Session.Accounted (t : Session δ) : Prop where
  hasRam : t.machine.HasRam
  plain : ∃ k, t.machine.Counted k ∧ (k < UInt32.size → t.Plain k)

theorem accounted_new {config : Config} (h : new config = .ok m) : Session.Accounted ⟨m, []⟩ :=
  ⟨hasRam_new h, 0, counted_new h, fun _ => ⟨plain_new h, fun rom hrom => by cases hrom⟩⟩

variable [Device δ]

theorem Session.Accounted.perform (h : t.Accounted) {op : Operation δ} (hop : op.plain)
    {r : Answer × Session δ} (hr : system.perform op t = .ok r) : r.2.Accounted := by
  obtain ⟨hram, k, hcounted, hplain⟩ := h
  refine ⟨hram.perform hr, k + t.remaps op, hcounted.perform hram hop hr, fun hk => ?_⟩
  -- There were no more changes before than there are now.
  have hbefore : k < UInt32.size := lt_of_le_of_lt (Nat.le_add_right k _) hk
  exact (hplain hbefore).perform hbefore hop hr

/-- A machine that plain operations can reach. -/
def PlainlyReached (m : Machine δ) : Prop :=
  ∃ config m₀ ops images, new config = .ok m₀ ∧ (∀ op ∈ ops, Operation.plain op) ∧
    system.run ops ⟨m₀, []⟩ = .ok ⟨m, images⟩

/-- To read a snapshot back is a plain operation. -/
theorem PlainlyReached.load (h : m.PlainlyReached) {p : Snapshot} {r : Except StateError Unit}
    (hl : m.load p = .ok (r, m')) : m'.PlainlyReached := by
  obtain ⟨config, m₀, ops, images, hnew, hops, hrun⟩ := h
  refine ⟨config, m₀, ops ++ [.load p], images, hnew, fun op hop => ?_, ?_⟩
  · rcases List.mem_append.1 hop with hop | hop
    · exact hops op hop
    · rw [List.mem_singleton.1 hop]
      trivial
  · rw [System.run_append, hrun]
    show (_ <$> m.load p) >>= _ = _
    rw [hl]
    rfl

/-- Such a machine is plain, unless there were so many images that generations have come round. -/
theorem PlainlyReached.exists_plain (h : m.PlainlyReached) (hbuffers : m.bufferCount ≤ 2 ^ 31) :
    ∃ k < UInt32.size, m.Plain k := by
  obtain ⟨config, m₀, ops, images, hnew, hops, hrun⟩ := h
  obtain ⟨-, k, hcounted, hplain⟩ :=
    System.run_keeps (P := Operation.plain) (fun op hop t r ht hr => ht.perform hop hr) hops
      (accounted_new hnew) hrun
  have hcount : k + m.clientCount + 2 = 2 * m.bufferCount := hcounted
  have hk : k < UInt32.size := by
    simp only [UInt32.size]
    omega
  exact ⟨k, hk, (hplain hk).machine⟩

end TandemZ80.Machine
