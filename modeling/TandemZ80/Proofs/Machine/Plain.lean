import TandemZ80.Proofs.Machine.Likeness
import TandemZ80.Proofs.Machine.Stock
import TandemZ80.Proofs.Schedule.Prepare

/-!
# Plain machines

A machine is plain if nothing is attached to it but RAM, images over the RAM, and perhaps the link.
A machine is plain as long as nobody reaches into its parts.

* `Machine.Like`, machines that show the same, and `Machine.Like.execute`, they run alike;
* `Machine.Plain`, with one lemma for each change of a machine.
-/

namespace TandemZ80.Machine

variable {δ : Type}

/-! ### Machines that run alike -/

/-- Machines that show the same, and whose schedulers are in the same state. -/
structure Like (c c' : Setting) (m m' : Machine δ) : Prop where
  hardware : Hardware.Like c c' m.hardware m'.hardware
  scheduler : m'.scheduler = m.scheduler
  config : m'.config = m.config
  left : m.linkId = c.link
  right : m'.linkId = c'.link
  ramBuffers : m.ramBuffers = .both ⟨0⟩ ∧ m'.ramBuffers = .both ⟨0⟩

theorem isIdle_of_agree {s t : Cpu} (h : s.Agree t) : t.isIdle = s.isIdle := by
  obtain ⟨r, w, hr, rfl⟩ := h.exists_eq
  obtain ⟨l, -, rfl⟩ := hr.exists_eq
  rfl

section Show

variable {c c' : Setting} {m m' : Machine δ} {s : Side} {w w' : Option Window}

/-- RAM is what the backstop shows. -/
theorem ram_of_plane (h : Backplane.Like s c c' w w' (m.hardware.plane s) (m'.hardware.plane s))
    (hm : m.ramBuffers = .both ⟨0⟩) (hm' : m'.ramBuffers = .both ⟨0⟩) : m'.ram s = m.ram s := by
  have hbuffer : (PerSide.both (⟨0⟩ : BufferId)).get s = ⟨0⟩ := by cases s <;> rfl
  unfold ram
  rw [hm, hm', hbuffer]
  exact congrArg (·.getD #[]) (h.left.layered.bytes?_congr h.right.layered h.memory.ram)

theorem link?_of_sameLink (h : Devices.SameLink c c' m.hardware.devices m'.hardware.devices)
    (hm : m.linkId = c.link) (hm' : m'.linkId = c'.link) : m'.link? = m.link? := by
  rcases h.link with ⟨hid, hid'⟩ | ⟨id, id', l, hid, hid', hl, hl'⟩
  · unfold link?
    rw [hm, hm', hid, hid']
    rfl
  · rw [link?_eq_some.2 ⟨id, hm.trans hid, hl⟩, link?_eq_some.2 ⟨id', hm'.trans hid', hl'⟩]

end Show

section Run

variable [Device δ] {c c' : Setting} {m m' : Machine δ}

/-- A run changes the hardware and the scheduler, and keeps machines alike. -/
theorem Like.execute (h : Like c c' m m') (hc : c.changes < UInt32.size)
    (hc' : c'.changes < UInt32.size) (budget : UInt32) :
    Fault.Alike (System.Answers (Like c c')) (m.execute budget) (m'.execute budget) := by
  have hruns := runs_alike (Hardware.processors_alike hc hc') h.config h.scheduler
    (isIdle_of_agree (h.hardware.cpu .sub)) h.hardware budget
  rw [execute_eq, execute_eq]
  refine hruns.map ?_
  rintro ⟨n, scheduler, hardware⟩ ⟨n', scheduler', hardware'⟩ ⟨hn, hscheduler, hhardware⟩
  exact ⟨hn, hhardware, hscheduler.symm, h.config, h.left, h.right, h.ramBuffers⟩

end Run

/-! ### Plain machines -/

/-- A machine with RAM, images and perhaps the link, in which the mapping of each processor has been
changed up to `k` times. -/
structure Plain (k : ℕ) (m : Machine δ) : Prop where
  ramBuffers : m.ramBuffers = .both ⟨0⟩
  layered : ∀ s, (m.board s).memory.Layered
  dated : ∀ s, MemoryMap.Dated k (m.board s).memory (m.board s).cpu.window
  ports : ∀ s, (m.board s).ports = .linked s m.linkId
  link : ∀ id, m.linkId = some id → ∃ l, m.hardware.devices.get? id = some (.link l)
  weights : ∀ s, Scheduler.weightFits (m.scheduler.weights.get s)

/-- What is a machine's own. -/
def setting (m : Machine δ) (k : ℕ) : Setting := ⟨m.linkId, m.hardware.devices.slots.size, k⟩

variable {m m' : Machine δ} {k k' : ℕ} {s : Side}

theorem get?_resetAll [Device δ] {ds : Devices (Part δ)} {id : DeviceId} {l : ParallelLink}
    (h : ds.get? id = some (.link l)) : ds.resetAll.get? id = some (.link .initial) := by
  unfold Devices.get? at h ⊢
  unfold Devices.resetAll
  rw [Array.getElem?_map]
  cases hd : ds.slots[id.index]? with
  | none =>
    rw [hd] at h
    cases h
  | some d =>
    rw [hd] at h
    cases h
    rfl

/-- After a reset two links are in the same state. -/
theorem sameLink_resetAll [Device δ] {c c' : Setting} {ds ds' : Devices (Part δ)}
    (hsize : ds.slots.size = c.names) (hsize' : ds'.slots.size = c'.names)
    (hlink : (c.link = none ∧ c'.link = none) ∨ ∃ id id' l l', c.link = some id ∧
      c'.link = some id' ∧ ds.get? id = some (.link l) ∧ ds'.get? id' = some (.link l')) :
    Devices.SameLink c c' ds.resetAll ds'.resetAll := by
  refine ⟨(Array.size_map ..).trans hsize, (Array.size_map ..).trans hsize', ?_⟩
  rcases hlink with hnone | ⟨id, id', l, l', hid, hid', hl, hl'⟩
  · exact .inl hnone
  · exact .inr ⟨id, id', .initial, hid, hid', get?_resetAll hl, get?_resetAll hl'⟩

theorem write_of_layered [Device δ] (h : (m.board s).memory.Layered) (a : UInt16) (v : UInt8) :
    m.write s a v = .ok (m.setBoard s
      { m.board s with memory := (m.board s).memory.store ⟨0⟩ a [v] }) := by
  rw [write_eq, h.write_eq]
  rfl

theorem read_of_layered [Device δ] (h : (m.board s).memory.Layered) (a : UInt16) :
    m.read s a = .ok ((m.board s).memory.view a, m) := by
  unfold read
  rw [h.read_eq]
  rfl

namespace Plain

/-- A plain machine is like itself. -/
theorem like (h : m.Plain k) : Like (m.setting k) (m.setting k) m m where
  hardware := by
    refine ⟨fun s => .refl _, fun s => ?_⟩
    have hplane : (m.hardware.plane s).Plain s (m.setting k) (m.board s).cpu.window :=
      ⟨h.layered s, h.dated s, h.ports s⟩
    refine ⟨hplane, hplane, .of_images fun _ _ => rfl, rfl, rfl, ?_⟩
    cases hid : m.linkId with
    | none => exact .inl ⟨hid, hid⟩
    | some id =>
      obtain ⟨l, hl⟩ := h.link id hid
      exact .inr ⟨id, id, l, hid, hid, hl, hl⟩
  scheduler := rfl
  config := rfl
  left := rfl
  right := rfl
  ramBuffers := ⟨h.ramBuffers, h.ramBuffers⟩

/-- Of two machines that show the same the first is plain. -/
theorem of_like {c c' : Setting} (h : Like c c' m m')
    (hweights : ∀ s, Scheduler.weightFits (m.scheduler.weights.get s)) : m.Plain c.changes where
  ramBuffers := h.ramBuffers.1
  layered s := (h.hardware.plane s).left.layered
  dated s := (h.hardware.plane s).left.dated
  ports s := by
    rw [h.left]
    exact (h.hardware.plane s).left.ports
  link id hid := by
    rcases (h.hardware.plane .main).link.link with ⟨hnone, -⟩ | ⟨id', -, l, hid', -, hl, -⟩
    · rw [h.left, hnone] at hid
      cases hid
    · rw [h.left, hid'] at hid
      cases hid
      exact ⟨l, hl⟩
  weights := hweights

theorem isSome_link? (h : m.Plain k) (hid : m.linkId.isSome) : m.link?.isSome := by
  obtain ⟨id, hid⟩ := Option.isSome_iff_exists.1 hid
  obtain ⟨l, hl⟩ := h.link id hid
  rw [link?_eq_some.2 ⟨id, hid, hl⟩]
  rfl

/-- A machine has the link if it knows a name for it. -/
theorem isSome_link?_eq (h : m.Plain k) : m.link?.isSome = m.linkId.isSome := by
  cases hid : m.linkId with
  | none =>
    unfold link?
    rw [hid]
    rfl
  | some id => exact h.isSome_link? (by rw [hid]; rfl)

theorem ramBuffer (h : m.Plain k) (s : Side) : m.ramBuffers.get s = ⟨0⟩ := by
  rw [h.ramBuffers]
  cases s <;> rfl

theorem hasRam (h : m.Plain k) : m.HasRam := fun s => by
  rw [h.ramBuffer s]
  exact (h.layered s).ram

/-- The link does not have the name of a device that is still to come. -/
theorem ne_link_of_size (h : m.Plain k) :
    m.linkId ≠ some ⟨m.hardware.devices.slots.size⟩ := by
  intro hid
  obtain ⟨l, hl⟩ := h.link _ hid
  exact absurd (Devices.index_lt_of_get? hl) (lt_irrefl _)

/-! #### Changes of a board -/

/-- A board has changed, with no more than `k'` changes of its mapping so far. -/
theorem setBoard (h : m.Plain k) (hk : k ≤ k') {b : Board} (hlayered : b.memory.Layered)
    (hdated : MemoryMap.Dated k' b.memory b.cpu.window) (hports : b.ports = (m.board s).ports) :
    (m.setBoard s b).Plain k' where
  ramBuffers := h.ramBuffers
  layered t := by
    rw [board_setBoard]
    split_ifs
    · exact hlayered
    · exact h.layered t
  dated t := by
    rw [board_setBoard]
    split_ifs
    · exact hdated
    · exact (h.dated t).mono hk
  ports t := by
    rw [board_setBoard]
    split_ifs with hts
    · subst hts
      exact hports.trans (h.ports t)
    · exact h.ports t
  link := h.link
  weights := h.weights

/-- A processor has changed, which may have lost its window. -/
theorem updateCpu (h : m.Plain k) {f : Cpu → Cpu}
    (hf : ∀ u, (f u).window = u.window ∨ (f u).window = none) : (m.updateCpu s f).Plain k := by
  rw [updateCpu_eq]
  refine h.setBoard le_rfl (h.layered s) ?_ rfl
  show MemoryMap.Dated k _ (f (m.board s).cpu).window
  rcases hf (m.board s).cpu with hsame | hnone
  · rw [hsame]
    exact h.dated s
  · rw [hnone]
    exact (h.dated s).none

theorem withMemory {α : Type} (h : m.Plain k) (hk : k ≤ k') {f : MemoryMap → α × MemoryMap}
    (hlayered : (f (m.board s).memory).2.Layered)
    (hdated : MemoryMap.Dated k' (f (m.board s).memory).2 (m.board s).cpu.window) :
    (m.withMemory s f).2.Plain k' := by
  rw [withMemory_snd]
  exact h.setBoard hk hlayered hdated rfl

theorem loadRam (h : m.Plain k) (a : UInt16) (bytes : List UInt8) :
    (m.loadRam s a bytes).Plain k := by
  unfold Machine.loadRam
  rw [h.ramBuffer s]
  exact h.withMemory le_rfl ((h.layered s).store a bytes)
    ((h.dated s).of_reading Array.size_modify rfl rfl)

theorem write (h : m.Plain k) (s : Side) (a : UInt16) (v : UInt8) :
    (m.setBoard s { m.board s with memory := (m.board s).memory.store ⟨0⟩ a [v] }).Plain k :=
  h.setBoard le_rfl ((h.layered s).store a [v])
    ((h.dated s).of_reading Array.size_modify rfl rfl) rfl

/-! #### Changes of the devices -/

theorem withDevices {α : Type} (h : m.Plain k) {f : Devices (Part δ) → α × Devices (Part δ)}
    (hf : ∀ id l, m.linkId = some id → m.hardware.devices.get? id = some (.link l) →
      ∃ l', (f m.hardware.devices).2.get? id = some (.link l')) : (m.withDevices f).2.Plain k := by
  rw [withDevices_snd]
  refine ⟨h.ramBuffers, h.layered, h.dated, h.ports, fun id hid => ?_, h.weights⟩
  obtain ⟨l, hl⟩ := h.link id hid
  exact hf id l hid hl

theorem addRom (h : m.Plain k) : (m.withDevices fun ds => ds.add Part.rom).2.Plain k := by
  refine h.withDevices fun id l _ hl => ⟨l, ?_⟩
  rw [Devices.get?_add_of_ne _ _ ?_, hl]
  rintro rfl
  have := Devices.index_lt_of_get? hl
  exact absurd this (lt_irrefl _)

theorem removeDevice (h : m.Plain k) {id : DeviceId} (hid : m.linkId ≠ some id) :
    (m.withDevices fun ds => ds.remove id).2.Plain k := by
  refine h.withDevices fun id' l hid' hl => ⟨l, ?_⟩
  rw [Devices.get?_remove_of_ne _ ?_, hl]
  rintro rfl
  exact hid hid'

/-! #### Images -/

/-- A new client changes nothing that is shown. -/
theorem connect (h : m.Plain k) (device : DeviceId) :
    (m.withMemory s fun memory => memory.connect device true).2.Plain k := by
  refine h.withMemory le_rfl ((h.layered s).connect device true) ?_
  unfold MemoryMap.connect
  cases (m.board s).memory.freeSlot? true with
  | none => exact h.dated s
  | some slot => exact (h.dated s).of_reading rfl rfl rfl

theorem mapRom (h : m.Plain k) {slot : Slot} (hslot : slot ≠ .last)
    (hclient : ((m.board s).memory.clients.get slot).isSome) (a : UInt16) (bytes : List UInt8) :
    (m.withMemory s fun memory => ((), memory.mapRom slot (RomImage.place a bytes))).2.Plain
      (k + 1) := by
  refine h.withMemory (Nat.le_succ k) ((h.layered s).mapRom hslot hclient
    (RomImage.whole_place a bytes)) ?_
  refine (h.dated s).remap ?_ rfl
  show ((m.board s).memory.buffers.push _).size ≤ k + 2
  rw [Array.size_push]
  exact Nat.succ_le_succ (h.dated s).buffers

theorem disconnect (h : m.Plain k) (slot : Slot) :
    (m.withMemory s fun memory => memory.disconnect slot).2.Plain
      (k + ((m.board s).memory.disconnect slot).1.toNat) := by
  refine h.withMemory (Nat.le_add_right k _) ((h.layered s).disconnect slot) ?_
  unfold MemoryMap.disconnect
  split_ifs
  · exact h.dated s
  · exact (h.dated s).remap ((h.dated s).buffers.trans (Nat.le_succ _)) rfl

theorem isSome_client_of_connect {memory : MemoryMap} {device : DeviceId} {priority : Bool}
    {slot : Slot} (h : (memory.connect device priority).1 = some slot) :
    ((memory.connect device priority).2.clients.get slot).isSome := by
  rw [(MemoryMap.connect_eq_some h).2.2, MemoryMap.get_set_client, if_pos rfl]
  rfl

theorem loadRom (h : m.Plain k) (s : Side) (a : UInt16) (bytes : List UInt8) :
    (m.loadRom s a bytes).2.Plain (k + (m.loadRom s a bytes).1.isSome.toNat) := by
  have hadded := h.addRom
  have hconnected := hadded.connect (s := s) ⟨m.hardware.devices.slots.size⟩
  rw [loadRom_eq]
  split_ifs
  · exact h
  · dsimp only
    cases hslot : ((m.withDevices fun ds => ds.add Part.rom).2.withMemory s fun memory =>
        memory.connect ⟨m.hardware.devices.slots.size⟩ true).1 with
    | none =>
      refine hconnected.removeDevice ?_
      rw [withMemory_snd, withDevices_snd]
      exact h.ne_link_of_size
    | some slot =>
      rw [withMemory_fst] at hslot
      have hfree := (MemoryMap.connect_eq_some hslot).1
      refine hconnected.mapRom ((hadded.layered s).ne_last_of_free hfree) ?_ a bytes
      rw [withMemory_snd, board_setBoard, if_pos rfl]
      exact isSome_client_of_connect hslot

theorem unloadRom (h : m.Plain k) {rom : RomHandle} (hrom : m.linkId ≠ some rom.device) :
    (m.unloadRom rom).Plain (k + ((m.board rom.side).memory.disconnect rom.slot).1.toNat) := by
  refine (h.disconnect (s := rom.side) rom.slot).removeDevice ?_
  rw [withMemory_snd]
  exact hrom

/-! #### Whole machines -/

section Whole

variable [Device δ]

theorem execute (h : m.Plain k) (hk : k < UInt32.size) {budget : UInt32} {n : UInt64}
    (he : m.execute budget = .ok (n, m')) :
    m'.Plain k ∧ m'.setting k = m.setting k ∧ m'.config = m.config := by
  obtain ⟨⟨n', m''⟩, he', -, hlike⟩ := (h.like.execute hk hk budget).exists_eq_ok he
  rw [he] at he'
  cases he'
  have hweights : ∀ s, Scheduler.weightFits (m'.scheduler.weights.get s) := by
    rw [execute_eq] at he
    obtain ⟨⟨n', scheduler, hardware⟩, hr, he⟩ := Fault.map_eq_ok he
    cases he
    unfold runs at hr
    split_ifs at hr
    · rw [show scheduler.weights = _ from Scheduler.execMain_weights hr]
      exact h.weights
    · rw [show scheduler.weights = _ from Scheduler.execBoth_weights hr]
      exact Scheduler.weightFits_ratio _
  refine ⟨of_like hlike hweights, ?_, ?_⟩
  · have hnames := (hlike.hardware.plane .main).link.left
    unfold Machine.setting
    rw [hlike.left]
    exact congrArg (Setting.mk _ · k) hnames
  · rw [execute_eq] at he
    obtain ⟨r, -, he⟩ := Fault.map_eq_ok he
    cases he
    rfl

theorem reset (h : m.Plain k) : m.reset.Plain k where
  ramBuffers := h.ramBuffers
  layered s := by
    have := h.layered s
    cases s <;> exact this
  dated s := by
    have := (h.dated s).none
    cases s <;> exact this
  ports s := by
    have := h.ports s
    cases s <;> exact this
  link id hid := by
    obtain ⟨l, hl⟩ := h.link id hid
    exact ⟨_, get?_resetAll hl⟩
  weights := h.weights

theorem attachLink (h : m.Plain k) : m.attachLink.2.Plain k := by
  cases hid : m.linkId with
  | some id =>
    rw [attachLink_of_some hid]
    exact h
  | none =>
    have hget := Devices.get?_add_self m.hardware.devices (.link .initial)
    rw [attachLink_of_none hid]
    refine ⟨h.ramBuffers, fun s => ?_, fun s => ?_, fun s => ?_, fun id' hid' => ?_, h.weights⟩
    · have := h.layered s
      cases s <;> exact this
    · have := h.dated s
      cases s <;> exact this
    · have hports : ∀ s, (m.board s).ports = .empty := fun s => by rw [h.ports s, hid, Ports.linked]
      cases s
      · exact (congrArg (fun p : Ports => (p.connect _ _ _).2) (hports .main)).trans
          (Ports.connect_link hget .main)
      · exact (congrArg (fun p : Ports => (p.connect _ _ _).2) (hports .sub)).trans
          (Ports.connect_link hget .sub)
    · cases hid'
      exact ⟨_, hget⟩

end Whole

/-- Reading a snapshot back adds no device. -/
theorem size_restored (h : m.Plain k) {p : Snapshot} (hp : m.refusal? p = none) (cpus : PerSide Cpu)
    (scheduler : Scheduler) :
    (m.restored p cpus scheduler).hardware.devices.slots.size = m.hardware.devices.slots.size := by
  obtain ⟨-, -, hsome⟩ := refusal?_eq_none hp
  unfold restored
  cases hl : p.link with
  | none => rfl
  | some l =>
    rw [hl, Option.isSome_some, eq_comm, Option.isSome_iff_exists] at hsome
    obtain ⟨id, hid⟩ := hsome
    obtain ⟨l₀, hget⟩ := h.link id hid
    dsimp only [Option.elim]
    generalize hm : Machine.mk _ _ _ _ _ = m₁
    obtain ⟨devices, heq, hdevices⟩ := setLink_eq m₁ l
    rw [heq, hdevices id l₀ (by rw [← hm]; exact hid) (by rw [← hm]; exact hget), ← hm]
    exact Devices.size_put _ _ _

/-- A plain machine that reads a snapshot back stays plain. -/
theorem restored (h : m.Plain k) {p : Snapshot} {cpus : PerSide Cpu} {scheduler : Scheduler}
    (hp : m.refusal? p = none) (hcpus : ∀ s, Cpu.load (p.cpus.get s) = .ok (cpus.get s))
    (hscheduler : Scheduler.load p.scheduler = .ok scheduler) :
    (m.restored p cpus scheduler).Plain k := by
  obtain ⟨-, hscheduler', hbuffers, hid⟩ := fields_restored m p cpus scheduler
  obtain ⟨-, hsize, hsome⟩ := refusal?_eq_none hp
  have hboard := board_restored m p cpus scheduler
  refine ⟨hbuffers.trans h.ramBuffers, fun s => ?_, fun s => ?_, fun s => ?_, fun id hid' => ?_,
    fun s => ?_⟩
  · rw [hboard, h.ramBuffer s]
    exact (h.layered s).replaceBuffer (hsize s)
  · rw [hboard, ← Cpu.settled_of_load (hcpus s)]
    exact (h.dated s).none.of_reading Array.size_setIfInBounds rfl rfl
  · rw [hboard, hid]
    exact h.ports s
  · have hlink : (m.restored p cpus scheduler).link? = p.link :=
      link?_restored h.isSome_link? hp cpus scheduler
    rw [hid] at hid'
    rw [hid', Option.isSome_some, Option.isSome_iff_exists] at hsome
    obtain ⟨l, hl⟩ := hsome
    obtain ⟨id', hid'', hget⟩ := link?_eq_some.1 (hlink.trans hl)
    rw [hid, hid'] at hid''
    cases hid''
    exact ⟨l, hget⟩
  · rw [hscheduler']
    exact Scheduler.weightFits_of_load hscheduler s

end Plain
end TandemZ80.Machine
