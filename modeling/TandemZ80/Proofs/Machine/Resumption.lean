import TandemZ80.Proofs.Machine.Reach

/-!
# Going on from a snapshot

A machine that reads the snapshot of another one back goes on like that one, if both were built
alike: whatever is done with them from then on, they answer the same and show the same.

* `Machine.Like.perform`, machines that show the same stay so;
* `Machine.SameBuild`, machines with the same configuration, images and link;
* `Machine.restored_like`, and `Machine.resumes_alike`.
-/

namespace TandemZ80.Machine

variable {δ : Type}

/-! ### Machines that show the same -/

/-- What is done with a machine while it runs. -/
def Operation.drives : Operation δ → Bool
  | .execute _ | .reset | .setIntLine _ _ | .nmi _ | .read _ _ | .write _ _ _ => true
  | _ => false

variable {c c' : Setting} {m m' : Machine δ}

namespace Like

/-- One board of each has changed. -/
theorem setBoard (h : Like c c' m m') {s : Side} {b b' : Board} (hcpu : b.cpu.Agree b'.cpu)
    (hplane : Backplane.Like s c c' b.cpu.window b'.cpu.window
      ⟨b.memory, b.ports, m.hardware.devices⟩ ⟨b'.memory, b'.ports, m'.hardware.devices⟩) :
    Like c c' (m.setBoard s b) (m'.setBoard s b') :=
  ⟨h.hardware.settle hcpu hplane, h.scheduler, h.config, h.left, h.right, h.ramBuffers⟩

theorem updateCpu (h : Like c c' m m') (s : Side) {f : Cpu → Cpu}
    (hf : ∀ u v : Cpu, u.Agree v → (f u).Agree (f v)) (hwindow : ∀ u, (f u).window = u.window) :
    Like c c' (m.updateCpu s f) (m'.updateCpu s f) := by
  rw [updateCpu_eq, updateCpu_eq]
  refine h.setBoard (hf _ _ (h.hardware.cpu s)) ?_
  dsimp only
  rw [hwindow, hwindow]
  exact h.hardware.plane s

/-- Machines that show the same are written to. -/
theorem write (h : Like c c' m m') (s : Side) (a : UInt16) (v : UInt8) :
    Like c c'
      (m.setBoard s { m.board s with memory := (m.board s).memory.store ⟨0⟩ a [v] })
      (m'.setBoard s { m'.board s with memory := (m'.board s).memory.store ⟨0⟩ a [v] }) :=
  h.setBoard (h.hardware.cpu s) ((h.hardware.plane s).write a v)

theorem ram_eq (h : Like c c' m m') (s : Side) : m'.ram s = m.ram s :=
  ram_of_plane (h.hardware.plane s) h.ramBuffers.1 h.ramBuffers.2

theorem link?_eq (h : Like c c' m m') : m'.link? = m.link? :=
  link?_of_sameLink (h.hardware.plane .main).link h.left h.right

/-- Machines that show the same have the same snapshot. -/
theorem save_eq (h : Like c c' m m') : m'.save = m.save := by
  have hcpu : ∀ s, (m'.board s).cpu.save = (m.board s).cpu.save := fun s =>
    (Cpu.save_eq_iff.2 (h.hardware.cpu s)).symm
  have hcpus :
      m'.hardware.boards.map (fun b => b.cpu.save) = m.hardware.boards.map fun b => b.cpu.save :=
    congrArg₂ PerSide.mk (hcpu .main) (hcpu .sub)
  unfold save
  rw [hcpus, h.scheduler, h.ram_eq, h.ram_eq, h.link?_eq]

variable [Device δ]

theorem reset (h : Like c c' m m') : Like c c' m.reset m'.reset := by
  have hticks : ∀ s, (m'.cpu s).ticks = (m.cpu s).ticks := fun s => by
    have hsettled : (m'.cpu s).settled = (m.cpu s).settled := h.hardware.cpu s
    have hticks := congrArg Cpu.ticks hsettled
    exact hticks
  have hcpu : ∀ s, (m.cpu s).reset.Agree (m'.cpu s).reset := fun s => by
    unfold Cpu.reset
    rw [hticks s]
    exact .refl _
  have hplane : ∀ s, Backplane.Like s c c' none none
      ⟨(m.board s).memory, (m.board s).ports, m.hardware.devices.resetAll⟩
      ⟨(m'.board s).memory, (m'.board s).ports, m'.hardware.devices.resetAll⟩ := by
    intro s
    obtain ⟨hleft, hright, hmemory, hlink⟩ := h.hardware.plane s
    refine ⟨⟨hleft.layered, hleft.dated.none, hleft.ports⟩,
      ⟨hright.layered, hright.dated.none, hright.ports⟩, hmemory, ?_⟩
    refine sameLink_resetAll hlink.left hlink.right (hlink.link.imp_right ?_)
    rintro ⟨id, id', l, hid, hid', hl, hl'⟩
    exact ⟨id, id', l, l, hid, hid', hl, hl'⟩
  refine ⟨⟨fun s => ?_, fun s => ?_⟩, ?_, h.config, h.left, h.right, h.ramBuffers⟩
  · cases s
    · exact hcpu .main
    · exact hcpu .sub
  · cases s
    · exact hplane .main
    · exact hplane .sub
  · show m'.scheduler.reset = m.scheduler.reset
    rw [h.scheduler]

/-- What is done with machines that show the same has the same answer, and they go on showing the
same. -/
theorem perform (h : Like c c' m m') (hc : c.changes < UInt32.size) (hc' : c'.changes < UInt32.size)
    {op : Operation δ} (hop : op.drives) (images images' : List (Option RomHandle)) :
    Fault.Alike (System.Answers fun t t' => Like c c' t.machine t'.machine)
      (system.perform op ⟨m, images⟩) (system.perform op ⟨m', images'⟩) := by
  cases op with
  | execute budget =>
    refine (h.execute hc hc' budget).map ?_
    rintro ⟨n, m⟩ ⟨n', m'⟩ ⟨hn, hm⟩
    exact ⟨congrArg Answer.moved hn, hm⟩
  | reset => exact .ok ⟨rfl, h.reset⟩
  | setIntLine s level =>
    refine .ok ⟨rfl, h.updateCpu (f := (·.setIntLine level)) s (fun u v huv => ?_) fun _ => rfl⟩
    exact congrArg (Cpu.setIntLine · level) huv
  | nmi s =>
    refine .ok ⟨rfl, h.updateCpu s (fun u v huv => ?_) fun _ => rfl⟩
    exact congrArg Cpu.nmi huv
  | read s a =>
    obtain ⟨hleft, hright, hmemory, -⟩ := h.hardware.plane s
    have hread : system.perform (.read s a) ⟨m, images⟩ =
        .ok (.byte ((m.board s).memory.view a), ⟨m, images⟩) := by
      show _ <$> m.read s a = _
      rw [read_of_layered hleft.layered]
      rfl
    have hread' : system.perform (.read s a) ⟨m', images'⟩ =
        .ok (.byte ((m'.board s).memory.view a), ⟨m', images'⟩) := by
      show _ <$> m'.read s a = _
      rw [read_of_layered hright.layered]
      rfl
    rw [hread, hread']
    exact .ok ⟨congrArg Answer.byte (hmemory.view_eq a).symm, h⟩
  | write s a v =>
    show Fault.Alike _ (_ <$> m.write s a v) (_ <$> m'.write s a v)
    rw [write_of_layered (h.hardware.plane s).left.layered,
      write_of_layered (h.hardware.plane s).right.layered]
    exact .ok ⟨rfl, h.write s a v⟩
  | _ => cases hop

end Like

/-! ### Reading the snapshot of another machine -/

/-- Machines with the same configuration, the same images in the same slots, and the link attached
to both or to neither. -/
structure SameBuild (m m' : Machine δ) : Prop where
  config : m'.config = m.config
  images : ∀ s t a, t ≠ Slot.last → (m'.board s).memory.image? t a = (m.board s).memory.image? t a
  link : m'.linkId.isSome = m.linkId.isSome

variable {k k' : ℕ}

/-- A machine as its snapshot has its processors. -/
def settledCpus (m : Machine δ) : PerSide Cpu := ⟨(m.cpu .main).settled, (m.cpu .sub).settled⟩

theorem get_settledCpus (m : Machine δ) (s : Side) : m.settledCpus.get s = (m.cpu s).settled := by
  cases s <;> rfl

theorem load_settledCpus (m : Machine δ) (s : Side) :
    Cpu.load (m.save.cpus.get s) = .ok (m.settledCpus.get s) := by
  cases s <;> exact Cpu.load_save _

namespace Plain

theorem get_ram_save (m : Machine δ) (s : Side) : m.save.ram.get s = m.ram s := by
  cases s <;> rfl

/-- Plain machines of the same build take over each other's snapshots. -/
theorem refusal?_save (h : m.Plain k) (hb : SameBuild m m') : m'.refusal? m.save = none := by
  refine refusal?_of_fits rfl (fun s => ?_) ?_
  · rw [get_ram_save, size_ram, h.hasRam s]
  · rw [hb.link]
    exact h.isSome_link?_eq

theorem load_save (h : m.Plain k) (h' : m'.Plain k') (hb : SameBuild m m') :
    m'.load m.save = .ok (.ok (), m'.restored m.save m.settledCpus m.scheduler) :=
  load_of_fits h'.hasRam (h.refusal?_save hb) m.load_settledCpus (Scheduler.load_save h.weights)

/-- RAM comes from the snapshot, images are there already. -/
theorem image?_restored (h : m.Plain k) (h' : m'.Plain k') (hb : SameBuild m m') (s : Side)
    (t : Slot) (a : UInt16) :
    ((m'.restored m.save m.settledCpus m.scheduler).board s).memory.image? t a =
      (m.board s).memory.image? t a := by
  rw [board_restored, h'.ramBuffer s, get_ram_save]
  -- Below all images lies RAM, and an image never lies in the buffer that has been replaced.
  by_cases ht : t = .last
  · subst ht
    obtain ⟨bytes, hbytes, hsize⟩ := (h.layered s).bytes?_ram
    have hram : m.ram s = bytes := by
      unfold ram
      rw [h.ramBuffer s, hbytes]
      rfl
    have hpos : 0 < (m'.board s).memory.bufferSize ⟨0⟩ := by
      rw [(h'.layered s).ram]
      decide
    rw [hram, (h.layered s).image?_last, ((h'.layered s).replaceBuffer hsize).image?_last, hbytes,
      MemoryMap.bytes?_replaceBuffer hpos]
  · rw [← hb.images s t a ht]
    refine (h'.layered s).image?_congr ht rfl fun b hpos _ => ?_
    unfold MemoryMap.bytes? MemoryMap.replaceBuffer
    rw [Array.getElem?_setIfInBounds_ne hpos.ne]

/-- The latches of the link come from the snapshot. -/
theorem sameLink_restored (h : m.Plain k) (h' : m'.Plain k') (hb : SameBuild m m') :
    Devices.SameLink (m.setting k) (m'.setting k') m.hardware.devices
      (m'.restored m.save m.settledCpus m.scheduler).hardware.devices := by
  have hrefusal := h.refusal?_save hb
  refine ⟨rfl, h'.size_restored hrefusal m.settledCpus m.scheduler, ?_⟩
  cases hid : m.linkId with
  | none =>
    refine .inl ⟨hid, Option.not_isSome_iff_eq_none.1 ?_⟩
    show ¬m'.linkId.isSome
    rw [hb.link, hid]
    simp
  | some id =>
    obtain ⟨l, hl⟩ := h.link id hid
    have hrestored : (m'.restored m.save m.settledCpus m.scheduler).link? = some l :=
      (link?_restored h'.isSome_link? hrefusal m.settledCpus m.scheduler).trans
        (link?_eq_some.2 ⟨id, hid, hl⟩)
    obtain ⟨id', hid', hl'⟩ := link?_eq_some.1 hrestored
    rw [(fields_restored m' m.save m.settledCpus m.scheduler).2.2.2] at hid'
    exact .inr ⟨id, id', l, hid, hid', hl, hl'⟩

/-- The machine that has read the snapshot shows what the other one shows. -/
theorem restored_like (h : m.Plain k) (h' : m'.Plain k') (hb : SameBuild m m') :
    Like (m.setting k) (m'.setting k') m (m'.restored m.save m.settledCpus m.scheduler) := by
  have hrestored :=
    h'.restored (h.refusal?_save hb) m.load_settledCpus (Scheduler.load_save h.weights)
  have himages := h.image?_restored h' hb
  have hlink := h.sameLink_restored h' hb
  obtain ⟨hconfig, hscheduler, hbuffers, hid⟩ := fields_restored m' m.save m.settledCpus m.scheduler
  have hboard := board_restored m' m.save m.settledCpus m.scheduler
  generalize m'.restored m.save m.settledCpus m.scheduler = m₁ at *
  refine ⟨⟨fun s => ?_, fun s => ⟨?_, ?_, .of_images (himages s), hlink⟩⟩, hscheduler,
    hconfig.trans hb.config, rfl, hid, h.ramBuffers, hrestored.ramBuffers⟩
  · show (m.cpu s).Agree (m₁.board s).cpu
    rw [hboard, get_settledCpus]
    exact Cpu.settled_of_load (Cpu.load_save _)
  · exact (h.like.hardware.plane s).left
  · exact ⟨hrestored.layered s, hrestored.dated s, (hrestored.ports s).trans (by rw [hid]; rfl)⟩

end Plain

/-- A machine reads back the snapshot of another machine of the same build, and is not told from
that one any more: it has the same snapshot, and answers whatever is done from then on with the same
values and the same snapshots. The buffers are bounded because generations of 32 bits have to last
for all images that were ever mapped; every image takes a buffer of a page or more, so that this
many would fill two terabytes. -/
theorem resumes_alike [Device δ] (hm : m.PlainlyReached) (hm' : m'.PlainlyReached)
    (hbuffers : m.bufferCount ≤ 2 ^ 31) (hbuffers' : m'.bufferCount ≤ 2 ^ 31)
    (hb : SameBuild m m') :
    ∃ m₁, m'.load m.save = .ok (.ok (), m₁) ∧ m₁.save = m.save ∧
      ∀ ops, (∀ op ∈ ops, Operation.drives op) → ∀ images images',
        system.trace ops ⟨m, images⟩ = system.trace ops ⟨m₁, images'⟩ := by
  obtain ⟨k, hk, hplain⟩ := hm.exists_plain hbuffers
  obtain ⟨k', hk', hplain'⟩ := hm'.exists_plain hbuffers'
  have hlike := hplain.restored_like hplain' hb
  refine ⟨_, hplain.load_save hplain' hb, hlike.save_eq, fun ops hops images images' => ?_⟩
  exact System.trace_eq (R := fun t t' => Like (m.setting k) (m'.setting k') t.machine t'.machine)
    (P := (Operation.drives ·))
    (fun op hop t t' ht => ht.perform hk hk' hop t.images t'.images)
    (fun t t' ht => ht.save_eq.symm) hops hlike

/-- Two machines with an image and the link, one with an interrupt requested, the other one
reset. -/
theorem interrupted_resumes_alike :
    ∃ m m' : Machine ParallelLink, m.PlainlyReached ∧ m'.PlainlyReached ∧
      m.bufferCount ≤ 2 ^ 31 ∧ m'.bufferCount ≤ 2 ^ 31 ∧ SameBuild m m' ∧
      (m.cpu .main).nmiPending = true ∧ (m'.cpu .main).nmiPending = false ∧
      ∃ m₁, m'.load m.save = .ok (.ok (), m₁) ∧ m₁.save = m.save ∧
        ∀ ops, (∀ op ∈ ops, Operation.drives op) → ∀ images images',
          system.trace ops ⟨m, images⟩ = system.trace ops ⟨m₁, images'⟩ := by
  obtain ⟨m₀, hnew⟩ : ∃ m₀ : Machine ParallelLink, new .standard = .ok m₀ := ⟨_, rfl⟩
  let build : List (Operation ParallelLink) := [.loadRom .main 0 [0x76], .attachLink]
  let built := (m₀.loadRom .main 0 [0x76]).2.attachLink.2
  have hinterrupted : (built.updateCpu .main Cpu.nmi).PlainlyReached :=
    ⟨.standard, m₀, build ++ [.nmi .main], _, hnew, by simp [build, Operation.plain],
      rfl⟩
  have hreset : built.reset.PlainlyReached :=
    ⟨.standard, m₀, build ++ [.reset], _, hnew, by simp [build, Operation.plain],
      rfl⟩
  have hbuild : SameBuild (built.updateCpu .main Cpu.nmi) built.reset := by
    rw [updateCpu_eq]
    refine ⟨rfl, fun s t a _ => ?_, rfl⟩
    cases s <;> rfl
  have hpending : ((built.updateCpu .main Cpu.nmi).cpu .main).nmiPending = true := by
    rw [updateCpu_eq, cpu, board_setBoard]
    rfl
  have hbuilt : built.bufferCount ≤ 2 ^ 31 := by
    have hthree : built.bufferCount = 3 := by
      show (m₀.loadRom .main 0 [0x76]).2.attachLink.2.bufferCount = 3
      rw [new_eq_ok hnew]
      rfl
    rw [hthree]
    decide
  have hbuffers : (built.updateCpu .main Cpu.nmi).bufferCount ≤ 2 ^ 31 := by
    rw [updateCpu_eq]
    exact hbuilt
  have hbuffers' : built.reset.bufferCount ≤ 2 ^ 31 := hbuilt
  exact ⟨_, _, hinterrupted, hreset, hbuffers, hbuffers', hbuild, hpending, rfl,
    resumes_alike hinterrupted hreset hbuffers hbuffers' hbuild⟩

end TandemZ80.Machine
