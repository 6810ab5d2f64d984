import TandemZ80.Machine.Rom
import TandemZ80.Proofs.Machine.Kept
import TandemZ80.Proofs.Memory.Sizes

/-!
# The RAM of a machine

The RAM of both processors is in place from the beginning, and whatever is done to a machine leaves
it there.

* `Machine.HasRam`, and one lemma for each change of a machine;
* `Machine.SameMemory`, changes that have nothing to do with memory;
* `Machine.HasRam.execute`, a run leaves the RAM in place.
-/

namespace TandemZ80.Machine

variable {δ : Type}

/-- Both processors have their RAM. -/
def HasRam (m : Machine δ) : Prop :=
  ∀ s, (m.board s).memory.bufferSize (m.ramBuffers.get s) = ramSize

variable {m m' : Machine δ}

theorem size_ram (m : Machine δ) (s : Side) :
    (m.ram s).size = (m.board s).memory.bufferSize (m.ramBuffers.get s) := by
  unfold ram MemoryMap.bufferSize
  cases (m.board s).memory.bytes? (m.ramBuffers.get s) <;> rfl

theorem HasRam.of_retains (h : m.HasRam) (hr : m'.ramBuffers = m.ramBuffers)
    (hm : ∀ s, (m.board s).memory.Retains (m'.board s).memory) : m'.HasRam := by
  intro s
  rw [hr, hm s _ (by rw [h s]; decide), h s]

/-- RAM is where it was, and both memory maps are as they were. -/
structure SameMemory (m m' : Machine δ) : Prop where
  ramBuffers : m'.ramBuffers = m.ramBuffers
  memory : ∀ s, (m'.board s).memory = (m.board s).memory

namespace SameMemory

theorem setBoard {s : Side} {b : Board} (h : b.memory = (m.board s).memory) :
    SameMemory m (m.setBoard s b) := by
  refine ⟨rfl, fun t => ?_⟩
  rw [board_setBoard]
  split_ifs with hts
  · rw [hts, h]
  · rfl

theorem updateCpu (m : Machine δ) (s : Side) (f : Cpu → Cpu) : SameMemory m (m.updateCpu s f) := by
  rw [updateCpu_eq]
  exact .setBoard rfl

theorem attachLink [Device δ] (m : Machine δ) : SameMemory m m.attachLink.2 := by
  cases hid : m.linkId with
  | none =>
    rw [attachLink_of_none hid]
    exact ⟨rfl, fun s => by cases s <;> rfl⟩
  | some id =>
    rw [attachLink_of_some hid]
    exact ⟨rfl, fun _ => rfl⟩

end SameMemory

theorem HasRam.of_sameMemory (h : m.HasRam) (hm : SameMemory m m') : m'.HasRam :=
  h.of_retains hm.ramBuffers fun s => hm.memory s ▸ .refl _

theorem HasRam.updateCpu (h : m.HasRam) (s : Side) (f : Cpu → Cpu) : (m.updateCpu s f).HasRam :=
  h.of_sameMemory (.updateCpu m s f)

theorem HasRam.setBoard (h : m.HasRam) {s : Side} {b : Board}
    (hb : (m.board s).memory.Retains b.memory) : (m.setBoard s b).HasRam := by
  refine h.of_retains rfl fun t => ?_
  rw [board_setBoard]
  split_ifs with hts
  · exact hts ▸ hb
  · exact .refl _

theorem HasRam.withMemory {α : Type} (h : m.HasRam) {s : Side} {f : MemoryMap → α × MemoryMap}
    (hf : ∀ memory : MemoryMap, memory.Retains (f memory).2) : (m.withMemory s f).2.HasRam := by
  rw [withMemory_snd]
  exact h.setBoard (hf _)

theorem HasRam.withDevices {α : Type} (h : m.HasRam)
    (f : Devices (Part δ) → α × Devices (Part δ)) : (m.withDevices f).2.HasRam := by
  rw [withDevices_snd]
  exact h

theorem bufferSize_ofRam (device : DeviceId) :
    (MemoryMap.ofRam device).bufferSize ⟨0⟩ = ramSize := by
  show (Array.replicate ramSize (0 : UInt8)).size = ramSize
  exact Array.size_replicate

theorem hasRam_new {config : Config} (h : new config = .ok m) : m.HasRam := by
  rw [new_eq_ok h]
  intro s
  cases s
  · exact bufferSize_ofRam _
  · exact bufferSize_ofRam _

theorem HasRam.loadRam (h : m.HasRam) (s : Side) (a : UInt16) (bytes : List UInt8) :
    (m.loadRam s a bytes).HasRam := by
  unfold Machine.loadRam
  exact h.withMemory fun memory => MemoryMap.retains_store memory _ a bytes

theorem retains_mapRom (memory : MemoryMap) (slot : Slot) (image : RomImage) :
    memory.Retains (memory.mapRom slot image) :=
  (MemoryMap.retains_addBuffer memory image.bytes).trans (.of_buffers rfl)

theorem HasRam.loadRom (h : m.HasRam) (s : Side) (a : UInt16) (bytes : List UInt8) :
    (m.loadRom s a bytes).2.HasRam := by
  unfold Machine.loadRom
  split_ifs
  · exact h
  · have hcon :=
      fun device : DeviceId => (h.withDevices fun ds => ds.add Part.rom).withMemory (s := s)
      fun memory => MemoryMap.retains_connect memory device true
    dsimp only
    split <;> dsimp only
    · exact (hcon _).withDevices _
    · exact (hcon _).withMemory fun memory => retains_mapRom memory _ _

theorem HasRam.unloadRom (h : m.HasRam) (rom : RomHandle) : (m.unloadRom rom).HasRam := by
  unfold Machine.unloadRom
  exact .withDevices (.withMemory h fun memory => MemoryMap.retains_disconnect memory _) _

variable [Device δ]

/-- A run leaves the RAM in place. -/
theorem HasRam.execute (h : m.HasRam) {budget : UInt32} {n : UInt64}
    (he : m.execute budget = .ok (n, m')) : m'.HasRam := by
  obtain ⟨hbuffers, hretains⟩ :=
    execute_keeps (I := fun s memory => (m.board s).memory.Retains memory)
    (fun s memory memory' a v ds ds' hm hw => hm.trans (MemoryMap.retains_write hw))
    (fun s => .refl _) he
  exact h.of_retains hbuffers hretains

theorem HasRam.write (h : m.HasRam) {s : Side} {a : UInt16} {v : UInt8}
    (hw : m.write s a v = .ok m') : m'.HasRam := by
  rw [write_eq] at hw
  obtain ⟨⟨memory, devices⟩, hmem, rfl⟩ := Fault.map_eq_ok hw
  have hboard : (m.setBoard s { m.board s with memory }).HasRam :=
    h.setBoard (MemoryMap.retains_write hmem)
  exact hboard

end TandemZ80.Machine
