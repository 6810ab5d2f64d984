import TandemZ80.Bus.Backplane
import TandemZ80.Proofs.Cpu.Congruence
import TandemZ80.Proofs.Machine.Layers
import TandemZ80.Proofs.Memory.Fresh

/-!
# Windows that are stale

A window is taken for fresh if its generation is that of the map. Generations are counted in 32
bits, so this holds good as long as the mapping has not been changed so often that the count comes
round.

* `MemoryMap.Dated`, a map after so many changes of its mapping, and a window issued on the way;
* `MemoryMap.relay_fetch`: fetching, through such a window or past it, gives the byte that is shown.
-/

namespace TandemZ80.MemoryMap

variable {m m' : MemoryMap} {o : Option Window} {w : Window} {k : ℕ} {a : UInt16}

/-- A map whose mapping has been changed up to `k` times, and a window that was issued before some
of these changes. If it was before none, the window still lies on what is shown. -/
structure Dated (k : ℕ) (m : MemoryMap) (o : Option Window) : Prop where
  buffers : m.buffers.size ≤ k + 1
  window : ∃ j ≤ k, m.generation = UInt32.ofNat (j + 1) ∧
    ∀ w ∈ o, ∃ i ≤ j, w.generation = UInt32.ofNat (i + 1) ∧ (i = j → m.Lays w)

namespace Dated

theorem none (h : Dated k m o) : Dated k m none := by
  obtain ⟨hbuffers, j, hj, hgeneration, -⟩ := h
  exact ⟨hbuffers, j, hj, hgeneration, fun w hw => by cases hw⟩

theorem mono (h : Dated k m o) {k' : ℕ} (hk : k ≤ k') : Dated k' m o := by
  obtain ⟨hbuffers, j, hj, hgeneration, hwindow⟩ := h
  exact ⟨by omega, j, hj.trans hk, hgeneration, hwindow⟩

/-- A map of any age, before a window is issued. -/
theorem of_size (h : m.buffers.size ≤ UInt32.size) : Dated (UInt32.size - 1) m .none := by
  refine ⟨by omega, (m.generation.toNat + (UInt32.size - 1)) % UInt32.size, ?_, ?_,
    fun w hw => by cases hw⟩
  · have := Nat.mod_lt (m.generation.toNat + (UInt32.size - 1)) (y := UInt32.size) (by decide)
    omega
  · have hlt := m.generation.toNat_lt
    rw [← UInt32.toNat_inj, UInt32.toNat_ofNat']
    simp only [UInt32.size]
    omega

/-- As long as the mapping stays, windows stay as they are. -/
theorem of_reading (h : Dated k m o) (hbuffers : m'.buffers.size = m.buffers.size)
    (hreading : m'.reading = m.reading) (hgeneration : m'.generation = m.generation) :
    Dated k m' o := by
  obtain ⟨hsize, j, hj, hdate, hwindow⟩ := h
  refine ⟨hbuffers.trans_le hsize, j, hj, hgeneration.trans hdate, fun w hw => ?_⟩
  obtain ⟨i, hi, hwdate, hlays⟩ := hwindow w hw
  exact ⟨i, hi, hwdate, fun hij => (hlays hij).of_reading hreading⟩

/-- A change of the mapping makes every window stale. -/
theorem remap (h : Dated k m o) (hbuffers : m'.buffers.size ≤ k + 2)
    (hgeneration : m'.generation = m.generation + 1) : Dated (k + 1) m' o := by
  obtain ⟨-, j, hj, hdate, hwindow⟩ := h
  refine ⟨hbuffers, j + 1, by omega, ?_, fun w hw => ?_⟩
  · rw [hgeneration, hdate, UInt32.ofNat_add (j + 1) 1]
    rfl
  · obtain ⟨i, hi, hwdate, -⟩ := hwindow w hw
    exact ⟨i, by omega, hwdate, fun hij => by omega⟩

/-- A window with the generation of the map is not stale. -/
theorem lays (h : Dated k m (some w)) (hk : k < UInt32.size) (hw : w.generation = m.generation) :
    m.Lays w := by
  obtain ⟨-, j, hj, hgeneration, hwindow⟩ := h
  obtain ⟨i, hi, hdate, hlays⟩ := hwindow w rfl
  refine hlays ?_
  rw [hdate, hgeneration, ← UInt32.toNat_inj, UInt32.toNat_ofNat', UInt32.toNat_ofNat'] at hw
  simp only [UInt32.size] at hk
  omega

end Dated

namespace Layered

/-- A window that is issued lies on what is shown. -/
theorem window_eq (h : m.Layered) (hd : Dated k m o) (hk : k < UInt32.size) (a : UInt16) :
    ∃ w, m.window a = some w ∧ Dated k m (some w) := by
  obtain ⟨b, offset, hp, hoffset, hbyte⟩ := h.page_read a
  obtain ⟨w, hw⟩ : ∃ w, m.window a = some w := ⟨_, by rw [window, hp]⟩
  obtain ⟨hbuffers, j, hj, hgeneration, -⟩ := hd
  have hlays : m.Lays w := by
    refine lays_window hw fun b' offset' hp' => ?_
    rw [hp] at hp'
    cases hp'
    obtain ⟨s, hs⟩ := h.sound.exists_held hp (by simp)
    have hb : b.index < m.buffers.size := index_lt (h.bufferSize_pos hs)
    exact ⟨by omega, hoffset.trans (by decide)⟩
  refine ⟨w, hw, hbuffers, j, hj, hgeneration, fun w' hw' => ?_⟩
  obtain rfl := Option.some.inj hw'
  exact ⟨j, le_rfl, (window_generation hw).trans hgeneration, fun _ => hlays⟩

/-- What is read through a window is what is shown, or the window is stale. -/
theorem readWindow_eq (h : m.Layered) (hd : Dated k m (some w)) (hk : k < UInt32.size)
    (ha : w.contains a = true) : m.readWindow w a = some (m.view a) ∨ m.readWindow w a = none := by
  by_cases hw : w.generation = m.generation
  · obtain ⟨b, offset, v, hp, hv, hread⟩ :=
      (hd.lays hk hw).readWindow h.sound h.within hw ha
    obtain ⟨b', offset', hp', -, hbyte⟩ := h.page_read a
    rw [hp] at hp'
    cases hp'
    rw [hread] at hbyte
    rw [hv, Except.ok.inj hbyte]
    exact .inl rfl
  · rw [readWindow, if_neg hw]
    exact .inr rfl

section Fetch

variable {δ : Type} [Device δ] {b : Backplane δ}

theorem serve_read (h : b.memory.Layered) (a : UInt16) :
    Backplane.serve (.read a) b = .done (b.memory.view a, b) := by
  obtain ⟨memory, ports, devices⟩ := b
  unfold Backplane.serve Backplane.reading
  dsimp only
  rw [h.read_eq]

theorem relay_lookUp (h : b.memory.Layered) (hd : Dated k b.memory o) (hk : k < UInt32.size)
    (a : UInt16) : ∃ w, (Bus.lookUp a).relay Backplane.serve b = .done ((b.memory.view a, w), b) ∧
      Dated k b.memory w := by
  obtain ⟨w, hw, hdated⟩ := h.window_eq hd hk a
  refine ⟨some w, ?_, hdated⟩
  have hissue : Backplane.serve (.window a) b = .done (some w, b) := by rw [Backplane.serve, hw]
  rw [Bus.relay_lookUp hissue, h.serve_read]
  rfl

theorem relay_fetch (h : b.memory.Layered) (hd : Dated k b.memory o) (hk : k < UInt32.size)
    (a : UInt16) : ∃ w, (Bus.fetch o a).relay Backplane.serve b = .done ((b.memory.view a, w), b) ∧
      Dated k b.memory w := by
  cases o with
  | none => exact h.relay_lookUp hd hk a
  | some w =>
    by_cases ha : w.contains a = true
    · rcases h.readWindow_eq hd hk ha with hread | hread
      · exact ⟨some w, Bus.relay_fetch ha (congrArg (Dialogue.done <| Prod.mk · b) hread), hd⟩
      · rw [Bus.relay_fetch_stale ha (congrArg (Dialogue.done <| Prod.mk · b) hread)]
        exact h.relay_lookUp hd hk a
    · rw [Bus.fetch_past ha]
      exact h.relay_lookUp hd hk a

end Fetch

end Layered
end TandemZ80.MemoryMap
