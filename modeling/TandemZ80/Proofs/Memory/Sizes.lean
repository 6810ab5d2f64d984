import TandemZ80.Proofs.Memory.Ledger
import TandemZ80.Proofs.Memory.Outcomes

/-!
# The sizes of buffers

No operation on a memory map makes a buffer longer or shorter, or takes it away.

* `MemoryMap.bufferSize_modify`, changes of the bytes of a buffer;
* `MemoryMap.Retains`, all buffers have kept their sizes;
* `MemoryMap.retains_write`, and `MemoryMap.retains_perform` for all operations.
-/

namespace TandemZ80.MemoryMap

variable {m m' m'' : MemoryMap} {b : BufferId}

theorem bufferSize_modify (m : MemoryMap) {f : Array UInt8 → Array UInt8}
    (hf : ∀ bytes, (f bytes).size = bytes.size) (i : ℕ) (b : BufferId) :
    { m with buffers := m.buffers.modify i f }.bufferSize b = m.bufferSize b := by
  unfold bufferSize bytes?
  rw [Array.getElem?_modify]
  by_cases h : i = b.index
  · rw [if_pos h]
    cases m.buffers[b.index]? with
    | none => rfl
    | some bytes => exact hf bytes
  · rw [if_neg h]

theorem size_storeFrom (a : UInt16) (vs : List UInt8) (bytes : Array UInt8) :
    (storeFrom a vs bytes).size = bytes.size := by
  induction vs generalizing a bytes with
  | nil => rfl
  | cons v vs ih =>
    rw [storeFrom, ih]
    exact Array.size_setIfInBounds

/-- All buffers are still there, and have their sizes. -/
def Retains (m m' : MemoryMap) : Prop := ∀ b, 0 < m.bufferSize b → m'.bufferSize b = m.bufferSize b

theorem Retains.of_eq (h : ∀ b, m'.bufferSize b = m.bufferSize b) : m.Retains m' := fun b _ => h b

theorem Retains.of_buffers (h : m'.buffers = m.buffers) : m.Retains m' :=
  .of_eq fun b => by rw [bufferSize, bufferSize, bytes?, bytes?, h]

theorem Retains.refl (m : MemoryMap) : m.Retains m := fun _ _ => rfl

theorem Retains.trans (h : m.Retains m') (h' : m'.Retains m'') : m.Retains m'' := by
  intro b hb
  rw [h' b (by rwa [h b hb]), h b hb]

theorem index_lt (h : 0 < m.bufferSize b) : b.index < m.buffers.size := by
  by_contra hge
  unfold bufferSize bytes? at h
  rw [Array.getElem?_eq_none (not_lt.1 hge)] at h
  exact absurd h (lt_irrefl 0)

theorem retains_addBuffer (m : MemoryMap) (bytes : Array UInt8) :
    m.Retains (m.addBuffer bytes).2 := by
  intro b hb
  unfold bufferSize bytes? addBuffer
  rw [Array.getElem?_push, if_neg (index_lt hb).ne]

theorem bufferSize_setByte {i : ℕ} {v : UInt8} (h : m.setByte b i v = .ok m') (c : BufferId) :
    m'.bufferSize c = m.bufferSize c := by
  obtain ⟨-, rfl⟩ := setByte_eq_ok h
  exact bufferSize_modify m (fun _ => Array.size_setIfInBounds) _ c

theorem retains_store (m : MemoryMap) (b : BufferId) (a : UInt16) (vs : List UInt8) :
    m.Retains (m.store b a vs) :=
  .of_eq (bufferSize_modify m (size_storeFrom a vs) b.index)

theorem bytes?_replaceBuffer (h : 0 < m.bufferSize b) (bytes : Array UInt8) :
    (m.replaceBuffer b bytes).bytes? b = some bytes := by
  unfold bytes? replaceBuffer
  rw [Array.getElem?_setIfInBounds_self_of_lt (index_lt h)]

theorem retains_replaceBuffer {bytes : Array UInt8} (h : bytes.size = m.bufferSize b) :
    m.Retains (m.replaceBuffer b bytes) := by
  intro c hc
  by_cases hbc : b.index = c.index
  · obtain rfl : b = c := by
      cases b
      cases c
      exact congrArg BufferId.mk hbc
    rw [bufferSize, bytes?_replaceBuffer hc]
    exact h
  · unfold bufferSize bytes? replaceBuffer
    rw [Array.getElem?_setIfInBounds_ne hbc]

theorem retains_connect (m : MemoryMap) (device : DeviceId) (priority : Bool) :
    m.Retains (m.connect device priority).2 := by
  unfold connect
  cases m.freeSlot? priority
  · exact .refl m
  · exact .of_buffers rfl

theorem retains_disconnect (m : MemoryMap) (s : Slot) : m.Retains (m.disconnect s).2 := by
  unfold disconnect
  split_ifs
  · exact .refl m
  · exact .of_buffers rfl

theorem retains_alloc {s : Slot} {addr : UInt16} {len : ℕ} {target : Target} {access : Access}
    {r : Bool} (h : m.alloc s addr len target access = .ok (r, m')) : m.Retains m' := by
  rcases alloc_cases h with ⟨-, rfl⟩ | ⟨-, mapping, -, rfl⟩
  · exact .refl _
  · exact .of_buffers rfl

theorem retains_release {s : Slot} {addr : UInt16} {len : ℕ} {access : Access}
    (h : m.release s addr len access = .ok m') : m.Retains m' := by
  rcases release_cases h with ⟨-, rfl⟩ | ⟨-, rfl⟩
  · exact .refl _
  · exact .of_buffers rfl

section Devices

variable {δ : Type} [Device δ] {ds ds' : Devices δ}

theorem retains_write {a : UInt16} {v : UInt8} (h : m.write a v ds = .ok (m', ds')) :
    m.Retains m' := by
  rcases write_cases h with ⟨b, offset, -, hset, -⟩ | ⟨rfl, -⟩
  · exact .of_eq (bufferSize_setByte hset)
  · exact .refl _

theorem retains_perform {op : Operation} {r : Answer × MemoryMap × Devices δ}
    (h : MemoryMap.system.perform op (m, ds) = .ok r) : m.Retains r.2.1 := by
  cases op with
  | addBuffer bytes =>
    cases h
    exact retains_addBuffer m bytes
  | setByte b i v =>
    obtain ⟨m₁, hset, rfl⟩ := Fault.map_eq_ok h
    exact .of_eq (bufferSize_setByte hset)
  | connect device priority =>
    cases h
    exact retains_connect m device priority
  | disconnect s =>
    cases h
    exact retains_disconnect m s
  | alloc s addr len target access =>
    obtain ⟨⟨accepted, m₁⟩, halloc, rfl⟩ := Fault.map_eq_ok h
    exact retains_alloc halloc
  | release s addr len access =>
    obtain ⟨m₁, hrelease, rfl⟩ := Fault.map_eq_ok h
    exact retains_release hrelease
  | read a =>
    obtain ⟨⟨v, ds₁⟩, -, rfl⟩ := Fault.map_eq_ok h
    exact .refl m
  | write a v =>
    obtain ⟨⟨m₁, ds₁⟩, hwrite, rfl⟩ := Fault.map_eq_ok h
    exact retains_write hwrite

end Devices

end TandemZ80.MemoryMap
