import Mathlib.Tactic
import TandemZ80.Memory.Access

/-!
# What comes of an operation on a memory map

Most operations on a memory map may turn out to change nothing: there is no free slot, no such
client, not enough of a buffer, no buffer at the address. Otherwise each of them changes the map in
one way.

* `MemoryMap.setByte_eq_ok` and `MemoryMap.write_cases`, bytes;
* `MemoryMap.connect_of_none` and `MemoryMap.connect_of_some`, clients;
* `MemoryMap.alloc_cases` and `MemoryMap.release_cases`, pages.
-/

namespace TandemZ80.MemoryMap

variable {m m' : MemoryMap} {s : Slot}

/-! ### Bytes -/

theorem setByte_eq_ok {b : BufferId} {i : ℕ} {v : UInt8} (h : m.setByte b i v = .ok m') :
    i < m.bufferSize b ∧
      m' = { m with buffers := m.buffers.modify b.index fun bytes => bytes.setIfInBounds i v } := by
  unfold setByte at h
  split_ifs at h with hi
  cases h
  exact ⟨hi, rfl⟩

/-- A byte is written to the buffer that is shown at its address. Or the map stays as it is, and the
device that the page is routed to, if it is, takes the byte. -/
theorem write_cases {δ : Type} [Device δ] {a : UInt16} {v : UInt8} {ds ds' : Devices δ}
    (h : m.write a v ds = .ok (m', ds')) :
    (∃ b offset, m.page a .write = .direct b offset ∧ m.setByte b (offset + inPage a) v = .ok m' ∧
        ds' = ds) ∨
      m' = m ∧ (ds' = ds ∨ ∃ d, m.page a .write = .routed d ∧ ds.memWrite d a v = .ok ds') := by
  unfold write at h
  split at h
  · next b offset hp =>
    obtain ⟨m₁, hset, h⟩ := Fault.bind_eq_ok h
    cases h
    exact .inl ⟨b, offset, hp, hset, rfl⟩
  · next d hp =>
    obtain ⟨ds₁, hds, h⟩ := Fault.bind_eq_ok h
    cases h
    exact .inr ⟨rfl, .inr ⟨d, hp, hds⟩⟩
  · cases h
    exact .inr ⟨rfl, .inl rfl⟩

/-! ### Clients -/

section Connect

variable {device : DeviceId} {priority : Bool}

theorem connect_of_none (h : m.freeSlot? priority = none) :
    m.connect device priority = (none, m) := by
  unfold connect
  rw [h]

theorem connect_of_some (h : m.freeSlot? priority = some s) :
    m.connect device priority = (some s,
      { m with
        clients := m.clients.set s (some device) s.isLt
        backstop := if s = .last ∧ m.backstop = none then some s else m.backstop }) := by
  unfold connect
  rw [h]

/-- A new client gets the free slot. -/
theorem connect_fst (m : MemoryMap) (device : DeviceId) (priority : Bool) :
    (m.connect device priority).1 = m.freeSlot? priority := by
  unfold connect
  cases m.freeSlot? priority <;> rfl

end Connect

/-! ### Pages -/

variable {addr : UInt16} {len : ℕ} {access : Access}

/-- An allocation is refused, or the pages of the range are mapped for the client. -/
theorem alloc_cases {target : Target} {r : Bool}
    (h : m.alloc s addr len target access = .ok (r, m')) :
    r = false ∧ m' = m ∨
      r = true ∧ ∃ mapping : Page → Mapping, (∀ p, mapping p ≠ .unmapped) ∧
        m' = m.grant s (Page.meets addr len) mapping access := by
  unfold alloc at h
  split at h
  · cases h
    exact .inl ⟨rfl, rfl⟩
  · obtain ⟨-, -, h⟩ := Fault.bind_eq_ok h
    split at h
    · obtain ⟨-, -, h⟩ := Fault.bind_eq_ok h
      dsimp only at h
      split_ifs at h
      · cases h
        exact .inl ⟨rfl, rfl⟩
      · cases h
        exact .inr ⟨rfl, _, fun _ => Mapping.noConfusion, rfl⟩
    · cases h
      exact .inr ⟨rfl, _, fun _ => Mapping.noConfusion, rfl⟩

/-- Pages are taken away from a client, unless it is the backstop. -/
theorem release_cases (h : m.release s addr len access = .ok m') :
    (m.backstop = some s ∨ m.clients.get s = none) ∧ m' = m ∨
      ¬(m.backstop = some s ∨ m.clients.get s = none) ∧
        m' = m.revoke s (Page.meets addr len) access := by
  unfold release at h
  split_ifs at h with hs
  · cases h
    exact .inl ⟨hs, rfl⟩
  · obtain ⟨-, -, h⟩ := Fault.bind_eq_ok h
    cases h
    exact .inr ⟨hs, rfl⟩

end TandemZ80.MemoryMap
