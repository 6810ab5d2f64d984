import TandemZ80.Proofs.Machine.Operation
import TandemZ80.Proofs.Memory.Held

/-!
# How often a mapping can have changed

Every image takes a slot and a buffer. Taken away it gives its slot back, and the buffer stays. So
the mappings of a machine cannot have been changed more than twice for each of its buffers.

* `MemoryMap.taken`, the slots with a client; `MemoryMap.SameStock`;
* `Machine.bufferCount` and `Machine.clientCount`;
* `Machine.Operation.plain`, operations that do not reach into the parts of a machine, and
  `Machine.Session.remaps`, how often one of them changes a mapping;
* `Machine.Counted`, a machine with so many changes behind it; `Machine.Counted.perform`.
-/

namespace TandemZ80

/-! ### Buffers and clients -/

namespace MemoryMap

variable {m m' : MemoryMap} {s : Slot}

/-- The slots with a client. -/
def taken (m : MemoryMap) : Finset Slot := Finset.univ.filter fun s => (m.clients.get s).isSome

theorem mem_taken : s ∈ m.taken ↔ (m.clients.get s).isSome := by simp [taken]

theorem taken_of_set {d : Option DeviceId} (h : m'.clients = m.clients.set s d s.isLt) :
    m'.taken = if d.isSome then insert s m.taken else m.taken.erase s := by
  ext t
  rw [mem_taken, h, get_set_client]
  by_cases hts : t = s
  · subst hts
    cases d <;> simp
  · cases d <;> simp [hts, mem_taken]

/-- A client that is connected gets a free slot. -/
theorem connect_eq_some {device : DeviceId} {priority : Bool}
    (h : (m.connect device priority).1 = some s) :
    m.freeSlot? priority = some s ∧
      (m.connect device priority).2.buffers = m.buffers ∧
        (m.connect device priority).2.clients = m.clients.set s (some device) s.isLt := by
  rw [connect_fst] at h
  rw [connect_of_some h]
  exact ⟨h, rfl, rfl⟩

theorem connect_eq_none {device : DeviceId} {priority : Bool}
    (h : (m.connect device priority).1 = none) : (m.connect device priority).2 = m := by
  rw [connect_fst] at h
  rw [connect_of_none h]

theorem card_taken_connect {device : DeviceId} {priority : Bool}
    (h : (m.connect device priority).1 = some s) :
    (m.connect device priority).2.taken.card = m.taken.card + 1 := by
  obtain ⟨hfree, -, hclients⟩ := connect_eq_some h
  have hs : s ∉ m.taken := by
    rw [mem_taken, freeSlot?_eq_some hfree]
    simp
  rw [taken_of_set hclients, if_pos Option.isSome_some, Finset.card_insert_of_notMem hs]

theorem card_taken_disconnect (m : MemoryMap) (s : Slot) :
    (m.disconnect s).2.taken.card + (m.disconnect s).1.toNat = m.taken.card := by
  unfold disconnect
  split_ifs with hkept
  · rfl
  · have hs : s ∈ m.taken :=
      mem_taken.2 (Option.isSome_iff_ne_none.2 fun hnone => hkept (.inr hnone))
    rw [taken_of_set (s := s) (d := none) rfl]
    exact Finset.card_erase_add_one hs

/-- The same clients, and as many buffers. -/
def SameStock (m m' : MemoryMap) : Prop := m'.buffers.size = m.buffers.size ∧ m'.clients = m.clients

theorem SameStock.refl (m : MemoryMap) : m.SameStock m := ⟨rfl, rfl⟩

theorem SameStock.trans {m'' : MemoryMap} (h : m.SameStock m') (h' : m'.SameStock m'') :
    m.SameStock m'' :=
  ⟨h'.1.trans h.1, h'.2.trans h.2⟩

theorem sameStock_write {δ : Type} [Device δ] {a : UInt16} {v : UInt8} {ds ds' : Devices δ}
    (h : m.write a v ds = .ok (m', ds')) : m.SameStock m' := by
  rcases write_cases h with ⟨b, offset, -, hset, -⟩ | ⟨rfl, -⟩
  · obtain ⟨-, rfl⟩ := setByte_eq_ok hset
    exact ⟨Array.size_modify, rfl⟩
  · exact .refl _

end MemoryMap

/-! ### Machines -/

namespace Machine

variable {δ : Type} {m m' : Machine δ} {k : ℕ} {s : Side}

/-- Mapping an image, with the name of its device written out. -/
theorem loadRom_eq (m : Machine δ) (s : Side) (a : UInt16) (bytes : List UInt8) :
    m.loadRom s a bytes = if bytes.isEmpty then (none, m) else
      let device : DeviceId := ⟨m.hardware.devices.slots.size⟩
      let named := (m.withDevices fun ds => ds.add Part.rom).2
      let wired := (named.withMemory s fun memory => memory.connect device true).2
      match (named.withMemory s fun memory => memory.connect device true).1 with
      | none => (none, (wired.withDevices fun ds => ds.remove device).2)
      | some slot => (some { side := s, slot, device },
          (wired.withMemory s fun memory => ((), memory.mapRom slot (RomImage.place a bytes))).2) :=
  rfl

/-- The buffers of both memory maps. -/
def bufferCount (m : Machine δ) : ℕ :=
  (m.board .main).memory.buffers.size + (m.board .sub).memory.buffers.size

/-- The clients of both memory maps. -/
def clientCount (m : Machine δ) : ℕ :=
  (m.board .main).memory.taken.card + (m.board .sub).memory.taken.card

theorem setBoard_setBoard (m : Machine δ) (s : Side) (b b' : Board) :
    (m.setBoard s b).setBoard s b' = m.setBoard s b' := by
  cases s <;> rfl

/-- A machine whose mappings have been changed `k` times. Every image has brought a buffer and two
changes, of which the second is still to come while it has its slot. -/
def Counted (k : ℕ) (m : Machine δ) : Prop := k + m.clientCount + 2 = 2 * m.bufferCount

theorem counted_new {config : Config} (h : new config = .ok m) : m.Counted 0 := by
  rw [new_eq_ok h]
  rfl

namespace Counted

theorem of_stock (h : m.Counted k) (hs : ∀ s, (m.board s).memory.SameStock (m'.board s).memory) :
    m'.Counted k := by
  obtain ⟨hmain, hmain'⟩ := hs .main
  obtain ⟨hsub, hsub'⟩ := hs .sub
  unfold Counted bufferCount clientCount MemoryMap.taken at h ⊢
  rw [hmain, hmain', hsub, hsub']
  exact h

/-- A memory map has been changed `n` times. -/
theorem setBoard (h : m.Counted k) {b : Board} {n : ℕ}
    (hb : n + b.memory.taken.card + 2 * (m.board s).memory.buffers.size =
      (m.board s).memory.taken.card + 2 * b.memory.buffers.size) :
      (m.setBoard s b).Counted (k + n) := by
  unfold Counted bufferCount clientCount at h ⊢
  simp only [board_setBoard]
  cases s
  · simp only [if_true, reduceCtorEq, if_false]
    omega
  · simp only [if_true, reduceCtorEq, if_false]
    omega

theorem setBoard_of_stock (h : m.Counted k) {b : Board}
    (hb : (m.board s).memory.SameStock b.memory) : (m.setBoard s b).Counted k := by
  refine h.setBoard (n := 0) ?_
  unfold MemoryMap.taken
  rw [hb.1, hb.2, Nat.zero_add]

/-- An image takes a slot and a buffer. -/
theorem loadRom (h : m.Counted k) (s : Side) (a : UInt16) (bytes : List UInt8) :
    (m.loadRom s a bytes).2.Counted (k + (m.loadRom s a bytes).1.isSome.toNat) := by
  rw [loadRom_eq]
  split_ifs
  · exact h
  · dsimp only
    generalize hnamed : (m.withDevices fun ds => ds.add Part.rom).2 = named
    have hcounted : named.Counted k := by
      rw [← hnamed, withDevices_snd]
      exact h
    rw [withMemory_fst]
    cases hslot : ((named.board s).memory.connect ⟨m.hardware.devices.slots.size⟩ true).1 with
    | none =>
      dsimp only
      rw [withDevices_snd, withMemory_snd, MemoryMap.connect_eq_none hslot]
      exact hcounted.setBoard_of_stock (.refl _)
    | some slot =>
      -- Both steps are taken together: connecting alone would take a slot without a buffer.
      dsimp only
      rw [withMemory_snd, withMemory_snd, board_setBoard, if_pos rfl, setBoard_setBoard]
      refine hcounted.setBoard (n := 1) ?_
      have htaken := MemoryMap.card_taken_connect hslot
      have hbuffers := (MemoryMap.connect_eq_some hslot).2.1
      generalize ((named.board s).memory.connect _ true).2 = memory at htaken hbuffers ⊢
      have hsize : (memory.mapRom slot (RomImage.place a bytes)).buffers.size =
          memory.buffers.size + 1 := Array.size_push _
      show 1 + memory.taken.card + _ = _
      dsimp only
      rw [hsize, hbuffers]
      omega

/-- An image that is taken away gives its slot back. -/
theorem unloadRom (h : m.Counted k) (rom : RomHandle) :
    (m.unloadRom rom).Counted (k + ((m.board rom.side).memory.disconnect rom.slot).1.toNat) := by
  have hbuffers : ((m.board rom.side).memory.disconnect rom.slot).2.buffers =
      (m.board rom.side).memory.buffers := by
    unfold MemoryMap.disconnect
    split_ifs <;> rfl
  have htaken := MemoryMap.card_taken_disconnect (m.board rom.side).memory rom.slot
  unfold Machine.unloadRom
  rw [withDevices_snd, withMemory_snd]
  refine (h.setBoard ?_ : (m.setBoard _ _).Counted _)
  dsimp only
  rw [hbuffers]
  omega

end Counted

/-! ### Plain operations -/

/-- The operations that do not reach into the parts of a machine. A processor may be changed in any
way, but it gets no window except from its own bus. -/
def Operation.plain : Operation δ → Prop
  | .cpu _ f => ∀ u, (f u).window = u.window ∨ (f u).window = none
  | .memory _ _ | .ports _ _ | .devices _ => False
  | _ => True

variable [Device δ]

/-- How often a plain operation changes a mapping. -/
def Session.remaps (t : Session δ) : Operation δ → ℕ
  | .loadRom s a bytes => (t.machine.loadRom s a bytes).1.isSome.toNat
  | .unloadRom n =>
    ((t.images[n]?.join).elim false fun rom =>
      ((t.machine.board rom.side).memory.disconnect rom.slot).1).toNat
  | _ => 0

/-- Every change of a mapping is accounted for. -/
theorem Counted.perform {t : Session δ} (h : t.machine.Counted k) (hram : t.machine.HasRam)
    {op : Operation δ} (hop : op.plain) {r : Answer × Session δ}
    (hr : system.perform op t = .ok r) : r.2.machine.Counted (k + t.remaps op) := by
  cases op with
  | execute budget =>
    obtain ⟨⟨n, m⟩, he, rfl⟩ := Fault.map_eq_ok hr
    refine h.of_stock
      (execute_keeps (I := fun s memory => (t.machine.board s).memory.SameStock memory)
      (fun s memory memory' a v ds ds' hm hw => hm.trans (MemoryMap.sameStock_write hw))
      (fun s => .refl _) he).2
  | write s a v =>
    obtain ⟨m, he, rfl⟩ := Fault.map_eq_ok hr
    rw [write_eq] at he
    obtain ⟨⟨memory, devices⟩, hmem, rfl⟩ := Fault.map_eq_ok he
    have hboard : (t.machine.setBoard s { t.machine.board s with memory }).Counted k :=
      h.setBoard_of_stock (MemoryMap.sameStock_write hmem)
    exact hboard
  | loadRam s a bytes =>
    cases hr
    show (t.machine.loadRam s a bytes).Counted k
    unfold Machine.loadRam
    rw [withMemory_snd]
    exact h.setBoard_of_stock ⟨Array.size_modify, rfl⟩
  | loadRom s a bytes =>
    cases hr
    exact h.loadRom s a bytes
  | unloadRom n =>
    cases hr
    unfold Session.remaps
    dsimp only
    cases t.images[n]?.join with
    | none => exact h
    | some rom => exact h.unloadRom rom
  | load p =>
    obtain ⟨⟨r, m⟩, he, rfl⟩ := Fault.map_eq_ok hr
    rcases load_of_hasRam hram p with ⟨e, he'⟩ | ⟨cpus, scheduler, -, -, -, he'⟩
    · rw [he'] at he
      cases he
      exact h
    · rw [he'] at he
      cases he
      refine h.of_stock fun s => ?_
      rw [board_restored]
      exact ⟨Array.size_setIfInBounds, rfl⟩
  | memory s op => exact hop.elim
  | _ => exact h.of_stock fun s => (SameMemory.perform hr trivial).memory s ▸ .refl _

end Machine
end TandemZ80
