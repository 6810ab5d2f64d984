import TandemZ80.Proofs.Memory.Fresh

/-!
# Memory with a backstop

A map whose last slot has a client has its backstop, for good: that client is never taken away.
Whatever is done to such a map, its parts go on fitting together, and a write changes bytes but no
mapping.

* `MemoryMap.SamePages`, maps that have the same clients and show the same buffers in the same
  places; `MemoryMap.samePages_write`;
* `MemoryMap.Backed`, sound memory with a backstop, and `MemoryMap.Backed.perform`;
* `MemoryMap.client_connect` and `MemoryMap.Backed.free_ne_last`, how clients come, and
  `MemoryMap.Backed.held_disconnect` and `MemoryMap.Backed.client_disconnect`, what they leave.
-/

namespace TandemZ80.MemoryMap

variable {m m' m'' : MemoryMap} {s t : Slot}

/-! ### The same mapping -/

/-- The same clients, with the same pages. The bytes in the buffers may differ. -/
structure SamePages (m m' : MemoryMap) : Prop where
  reading : m'.reading = m.reading
  writing : m'.writing = m.writing
  clients : m'.clients = m.clients
  backstop : m'.backstop = m.backstop

theorem SamePages.refl (m : MemoryMap) : m.SamePages m := ⟨rfl, rfl, rfl, rfl⟩

theorem SamePages.trans (h : m.SamePages m') (h' : m'.SamePages m'') : m.SamePages m'' :=
  ⟨h'.reading.trans h.reading, h'.writing.trans h.writing, h'.clients.trans h.clients,
    h'.backstop.trans h.backstop⟩

theorem SamePages.cells (h : m.SamePages m') (q : Access) : m'.cells q = m.cells q := by
  unfold MemoryMap.cells
  rw [h.reading, h.writing]

theorem SamePages.held (h : m.SamePages m') (q : Access) (p : Page) (s : Slot) :
    m'.held q p s = m.held q p s := by
  unfold MemoryMap.held
  rw [h.cells]

theorem SamePages.page (h : m.SamePages m') (a : UInt16) (q : Access) : m'.page a q = m.page a q :=
  congrArg (fun cells : Vector Cell pageCount => (cells.get (Page.of a)).shown) (h.cells q)

theorem SamePages.sound (h : m.SamePages m') (hm : m.Sound) : m'.Sound where
  coherent q p := by
    rw [h.cells]
    exact hm.coherent q p
  clients q p s hs := by
    rw [h.clients] at hs
    rw [h.held]
    exact hm.clients q p s hs
  backstop := by
    rw [h.backstop, h.clients]
    exact hm.backstop

theorem SamePages.within (h : m.SamePages m') (hsizes : m.Retains m') (hm : m.Within) :
    m'.Within := by
  intro q p s b offset he
  rw [h.held] at he
  have hsize := hm q p s b offset he
  rw [hsizes b (by simp only [pageSize] at hsize; omega)]
  exact hsize

theorem samePages_setByte {b : BufferId} {i : ℕ} {v : UInt8} (h : m.setByte b i v = .ok m') :
    m.SamePages m' := by
  obtain ⟨-, rfl⟩ := setByte_eq_ok h
  exact ⟨rfl, rfl, rfl, rfl⟩

/-- A write changes no mapping. -/
theorem samePages_write {δ : Type} [Device δ] {a : UInt16} {v : UInt8} {ds ds' : Devices δ}
    (h : m.write a v ds = .ok (m', ds')) : m.SamePages m' := by
  rcases write_cases h with ⟨b, offset, -, hset, -⟩ | ⟨rfl, -⟩
  · exact samePages_setByte hset
  · exact .refl _

/-! ### Operations that ask no device -/

section Operations

variable {δ : Type} [Device δ] (ds : Devices δ)

theorem perform_addBuffer (m : MemoryMap) (bytes : Array UInt8) :
    system.perform (.addBuffer bytes) (m, ds) =
      .ok (.buffer (m.addBuffer bytes).1, (m.addBuffer bytes).2, ds) := rfl

theorem perform_connect (m : MemoryMap) (device : DeviceId) (priority : Bool) :
    system.perform (.connect device priority) (m, ds) =
      .ok (.slot (m.connect device priority).1, (m.connect device priority).2, ds) := rfl

theorem perform_disconnect (m : MemoryMap) (s : Slot) :
    system.perform (.disconnect s) (m, ds) =
      .ok (.accepted (m.disconnect s).1, (m.disconnect s).2, ds) := rfl

theorem perform_alloc {addr : UInt16} {len : ℕ} {target : Target} {access : Access} {r : Bool}
    (h : m.alloc s addr len target access = .ok (r, m')) :
    system.perform (.alloc s addr len target access) (m, ds) = .ok (.accepted r, m', ds) := by
  unfold system
  dsimp only
  rw [h]
  rfl

end Operations

/-! ### A new client -/

section Connect

variable {device : DeviceId} {priority : Bool}

theorem buffers_connect : (m.connect device priority).2.buffers = m.buffers := by
  unfold connect
  cases m.freeSlot? priority <;> rfl

theorem held_connect (q : Access) (p : Page) (s : Slot) :
    (m.connect device priority).2.held q p s = m.held q p s := by
  unfold connect
  cases m.freeSlot? priority <;> rfl

theorem page_connect (x : UInt16) (q : Access) :
    (m.connect device priority).2.page x q = m.page x q := by
  unfold connect
  cases m.freeSlot? priority <;> rfl

/-- A new client gets the free slot. -/
theorem client_connect (hfree : m.freeSlot? priority = some s) (t : Slot) :
    (m.connect device priority).2.clients.get t = if t = s then some device
      else m.clients.get t := by
  rw [connect_of_some hfree]
  exact get_set_client m s t (some device)

theorem client_connect_ne_none (hfree : m.freeSlot? priority = some s) :
    (m.connect device priority).2.clients.get s ≠ none := by
  rw [client_connect hfree, if_pos rfl]
  exact Option.some_ne_none device

theorem freeSlot?_eq_none (h : m.freeSlot? priority = none) (s : Slot) :
    m.clients.get s ≠ none := by
  intro hs
  have hnone := List.find?_eq_none.1 h s (by cases priority <;> simp [List.mem_finRange])
  rw [hs] at hnone
  exact hnone rfl

end Connect

/-- Without a client there is nothing to be taken away. -/
theorem disconnect_of_free (h : m.clients.get s = none) : m.disconnect s = (false, m) := by
  unfold disconnect
  rw [if_pos (.inr h)]

/-! ### The backstop -/

/-- A sound map with mappings that stay inside their buffers, in which the last slot has its
client. -/
structure Backed (m : MemoryMap) : Prop where
  sound : m.Sound
  within : m.Within
  last : (m.clients.get Slot.last).isSome

/-- A sound map has a ledger. -/
theorem exists_agrees (hsound : m.Sound) (hwithin : m.Within) : ∃ n, m.Agrees n := by
  refine ⟨⟨m.buffers.toList.map Array.toList, fun s => (m.clients.get s).map fun device =>
    ⟨device, fun p => m.held .read p s, fun p => m.held .write p s⟩⟩, hsound, hwithin, rfl,
    fun s => ?_, fun q p s => ?_⟩
  · cases hs : m.clients.get s <;> simp [hs]
  · unfold Ledger.grant?
    cases hs : m.clients.get s with
    | none => simp [hs, hsound.clients q p s hs]
    | some device =>
      simp only [hs, Option.map_some, Option.bind_some]
      cases q <;> rfl

namespace Backed

theorem of_samePages (h : m.Backed) (hm : m.SamePages m') (hsizes : m.Retains m') : m'.Backed :=
  ⟨hm.sound h.sound, hm.within hsizes h.within, hm.clients ▸ h.last⟩

theorem backstop_eq (h : m.Backed) : m.backstop = some .last := by
  rw [h.sound.backstop, if_pos h.last]

/-- A new client never gets the last slot. -/
theorem free_ne_last (h : m.Backed) {priority : Bool} (hs : m.freeSlot? priority = some s) :
    s ≠ .last := by
  rintro rfl
  have hlast := h.last
  rw [freeSlot?_eq_some hs] at hlast
  cases hlast

/-- A client of another slot leaves with all its pages. -/
theorem disconnect_eq (h : m.Backed) (hs : s ≠ .last) (hclient : (m.clients.get s).isSome) :
    m.disconnect s = (true, { m.revoke s (fun _ => true) .readWrite with
      clients := m.clients.set s none s.isLt }) := by
  have hkept : ¬(m.backstop = some s ∨ m.clients.get s = none) := by
    rw [h.backstop_eq, Option.some.injEq, not_or, ← ne_eq (m.clients.get s),
      ← Option.isSome_iff_ne_none]
    exact ⟨hs.symm, hclient⟩
  unfold disconnect
  rw [if_neg hkept]
  rfl

theorem held_disconnect (h : m.Backed) (hs : s ≠ .last) (q : Access) (p : Page) (t : Slot) :
    (m.disconnect s).2.held q p t = if t = s then none else m.held q p t := by
  cases hclient : m.clients.get s with
  | none =>
    rw [disconnect_of_free hclient]
    split_ifs with ht
    · exact ht ▸ h.sound.clients q p s hclient
    · rfl
  | some device =>
    have hcovers : Access.readWrite.covers q = true := by cases q <;> rfl
    rw [h.disconnect_eq hs (Option.isSome_of_eq_some hclient)]
    show (m.revoke s (fun _ => true) .readWrite).held q p t = _
    rw [held_revoke]
    simp only [hcovers, true_and]

theorem client_disconnect (h : m.Backed) (hs : s ≠ .last) (t : Slot) :
    (m.disconnect s).2.clients.get t = if t = s then none else m.clients.get t := by
  cases hclient : m.clients.get s with
  | none =>
    rw [disconnect_of_free hclient]
    split_ifs with ht
    · exact ht ▸ hclient
    · rfl
  | some device =>
    rw [h.disconnect_eq hs (Option.isSome_of_eq_some hclient)]
    exact get_set_client m s t none

/-- The client of the last slot stays, whatever is done. -/
theorem last_perform (h : m.Backed) {δ : Type} [Device δ] {op : Operation} {x : Answer}
    {ds ds' : Devices δ} (hop : MemoryMap.system.perform op (m, ds) = .ok (x, m', ds')) :
    (m'.clients.get Slot.last).isSome := by
  cases op with
  | addBuffer bytes =>
    cases hop
    exact h.last
  | setByte b i v =>
    obtain ⟨m₁, hset, hr⟩ := Fault.map_eq_ok hop
    cases hr
    exact (samePages_setByte hset).clients ▸ h.last
  | connect device priority =>
    cases hop
    show ((m.connect device priority).2.clients.get _).isSome
    cases hs : m.freeSlot? priority with
    | none =>
      rw [connect_of_none hs]
      exact h.last
    | some s =>
      rw [client_connect hs]
      split_ifs
      · rfl
      · exact h.last
  | disconnect s =>
    cases hop
    show ((m.disconnect s).2.clients.get _).isSome
    unfold disconnect
    split_ifs with hs
    · exact h.last
    · have hne : Slot.last ≠ s := by
        rintro rfl
        exact hs (.inl h.backstop_eq)
      show ((m.clients.set s none s.isLt).get Slot.last).isSome
      rw [get_set_client, if_neg hne]
      exact h.last
  | alloc s addr len target access =>
    obtain ⟨⟨r, m₁⟩, halloc, hr⟩ := Fault.map_eq_ok hop
    cases hr
    rcases alloc_cases halloc with ⟨-, rfl⟩ | ⟨-, mapping, -, rfl⟩
    · exact h.last
    · exact h.last
  | release s addr len access =>
    obtain ⟨m₁, hrelease, hr⟩ := Fault.map_eq_ok hop
    cases hr
    rcases release_cases hrelease with ⟨-, rfl⟩ | ⟨-, rfl⟩
    · exact h.last
    · exact h.last
  | read a =>
    obtain ⟨⟨v, ds₁⟩, -, hr⟩ := Fault.map_eq_ok hop
    cases hr
    exact h.last
  | write a v =>
    obtain ⟨⟨m₁, ds₁⟩, hwrite, hr⟩ := Fault.map_eq_ok hop
    cases hr
    exact (samePages_write hwrite).clients ▸ h.last

/-- Whatever is done to memory with a backstop, it stays one. -/
theorem perform (h : m.Backed) {δ : Type} [Device δ] {op : Operation} {x : Answer}
    {ds ds' : Devices δ} (hop : MemoryMap.system.perform op (m, ds) = .ok (x, m', ds')) :
    m'.Backed := by
  obtain ⟨n, hn⟩ := exists_agrees h.sound h.within
  have harbiter : arbiter.perform (op, ds) m = .ok (x, m') := by
    unfold arbiter
    dsimp only
    rw [hop]
    rfl
  obtain ⟨n', hn'⟩ := hn.of_perform harbiter
  exact ⟨hn'.sound, hn'.within, h.last_perform hop⟩

theorem addBuffer (h : m.Backed) (bytes : Array UInt8) : (m.addBuffer bytes).2.Backed :=
  h.perform (perform_addBuffer (.empty : Devices ParallelLink) m bytes)

theorem connect (h : m.Backed) (device : DeviceId) (priority : Bool) :
    (m.connect device priority).2.Backed :=
  h.perform (perform_connect (.empty : Devices ParallelLink) m device priority)

theorem disconnect (h : m.Backed) (s : Slot) : (m.disconnect s).2.Backed :=
  h.perform (perform_disconnect (.empty : Devices ParallelLink) m s)

theorem alloc (h : m.Backed) {addr : UInt16} {len : ℕ} {target : Target} {access : Access}
    {r : Bool} (halloc : m.alloc s addr len target access = .ok (r, m')) : m'.Backed :=
  h.perform (perform_alloc (.empty : Devices ParallelLink) halloc)

end Backed
end TandemZ80.MemoryMap
