import Mathlib.Tactic
import TandemZ80.Proofs.Memory.Cell
import TandemZ80.Proofs.Memory.Outcomes

/-!
# What the clients of a memory map hold

A memory map keeps a cell for each page and direction. All that it shows follows from what each
client holds there, as long as it is *sound*: its cells are coherent, only clients hold anything,
and the backstop is the client of the last slot.

* `MemoryMap.held`, what a slot holds, and `MemoryMap.held_grant`, `MemoryMap.held_revoke`;
* `MemoryMap.Sound`, and that every change of the mapping keeps it;
* `page_eq`, `ownPage_eq`, `owner_eq`, what a sound map shows;
* `MemoryMap.Within`, mappings that stay inside their buffers; `page_within`, `read_direct` and
  `write_direct`, what follows for the bytes that are shown.
-/

namespace TandemZ80

/-- Whether an operation on `access` is about the direction that `q` asks about. -/
def Access.covers (access q : Access) : Bool := if q.reads then access.reads else access.writes

namespace MemoryMap

variable {m : MemoryMap} {s t : Slot} {p : Page} {q access : Access}

/-- The cells of one direction. -/
def cells (m : MemoryMap) (q : Access) : Vector Cell pageCount :=
  if q.reads then m.reading else m.writing

/-- What a slot has put in a page, if it holds the page. -/
def held (m : MemoryMap) (q : Access) (p : Page) (s : Slot) : Option Mapping :=
  ((m.cells q).get p).held s

/-- A map whose parts fit together. -/
structure Sound (m : MemoryMap) : Prop where
  coherent : ∀ q p, ((m.cells q).get p).Coherent
  /-- Only clients hold anything. -/
  clients : ∀ q p s, m.clients.get s = none → m.held q p s = none
  /-- Once the last slot has a client, that is the backstop. -/
  backstop : m.backstop = if (m.clients.get Slot.last).isSome then some Slot.last else none

/-- No mapping reaches beyond its buffer. -/
def Within (m : MemoryMap) : Prop :=
  ∀ q p s b offset, m.held q p s = some (.direct b offset) → offset + pageSize ≤ m.bufferSize b

/-! ### Changes of the mapping -/

theorem get_mapFinIdx {α β : Type} {n : ℕ} (v : Vector α n) (f : (i : ℕ) → α → i < n → β)
    (p : Fin n) : (v.mapFinIdx f).get p = f p (v.get p) p.isLt := by
  show (v.mapFinIdx f)[p.val] = f p v[p.val] p.isLt
  rw [Vector.getElem_mapFinIdx]

theorem cells_remap (m : MemoryMap) (access q : Access) (f : Page → Cell → Cell) (p : Page) :
    ((m.remap access f).cells q).get p =
      if access.covers q then f p ((m.cells q).get p) else (m.cells q).get p := by
  unfold cells remap Access.covers
  cases q.reads
  · cases access.writes
    · rfl
    · exact get_mapFinIdx m.writing (fun i c h => f ⟨i, h⟩ c) p
  · cases access.reads
    · rfl
    · exact get_mapFinIdx m.reading (fun i c h => f ⟨i, h⟩ c) p

theorem held_grant (m : MemoryMap) (s : Slot) (pages : Page → Bool) (mapping : Page → Mapping)
    (access q : Access) (p : Page) (t : Slot) :
    (m.grant s pages mapping access).held q p t =
      if access.covers q ∧ pages p ∧ t = s then some (mapping p) else m.held q p t := by
  unfold held grant
  rw [cells_remap]
  by_cases hq : access.covers q = true
  · rw [if_pos hq]
    by_cases hp : pages p = true
    · rw [if_pos hp, Cell.held_grant]
      simp only [hq, hp, true_and]
    · rw [if_neg hp, if_neg fun h => hp h.2.1]
  · rw [if_neg hq, if_neg fun h => hq h.1]

theorem held_revoke (m : MemoryMap) (s : Slot) (pages : Page → Bool) (access q : Access) (p : Page)
    (t : Slot) :
    (m.revoke s pages access).held q p t =
      if access.covers q ∧ pages p ∧ t = s then none else m.held q p t := by
  unfold held revoke
  rw [cells_remap]
  by_cases hq : access.covers q = true
  · rw [if_pos hq]
    by_cases hp : pages p = true
    · rw [if_pos hp, Cell.held_revoke]
      simp only [hq, hp, true_and]
    · rw [if_neg hp, if_neg fun h => hp h.2.1]
  · rw [if_neg hq, if_neg fun h => hq h.1]

/-! ### Soundness -/

theorem coherent_remap (h : ∀ q p, ((m.cells q).get p).Coherent) {f : Page → Cell → Cell}
    (hf : ∀ p c, c.Coherent → (f p c).Coherent) (access q : Access) (p : Page) :
    (((m.remap access f).cells q).get p).Coherent := by
  rw [cells_remap]
  split
  · exact hf p _ (h q p)
  · exact h q p

theorem Sound.empty : empty.Sound := by
  have hcell : ∀ q p, (MemoryMap.empty.cells q).get p = Cell.empty := by
    intro q p
    unfold cells MemoryMap.empty
    cases q.reads <;> simp [Vector.get]
  refine ⟨fun q p => ?_, fun q p s _ => ?_, ?_⟩
  · rw [hcell]
    exact Cell.coherent_empty
  · unfold held
    rw [hcell]
    exact Cell.held_empty s
  · simp [MemoryMap.empty, Vector.get]

/-- A client may be granted pages. -/
theorem Sound.grant (h : m.Sound) (hs : (m.clients.get s).isSome) (pages : Page → Bool)
    (mapping : Page → Mapping) (access : Access) : (m.grant s pages mapping access).Sound := by
  refine ⟨coherent_remap h.coherent (fun p c hc => ?_) access, fun q p t ht => ?_, h.backstop⟩
  · split
    · exact hc.grant s _
    · exact hc
  · have hts : t ≠ s := by
      rintro rfl
      rw [show m.clients.get t = none from ht] at hs
      cases hs
    rw [held_grant, if_neg fun hp => hts hp.2.2]
    exact h.clients q p t ht

theorem Sound.revoke (h : m.Sound) (s : Slot) (pages : Page → Bool) (access : Access) :
    (m.revoke s pages access).Sound := by
  refine ⟨coherent_remap h.coherent (fun p c hc => ?_) access, fun q p t ht => ?_, h.backstop⟩
  · split
    · exact hc.revoke s
    · exact hc
  · rw [held_revoke]
    split
    · rfl
    · exact h.clients q p t ht

theorem get_set_client (m : MemoryMap) (s t : Slot) (d : Option DeviceId) :
    (m.clients.set s d s.isLt).get t = if t = s then d else m.clients.get t :=
  Cell.get_set m.clients s t d

theorem freeSlot?_eq_some {priority : Bool} (h : m.freeSlot? priority = some s) :
    m.clients.get s = none := by
  have := List.find?_some h
  exact Option.isNone_iff_eq_none.1 this

/-- A new client holds nothing. -/
theorem Sound.connect (h : m.Sound) (device : DeviceId) (priority : Bool) :
    (m.connect device priority).2.Sound := by
  unfold MemoryMap.connect
  cases hs : m.freeSlot? priority with
  | none => exact h
  | some s =>
    have hfree := freeSlot?_eq_some hs
    refine ⟨h.coherent, fun q p t ht => ?_, ?_⟩
    · refine h.clients q p t ?_
      have ht : (m.clients.set s (some device) s.isLt).get t = none := ht
      rw [get_set_client] at ht
      split at ht
      · cases ht
      · exact ht
    · show (if s = .last ∧ m.backstop = none then some s else m.backstop) =
        if ((m.clients.set s (some device) s.isLt).get Slot.last).isSome then some Slot.last
          else none
      rw [get_set_client, h.backstop]
      by_cases hlast : s = .last
      · subst hlast
        simp [hfree]
      · rw [if_neg (fun e => hlast e.1), if_neg (Ne.symm hlast)]

/-- What a client held is free when it has left. -/
theorem Sound.disconnect (h : m.Sound) (s : Slot) : (m.disconnect s).2.Sound := by
  unfold MemoryMap.disconnect
  by_cases hs : m.backstop = some s ∨ m.clients.get s = none
  · rw [if_pos hs]
    exact h
  · rw [if_neg hs]
    rw [not_or] at hs
    have hr := h.revoke s (fun _ => true) .readWrite
    have hlast : s ≠ .last := by
      rintro rfl
      refine hs.1 ?_
      rw [h.backstop, if_pos (Option.isSome_iff_ne_none.2 hs.2)]
    refine ⟨hr.coherent, fun q p t ht => ?_, ?_⟩
    · have ht : (m.clients.set s none s.isLt).get t = none := ht
      rw [get_set_client] at ht
      show (m.revoke s (fun _ => true) .readWrite).held q p t = none
      by_cases hts : t = s
      · rw [held_revoke, if_pos ⟨by cases q <;> rfl, rfl, hts⟩]
      · rw [if_neg hts] at ht
        exact hr.clients q p t ht
    · show m.backstop = if ((m.clients.set s none s.isLt).get Slot.last).isSome then _ else _
      rw [get_set_client, if_neg (Ne.symm hlast)]
      exact h.backstop

/-- Soundness does not depend on the bytes in the buffers. -/
theorem Sound.of_buffers (h : m.Sound) (buffers : Array (Array UInt8)) :
    { m with buffers }.Sound :=
  ⟨h.coherent, h.clients, h.backstop⟩

/-! ### What is shown -/

/-- The lowest slot that holds a page. -/
def holder? (m : MemoryMap) (q : Access) (p : Page) : Option Slot :=
  (List.finRange slotCount).find? fun s => (m.held q p s).isSome

theorem owner_eq (m : MemoryMap) (a : UInt16) (q : Access) :
    m.owner a q = m.holder? q (Page.of a) :=
  Cell.top_eq _

theorem Sound.page_eq (h : m.Sound) (a : UInt16) (q : Access) :
    m.page a q = ((m.holder? q (Page.of a)).bind (m.held q (Page.of a))).getD .unmapped := by
  have hc := (h.coherent q (Page.of a)).shown
  rw [Cell.top_eq] at hc
  exact hc

theorem Sound.ownPage_eq (h : m.Sound) (s : Slot) (a : UInt16) (q : Access) :
    m.ownPage s a q =
      if (m.clients.get s).isSome then some ((m.held q (Page.of a) s).getD .unmapped)
        else none := by
  have hc := (h.coherent q (Page.of a)).own s
  unfold ownPage
  rw [show (m.cell a q).own.get s = _ from hc]
  rfl

/-- What is shown is held by somebody. -/
theorem Sound.exists_held (h : m.Sound) {a : UInt16} {q : Access} {e : Mapping}
    (he : m.page a q = e) (hne : e ≠ .unmapped) : ∃ s, m.held q (Page.of a) s = some e := by
  rw [h.page_eq] at he
  cases ho : m.holder? q (Page.of a) with
  | none =>
    rw [ho] at he
    exact (hne he.symm).elim
  | some s =>
    rw [ho, Option.bind_some] at he
    cases hh : m.held q (Page.of a) s with
    | none =>
      rw [hh] at he
      exact (hne he.symm).elim
    | some e' =>
      rw [hh] at he
      exact ⟨s, by rw [hh, ← he]; rfl⟩

/-- A new client has put nothing anywhere. -/
theorem Sound.ownPage_connect (h : m.Sound) {device : DeviceId} {priority : Bool}
    (hs : (m.connect device priority).1 = some s) (a : UInt16) (q : Access) :
    (m.connect device priority).2.ownPage s a q = some .unmapped := by
  have hfree : m.freeSlot? priority = some s := (connect_fst m device priority).symm.trans hs
  have hheld : (m.connect device priority).2.held q (.of a) s = m.held q (.of a) s := by
    rw [connect_of_some hfree]
    rfl
  have hclient : ((m.connect device priority).2.clients.get s).isSome := by
    rw [connect_of_some hfree]
    show ((m.clients.set s (some device) s.isLt).get s).isSome
    rw [get_set_client, if_pos rfl]
    rfl
  rw [(h.connect device priority).ownPage_eq, if_pos hclient, hheld,
    h.clients q (.of a) s (freeSlot?_eq_some hfree)]
  rfl

/-! ### Bytes of a page -/

theorem Sound.page_within (h : m.Sound) (hin : m.Within) {a : UInt16} {b : BufferId} {offset : ℕ}
    (hp : m.page a q = .direct b offset) : offset + pageSize ≤ m.bufferSize b := by
  obtain ⟨s, hs⟩ := h.exists_held hp (by simp)
  exact hin q _ s b offset hs

theorem Sound.ownPage_within (h : m.Sound) (hin : m.Within) {a : UInt16} {b : BufferId} {offset : ℕ}
    (hp : m.ownPage s a q = some (.direct b offset)) : offset + pageSize ≤ m.bufferSize b := by
  rw [h.ownPage_eq] at hp
  split_ifs at hp
  cases hs : m.held q (.of a) s with
  | none =>
    rw [hs] at hp
    cases hp
  | some e =>
    rw [hs] at hp
    cases hp
    exact hin q _ s b offset hs

theorem inPage_lt (a : UInt16) : inPage a < pageSize := Nat.mod_lt _ (by decide)

theorem exists_byte {b : BufferId} {i : ℕ} (hi : i < m.bufferSize b) : ∃ v, m.byte b i = .ok v := by
  unfold bufferSize at hi
  unfold byte
  cases hb : m.bytes? b with
  | none =>
    rw [hb] at hi
    exact absurd hi (Nat.not_lt_zero i)
  | some bytes =>
    rw [hb] at hi
    exact ⟨bytes[i], by rw [Option.bind_some, Array.getElem?_eq_getElem hi]⟩

theorem byte_eq_ok {b : BufferId} {i : ℕ} {v : UInt8} :
    m.byte b i = .ok v ↔ (m.bytes? b).bind (fun bytes => bytes[i]?) = some v := by
  unfold byte
  split
  · next w hw => rw [hw, Except.ok.injEq, Option.some.injEq]
  · next hnone => simp [hnone]

section Devices

variable {δ : Type} [Device δ]

theorem Sound.read_direct (h : m.Sound) (hin : m.Within) {a : UInt16} {b : BufferId} {offset : ℕ}
    (hp : m.page a .read = .direct b offset) (ds : Devices δ) : ∃ v, m.read a ds = .ok (v, ds) := by
  have hlt : offset + inPage a < m.bufferSize b := by
    have := h.page_within hin hp
    have := inPage_lt a
    omega
  obtain ⟨v, hv⟩ := exists_byte hlt
  exact ⟨v, by rw [MemoryMap.read, hp]; dsimp only; rw [hv]; rfl⟩

theorem Sound.write_direct (h : m.Sound) (hin : m.Within) {a : UInt16} {b : BufferId} {offset : ℕ}
    (hp : m.page a .write = .direct b offset) (v : UInt8) (ds : Devices δ) :
    ∃ m', m.write a v ds = .ok (m', ds) := by
  have hlt : offset + inPage a < m.bufferSize b := by
    have := h.page_within hin hp
    have := inPage_lt a
    omega
  exact ⟨_, by rw [MemoryMap.write, hp]; dsimp only; rw [setByte, if_pos hlt]; rfl⟩

end Devices

end MemoryMap
end TandemZ80
