import TandemZ80.ParallelLink
import TandemZ80.Proofs.Alike
import TandemZ80.Proofs.Memory.Held
import TandemZ80.Proofs.Memory.Sizes

/-!
# A memory map is its ledger

A memory map updates tables of what is shown in every page; a ledger has only what was granted. The
two cannot be told apart: after any sequence of operations they answer alike and show the same.

* `MemoryMap.Agrees`, a map and a ledger with the same buffers, clients and grants;
* one lemma for each operation, and `Agrees.perform` for all of them;
* `Agrees.view_eq`, agreeing maps and ledgers show the same.
-/

namespace TandemZ80.MemoryMap

open Page (Holds)

variable {m : MemoryMap} {n : Ledger} {s : Slot}

/-- A sound map, and a ledger of its buffers, clients and grants. -/
structure Agrees (m : MemoryMap) (n : Ledger) : Prop where
  sound : m.Sound
  within : m.Within
  buffers : n.buffers = m.buffers.toList.map Array.toList
  clients : ∀ s, (n.clients s).map (·.device) = m.clients.get s
  grants : ∀ q p s, n.grant? q p s = m.held q p s

theorem agrees_empty : Agrees empty .empty := by
  have hheld : ∀ q p s, MemoryMap.empty.held q p s = none := fun q p s =>
    Sound.empty.clients q p s (by simp [MemoryMap.empty, Vector.get])
  refine ⟨.empty, fun q p s b offset h => ?_, rfl, fun s => ?_, fun q p s => ?_⟩
  · rw [hheld] at h
    cases h
  · simp [MemoryMap.empty, Ledger.empty, Vector.get]
  · rw [hheld]
    rfl

/-! ### What is shown -/

namespace Agrees

theorem holder?_eq (h : m.Agrees n) (q : Access) (p : Page) : n.holder? q p = m.holder? q p := by
  unfold Ledger.holder? MemoryMap.holder?
  simp only [h.grants]

theorem page_eq (h : m.Agrees n) (a : UInt16) (q : Access) : m.page a q = n.shown q (.of a) := by
  rw [h.sound.page_eq, Ledger.shown, h.holder?_eq]
  cases m.holder? q (.of a) with
  | none => rfl
  | some s =>
    rw [Option.bind_some]
    dsimp only
    rw [h.grants]

theorem client_isSome (h : m.Agrees n) (s : Slot) :
    (n.clients s).isSome = (m.clients.get s).isSome := by
  rw [← h.clients, Option.isSome_map]

theorem view_eq (h : m.Agrees n) {δ : Type} [Device δ] (ds ds' : Devices δ) :
    MemoryMap.system.view (m, ds) = Ledger.system.view (n, ds') := by
  apply View.ext
  · funext a q
    exact h.page_eq a q
  · funext s a q
    show m.ownPage s a q = (n.clients s).map fun c => (c.grants q (.of a)).getD .unmapped
    rw [h.sound.ownPage_eq, ← h.client_isSome, ← h.grants, Ledger.grant?]
    cases n.clients s <;> rfl
  · funext a q
    exact (owner_eq m a q).trans (h.holder?_eq q (.of a)).symm

/-! ### Buffers -/

theorem bytes_eq (h : m.Agrees n) (b : BufferId) :
    n.bytes b = ((m.bytes? b).map Array.toList).getD [] := by
  unfold Ledger.bytes bytes?
  rw [h.buffers, List.getElem?_map, Array.getElem?_toList]

theorem length_bytes (h : m.Agrees n) (b : BufferId) : (n.bytes b).length = m.bufferSize b := by
  rw [h.bytes_eq, bufferSize]
  cases m.bytes? b <;> rfl

theorem byte_eq (h : m.Agrees n) (b : BufferId) (i : ℕ) :
    m.byte b i = match (n.bytes b)[i]? with
      | some v => .ok v
      | none => .error .outOfBounds := by
  rw [h.bytes_eq, byte]
  cases m.bytes? b with
  | none => rfl
  | some bytes =>
    have hlist : bytes.toList[i]? = bytes[i]? := Array.getElem?_toList
    rw [Option.bind_some, Option.map_some, Option.getD_some]
    cases hbyte : bytes[i]? with
    | none => rw [hlist.trans hbyte]
    | some v => rw [hlist.trans hbyte]

/-- Buffers may be added or changed, but must not become shorter. -/
theorem of_buffers (h : m.Agrees n) {buffers : Array (Array UInt8)} {bytes : List (List UInt8)}
    (hbytes : bytes = buffers.toList.map Array.toList)
    (hsize : ∀ b, m.bufferSize b ≤ { m with buffers }.bufferSize b) :
    { m with buffers }.Agrees { n with buffers := bytes } where
  sound := h.sound.of_buffers buffers
  within q p s b offset hb := (h.within q p s b offset hb).trans (hsize b)
  buffers := hbytes
  clients := h.clients
  grants := h.grants

theorem addBuffer (h : m.Agrees n) (bytes : Array UInt8) :
    (m.addBuffer bytes).1 = ⟨n.buffers.length⟩ ∧
      (m.addBuffer bytes).2.Agrees { n with buffers := n.buffers ++ [bytes.toList] } := by
  refine ⟨?_, h.of_buffers ?_ fun b => ?_⟩
  · rw [h.buffers, List.length_map, Array.length_toList]
    rfl
  · rw [h.buffers, Array.toList_push, List.map_append]
    rfl
  · rcases (m.bufferSize b).eq_zero_or_pos with hb | hb
    · exact hb ▸ Nat.zero_le _
    · exact (retains_addBuffer m bytes b hb).ge

theorem setByte (h : m.Agrees n) (b : BufferId) (i : ℕ) (v : UInt8) :
    Fault.Alike Agrees (m.setByte b i v) (n.setByte b i v) := by
  unfold MemoryMap.setByte Ledger.setByte
  rw [h.length_bytes]
  by_cases hi : i < m.bufferSize b
  · rw [if_pos hi, if_pos hi]
    refine .ok (h.of_buffers ?_ fun c => ?_)
    · rw [h.buffers]
      ext1 j
      rw [List.getElem?_modify, List.getElem?_map, List.getElem?_map, Array.getElem?_toList,
        Array.getElem?_toList, Array.getElem?_modify]
      by_cases hj : b.index = j
      · cases m.buffers[j]? <;> simp [hj]
      · simp [hj]
    · exact (bufferSize_modify m (fun _ => Array.size_setIfInBounds) _ c).ge
  · rw [if_neg hi, if_neg hi]
    exact .error _

/-! ### Clients -/

theorem clients_eq_none_iff (h : m.Agrees n) (s : Slot) :
    n.clients s = none ↔ m.clients.get s = none := by
  rw [← h.clients, Option.map_eq_none_iff]

theorem free?_eq (h : m.Agrees n) (priority : Bool) : n.free? priority = m.freeSlot? priority := by
  have hfree : ∀ s, (n.clients s).isNone = (m.clients.get s).isNone := fun s => by
    rw [← h.clients, Option.isNone_map]
  unfold Ledger.free? freeSlot?
  simp only [hfree]
  split <;> rfl

/-- The backstop is the client of the last slot. -/
theorem leaves_iff (h : m.Agrees n) (s : Slot) :
    n.Leaves s ↔ ¬(m.backstop = some s ∨ m.clients.get s = none) := by
  rw [h.sound.backstop, Ledger.Leaves, h.client_isSome]
  by_cases hlast : s = Slot.last
  · subst hlast
    cases m.clients.get Slot.last <;> simp
  · have hback : ¬(if (m.clients.get Slot.last).isSome then some Slot.last else none) = some s := by
      split <;> simp [Ne.symm hlast]
    rw [or_iff_right hback, ← ne_eq, ← Option.isSome_iff_ne_none]
    exact and_iff_right hlast

theorem grant?_setClient (n : Ledger) (s : Slot) (c : Option Ledger.Client) (q : Access) (p : Page)
    (t : Slot) :
    (n.setClient s c).grant? q p t = if t = s then c.bind (·.grants q p) else n.grant? q p t := by
  unfold Ledger.grant? Ledger.setClient
  dsimp only
  rw [Function.update_apply]
  split <;> rfl

theorem grants_change (c : Ledger.Client) (access q : Access)
    (f : Page → Option Mapping → Option Mapping) (p : Page) :
    (c.change access f).grants q p =
      if access.covers q then f p (c.grants q p) else c.grants q p := by
  unfold Ledger.Client.change Ledger.Client.grants Access.covers
  cases q.reads <;> rfl

theorem connect (h : m.Agrees n) (device : DeviceId) (priority : Bool) :
    (m.connect device priority).1 = (n.connect device priority).1 ∧
      (m.connect device priority).2.Agrees (n.connect device priority).2 := by
  have hsound := h.sound.connect device priority
  unfold MemoryMap.connect at hsound ⊢
  unfold Ledger.connect
  rw [h.free?_eq]
  cases hs : m.freeSlot? priority with
  | none => exact ⟨rfl, h⟩
  | some s =>
    rw [hs] at hsound
    refine ⟨rfl, hsound, h.within, h.buffers, fun t => ?_, fun q p t => ?_⟩
    · show (Function.update n.clients s _ t).map _ = (m.clients.set s (some device) s.isLt).get t
      rw [get_set_client, Function.update_apply]
      split
      · rfl
      · exact h.clients t
    · show (n.setClient s _).grant? q p t = m.held q p t
      rw [grant?_setClient]
      split_ifs with hts
      · subst hts
        rw [h.sound.clients q p t (freeSlot?_eq_some hs)]
        cases q <;> rfl
      · exact h.grants q p t

/-- A client's grants change in both alike. -/
theorem change (h : m.Agrees n) {m' : MemoryMap} (hsound : m'.Sound) (hwithin : m'.Within)
    (hbuffers : m'.buffers = m.buffers) (hclients : m'.clients = m.clients) (access : Access)
    {f : Page → Option Mapping → Option Mapping}
    (hheld : ∀ q p t, m'.held q p t =
      if t = s ∧ access.covers q then (m.clients.get t).bind fun _ => f p (m.held q p t)
      else m.held q p t) :
    m'.Agrees (n.change s access f) := by
  refine ⟨hsound, hwithin, hbuffers ▸ h.buffers, fun t => ?_, fun q p t => ?_⟩
  · show (Function.update n.clients s _ t).map _ = m'.clients.get t
    rw [hclients, ← h.clients, Function.update_apply]
    split_ifs with hts
    · subst hts
      cases n.clients t <;> rfl
    · rfl
  · show (n.setClient s _).grant? q p t = _
    rw [hheld, grant?_setClient]
    by_cases hts : t = s
    · subst hts
      rw [if_pos rfl, ← h.grants, ← h.clients]
      unfold Ledger.grant?
      cases n.clients t with
      | none => simp
      | some c => simp [grants_change]
    · rw [if_neg hts, if_neg fun e => hts e.1]
      exact h.grants q p t

theorem grant (h : m.Agrees n) (hs : (m.clients.get s).isSome) (addr : UInt16) (len : ℕ)
    {mapping : Page → Mapping} (access : Access)
    (hin : ∀ p b offset, Holds addr len p → mapping p = .direct b offset →
      offset + pageSize ≤ m.bufferSize b) :
    (m.grant s (Page.meets addr len) mapping access).Agrees
      (n.change s access fun p old => if Holds addr len p then some (mapping p) else old) := by
  refine h.change (h.sound.grant hs _ _ _) (fun q p t b offset ht => ?_) rfl rfl access
    fun q p t => ?_
  · rw [held_grant] at ht
    split_ifs at ht with hp
    · exact hin p b offset (Page.meets_iff_holds.1 hp.2.1) (Option.some.inj ht)
    · exact h.within q p t b offset ht
  · rw [held_grant]
    simp only [Page.meets_iff_holds]
    by_cases hts : t = s
    · subst hts
      obtain ⟨device, hd⟩ := Option.isSome_iff_exists.1 hs
      by_cases hq : access.covers q = true <;> simp [hq, hd]
    · simp [hts]

theorem revoke (h : m.Agrees n) (s : Slot) (addr : UInt16) (len : ℕ) (access : Access) :
    (m.revoke s (Page.meets addr len) access).Agrees
      (n.change s access fun p old => if Holds addr len p then none else old) := by
  refine h.change (h.sound.revoke s _ _) (fun q p t b offset ht => ?_) rfl rfl access
    fun q p t => ?_
  · rw [held_revoke] at ht
    split_ifs at ht
    exact h.within q p t b offset ht
  · rw [held_revoke]
    simp only [Page.meets_iff_holds]
    by_cases hts : t = s
    · subst hts
      cases hc : m.clients.get t with
      | none => simp [h.sound.clients q p t hc]
      | some device => by_cases hq : access.covers q = true <;> simp [hq]
    · simp [hts]

theorem alloc (h : m.Agrees n) (s : Slot) (addr : UInt16) (len : ℕ) (target : Target)
    (access : Access) (hfits : (Operation.alloc s addr len target access).Fits) :
    ∃ m', m.alloc s addr len target access = .ok ((n.alloc s addr len target access).1, m') ∧
      m'.Agrees (n.alloc s addr len target access).2 := by
  obtain ⟨hrange, htarget⟩ := hfits
  unfold MemoryMap.alloc Ledger.alloc
  cases hc : n.clients s with
  | none =>
    rw [(h.clients_eq_none_iff s).1 hc]
    exact ⟨m, rfl, h⟩
  | some c =>
    have hdevice : m.clients.get s = some c.device := by rw [← h.clients, hc]; rfl
    have hs : (m.clients.get s).isSome := by rw [hdevice]; rfl
    rw [hdevice]
    dsimp only
    rw [checkRange, Fault.require_of hrange]
    cases target with
    | device =>
      refine ⟨_, rfl, h.grant hs addr len access ?_⟩
      intro p b offset _ he
      cases he
    | buffer b offset stride =>
      dsimp only at htarget ⊢
      rw [Fault.require_of htarget, h.length_bytes]
      by_cases hok : 0 < len ∧ ∀ p, Holds addr len p →
          offset + (p - (Page.of addr).val) * stride + pageSize ≤ m.bufferSize b
      · have hlast := (Page.forall_holds_place_le_iff hok.1 _ _ _).1 hok.2
        rw [if_pos hok]
        simp only [hok.1.ne', not_lt.2 hlast, or_self, if_false, bind, Except.bind]
        refine ⟨_, rfl, h.grant hs addr len access ?_⟩
        rintro p b' offset' hp he
        cases he
        exact hok.2 p hp
      · have hrefused : len = 0 ∨
            m.bufferSize b < offset + (Page.countMeeting addr len - 1) * stride + pageSize := by
          rw [not_and] at hok
          refine len.eq_zero_or_pos.imp_right fun hlen => ?_
          exact not_le.1 fun hle => hok hlen ((Page.forall_holds_place_le_iff hlen _ _ _).2 hle)
        rw [if_neg hok]
        simp only [hrefused, if_true, bind, Except.bind]
        exact ⟨m, rfl, h⟩

theorem release (h : m.Agrees n) (s : Slot) (addr : UInt16) (len : ℕ) (access : Access) :
    Fault.Alike Agrees (m.release s addr len access) (n.release s addr len access) := by
  unfold MemoryMap.release Ledger.release
  by_cases hs : n.Leaves s
  · rw [if_pos hs, if_neg ((h.leaves_iff s).1 hs), checkRange]
    by_cases hrange : addr.toNat + len < UInt64.size
    · rw [Fault.require_of hrange, if_pos hrange]
      exact .ok (h.revoke s addr len access)
    · rw [Fault.require_of_not hrange, if_neg hrange]
      exact .error _
  · rw [if_neg hs, if_pos (not_not.1 fun hb => hs ((h.leaves_iff s).2 hb))]
    exact .ok h

theorem disconnect (h : m.Agrees n) (s : Slot) :
    (m.disconnect s).1 = (n.disconnect s).1 ∧ (m.disconnect s).2.Agrees (n.disconnect s).2 := by
  have hsound := h.sound.disconnect s
  unfold MemoryMap.disconnect at hsound ⊢
  unfold Ledger.disconnect
  by_cases hs : n.Leaves s
  · have hb := (h.leaves_iff s).1 hs
    rw [if_neg hb] at hsound ⊢
    rw [if_pos hs]
    have hheld : ∀ q p t, (m.revoke s (fun _ => true) .readWrite).held q p t =
        if t = s then none else m.held q p t := fun q p t => by
      rw [held_revoke]
      cases q <;> simp [Access.covers, Access.reads, Access.writes]
    refine ⟨rfl, hsound, fun q p t b offset ht => ?_, h.buffers, fun t => ?_, fun q p t => ?_⟩
    · have ht : (m.revoke s (fun _ => true) .readWrite).held q p t = some (.direct b offset) := ht
      rw [hheld] at ht
      split_ifs at ht
      exact h.within q p t b offset ht
    · show (Function.update n.clients s none t).map _ = (m.clients.set s none s.isLt).get t
      rw [get_set_client, Function.update_apply]
      split
      · rfl
      · exact h.clients t
    · show (n.setClient s none).grant? q p t = (m.revoke s (fun _ => true) .readWrite).held q p t
      rw [hheld, grant?_setClient, h.grants]
      rfl
  · rw [if_neg hs, if_pos (not_not.1 fun hb => hs ((h.leaves_iff s).2 hb))]
    exact ⟨rfl, h⟩

/-! ### Accesses -/

section Devices

variable {δ : Type} [Device δ]

theorem read (h : m.Agrees n) (a : UInt16) (ds : Devices δ) : m.read a ds = n.read a ds := by
  unfold MemoryMap.read Ledger.read
  rw [h.page_eq]
  cases n.shown .read (.of a) with
  | direct b offset =>
    dsimp only
    rw [h.byte_eq, inPage]
    cases (n.bytes b)[offset + a.toNat % pageSize]? <;> rfl
  | routed device => rfl
  | unmapped => rfl

theorem write (h : m.Agrees n) (a : UInt16) (v : UInt8) (ds : Devices δ) :
    Fault.Alike (fun r r' => r.1.Agrees r'.1 ∧ r.2 = r'.2) (m.write a v ds) (n.write a v ds) := by
  unfold MemoryMap.write Ledger.write
  rw [h.page_eq]
  cases n.shown .write (.of a) with
  | direct b offset => exact (h.setByte b _ v).map fun _ _ hm => ⟨hm, rfl⟩
  | routed device => exact (Fault.Alike.refl (fun _ => rfl) _).map fun _ _ hds => ⟨h, hds⟩
  | unmapped => exact .ok ⟨h, rfl⟩

/-! ### Operations -/

/-- Agreement, with the same devices beside both. -/
def Beside (r : MemoryMap × Devices δ) (r' : Ledger × Devices δ) : Prop :=
  r.1.Agrees r'.1 ∧ r.2 = r'.2

/-- Every operation is answered alike, and keeps the agreement. -/
theorem perform (op : Operation) (hop : op.Fits) (r : MemoryMap × Devices δ)
    (r' : Ledger × Devices δ) (h : Beside r r') :
    Fault.Alike (System.Answers Beside) (MemoryMap.system.perform op r)
      (Ledger.system.perform op r') := by
  obtain ⟨m, ds⟩ := r
  obtain ⟨n, ds'⟩ := r'
  obtain ⟨h, hds⟩ := h
  dsimp only at h hds
  subst hds
  cases op with
  | addBuffer bytes =>
    obtain ⟨hb, hm⟩ := h.addBuffer bytes
    exact .ok ⟨congrArg Answer.buffer hb, hm, rfl⟩
  | setByte b i v => exact (h.setByte b i v).map fun _ _ hm => ⟨rfl, hm, rfl⟩
  | connect device priority =>
    obtain ⟨hs, hm⟩ := h.connect device priority
    exact .ok ⟨congrArg Answer.slot hs, hm, rfl⟩
  | disconnect s =>
    obtain ⟨hb, hm⟩ := h.disconnect s
    exact .ok ⟨congrArg Answer.accepted hb, hm, rfl⟩
  | alloc s addr len target access =>
    obtain ⟨m', he, hm⟩ := h.alloc s addr len target access hop
    unfold MemoryMap.system Ledger.system
    dsimp only
    rw [he]
    exact .ok ⟨rfl, hm, rfl⟩
  | release s addr len access =>
    exact (h.release s addr len access).map fun _ _ hm => ⟨rfl, hm, rfl⟩
  | read a =>
    unfold MemoryMap.system Ledger.system
    dsimp only
    rw [h.read]
    exact (Fault.Alike.refl (fun _ => rfl) _).map fun r r' (hr : r = r') => hr ▸ ⟨rfl, h, rfl⟩
  | write a v => exact (h.write a v ds).map fun _ _ hm => ⟨rfl, hm.1, hm.2⟩

theorem trace_eq (h : m.Agrees n) {ops : List Operation} (hops : ∀ op ∈ ops, op.Fits)
    (ds : Devices δ) :
    MemoryMap.system.trace ops (m, ds) = Ledger.system.trace ops (n, ds) :=
  System.trace_eq perform (fun r r' h => h.1.view_eq r.2 r'.2) hops ⟨h, rfl⟩

/-- What is reached by a sequence of operations agrees with a ledger. -/
theorem of_run (h : m.Agrees n) {ops : List Operation} (hops : ∀ op ∈ ops, op.Fits)
    {ds ds' : Devices δ} {m' : MemoryMap}
    (hrun : MemoryMap.system.run ops (m, ds) = .ok (m', ds')) : ∃ n', m'.Agrees n' := by
  refine System.run_keeps (I := fun r => ∃ n : Ledger, r.1.Agrees n) ?_ hops ⟨n, h⟩ hrun
  rintro op hop r _ ⟨n, h⟩ hr
  obtain ⟨s, -, hs⟩ := (perform op hop r (n, r.2) ⟨h, rfl⟩).exists_eq_ok hr
  exact ⟨s.2.1, hs.2.1⟩

end Devices

end Agrees

/-! ### Whatever is done -/

/-- From nothing on, a memory map answers and shows what its ledger does, whatever operations follow
one another. In all maps that are reached this way a new client holds nothing, and bytes of a buffer
that a page shows, or that a client has put there, lie inside the buffer, so that reading and
writing them succeeds. -/
theorem trace_eq_ledger {δ : Type} [Device δ] (ops : List Operation) (hops : ∀ op ∈ ops, op.Fits)
    (ds : Devices δ) :
    MemoryMap.system.trace ops (.empty, ds) = Ledger.system.trace ops (.empty, ds) ∧
      ∀ m ds', MemoryMap.system.run ops (.empty, ds) = .ok (m, ds') →
        (∀ device priority s, (m.connect device priority).1 = some s →
          ∀ a q, (m.connect device priority).2.ownPage s a q = some .unmapped) ∧
        (∀ a q b offset, m.page a q = .direct b offset → offset + pageSize ≤ m.bufferSize b) ∧
        (∀ s a q b offset, m.ownPage s a q = some (.direct b offset) →
          offset + pageSize ≤ m.bufferSize b) ∧
        (∀ a b offset (ds : Devices δ), m.page a .read = .direct b offset →
          ∃ v, m.read a ds = .ok (v, ds)) ∧
        ∀ a v b offset (ds : Devices δ), m.page a .write = .direct b offset →
          ∃ m', m.write a v ds = .ok (m', ds) := by
  refine ⟨agrees_empty.trace_eq hops ds, fun m ds' hrun => ?_⟩
  obtain ⟨n, h⟩ := agrees_empty.of_run hops hrun
  refine ⟨?_, ?_, ?_, ?_, ?_⟩
  · intro device priority s hs a q
    exact h.sound.ownPage_connect hs a q
  · intro a q b offset hp
    exact h.sound.page_within h.within hp
  · intro s a q b offset hp
    exact h.sound.ownPage_within h.within hp
  · intro a b offset ds hp
    exact h.sound.read_direct h.within hp ds
  · intro a v b offset ds hp
    exact h.sound.write_direct h.within hp v ds

/-- An overlay over a backstop leaves, and a new client takes its slot. -/
def overlay : List Operation :=
  [.addBuffer (Array.replicate 0x800 0x11), .addBuffer (Array.replicate 0x400 0x22),
    .connect ⟨0⟩ false, .connect ⟨1⟩ true,
    .alloc ⟨15, by decide⟩ 0 0x800 (.buffer ⟨0⟩ 0 pageSize) .readWrite,
    .alloc ⟨0, by decide⟩ 0x400 0x400 (.buffer ⟨1⟩ 0 0) .read, .read 0x400,
    .disconnect ⟨15, by decide⟩, .disconnect ⟨0, by decide⟩, .connect ⟨2⟩ true, .read 0x400,
    .write 0x400 0x33, .read 0x400]

/-- The bytes that are read are those of the overlay, of the backstop, and the one that was
written. -/
theorem overlay_trace_eq_ledger :
    (MemoryMap.system.trace overlay (.empty, (.empty : Devices ParallelLink))).map
          (Except.map Prod.fst) =
        ([.buffer ⟨0⟩, .buffer ⟨1⟩, .slot (some ⟨15, by decide⟩), .slot (some ⟨0, by decide⟩),
          .accepted true, .accepted true, .byte 0x22, .accepted false, .accepted true,
          .slot (some ⟨0, by decide⟩), .byte 0x11, .done, .byte 0x33] : List Answer).map .ok ∧
      (∀ op ∈ overlay, op.Fits) ∧
      MemoryMap.system.trace overlay (.empty, (.empty : Devices ParallelLink)) =
        Ledger.system.trace overlay (.empty, (.empty : Devices ParallelLink)) := by
  have hfits : ∀ op ∈ overlay, op.Fits := by
    decide
  exact ⟨by decide +kernel, hfits, (trace_eq_ledger overlay hfits .empty).1⟩

end TandemZ80.MemoryMap
