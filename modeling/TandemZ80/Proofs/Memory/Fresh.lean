import TandemZ80.Proofs.Memory.Agreement

/-!
# Windows that are fresh

A window shows a page of a buffer past the memory map, and is taken for fresh if its generation is
that of the map. One counter of 32 bits stands for all changes of the mapping. It moves exactly when
an operation takes effect on the mapping, so as long as it has not come round, a window is fresh
exactly if no operation has taken effect since it was issued; and a fresh window shows the byte that
is read through the map, whatever has been written to the buffers.

* `MemoryMap.Lays`, a window that lies on what the map shows, and `MemoryMap.lays_window`;
* `Lays.readWindow`, what a fresh one shows;
* `MemoryMap.arbiter`, memory maps as a system of their own, and `MemoryMap.steps`, all that happens
  in a sequence of operations;
* `Step.TakesEffect`, and `perform_effect`: the counter moves exactly with the mapping;
* `MemoryMap.window_fresh`.
-/

namespace TandemZ80.MemoryMap

variable {m m' : MemoryMap} {w : Window} {a : UInt16}

/-! ### Windows and pages -/

/-- The window lies on the bytes that the map shows at its addresses. -/
def Lays (m : MemoryMap) (w : Window) : Prop :=
  ∀ a, w.contains a = true → ∃ b offset, m.page a .read = .direct b offset ∧
    w.buffer.toNat = b.index ∧ w.index a = offset + inPage a

/-- The addresses of a window are those of one page. -/
theorem window_contains {w : Window} (hbase : w.base = UInt16.ofNat (a.toNat - inPage a))
    (hlen : w.len = UInt16.ofNat pageSize) {a' : UInt16} (ha' : w.contains a' = true) :
    Page.of a' = Page.of a ∧ (a' - w.base).toNat = inPage a' := by
  have ha := a.toNat_lt
  have ha₁ := a'.toNat_lt
  have hlt : (a' - w.base).toNat < 1024 := by
    have := of_decide_eq_true ha'
    rw [hlen] at this
    exact this
  have hbase' : w.base.toNat = a.toNat - a.toNat % 1024 := by
    rw [hbase, inPage, UInt16.toNat_ofNat_of_lt' (by simp only [UInt16.size]; omega)]
    rfl
  rw [UInt16.toNat_sub, hbase'] at hlt ⊢
  refine ⟨Fin.ext ?_, ?_⟩
  · simp only [Page.val_of, pageSize]
    omega
  · simp only [inPage, pageSize]
    omega

theorem page_congr (m : MemoryMap) {a a' : UInt16} (h : Page.of a' = Page.of a) (q : Access) :
    m.page a' q = m.page a q := by
  unfold page cell
  rw [h]

/-- A window that is issued lies on what is shown, if the place of the page fits its 32 bits. -/
theorem lays_window (hw : m.window a = some w)
    (hfits : ∀ b offset, m.page a .read = .direct b offset →
      b.index < UInt32.size ∧ offset < UInt32.size) : m.Lays w := by
  unfold window at hw
  cases hp : m.page a .read with
  | direct b offset =>
    rw [hp] at hw
    cases hw
    obtain ⟨hb, hoffset⟩ := hfits b offset hp
    intro a' ha'
    obtain ⟨hpage, hplace⟩ := window_contains rfl rfl ha'
    refine ⟨b, offset, (m.page_congr hpage .read).trans hp, UInt32.toNat_ofNat_of_lt' hb, ?_⟩
    show (UInt32.ofNat offset).toNat + _ = _
    rw [hplace, UInt32.toNat_ofNat_of_lt' hoffset]
  | routed device =>
    rw [hp] at hw
    cases hw
  | unmapped =>
    rw [hp] at hw
    cases hw

theorem window_generation (hw : m.window a = some w) : w.generation = m.generation := by
  unfold window at hw
  split at hw
  · cases hw
    rfl
  · cases hw

/-- What a window lies on depends on the mapping alone. -/
theorem Lays.of_reading (h : m.Lays w) (hreading : m'.reading = m.reading) : m'.Lays w := by
  intro a ha
  have hpage : m'.page a .read = m.page a .read := by
    show ((m'.reading).get _).shown = ((m.reading).get _).shown
    rw [hreading]
  rw [hpage]
  exact h a ha

/-- A fresh window shows what is read through the map. -/
theorem Lays.readWindow (h : m.Lays w) (hsound : m.Sound) (hwithin : m.Within)
    (hfresh : w.generation = m.generation) (ha : w.contains a = true) :
    ∃ b offset v, m.page a .read = .direct b offset ∧ m.readWindow w a = some v ∧
      m.byte b (offset + inPage a) = .ok v := by
  obtain ⟨b, offset, hp, hb, hindex⟩ := h a ha
  have hlt : offset + inPage a < m.bufferSize b := by
    have := hsound.page_within hwithin hp
    have := inPage_lt a
    omega
  obtain ⟨v, hv⟩ := exists_byte hlt
  refine ⟨b, offset, v, hp, ?_, hv⟩
  rw [MemoryMap.readWindow, if_pos hfresh, hb, hindex]
  exact byte_eq_ok.1 hv

/-! ### Steps -/

/-- One operation, with the maps before and after it, and its answer. -/
structure Step where
  before : MemoryMap
  op : Operation
  answer : Answer
  after : MemoryMap

namespace Step

/-- The operation has changed the mapping: pages were allocated or given back, or a client has left
with all its pages. An operation that is refused has not. -/
def TakesEffect (t : Step) : Prop :=
  match t.op with
  | .alloc .. | .disconnect _ => t.answer = .accepted true
  | .release s .. => t.before.clients.get s ≠ none ∧ t.before.backstop ≠ some s
  | _ => False

/-- The operation has begun a new generation. -/
def Turns (t : Step) : Prop := t.after.generation ≠ t.before.generation

instance : DecidablePred Turns := fun _ => inferInstanceAs (Decidable (_ ≠ _))

end Step

section Devices

variable {δ : Type} [Device δ] {op : Operation} {x : Answer} {ds ds' : Devices δ}
  {ops : List (Operation × Devices δ)}

/-- Memory maps as a system of their own: every operation brings the devices that it may meet. -/
def arbiter : System (Operation × Devices δ) Answer View MemoryMap where
  perform op m := (fun r => (r.1, r.2.1)) <$> MemoryMap.system.perform op.1 (m, op.2)
  view m := { page := m.page, ownPage := m.ownPage, owner := m.owner }

/-- All that happens in a sequence of operations. -/
def steps : List (Operation × Devices δ) → MemoryMap → List Step
  | [], _ => []
  | op :: ops, m =>
    match arbiter.perform op m with
    | .error _ => []
    | .ok (x, m') => ⟨m, op.1, x, m'⟩ :: steps ops m'

/-- The number of operations in the sequence that begin a new generation. -/
def turns (ops : List (Operation × Devices δ)) (m : MemoryMap) : ℕ :=
  (steps ops m).countP (·.Turns)

theorem perform_eq_ok (h : arbiter.perform (op, ds) m = .ok (x, m')) :
    ∃ ds', MemoryMap.system.perform op (m, ds) = .ok (x, m', ds') := by
  obtain ⟨⟨x₁, m₁, ds'⟩, hop, hr⟩ := Fault.map_eq_ok h
  cases hr
  exact ⟨ds', hop⟩

theorem run_cons_eq_ok {op : Operation × Devices δ} (h : arbiter.run (op :: ops) m = .ok m') :
    ∃ x m₁, arbiter.perform op m = .ok (x, m₁) ∧ arbiter.run ops m₁ = .ok m' ∧
      steps (op :: ops) m = ⟨m, op.1, x, m₁⟩ :: steps ops m₁ := by
  obtain ⟨⟨x, m₁⟩, hop, hrun⟩ := Fault.bind_eq_ok h
  exact ⟨x, m₁, hop, hrun, by rw [steps, hop]⟩

/-! ### What an operation does to the mapping -/

/-- Pages are allocated in a new generation, or not at all. -/
theorem alloc_effect {s : Slot} {addr : UInt16} {len : ℕ} {target : Target} {access : Access}
    {r : Bool} (h : m.alloc s addr len target access = .ok (r, m')) :
    r = true ∧ m'.generation = m.generation + 1 ∨ r = false ∧ m' = m := by
  rcases alloc_cases h with hrefused | ⟨hgranted, mapping, -, rfl⟩
  · exact .inr hrefused
  · exact .inl ⟨hgranted, rfl⟩

theorem release_effect {s : Slot} {addr : UInt16} {len : ℕ} {access : Access}
    (h : m.release s addr len access = .ok m') :
    (m.clients.get s ≠ none ∧ m.backstop ≠ some s) ∧ m'.generation = m.generation + 1 ∨
      ¬(m.clients.get s ≠ none ∧ m.backstop ≠ some s) ∧ m' = m := by
  rcases release_cases h with ⟨hs, hsame⟩ | ⟨hs, rfl⟩
  · exact .inr ⟨fun hne => hs.elim hne.2 hne.1, hsame⟩
  · rw [not_or] at hs
    exact .inl ⟨⟨hs.2, hs.1⟩, rfl⟩

theorem disconnect_effect (m : MemoryMap) (s : Slot) :
    (m.disconnect s).1 = true ∧ (m.disconnect s).2.generation = m.generation + 1 ∨
      (m.disconnect s).1 = false ∧ (m.disconnect s).2 = m := by
  unfold disconnect
  split_ifs
  · exact .inr ⟨rfl, rfl⟩
  · exact .inl ⟨rfl, rfl⟩

theorem setByte_effect {b : BufferId} {i : ℕ} {v : UInt8} (h : m.setByte b i v = .ok m') :
    m'.reading = m.reading ∧ m'.generation = m.generation := by
  obtain ⟨-, rfl⟩ := setByte_eq_ok h
  exact ⟨rfl, rfl⟩

theorem write_effect {v : UInt8} (h : m.write a v ds = .ok (m', ds')) :
    m'.reading = m.reading ∧ m'.generation = m.generation := by
  rcases write_cases h with ⟨b, offset, -, hset, -⟩ | ⟨rfl, -⟩
  · exact setByte_effect hset
  · exact ⟨rfl, rfl⟩

/-- The counter moves on exactly with the mapping; otherwise what can be read where stays. -/
theorem perform_effect (h : MemoryMap.system.perform op (m, ds) = .ok (x, m', ds')) :
    (Step.mk m op x m').TakesEffect ∧ m'.generation = m.generation + 1 ∨
      ¬(Step.mk m op x m').TakesEffect ∧ m'.reading = m.reading ∧ m'.generation = m.generation := by
  cases op with
  | addBuffer bytes =>
    cases h
    exact .inr ⟨id, rfl, rfl⟩
  | setByte b i v =>
    obtain ⟨m₁, hset, hr⟩ := Fault.map_eq_ok h
    cases hr
    exact .inr ⟨id, setByte_effect hset⟩
  | connect device priority =>
    cases h
    refine .inr ⟨id, ?_⟩
    show (m.connect device priority).2.reading = _ ∧ (m.connect device priority).2.generation = _
    unfold connect
    cases m.freeSlot? priority <;> exact ⟨rfl, rfl⟩
  | disconnect s =>
    cases h
    rcases m.disconnect_effect s with ⟨hr, hgeneration⟩ | ⟨hr, hsame⟩
    · exact .inl ⟨congrArg Answer.accepted hr, hgeneration⟩
    · refine .inr ⟨fun hx => ?_, congrArg reading hsame, congrArg generation hsame⟩
      have hx : (m.disconnect s).1 = true := Answer.accepted.inj hx
      rw [hr] at hx
      cases hx
  | alloc s addr len target access =>
    obtain ⟨⟨r, m₁⟩, halloc, hr⟩ := Fault.map_eq_ok h
    cases hr
    rcases alloc_effect halloc with ⟨rfl, hgeneration⟩ | ⟨rfl, rfl⟩
    · exact .inl ⟨rfl, hgeneration⟩
    · exact .inr ⟨fun hx => Bool.false_ne_true (Answer.accepted.inj hx), rfl, rfl⟩
  | release s addr len access =>
    obtain ⟨m₁, hrelease, hr⟩ := Fault.map_eq_ok h
    cases hr
    rcases release_effect hrelease with ⟨heffect, hgeneration⟩ | ⟨hnone, rfl⟩
    · exact .inl ⟨heffect, hgeneration⟩
    · exact .inr ⟨hnone, rfl, rfl⟩
  | read a =>
    obtain ⟨⟨v, ds₁⟩, -, hr⟩ := Fault.map_eq_ok h
    cases hr
    exact .inr ⟨id, rfl, rfl⟩
  | write a v =>
    obtain ⟨⟨m₁, ds₁⟩, hwrite, hr⟩ := Fault.map_eq_ok h
    cases hr
    exact .inr ⟨id, write_effect hwrite⟩

/-- An operation takes effect exactly if it begins a new generation. -/
theorem perform_turns (h : MemoryMap.system.perform op (m, ds) = .ok (x, m', ds')) :
    (Step.mk m op x m').Turns ↔ (Step.mk m op x m').TakesEffect := by
  show m'.generation ≠ m.generation ↔ _
  rcases perform_effect h with ⟨heffect, hgeneration⟩ | ⟨hnone, -, hgeneration⟩
  · refine iff_of_true ?_ heffect
    rw [hgeneration]
    intro hsame
    simp at hsame
  · exact iff_of_false (not_not.2 hgeneration) hnone

/-! ### Sequences of operations -/

/-- The counter at the end of a sequence has moved by the operations that begin a new generation. -/
theorem run_generation (h : arbiter.run ops m = .ok m') :
    m'.generation = m.generation + UInt32.ofNat (turns ops m) := by
  induction ops generalizing m with
  | nil =>
    cases h
    simp [turns, steps]
  | cons op ops ih =>
    obtain ⟨x, m₁, hop, hrun, hsteps⟩ := run_cons_eq_ok h
    obtain ⟨ds', hop⟩ := perform_eq_ok hop
    rw [ih hrun, turns, turns, hsteps, List.countP_cons]
    rcases perform_effect hop with ⟨heffect, hgeneration⟩ | ⟨hnone, -, hgeneration⟩
    · rw [if_pos (decide_eq_true ((perform_turns hop).2 heffect)), hgeneration, UInt32.ofNat_add]
      ac_rfl
    · rw [if_neg (by simpa using fun ht => hnone ((perform_turns hop).1 ht)), hgeneration,
        Nat.add_zero]

/-- Without an operation that takes effect there is no new generation. -/
theorem turns_eq_zero_iff :
    turns ops m = 0 ↔ ∀ t ∈ steps ops m, ¬t.TakesEffect := by
  rw [turns, List.countP_eq_zero]
  refine forall₂_congr fun t ht => ?_
  rw [decide_eq_true_iff, not_iff_not]
  induction ops generalizing m with
  | nil => cases ht
  | cons op ops ih =>
    rw [steps] at ht
    cases hop : arbiter.perform op m with
    | error f =>
      rw [hop] at ht
      cases ht
    | ok r =>
      rw [hop] at ht
      rcases List.mem_cons.1 ht with rfl | ht
      · obtain ⟨ds', hop⟩ := perform_eq_ok hop
        exact perform_turns hop
      · exact ih ht

/-- Without an operation that takes effect, what can be read where stays. -/
theorem run_reading (h : arbiter.run ops m = .ok m') (hnone : ∀ t ∈ steps ops m, ¬t.TakesEffect) :
    m'.reading = m.reading := by
  induction ops generalizing m with
  | nil =>
    cases h
    rfl
  | cons op ops ih =>
    obtain ⟨x, m₁, hop, hrun, hsteps⟩ := run_cons_eq_ok h
    obtain ⟨ds', hop⟩ := perform_eq_ok hop
    rw [hsteps, List.forall_mem_cons] at hnone
    rcases perform_effect hop with ⟨heffect, -⟩ | ⟨-, hreading, -⟩
    · exact absurd heffect hnone.1
    · rw [ih hrun hnone.2, hreading]

/-- An allocation of pages whose place does not fit 64 bits is refused, or stops on a fault. -/
theorem alloc_of_not_fits {s : Slot} {addr : UInt16} {len : ℕ} {target : Target} {access : Access}
    {r : Bool} (hfits : ¬(Operation.alloc s addr len target access).Fits)
    (h : m.alloc s addr len target access = .ok (r, m')) : m' = m := by
  unfold alloc at h
  split at h
  · cases h
    rfl
  · obtain ⟨⟨⟩, hrange, h⟩ := Fault.bind_eq_ok h
    have hrange := Fault.require_eq_ok hrange
    split at h
    · obtain ⟨⟨⟩, hplace, -⟩ := Fault.bind_eq_ok h
      exact absurd ⟨hrange, Fault.require_eq_ok hplace⟩ hfits
    · exact absurd ⟨hrange, trivial⟩ hfits

/-- Whatever is done to a sound map, it stays one. -/
theorem Agrees.of_perform {n : Ledger} (h : m.Agrees n)
    (hop : arbiter.perform (op, ds) m = .ok (x, m')) : ∃ n', m'.Agrees n' := by
  obtain ⟨ds', hop⟩ := perform_eq_ok hop
  by_cases hfits : op.Fits
  · obtain ⟨r, -, hr⟩ := (Agrees.perform op hfits (m, ds) (n, ds) ⟨h, rfl⟩).exists_eq_ok hop
    exact ⟨r.2.1, hr.2.1⟩
  · cases op with
    | alloc s addr len target access =>
      obtain ⟨⟨r, m₁⟩, halloc, hr⟩ := Fault.map_eq_ok hop
      cases hr
      rw [alloc_of_not_fits hfits halloc]
      exact ⟨n, h⟩
    | _ => exact absurd trivial hfits

theorem Agrees.of_arbiter_run {n : Ledger} (h : m.Agrees n) (hrun : arbiter.run ops m = .ok m') :
    ∃ n', m'.Agrees n' := by
  refine System.run_keeps (I := fun m : MemoryMap => ∃ n, m.Agrees n) (P := fun _ => True) ?_
    (fun _ _ => trivial) ⟨n, h⟩ hrun
  rintro ⟨op, ds⟩ - m ⟨x, m'⟩ ⟨n, h⟩ hop
  exact h.of_perform hop

/-- As long as the counter has not come round, a window that any reachable map has issued is fresh
exactly if no operation has taken effect on the mapping since. What can be read through it then is
what is read through the map, without any device. -/
theorem window_fresh {ops₀ : List (Operation × Devices δ)} {a₀ : UInt16}
    (hreached : arbiter.run ops₀ .empty = .ok m) (hbuffers : m.buffers.size < UInt32.size)
    (hsizes : ∀ b, m.bufferSize b < UInt32.size) (hw : m.window a₀ = some w)
    (hrun : arbiter.run ops m = .ok m') (hturns : turns ops m < UInt32.size)
    (ha : w.contains a = true) :
    (∀ v, m'.readWindow w a = some v →
      (∃ b offset, m'.page a .read = .direct b offset) ∧
        ∀ ds : Devices δ, m'.read a ds = .ok (v, ds)) ∧
    ((m'.readWindow w a).isSome ↔ ∀ t ∈ steps ops m, ¬t.TakesEffect) := by
  obtain ⟨n, hm⟩ := agrees_empty.of_arbiter_run hreached
  obtain ⟨n', hm'⟩ := hm.of_arbiter_run hrun
  have hlays : m.Lays w := by
    refine lays_window hw fun b offset hp => ?_
    have hin := hm.sound.page_within hm.within hp
    have hsize := hsizes b
    have hb : b.index < m.buffers.size := index_lt (by simp only [pageSize] at hin; omega)
    exact ⟨by omega, by omega⟩
  have hdate : w.generation = m.generation := window_generation hw
  have hfresh : w.generation = m'.generation ↔ ∀ t ∈ steps ops m, ¬t.TakesEffect := by
    rw [← turns_eq_zero_iff, hdate, run_generation hrun, UInt32.left_eq_add, ← UInt32.toNat_inj,
      UInt32.toNat_ofNat_of_lt' hturns]
    rfl
  rw [← hfresh]
  by_cases hsame : w.generation = m'.generation
  · obtain ⟨b, offset, v, hp, hread, hbyte⟩ :=
      (hlays.of_reading (run_reading hrun (hfresh.1 hsame))).readWindow hm'.sound hm'.within
        hsame ha
    rw [hread]
    refine ⟨fun v' hv' => ⟨⟨b, offset, hp⟩, fun ds => ?_⟩, iff_of_true rfl hsame⟩
    obtain rfl := Option.some.inj hv'
    rw [MemoryMap.read, hp]
    dsimp only
    rw [hbyte]
    rfl
  · rw [MemoryMap.readWindow, if_neg hsame]
    exact ⟨fun v hv => (Option.some_ne_none v hv.symm).elim, iff_of_false Bool.false_ne_true hsame⟩

end Devices

theorem bufferSize_lt {k : ℕ} (h : ∀ bytes ∈ m.buffers, bytes.size < k) (hk : 0 < k)
    (b : BufferId) : m.bufferSize b < k := by
  unfold bufferSize
  cases hb : m.bytes? b with
  | none => exact hk
  | some bytes => exact h bytes (Array.mem_of_getElem? hb)

/-- A byte under the window is changed, a new client connects, and one that is not there is
refused. -/
def retouch : List Operation :=
  [.setByte ⟨1⟩ 5 0x44, .connect ⟨2⟩ true, .alloc ⟨3, by decide⟩ 0x400 0x400 .device .read,
    .write 0x405 0x55]

/-- The window on the overlay is fresh, and shows the byte that has been changed. -/
theorem retouch_window_fresh :
    ∃ m w m', arbiter.run ((overlay.take 6).map (·, (.empty : Devices ParallelLink)))
      .empty = .ok m ∧ m.window 0x400 = some w ∧
      arbiter.run (retouch.map (·, (.empty : Devices ParallelLink))) m = .ok m' ∧
      m'.readWindow w 0x405 = some 0x44 ∧
      ∀ ds : Devices ParallelLink, m'.read 0x405 ds = .ok (0x44, ds) := by
  have hcheck :
      (arbiter.run ((overlay.take 6).map (·, (.empty : Devices ParallelLink))) .empty).toOption.any
        (fun m => m.buffers.size < UInt32.size ∧ (∀ bytes ∈ m.buffers, bytes.size < UInt32.size) ∧
          (m.window 0x400).any fun w => w.contains 0x405 ∧
            turns (retouch.map (·, (.empty : Devices ParallelLink))) m < UInt32.size ∧
            (arbiter.run (retouch.map (·, (.empty : Devices ParallelLink))) m).toOption.any
              fun m' => m'.readWindow w 0x405 = some 0x44) = true := by
    decide +kernel
  simp only [Option.any_eq_true, decide_eq_true_eq] at hcheck
  obtain ⟨m, hm, hbuffers, hsizes, w, hw, ha, hturns, m', hm', hread⟩ := hcheck
  have hreached := Fault.eq_ok_of_toOption hm
  have hrun := Fault.eq_ok_of_toOption hm'
  obtain ⟨hshown, -⟩ :=
    window_fresh hreached hbuffers (bufferSize_lt hsizes (by decide)) hw hrun hturns ha
  exact ⟨m, w, m', hreached, hw, hrun, hread, (hshown _ hread).2⟩

end TandemZ80.MemoryMap
