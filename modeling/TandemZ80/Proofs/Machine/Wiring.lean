import TandemZ80.Proofs.Machine.Restore

/-!
# The wiring of the link

The ports of a machine lead to its link, or nowhere. So what they answer depends on the link alone,
and not on the name it goes by.

* `Ports.linked`, the ports of a side with the link wired to them, and `Ports.connect_link`;
* `Line.Twin`, lines that lead to the same functions of a link under two names;
* `Devices.SameLink`, two arenas with the same link; `Ports.input_linked`, `Ports.output_linked`,
  `Ports.isShared_linked` and `Ports.acknowledge_linked`, what follows for the ports.
-/

namespace TandemZ80

open ParallelLink (connectors functions)

/-! ### The functions of a link -/

namespace ParallelLink

variable {func : ℕ}

theorem exists_sideOf (h : func < 2 * functions) : ∃ s, sideOf func = .ok s := by
  unfold sideOf
  by_cases hmain : func < functions
  · exact ⟨.main, if_pos hmain⟩
  · exact ⟨.sub, by rw [if_neg hmain, if_pos h]⟩

theorem exists_input (l : ParallelLink) (h : func < 2 * functions) : ∃ v, l.input func = .ok v := by
  obtain ⟨s, hs⟩ := exists_sideOf h
  unfold input
  rw [hs]
  exact ⟨_, rfl⟩

theorem exists_output (l : ParallelLink) (h : func < 2 * functions) (v : UInt8) :
    ∃ l', l.output func v = .ok l' := by
  obtain ⟨s, hs⟩ := exists_sideOf h
  unfold output
  rw [hs]
  exact ⟨_, rfl⟩

end ParallelLink

/-! ### Lines -/

/-- A line on which functions of one device are attached. -/
def Line.of (ins outs : List ℕ) (shared : Bool) (id : DeviceId) : Line :=
  { inputs := ins.map (Handler.mk id), outputs := outs.map (Handler.mk id), shared }

/-- Lines that lead to the same functions of a link, under the name `id` in one and `id'` in the
other. -/
def Line.Twin (id id' : DeviceId) (l l' : Line) : Prop :=
  ∃ ins outs shared, (∀ f ∈ ins, f < 2 * functions) ∧ (∀ f ∈ outs, f < 2 * functions) ∧
    l = .of ins outs shared id ∧ l' = .of ins outs shared id'

namespace Line.Twin

variable {id id' : DeviceId} {l l' : Line}

theorem empty (id id' : DeviceId) : Twin id id' .empty .empty :=
  ⟨[], [], false, by simp, by simp, rfl, rfl⟩

theorem attach (h : Twin id id' l l') {f : ℕ} (hf : f < 2 * functions) (direction : Direction) :
    Twin id id' (l.attach ⟨id, f⟩ direction) (l'.attach ⟨id', f⟩ direction) := by
  obtain ⟨ins, outs, shared, hins, houts, rfl, rfl⟩ := h
  have happend : ∀ fs : List ℕ, (∀ g ∈ fs, g < 2 * functions) →
      ∀ g ∈ fs ++ [f], g < 2 * functions := by
    intro fs hfs g hg
    rcases List.mem_append.1 hg with hg | hg
    · exact hfs g hg
    · rwa [List.mem_singleton.1 hg]
  cases direction with
  | input =>
    exact ⟨ins ++ [f], outs, shared, happend ins hins, houts, by simp [of, Line.attach],
      by simp [of, Line.attach]⟩
  | output =>
    exact ⟨ins, outs ++ [f], shared, hins, happend outs houts, by simp [of, Line.attach],
      by simp [of, Line.attach]⟩

theorem setShared (h : Twin id id' l l') (shared : Bool) :
    Twin id id' { l with shared } { l' with shared } := by
  obtain ⟨ins, outs, _, hins, houts, rfl, rfl⟩ := h
  exact ⟨ins, outs, shared, hins, houts, rfl, rfl⟩

end Line.Twin

/-! ### Ports -/

namespace Ports

/-- The ports of a side with the link wired to them, if there is one. -/
def linked (s : Side) : Option DeviceId → Ports
  | none => .empty
  | some id => (connectors s).foldl (wire id) .empty

theorem line_modify (p : Ports) (port q : UInt16) (f : Line → Line) :
    (p.modify port f).line q = if lineOf port = lineOf q then f (p.line port) else p.line q := by
  unfold modify line
  simp only [Fin.getElem_fin, Vector.getElem_set, Fin.ext_iff]

theorem line_empty (q : UInt16) : empty.line q = .empty := by
  simp [line, empty]

variable {id id' : DeviceId} {p p' : Ports}

theorem twin_modify (h : ∀ q, Line.Twin id id' (p.line q) (p'.line q)) (port : UInt16)
    {f f' : Line → Line} (hf : ∀ l l', Line.Twin id id' l l' → Line.Twin id id' (f l) (f' l'))
    (q : UInt16) :
    Line.Twin id id' ((p.modify port f).line q) ((p'.modify port f').line q) := by
  rw [line_modify, line_modify]
  split_ifs
  · exact hf _ _ (h port)
  · exact h q

theorem twin_wire (h : ∀ q, Line.Twin id id' (p.line q) (p'.line q)) {c : Connector}
    (hc : c.func < 2 * functions) (q : UInt16) :
    Line.Twin id id' ((wire id p c).line q) ((wire id' p' c).line q) := by
  have hattach := twin_modify h c.port fun l l' hl => hl.attach hc c.direction
  unfold wire
  dsimp only
  split_ifs
  · exact twin_modify hattach c.port (fun l l' hl => hl.setShared true) q
  · exact hattach q

theorem twin_foldl_wire {rows : List Connector} (hrows : ∀ c ∈ rows, c.func < 2 * functions)
    (h : ∀ q, Line.Twin id id' (p.line q) (p'.line q)) (q : UInt16) :
    Line.Twin id id' ((rows.foldl (wire id) p).line q) ((rows.foldl (wire id') p').line q) := by
  induction rows generalizing p p' with
  | nil => exact h q
  | cons c rows ih =>
    rw [List.forall_mem_cons] at hrows
    rw [List.foldl_cons, List.foldl_cons]
    exact ih hrows.2 fun q => twin_wire h hrows.1 q

theorem func_of_mem_connectors {s : Side} {c : Connector} (hc : c ∈ connectors s) :
    c.func < 2 * functions := by
  revert c
  cases s <;> decide

theorem twin_linked (s : Side) (id id' : DeviceId) (q : UInt16) :
    Line.Twin id id' ((linked s (some id)).line q) ((linked s (some id')).line q) := by
  rw [linked, linked]
  refine twin_foldl_wire (fun c hc => func_of_mem_connectors hc) (fun q => ?_) q
  rw [line_empty]
  exact .empty id id'

/-- A line that no row names stays as it is. -/
theorem line_foldl_wire {rows : List Connector} {q : UInt16}
    (hrows : ∀ c ∈ rows, lineOf c.port ≠ lineOf q) :
    (rows.foldl (wire id) p).line q = p.line q := by
  induction rows generalizing p with
  | nil => rfl
  | cons c rows ih =>
    rw [List.forall_mem_cons] at hrows
    rw [List.foldl_cons, ih hrows.2]
    unfold wire
    dsimp only
    split_ifs
    · rw [setShared, line_modify, if_neg hrows.1, attach, line_modify, if_neg hrows.1]
    · rw [attach, line_modify, if_neg hrows.1]

/-- The link takes no part in interrupts. -/
theorem line_acknowledge (s : Side) (o : Option DeviceId) :
    (linked s o).line acknowledgePort = .empty := by
  cases o with
  | none => exact line_empty _
  | some id =>
    have hrows : ∀ c ∈ connectors s, lineOf c.port ≠ lineOf acknowledgePort := by
      cases s <;> decide
    rw [linked, line_foldl_wire hrows, line_empty]

end Ports

/-! ### Access to the link -/

/-- What two machines that show the same need not have in common: the name of the link, the number
of names given to devices, and how often the mapping of a processor may have changed. -/
structure Setting where
  link : Option DeviceId
  names : ℕ
  changes : ℕ

/-- No link in either arena, or the same link in both, under a name of its own in each. -/
structure Devices.SameLink {δ : Type} (c c' : Setting) (ds ds' : Devices (Part δ)) : Prop where
  left : ds.slots.size = c.names
  right : ds'.slots.size = c'.names
  link : (c.link = none ∧ c'.link = none) ∨ ∃ id id' l, c.link = some id ∧ c'.link = some id' ∧
    ds.get? id = some (.link l) ∧ ds'.get? id' = some (.link l)

variable {δ : Type} {c c' : Setting} {ds ds' : Devices (Part δ)}

theorem Devices.SameLink.isSome_eq (h : SameLink c c' ds ds') : c.link.isSome = c'.link.isSome := by
  rcases h.link with ⟨hc, hc'⟩ | ⟨id, id', l, hc, hc', -⟩
  · rw [hc, hc']
  · rw [hc, hc']
    rfl

variable [Device δ]

namespace Devices

theorem input_link {id : DeviceId} {l : ParallelLink} (h : ds.get? id = some (.link l)) {func : ℕ}
    {v : UInt8} (hv : l.input func = .ok v) (port : UInt16) :
    ds.input id func port = .ok (v, ds.put id (some (.link l))) := by
  unfold Devices.input readBy
  rw [h]
  show (Part.input (.link l) func port >>= _) = _
  unfold Part.input
  show ((fun r : UInt8 × ParallelLink => (r.1, Part.link r.2)) <$>
    ((·, l) <$> l.input func) >>= _) = _
  rw [hv]
  rfl

theorem output_link {id : DeviceId} {l l' : ParallelLink} (h : ds.get? id = some (.link l))
    {func : ℕ} {v : UInt8} (hv : l.output func v = .ok l') (port : UInt16) :
    ds.output id func port v = .ok (ds.put id (some (.link l'))) := by
  unfold Devices.output writeBy
  rw [h]
  show (Part.output (.link l) func port v >>= _) = _
  unfold Part.output
  show (Part.link <$> l.output func v >>= _) = _
  rw [hv]
  rfl

end Devices

namespace Ports

variable {id id' : DeviceId} {l : ParallelLink}

theorem askAll_link {fs : List ℕ} (hfs : ∀ f ∈ fs, f < 2 * functions) (port : UInt16)
    (h : ds.get? id = some (.link l)) (h' : ds'.get? id' = some (.link l)) :
    ∃ v ds₁ ds₁', askAll port (fs.map (Handler.mk id)) ds = .ok (v, ds₁) ∧
      askAll port (fs.map (Handler.mk id')) ds' = .ok (v, ds₁') ∧
      ds₁.slots.size = ds.slots.size ∧ ds₁'.slots.size = ds'.slots.size ∧
      ds₁.get? id = some (.link l) ∧ ds₁'.get? id' = some (.link l) := by
  induction fs generalizing ds ds' with
  | nil => exact ⟨0xFF, ds, ds', rfl, rfl, rfl, rfl, h, h'⟩
  | cons f fs ih =>
    rw [List.forall_mem_cons] at hfs
    obtain ⟨v, hv⟩ := l.exists_input hfs.1
    obtain ⟨w, ds₁, ds₁', hask, hask', hsize, hsize', hget⟩ :=
      ih hfs.2 (Devices.get?_put h (.link l)) (Devices.get?_put h' (.link l))
    rw [Devices.size_put] at hsize hsize'
    refine ⟨v &&& w, ds₁, ds₁', ?_, ?_, hsize, hsize', hget⟩
    · rw [List.map_cons, askAll, Devices.input_link h hv]
      show (askAll port _ _ >>= _) = _
      rw [hask]
      rfl
    · rw [List.map_cons, askAll, Devices.input_link h' hv]
      show (askAll port _ _ >>= _) = _
      rw [hask']
      rfl

theorem tellAll_link {fs : List ℕ} (hfs : ∀ f ∈ fs, f < 2 * functions) (port : UInt16) (v : UInt8)
    (h : ds.get? id = some (.link l)) (h' : ds'.get? id' = some (.link l)) :
    ∃ l₁ ds₁ ds₁', tellAll port v (fs.map (Handler.mk id)) ds = .ok ds₁ ∧
      tellAll port v (fs.map (Handler.mk id')) ds' = .ok ds₁' ∧
      ds₁.slots.size = ds.slots.size ∧ ds₁'.slots.size = ds'.slots.size ∧
      ds₁.get? id = some (.link l₁) ∧ ds₁'.get? id' = some (.link l₁) := by
  induction fs generalizing l ds ds' with
  | nil => exact ⟨l, ds, ds', rfl, rfl, rfl, rfl, h, h'⟩
  | cons f fs ih =>
    rw [List.forall_mem_cons] at hfs
    obtain ⟨l₁, hl₁⟩ := l.exists_output hfs.1 v
    obtain ⟨l₂, ds₁, ds₁', htell, htell', hsize, hsize', hget⟩ :=
      ih hfs.2 (Devices.get?_put h (.link l₁)) (Devices.get?_put h' (.link l₁))
    rw [Devices.size_put] at hsize hsize'
    refine ⟨l₂, ds₁, ds₁', ?_, ?_, hsize, hsize', hget⟩
    · rw [List.map_cons, tellAll, Devices.output_link h hl₁]
      exact htell
    · rw [List.map_cons, tellAll, Devices.output_link h' hl₁]
      exact htell'

theorem input_linked (h : Devices.SameLink c c' ds ds') (s : Side) (port : UInt16) :
    ∃ v ds₁ ds₁', (linked s c.link).input port ds = .ok (v, ds₁) ∧
      (linked s c'.link).input port ds' = .ok (v, ds₁') ∧ Devices.SameLink c c' ds₁ ds₁' := by
  rcases h.link with ⟨hc, hc'⟩ | ⟨id, id', l, hc, hc', hget, hget'⟩
  · refine ⟨0xFF, ds, ds', ?_, ?_, h⟩
    · rw [input, hc, linked, line_empty]
      rfl
    · rw [input, hc', linked, line_empty]
      rfl
  · obtain ⟨ins, outs, shared, hins, -, hl, hl'⟩ := twin_linked s id id' port
    obtain ⟨v, ds₁, ds₁', hask, hask', hsize, hsize', hsame⟩ := askAll_link hins port hget hget'
    refine ⟨v, ds₁, ds₁', ?_, ?_, hsize.trans h.left, hsize'.trans h.right,
      .inr ⟨id, id', l, hc, hc', hsame⟩⟩
    · rw [input, hc, hl]
      exact hask
    · rw [input, hc', hl']
      exact hask'

theorem output_linked (h : Devices.SameLink c c' ds ds') (s : Side) (port : UInt16) (v : UInt8) :
    ∃ ds₁ ds₁', (linked s c.link).output port v ds = .ok ds₁ ∧
      (linked s c'.link).output port v ds' = .ok ds₁' ∧ Devices.SameLink c c' ds₁ ds₁' := by
  rcases h.link with ⟨hc, hc'⟩ | ⟨id, id', l, hc, hc', hget, hget'⟩
  · refine ⟨ds, ds', ?_, ?_, h⟩
    · rw [output, hc, linked, line_empty]
      rfl
    · rw [output, hc', linked, line_empty]
      rfl
  · obtain ⟨ins, outs, shared, -, houts, hl, hl'⟩ := twin_linked s id id' port
    obtain ⟨l₁, ds₁, ds₁', htell, htell', hsize, hsize', hsame⟩ :=
      tellAll_link houts port v hget hget'
    refine ⟨ds₁, ds₁', ?_, ?_, hsize.trans h.left, hsize'.trans h.right,
      .inr ⟨id, id', l₁, hc, hc', hsame⟩⟩
    · rw [output, hc, hl]
      exact htell
    · rw [output, hc', hl']
      exact htell'

theorem isShared_linked (h : c.link.isSome = c'.link.isSome) (s : Side) (port : UInt16) :
    (linked s c.link).isShared port = (linked s c'.link).isShared port := by
  cases hc : c.link with
  | none =>
    cases hc' : c'.link with
    | none => rfl
    | some id' =>
      rw [hc, hc'] at h
      cases h
  | some id =>
    cases hc' : c'.link with
    | none =>
      rw [hc, hc'] at h
      cases h
    | some id' =>
      obtain ⟨ins, outs, shared, -, -, hl, hl'⟩ := twin_linked s id id' port
      rw [isShared, isShared, hl, hl']
      rfl

theorem acknowledge_linked (s : Side) (o : Option DeviceId) (ds : Devices (Part δ)) :
    (linked s o).acknowledge ds = .ok (0xFF, ds) := by
  rw [acknowledge, input, line_acknowledge]
  rfl

/-- Connecting the link to ports that lead nowhere. -/
theorem connect_link (h : ds.get? id = some (.link l)) (s : Side) :
    (empty.connect ds id (connectors s)).2 = linked s (some id) := by
  unfold connect Devices.descriptor?
  rw [h]
  have hfits : ∀ c ∈ connectors s, Fits (Device.descriptor (Part.link (δ := δ) l)) c := by
    show ∀ c ∈ connectors s, Fits ParallelLink.descriptor c
    cases s <;> decide
  show (if _ then _ else _ : Bool × Ports).2 = _
  rw [if_pos hfits]
  rfl

end Ports
end TandemZ80
