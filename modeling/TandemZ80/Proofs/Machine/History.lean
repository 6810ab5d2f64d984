import TandemZ80.Proofs.Machine.Resumption
import TandemZ80.Proofs.Machine.Untimed

/-!
# A reset erases history

Machines that are built alike and have the same in their memories run alike after a reset, whatever
has happened to their processors, their schedulers and the latches of their links before. Of all
that only the counts of T-states are left, which steer nothing.

* `Machine.Closed`, a machine to which nothing is attached from outside, in any state;
  `Machine.withHistory`, such a machine in another state;
* `Machine.SameContents`, machines that are built alike and hold the same;
* `Machine.SameContents.reset_like`, what two such machines have in common after a reset;
* `Machine.reset_erases_history`.
-/

namespace TandemZ80.Machine

variable {δ : Type} {m m' : Machine δ}

/-- A machine with RAM, images and perhaps the link, in any state of its processors, its scheduler
and its latches. A window names its buffer by 32 bits, so there are no more buffers than that. -/
structure Closed (m : Machine δ) : Prop where
  ramBuffers : m.ramBuffers = .both ⟨0⟩
  layered : ∀ s, (m.board s).memory.Layered
  buffers : ∀ s, (m.board s).memory.buffers.size ≤ UInt32.size
  ports : ∀ s, (m.board s).ports = .linked s m.linkId
  link : ∀ id, m.linkId = some id → ∃ l, m.hardware.devices.get? id = some (.link l)

theorem Plain.closed {k : ℕ} (h : m.Plain k) (hk : k < UInt32.size) : m.Closed :=
  ⟨h.ramBuffers, h.layered, fun s => (h.dated s).buffers.trans hk, h.ports, h.link⟩

/-- Plain operations reach such machines, unless they map images without end. -/
theorem PlainlyReached.closed [Device δ] (h : m.PlainlyReached)
    (hbuffers : m.bufferCount ≤ 2 ^ 31) : m.Closed := by
  obtain ⟨k, hk, hplain⟩ := h.exists_plain hbuffers
  exact hplain.closed hk

/-- Machines with the same configuration, the same RAM and the same images over it, and the link
attached to both or to neither. -/
structure SameContents (m m' : Machine δ) : Prop where
  config : m'.config = m.config
  ram : ∀ s, m'.ram s = m.ram s
  overlay : ∀ s a, (m'.board s).memory.overlay? a = (m.board s).memory.overlay? a
  link : m'.linkId.isSome = m.linkId.isSome

theorem SameContents.showsLike (h : SameContents m m') (hm : m.Closed) (hm' : m'.Closed)
    (s : Side) : (m.board s).memory.ShowsLike (m'.board s).memory := by
  refine ⟨h.overlay s, fun a => ?_⟩
  obtain ⟨bytes, hbytes, -⟩ := (hm.layered s).bytes?_ram
  obtain ⟨bytes', hbytes', -⟩ := (hm'.layered s).bytes?_ram
  have hram : bytes' = bytes := by
    have hsame := h.ram s
    unfold Machine.ram at hsame
    rw [hm.ramBuffers, hm'.ramBuffers,
      show (PerSide.both (⟨0⟩ : BufferId)).get s = ⟨0⟩ by cases s <;> rfl, hbytes,
      hbytes'] at hsame
    exact hsame
  rw [(hm.layered s).image?_last, (hm'.layered s).image?_last, hbytes, hbytes', hram]

/-! ### Another history -/

/-- The same machine with its processors, its scheduler and the latches of its link in other
states. -/
def withHistory (m : Machine δ) (cpus : PerSide Cpu) (scheduler : Scheduler) (l : ParallelLink) :
    Machine δ :=
  { m with
    hardware :=
      { boards := ⟨{ m.board .main with cpu := cpus.main }, { m.board .sub with cpu := cpus.sub }⟩
        devices := m.linkId.elim m.hardware.devices fun id =>
          m.hardware.devices.put id (some (.link l)) }
    scheduler }

theorem Closed.get?_withHistory (h : m.Closed) {id : DeviceId} (hid : m.linkId = some id)
    (cpus : PerSide Cpu) (scheduler : Scheduler) (l : ParallelLink) :
    (m.withHistory cpus scheduler l).hardware.devices.get? id = some (.link l) := by
  obtain ⟨l₀, hl⟩ := h.link id hid
  show (m.linkId.elim _ _ : Devices (Part δ)).get? id = _
  rw [hid]
  exact Devices.get?_put hl (.link l)

theorem Closed.withHistory (h : m.Closed) (cpus : PerSide Cpu) (scheduler : Scheduler)
    (l : ParallelLink) : (m.withHistory cpus scheduler l).Closed where
  ramBuffers := h.ramBuffers
  layered s := by
    have := h.layered s
    cases s <;> exact this
  buffers s := by
    have := h.buffers s
    cases s <;> exact this
  ports s := by
    have := h.ports s
    cases s <;> exact this
  link id hid := ⟨l, h.get?_withHistory hid cpus scheduler l⟩

theorem sameContents_withHistory (m : Machine δ) (cpus : PerSide Cpu) (scheduler : Scheduler)
    (l : ParallelLink) : SameContents m (m.withHistory cpus scheduler l) where
  config := rfl
  ram s := by cases s <;> rfl
  overlay s a := by cases s <;> rfl
  link := rfl

/-! ### After a reset -/

/-- Machines of which one shows the same as the other but for the counts of T-states. -/
def LikeButTicks (c c' : Setting) (m m' : Machine δ) : Prop :=
  ∃ m₁, Like c c' m m₁ ∧ m₁.SameButTicks m'

theorem LikeButTicks.save_eq {c c' : Setting} (h : LikeButTicks c c' m m') :
    m'.save.untimed = m.save.untimed := by
  obtain ⟨m₁, hlike, hsame⟩ := h
  rw [hsame.save_eq, hlike.save_eq]

variable [Device δ]

/-- After a reset the sub processor is not idle, and the scheduler has no use for its old
weights. -/
theorem runs_reset (m : Machine δ) (s : Scheduler) (budget : UInt32) :
    runs { m.reset with scheduler := s.reset } budget =
      Scheduler.initial.execBoth Hardware.processors m.config.ratio.weights budget
        m.reset.hardware := by
  rw [← s.execBoth_reset]
  show (if (m.config.idleSkip && false) = true then _ else
    s.reset.execBoth Hardware.processors m.config.ratio.weights budget m.reset.hardware) = _
  rw [Bool.and_false, if_neg Bool.false_ne_true]

theorem execute_reset (m : Machine δ) (s : Scheduler) (budget : UInt32) :
    execute budget { m.reset with scheduler := s.reset } = m.reset.execute budget := by
  have hruns : m.reset.runs budget = runs { m.reset with scheduler := s.reset } budget :=
    (m.runs_reset m.scheduler budget).trans (m.runs_reset s budget).symm
  rw [execute_eq, execute_eq, hruns]

/-- After a reset of both, the latches are clear. -/
theorem SameContents.sameLink_reset (hs : SameContents m m') (h : m.Closed) (h' : m'.Closed)
    (k k' : ℕ) :
    Devices.SameLink (m.setting k) (m'.setting k') m.hardware.devices.resetAll
      m'.hardware.devices.resetAll := by
  refine sameLink_resetAll rfl rfl ?_
  have hsome := hs.link
  show (m.linkId = none ∧ m'.linkId = none) ∨ _
  cases hid : m.linkId with
  | none =>
    rw [hid, Option.isSome_none, Option.isSome_eq_false_iff, Option.isNone_iff_eq_none] at hsome
    exact .inl ⟨rfl, hsome⟩
  | some id =>
    rw [hid, Option.isSome_some, Option.isSome_iff_exists] at hsome
    obtain ⟨id', hid'⟩ := hsome
    obtain ⟨l, hl⟩ := h.link id hid
    obtain ⟨l', hl'⟩ := h'.link id' hid'
    exact .inr ⟨id, id', l, l', hid, hid', hl, hl'⟩

/-- After a reset of both, the processors are in the same state but for their counts, and no window
is in use. -/
theorem SameContents.reset_like (hs : SameContents m m') (h : m.Closed) (h' : m'.Closed) :
    LikeButTicks (m.setting (UInt32.size - 1)) (m'.setting (UInt32.size - 1)) m.reset
      { m'.reset with scheduler := m.scheduler.reset } := by
  let boards : PerSide Board :=
    ⟨{ m'.board .main with cpu := (m.cpu .main).reset },
      { m'.board .sub with cpu := (m.cpu .sub).reset }⟩
  -- Between the two lies the second machine with the counts of the first.
  refine ⟨{ m'.reset with
    hardware := ⟨boards, m'.hardware.devices.resetAll⟩, scheduler := m.scheduler.reset }, ?_, ?_⟩
  · have hplane :
        ∀ s, Backplane.Like s (m.setting (UInt32.size - 1)) (m'.setting (UInt32.size - 1)) none
          none ⟨(m.board s).memory, (m.board s).ports, m.hardware.devices.resetAll⟩
          ⟨(m'.board s).memory, (m'.board s).ports, m'.hardware.devices.resetAll⟩ := fun s =>
      ⟨⟨h.layered s, .of_size (h.buffers s), h.ports s⟩,
        ⟨h'.layered s, .of_size (h'.buffers s), h'.ports s⟩, hs.showsLike h h' s,
        hs.sameLink_reset h h' _ _⟩
    refine ⟨⟨fun s => ?_, fun s => ?_⟩, rfl, hs.config, rfl, rfl, h.ramBuffers, h'.ramBuffers⟩
    · cases s <;> exact .refl _
    · have := hplane s
      cases s <;> exact this
  · refine ⟨⟨fun s => ⟨(m'.cpu s).ticks, ?_⟩, fun s => ?_⟩, rfl, rfl, rfl, rfl⟩ <;> cases s <;> rfl

theorem LikeButTicks.execute {c c' : Setting} (h : LikeButTicks c c' m m')
    (hc : c.changes < UInt32.size) (hc' : c'.changes < UInt32.size) (budget : UInt32) :
    Fault.AlikeUnless (· = .overflow) (System.Answers (LikeButTicks c c')) (m.execute budget)
      (m'.execute budget) := by
  obtain ⟨m₁, hlike, hsame⟩ := h
  refine (hsame.execute budget).after (hlike.execute hc hc' budget) ?_
  rintro r r₁ r' ⟨hn, hlike₁⟩ ⟨hn', hsame₁⟩
  exact ⟨hn.trans hn', r₁.2, hlike₁, hsame₁⟩

/-- Machines as a system of which the counts of T-states do not show. -/
def untimed : System (Operation δ) Answer Snapshot (Session δ) :=
  { system with view := fun t => t.machine.save.untimed }

/-- Two machines that are built alike and hold the same do the same after a reset, in whatever state
they were before: all runs return the same, and after each of them RAM, the latches of the link, the
scheduler and the processors are in the same state, the counts of T-states apart. -/
theorem reset_erases_history (hm : m.Closed) (hm' : m'.Closed) (hs : SameContents m m')
    (budgets : List UInt32) (images images' : List (Option RomHandle))
    (hfits : .error .overflow ∉ untimed.trace (budgets.map .execute) ⟨m.reset, images⟩)
    (hfits' : .error .overflow ∉ untimed.trace (budgets.map .execute) ⟨m'.reset, images'⟩) :
    untimed.trace (budgets.map .execute) ⟨m.reset, images⟩ =
      untimed.trace (budgets.map .execute) ⟨m'.reset, images'⟩ := by
  -- The schedulers may differ in their weights until the first run sets them.
  have hfirst : untimed.trace (budgets.map .execute) ⟨m'.reset, images'⟩ =
      untimed.trace (budgets.map .execute)
        ⟨{ m'.reset with scheduler := m.scheduler.reset }, images'⟩ := by
    refine System.trace_congr fun op hop => ?_
    obtain ⟨budget, -, rfl⟩ := List.mem_map.1 hop
    show _ <$> m'.reset.execute budget =
      _ <$> execute budget { m'.reset with scheduler := m.scheduler.reset }
    rw [execute_reset]
  rw [hfirst] at hfits' ⊢
  have hsize : UInt32.size - 1 < UInt32.size := by decide
  refine System.trace_eq_unless (T := (· = .overflow))
    (P := fun op => ∃ budget, op = .execute budget)
    (R := fun t t' => LikeButTicks (m.setting (UInt32.size - 1)) (m'.setting (UInt32.size - 1))
      t.machine t'.machine) ?_ (fun t t' ht => ht.save_eq.symm) ?_ (hs.reset_like hm hm') ?_ ?_
  · rintro _ ⟨budget, rfl⟩ t t' ht
    refine (ht.execute hsize hsize budget).map ?_
    rintro ⟨n, machine⟩ ⟨n', machine'⟩ ⟨hn, hlike⟩
    exact ⟨congrArg Answer.moved hn, hlike⟩
  · intro op hop
    obtain ⟨budget, -, rfl⟩ := List.mem_map.1 hop
    exact ⟨budget, rfl⟩
  · rintro _ rfl
    exact hfits
  · rintro _ rfl
    exact hfits'

/-! ### A machine that has been in use -/

/-- A processor that has fetched the first opcode after a reset. -/
def begun (w : Option Window) (ticks : Ticks) : Cpu :=
  { Cpu.initial with regs := { Cpu.initial.regs.refresh with pc := 1 }, window := w, ticks }

theorem step_of_reset (s : Cpu) :
    s.reset.step = .ask (Bus.Call.window 0) fun w => .ask (Bus.Call.read 0) fun v =>
      Exec.instruction 0 v (begun w s.ticks) >>= Cpu.finish s.reset := rfl

/-- After a reset a processor executes the NOP at the beginning of its memory. -/
theorem step_nop {h : Hardware δ} {s : Side} {u : Cpu} {sum : Ticks}
    (hcpu : (h.boards.get s).cpu = u.reset) (hlayered : (h.plane s).memory.Layered)
    (hzero : (h.plane s).memory.view 0 = 0)
    (hsum : u.ticks.add (.ofCost (UInt32.ofNat 4)) = .ok sum) :
    ∃ v, Hardware.step s h = .done (4, h.settle s v (h.plane s)) := by
  let w := (h.plane s).memory.window 0
  have hinstruction : Exec.instruction 0 0 (begun w u.ticks) = .done (some 4, begun w u.ticks) :=
    rfl
  have hfinish : Cpu.finish u.reset (some 4, begun w u.ticks) = .done (4, begun w sum) := by
    unfold Cpu.finish
    dsimp only
    rw [if_pos (by decide), show (begun w u.ticks).ticks.add _ = .ok sum from hsum]
    rfl
  have hrelay :
      u.reset.step.relay Backplane.serve (h.plane s) = .done ((4, begun w sum), h.plane s) := by
    rw [step_of_reset]
    show Backplane.serve (.read 0) (h.plane s) >>= _ = _
    rw [hlayered.serve_read, Dialogue.done_bind, hzero]
    show Dialogue.relay _ (Exec.instruction 0 0 (begun w u.ticks) >>= _) (h.plane s) = _
    rw [hinstruction, Dialogue.done_bind, hfinish]
    rfl
  rw [Hardware.step_eq, hcpu, hrelay]
  exact ⟨begun w sum, rfl⟩

/-- Two processors that each take a step of 4 T-states. -/
theorem execBoth_of_steps {σ : Type} {p : Processors σ} {st st₁ st₂ : σ}
    (hmain : p.step .main st = .done (4, st₁)) (hsub : p.step .sub st₁ = .done (4, st₂)) :
    ∃ r, Scheduler.initial.execBoth p ClockRatio.oneToOne.weights 4 st = .ok r := by
  let lane (clock : UInt64) : Lane := ⟨clock, 1, 4, none, false⟩
  have hbegin : Scheduler.initial.prepare ClockRatio.oneToOne.weights 4 =
      .ok { Scheduler.initial with targets := .both 4 } := rfl
  have hturn : Lanes.turn p .main ⟨lane 0, lane 0⟩ st = .ok (⟨lane 4, lane 0⟩, st₁) := by
    rw [Lanes.turn_eq, hmain]
    rfl
  have hturn' : Lanes.turn p .sub ⟨lane 4, lane 0⟩ st₁ = .ok (⟨lane 4, lane 4⟩, st₂) := by
    rw [Lanes.turn_eq, hsub]
    rfl
  obtain ⟨n, hn⟩ : ∃ n, Scheduler.turnLimit = n + 3 :=
    ⟨Scheduler.turnLimit - 3, (Nat.sub_add_cancel (by decide)).symm⟩
  have hrun : Lanes.run p Scheduler.turnLimit ⟨lane 0, lane 0⟩ st =
      .ok (⟨lane 4, lane 4⟩, st₂) := by
    rw [hn, Lanes.run_of_next_some (s := .main) rfl, hturn]
    show Lanes.run p (n + 2) ⟨lane 4, lane 0⟩ st₁ = _
    rw [Lanes.run_of_next_some (s := .sub) rfl, hturn']
    exact Lanes.run_of_next_none (p := p) (l := ⟨lane 4, lane 4⟩) rfl n st₂
  rw [Scheduler.execBoth_of_prepare hbegin, Scheduler.finish_eq]
  show ∃ r, _ <$> Lanes.run p Scheduler.turnLimit ⟨lane 0, lane 0⟩ st = _
  rw [hrun]
  exact ⟨_, rfl⟩

/-- With a NOP at the beginning of both memories a run of 4 T-states after a reset returns. -/
theorem execute_nop (hm : m.Closed) (hratio : m.config.ratio = .oneToOne)
    (hzero : ∀ s, (m.board s).memory.view 0 = 0)
    (hsum : ∀ s, ∃ sum, (m.cpu s).ticks.add (.ofCost (UInt32.ofNat 4)) = .ok sum) :
    ∃ r, m.reset.execute 4 = .ok r := by
  obtain ⟨sum, hmain⟩ := hsum .main
  obtain ⟨sum', hsub⟩ := hsum .sub
  obtain ⟨u, hu⟩ :=
    step_nop (h := m.reset.hardware) (s := .main) (u := m.cpu .main) rfl (hm.layered .main)
    (hzero .main) hmain
  obtain ⟨v, hv⟩ := step_nop (h := m.reset.hardware.settle .main u (m.reset.hardware.plane .main))
    (s := .sub) (u := m.cpu .sub) rfl (hm.layered .sub) (hzero .sub) hsub
  obtain ⟨r, hr⟩ : ∃ r, Scheduler.initial.execBoth Hardware.processors ClockRatio.oneToOne.weights 4
      m.reset.hardware = .ok r := execBoth_of_steps hu hv
  have hruns : m.reset.runs 4 = .ok r := by
    rw [← hr, ← hratio]
    exact m.runs_reset m.scheduler 4
  rw [execute_eq, hruns]
  exact ⟨_, rfl⟩

/-- The memory of a new machine shows zeros. -/
theorem view_ofRam (device : DeviceId) (a : UInt16) : (MemoryMap.ofRam device).view a = 0 := by
  have hoverlay : (MemoryMap.ofRam device).overlay? a = none := by
    refine List.findSome?_eq_none_iff.2 fun t ht => ?_
    unfold MemoryMap.image?
    rw [held_ofRam, if_neg (of_decide_eq_true (List.mem_filter.1 ht).2)]
  have hram : (MemoryMap.ofRam device).image? .last a = some 0 := by
    have hbytes : (MemoryMap.ofRam device).bytes? ⟨0⟩ = some (Array.replicate ramSize 0) := rfl
    rw [(layered_ofRam device).image?_last, hbytes, Option.bind_some, Array.getElem?_replicate,
      if_pos (show a.toNat < ramSize from a.toNat_lt)]
  rw [MemoryMap.view_eq, hoverlay, hram]
  rfl

/-- A new machine with the link attached, at the beginning of its zeros. -/
theorem linked_new {m₀ : Machine δ} (hnew : new .standard = .ok m₀) :
    m₀.attachLink.2.Closed ∧ m₀.attachLink.2.config = .standard ∧
      m₀.attachLink.2.scheduler = .initial ∧ (∀ s, m₀.attachLink.2.cpu s = .initial) ∧
      ∀ s, (m₀.attachLink.2.board s).memory.view 0 = 0 := by
  refine ⟨(plain_new hnew).attachLink.closed (by decide), ?_⟩
  rw [new_eq_ok hnew]
  refine ⟨rfl, rfl, fun s => ?_, fun s => ?_⟩
  · cases s <;> rfl
  · cases s <;> exact view_ofRam _ 0

/-- A run that returns has not overflowed. -/
theorem overflow_notMem_trace {budget : UInt32} (h : ∃ r, m.execute budget = .ok r)
    (images : List (Option RomHandle)) :
    .error .overflow ∉ untimed.trace ([budget].map .execute) ⟨m, images⟩ := by
  obtain ⟨r, hr⟩ := h
  have hperform :
      untimed.perform (.execute budget) ⟨m, images⟩ = .ok (.moved r.1, ⟨r.2, images⟩) := by
    show _ <$> m.execute budget = _
    rw [hr]
    rfl
  simp [System.trace, hperform]

/-- A halted processor with something in A and an interrupt requested. -/
def wornCpu : Cpu :=
  { Cpu.initial with
    regs := { Cpu.initial.regs with a := 5, pc := 0x1234, halted := true },
    nmiPending := true, ticks := ⟨7⟩ }

/-- A scheduler that has counted at the other ratio. -/
def wornScheduler : Scheduler := ⟨⟨9, 4⟩, ⟨8, 8⟩, ClockRatio.twoToOne.weights⟩

/-- A link with something in all latches. -/
def wornLink : ParallelLink := ⟨.both ⟨0x55, 0xF0⟩⟩

/-- A new machine with the link attached, and one that has been in use. -/
theorem worn_history_erased :
    ∃ m m' : Machine ParallelLink, m.Closed ∧ m'.Closed ∧ SameContents m m' ∧
      (m.cpu .main = .initial ∧ m'.cpu .main = wornCpu) ∧
      (m.scheduler = .initial ∧ m'.scheduler = wornScheduler) ∧
      (m.link? = some .initial ∧ m'.link? = some wornLink) ∧
      .error .overflow ∉ untimed.trace ([4].map .execute) ⟨m.reset, []⟩ ∧
      .error .overflow ∉ untimed.trace ([4].map .execute) ⟨m'.reset, []⟩ ∧
      untimed.trace ([4].map .execute) ⟨m.reset, []⟩ =
        untimed.trace ([4].map .execute) ⟨m'.reset, []⟩ := by
  obtain ⟨m₀, hnew⟩ : ∃ m₀ : Machine ParallelLink, new .standard = .ok m₀ := ⟨_, rfl⟩
  obtain ⟨hclosed, hconfig, hscheduler, hcpu, hzero⟩ := linked_new hnew
  have hid : m₀.attachLink.2.linkId = some ⟨2⟩ ∧ m₀.attachLink.2.link? = some .initial := by
    rw [new_eq_ok hnew]
    exact ⟨rfl, rfl⟩
  generalize m₀.attachLink.2 = m at *
  let m' := m.withHistory ⟨wornCpu, Cpu.initial⟩ wornScheduler wornLink
  have hclosed' : m'.Closed := hclosed.withHistory _ _ _
  have hsame : SameContents m m' := sameContents_withHistory m _ _ _
  have hlink' : m'.link? = some wornLink :=
    link?_eq_some.2 ⟨⟨2⟩, hid.1, hclosed.get?_withHistory hid.1 _ _ _⟩
  have hexecute : ∃ r, m.reset.execute 4 = .ok r :=
    execute_nop hclosed (congrArg Config.ratio hconfig) hzero fun s => ⟨⟨4⟩, by rw [hcpu s]; rfl⟩
  have hexecute' : ∃ r, m'.reset.execute 4 = .ok r := by
    refine execute_nop hclosed' (congrArg Config.ratio hconfig) (fun s => ?_) fun s => ?_
    · have := hzero s
      cases s <;> exact this
    · cases s
      · exact ⟨⟨11⟩, rfl⟩
      · exact ⟨⟨4⟩, rfl⟩
  have hfits := overflow_notMem_trace hexecute []
  have hfits' := overflow_notMem_trace hexecute' []
  exact ⟨m, m', hclosed, hclosed', hsame, ⟨hcpu .main, rfl⟩, ⟨hscheduler, rfl⟩,
    ⟨hid.2, hlink'⟩, hfits, hfits', reset_erases_history hclosed hclosed' hsame [4] [] []
    hfits hfits'⟩

end TandemZ80.Machine
