import TandemZ80.Proofs.Machine.Runs

/-!
# Counters that are read back

A snapshot is checked for its layout and for the fields that a machine cannot take. Its counters are
not among them: the clocks and targets of the scheduler and the T-states of the processors may be
anything. Counters that are far from their end leave room for every run, except that lanes which
overtake each other long enough will fill them. Others may leave no room even for a run to begin.

* `Machine.Counters`; `Machine.recount` and `Machine.Snapshot.recount`, other counters in a machine
  and in its snapshot; `Machine.load_recount`;
* `Machine.goal` and `Machine.execute_overflow`, a run that does not begin;
* `Machine.load_keeps_counters`.
-/

namespace TandemZ80

/-! ### Snapshots -/

/-- The T-states of a snapshot are not looked at. -/
theorem Cpu.load_ticks {p : Cpu.Snapshot} {s : Cpu} (h : Cpu.load p = .ok s) (n : UInt64) :
    Cpu.load { p with ticks := n } = .ok { s with ticks := ⟨n⟩ } := by
  unfold Cpu.load Snapshot.restore? at h ⊢
  dsimp only at h ⊢
  split_ifs at h ⊢
  cases him : InterruptMode.ofByte? p.im with
  | none =>
    rw [him] at h
    cases h
  | some im =>
    rw [him] at h
    cases h
    rfl

/-- Of the fields of a scheduler only the weights are looked at. -/
theorem Scheduler.load_counters {p : Scheduler.Snapshot} {s : Scheduler}
    (h : Scheduler.load p = .ok s) (clocks targets : PerSide UInt64) :
    Scheduler.load { p with clocks, targets } = .ok { s with clocks, targets } := by
  unfold Scheduler.load at h ⊢
  dsimp only
  split_ifs at h ⊢
  cases h
  rfl

/-! ### Machines -/

namespace Machine

/-- The counters of a machine: those of its scheduler, and the T-states of its processors. -/
structure Counters where
  clocks : PerSide UInt64
  targets : PerSide UInt64
  ticks : PerSide UInt64

/-- Counters that are far from their end. -/
structure Counters.Small (n : Counters) : Prop where
  clocks : ∀ s, (n.clocks.get s).toNat < 2 ^ 62
  targets : ∀ s, (n.targets.get s).toNat < 2 ^ 62
  ticks : ∀ s, (n.ticks.get s).toNat < 2 ^ 62

/-- A snapshot with other counters. -/
def Snapshot.recount (n : Counters) (p : Snapshot) : Snapshot :=
  { p with
    cpus := ⟨{ p.cpus.main with ticks := n.ticks.main }, { p.cpus.sub with ticks := n.ticks.sub }⟩
    scheduler := { p.scheduler with clocks := n.clocks, targets := n.targets } }

variable {δ : Type} {m m' : Machine δ} {p : Snapshot}

/-- A machine with other counters. -/
def recount (n : Counters) (m : Machine δ) : Machine δ :=
  let board (s : Side) : Board :=
    { m.board s with cpu := { m.cpu s with ticks := ⟨n.ticks.get s⟩ } }
  { m with
    hardware := { m.hardware with boards := ⟨board .main, board .sub⟩ }
    scheduler := { m.scheduler with clocks := n.clocks, targets := n.targets } }

theorem cpu_recount (n : Counters) (m : Machine δ) (s : Side) :
    (m.recount n).cpu s = { m.cpu s with ticks := ⟨n.ticks.get s⟩ } := by
  cases s <;> rfl

/-- The link does not depend on the counters. -/
theorem setLink_recount (n : Counters) (m : Machine δ) (l : ParallelLink) :
    (m.recount n).setLink l = (m.setLink l).recount n := by
  have hid : (m.recount n).linkId = m.linkId := rfl
  have hlink : (m.recount n).link? = m.link? := rfl
  unfold setLink
  rw [hid, hlink]
  cases m.linkId <;> cases m.link? <;> rfl

/-- A snapshot that is taken is taken with any other counters too, and these are taken over. -/
theorem load_recount (h : m.HasRam) (hl : m.load p = .ok (.ok (), m')) (n : Counters) :
    m.load (p.recount n) = .ok (.ok (), m'.recount n) := by
  rcases load_of_hasRam h p with ⟨e, he⟩ | ⟨cpus, scheduler, hp, hcpus, hscheduler, he⟩
  · rw [he] at hl
    cases hl
  rw [he] at hl
  cases hl
  have hcpus' : ∀ s, Cpu.load ((p.recount n).cpus.get s) =
      .ok ((PerSide.mk { cpus.main with ticks := ⟨n.ticks.main⟩ }
        { cpus.sub with ticks := ⟨n.ticks.sub⟩ }).get s) := by
    intro s
    cases s
    · exact Cpu.load_ticks (hcpus .main) n.ticks.main
    · exact Cpu.load_ticks (hcpus .sub) n.ticks.sub
  rw [load_of_fits h (p := p.recount n) hp hcpus'
    (Scheduler.load_counters hscheduler n.clocks n.targets)]
  congr 2
  unfold restored
  show p.link.elim _ _ = _
  cases p.link with
  | none => rfl
  | some l => exact setLink_recount n (m.restored { p with link := none } cpus scheduler) l

theorem budget_stint (m : Machine δ) (budget : UInt32) : (m.stint budget).budget = budget := by
  unfold stint
  split <;> rfl

/-- Where the target of a processor comes to in a run. -/
def goal (m : Machine δ) (budget : UInt32) (s : Side) : ℕ :=
  m.scheduler.origin ((m.stint budget).weights m.scheduler) s + budget.toNat

variable [Device δ]

/-- No run begins if a target has no room for its budget. -/
theorem execute_overflow {budget : UInt32} {s : Side} (h : UInt64.size ≤ m.goal budget s) :
    m.execute budget = .error .overflow := by
  have hperform : (Scheduler.system Hardware.processors).perform (m.stint budget)
      (m.scheduler, m.hardware) = .error .overflow := by
    refine Scheduler.perform_overflow (i := s) ?_
    rw [budget_stint]
    exact h
  rw [execute_eq, runs_eq, hperform]
  rfl

/-- What a machine that can be reached does with the counters of a snapshot: if it takes the
snapshot, it takes it with any other counters too, and takes these over. A run for which one of them
has no room ends in an overflow. With nothing attached but RAM, images and the link, and with small
counters, a run returns, unless lanes overtake each other until a counter overflows. -/
theorem load_keeps_counters (h : m.Reached) (hl : m.load p = .ok (.ok (), m')) (n : Counters)
    (budget : UInt32) :
    m.load (p.recount n) = .ok (.ok (), m'.recount n) ∧
      (∀ s, UInt64.size ≤ (m'.recount n).goal budget s →
        (m'.recount n).execute budget = .error .overflow) ∧
      (m.PlainlyReached → m.bufferCount ≤ 2 ^ 31 → n.Small →
        (∃ r, (m'.recount n).execute budget = .ok r) ∨
          (m'.recount n).execute budget = .error .overflow ∧
            2 ^ 56 ≤ (m'.recount n).overtakings budget) := by
  have hload := load_recount h.hasRam hl n
  refine ⟨hload, fun s hgoal => execute_overflow hgoal, fun hplainly hbuffers hn => ?_⟩
  obtain ⟨k, hk, hm⟩ := hplainly.exists_plain hbuffers
  have hplain : (m'.recount n).Plain k :=
    (Session.Plain.load (t := ⟨m, []⟩) ⟨hm, fun rom hrom => by cases hrom⟩ hload).machine
  refine hplain.execute_ends hk ⟨hn.clocks, hn.targets, hplain.weights⟩ (fun s => ?_) budget
  cases s
  · exact (hn.ticks .main).le
  · exact (hn.ticks .sub).le

/-- The main target has come to its end. -/
def lastTarget : Counters where
  clocks := .both 0
  targets := ⟨18446744073709551615, 0⟩
  ticks := .both 0

/-- The counters of a new machine. -/
def noTime : Counters where
  clocks := .both 0
  targets := .both 0
  ticks := .both 0

theorem noTime_small : noTime.Small := by
  refine ⟨fun s => ?_, fun s => ?_, fun s => ?_⟩ <;> cases s <;> decide

/-- A machine whose main processor polls the link runs, and does not with its target at the end. -/
theorem polling_counters_kept :
    ∃ (m m' : Machine ParallelLink) (p : Snapshot), m'.Starting polling ∧ m.Reached ∧
      m.PlainlyReached ∧ m.bufferCount ≤ 2 ^ 31 ∧ m.load p = .ok (.ok (), m') ∧
      m.load (p.recount lastTarget) = .ok (.ok (), m'.recount lastTarget) ∧
      (m'.recount lastTarget).execute 1000 = .error .overflow ∧
      ∃ r, (m'.recount noTime).execute 1000 = .ok r := by
  obtain ⟨m₀, hnew⟩ : ∃ m₀ : Machine ParallelLink, new .standard = .ok m₀ := ⟨_, rfl⟩
  obtain ⟨m, hm⟩ : ∃ m, m = m₀.attachLink.2 := ⟨_, rfl⟩
  have hreached : m.Reached := ⟨.standard, m₀, [.attachLink], [], hnew, by rw [hm]; rfl⟩
  have hplainly : m.PlainlyReached :=
    ⟨.standard, m₀, [.attachLink], [], hnew, by simp [Operation.plain], by rw [hm]; rfl⟩
  have hplain : m.Plain 0 := hm ▸ (plain_new hnew).attachLink
  rw [new_eq_ok hnew] at hm
  have hbuffers : m.bufferCount ≤ 2 ^ 31 := by
    rw [hm]
    decide
  have hskips : m.config.idleSkip = true := by rw [hm]; rfl
  obtain ⟨m', hload, -, hstarting, hconfig, -⟩ := hplain.load_starting polling (by decide)
  have hstint : ∀ n budget, (m'.recount n).stint budget = .main budget := by
    intro n budget
    have hidle : (m'.config.idleSkip && ((m'.recount n).cpu .sub).isIdle) = true := by
      rw [cpu_recount, hconfig, hskips, hstarting.sub]
      rfl
    exact if_pos hidle
  obtain ⟨htaken, hfull, -⟩ := load_keeps_counters hreached hload lastTarget 1000
  obtain ⟨-, -, hsmall⟩ := load_keeps_counters hreached hload noTime 1000
  refine ⟨m, m', _, hstarting, hreached, hplainly, hbuffers, hload, htaken, hfull .main ?_, ?_⟩
  · rw [goal, hstint]
    show _ ≤ Scheduler.origin _ (m'.recount lastTarget).scheduler.weights .main + _
    rw [Scheduler.origin, if_pos rfl]
    show UInt64.size ≤ lastTarget.targets.main.toNat + UInt32.toNat 1000
    decide
  · refine (hsmall hplainly hbuffers noTime_small).resolve_right ?_
    rintro ⟨-, hmany⟩
    rw [overtakings, hstint] at hmany
    have hnone : 2 ^ 56 ≤ 0 := hmany
    omega

end Machine
end TandemZ80
