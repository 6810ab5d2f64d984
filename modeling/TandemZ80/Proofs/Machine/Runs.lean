import TandemZ80.Proofs.Machine.Steps

/-!
# Runs of a machine

With counters that are far from their end, a run of a plain machine returns, unless its lanes
overtake each other until a counter overflows. That takes two processors that both ask for shared
ports: beside a sub processor that is idle, or without the link, every run returns.

A processor counts its T-states for all its life, and the scheduler counts those of its runs. In
every run both counts grow alike: by the cost of each step, by nothing where a step was refused a
port, and by the time that a halted processor was credited with.

* `Machine.Starting`, a machine that begins to run a program beside a halted sub processor;
* `Machine.stint`, the run that a machine asks its scheduler for, and `Machine.perform_stint`;
* `Machine.overtakings`, `Machine.Plain.execute_ends`, `Machine.Plain.execute_returns` and
  `Machine.Starting.execute_returns`;
* `Machine.ticks_follow_clocks`.
-/

namespace TandemZ80

/-! ### Hardware -/

namespace Hardware

variable {δ : Type} [Device δ] {c : Setting} {h : Hardware δ}

/-- As a run begins, nobody has been refused a port. -/
theorem Like.waits (hh : Like c c h h) : Waits c (.both none) h where
  like := hh
  waits s elapsed he := by cases s <;> cases he

/-- A halted processor can be credited with time as long as its T-states have room for it. -/
theorem skipIdle_ends (hh : Like c c h h) (hc : c.changes < UInt32.size) {s : Side}
    {clocks : UInt64} (hhalted : (h.boards.get s).cpu.regs.halted = true)
    (hroom : h.ticks s + clocks.toNat < UInt64.size) :
    ∃ h', processors.skipIdle s clocks h = .ok h' ∧ Waits c (.both none) h' ∧
      h'.ticks s.partner = h.ticks s.partner := by
  obtain ⟨u, hu⟩ : ∃ u, (h.boards.get s).cpu.advanceIdle ⟨clocks⟩ = .ok u :=
    ⟨_, Cpu.advanceIdle_eq hhalted hroom⟩
  have hskip : skipIdle s clocks h = .ok (h.settle s u (h.plane s)) := by
    rw [skipIdle_eq, hu]
    rfl
  obtain ⟨h', hskip', hlike⟩ :=
    ((processors_alike hc hc).skipIdle s clocks h h hh).exists_eq_ok hskip
  cases hskip.symm.trans hskip'
  exact ⟨_, hskip, hlike.waits, (h.ticks_settle s _ _).2⟩

end Hardware

/-! ### A program beside an idle processor -/

namespace Machine

variable {δ : Type} {m m' : Machine δ} {moved : UInt64}

/-- A processor that has been halted from the beginning. -/
def halted : Cpu := { Cpu.initial with regs := { Cpu.initial.regs with halted := true } }

/-- A snapshot in which the main processor is about to execute a program at the beginning of its
RAM, and the sub processor is halted. -/
def Snapshot.starting (program : List UInt8) (p : Snapshot) : Snapshot :=
  { p with
    cpus := ⟨Cpu.initial.save, halted.save⟩
    scheduler := Scheduler.initial.save
    ram := ⟨(program ++ List.replicate (ramSize - program.length) 0).toArray, p.ram.sub⟩ }

/-- A machine that begins to run a program beside a halted sub processor. -/
structure Starting (program : List UInt8) (m : Machine δ) : Prop where
  scheduler : m.scheduler = .initial
  main : m.cpu .main = .initial
  sub : m.cpu .sub = halted
  ram : program <+: (m.ram .main).toList

theorem Starting.isIdle_sub {program : List UInt8} (h : m.Starting program) :
    (m.cpu .sub).isIdle = true := by
  rw [h.sub]
  rfl

/-- A plain machine takes its own snapshot with a program in it. -/
theorem Plain.load_starting {k : ℕ} (h : m.Plain k) (program : List UInt8)
    (hlength : program.length ≤ ramSize) :
    ∃ m', m.load (m.save.starting program) = .ok (.ok (), m') ∧ m'.Plain k ∧ m'.Starting program ∧
      m'.config = m.config ∧ m'.linkId = m.linkId ∧ m'.bufferCount = m.bufferCount := by
  let cpus : PerSide Cpu := ⟨.initial, halted⟩
  have hram : ∀ s, ((m.save.starting program).ram.get s).size = ramSize := by
    intro s
    cases s
    · show (program ++ List.replicate (ramSize - program.length) 0).toArray.size = ramSize
      rw [List.size_toArray, List.length_append, List.length_replicate]
      omega
    · exact (m.size_ram .sub).trans (h.hasRam .sub)
  have hp : m.refusal? (m.save.starting program) = none :=
    refusal?_of_fits rfl hram h.isSome_link?_eq
  have hcpus : ∀ s, Cpu.load ((m.save.starting program).cpus.get s) = .ok (cpus.get s) := by
    intro s
    cases s
    · exact Cpu.load_save .initial
    · exact Cpu.load_save halted
  have hs : Scheduler.load (m.save.starting program).scheduler = .ok .initial := rfl
  obtain ⟨hconfig, hscheduler, -, hid⟩ :=
    fields_restored m (m.save.starting program) cpus .initial
  have hboard := board_restored m (m.save.starting program) cpus .initial
  refine ⟨_, load_of_fits h.hasRam hp hcpus hs, h.restored hp hcpus hs, ?_, hconfig, hid, ?_⟩
  · refine ⟨hscheduler, congrArg Board.cpu (hboard .main), congrArg Board.cpu (hboard .sub), ?_⟩
    rw [ram_restored h.hasRam]
    exact ⟨_, rfl⟩
  · rw [bufferCount, hboard, hboard]
    exact congrArg₂ (· + ·) Array.size_setIfInBounds Array.size_setIfInBounds

/-! ### Runs that return -/

/-- The run that a machine asks its scheduler for. -/
def stint (m : Machine δ) (budget : UInt32) : Stint :=
  if m.config.idleSkip && (m.cpu .sub).isIdle then .main budget else .both m.config.ratio budget

variable [Device δ]

theorem runs_eq (m : Machine δ) (budget : UInt32) :
    m.runs budget =
      (Scheduler.system Hardware.processors).perform (m.stint budget)
        (m.scheduler, m.hardware) := by
  unfold runs stint
  split <;> rfl

/-- A run that returns is a stint of the scheduler. -/
theorem perform_stint {budget : UInt32} (h : m.execute budget = .ok (moved, m')) :
    (Scheduler.system Hardware.processors).perform (m.stint budget) (m.scheduler, m.hardware) =
      .ok (moved, m'.scheduler, m'.hardware) := by
  rw [execute_eq, runs_eq] at h
  obtain ⟨r, hperform, h⟩ := Fault.map_eq_ok h
  cases h
  exact hperform

/-- How often a lane overtakes its partner in a run. -/
def overtakings (m : Machine δ) (budget : UInt32) : ℕ :=
  match m.stint budget with
  | .both ratio budget =>
    m.scheduler.overtakings Hardware.processors ratio.weights budget m.hardware
  | .main _ => 0

/-- The run of a plain machine with small counters, before its result is put back into the
machine. -/
theorem Plain.runs_ends {k : ℕ} (h : m.Plain k) (hk : k < UInt32.size) (hs : m.scheduler.Roomy)
    (hticks : ∀ s, m.hardware.ticks s ≤ 2 ^ 62) (budget : UInt32) :
    (∃ r, m.runs budget = .ok r) ∨
      m.runs budget = .error .overflow ∧ 2 ^ 56 ≤ m.overtakings budget := by
  have hlike := h.like.hardware
  have hbrisk := Hardware.processors_brisk (δ := δ) (c := m.setting k) hk
  have hsturdy := Hardware.processors_sturdy (δ := δ) (c := m.setting k) hk
  rw [runs_eq, overtakings, stint]
  split_ifs with hskips
  · rw [Bool.and_eq_true] at hskips
    refine .inl (Scheduler.execMain_ends hbrisk hsturdy hlike.waits (hticks .main) hs budget ?_)
    intro clocks hclocks
    have hroom : m.hardware.ticks .sub + clocks.toNat < UInt64.size := by
      have hsub := hticks .sub
      simp only [UInt64.size]
      omega
    obtain ⟨h', hskip, hwaits, hmain⟩ :=
      Hardware.skipIdle_ends hlike hk (Cpu.halted_of_isIdle hskips.2) hroom
    exact ⟨h', hskip, hwaits, hmain.trans_le (hticks .main)⟩
  · exact Scheduler.execBoth_ends hbrisk hsturdy hlike.waits hticks hs m.config.ratio budget

/-- From small counters a plain machine runs to the end, unless its lanes overtake each other until
a counter overflows. -/
theorem Plain.execute_ends {k : ℕ} (h : m.Plain k) (hk : k < UInt32.size) (hs : m.scheduler.Roomy)
    (hticks : ∀ s, m.hardware.ticks s ≤ 2 ^ 62) (budget : UInt32) :
    (∃ r, m.execute budget = .ok r) ∨
      m.execute budget = .error .overflow ∧ 2 ^ 56 ≤ m.overtakings budget := by
  rw [execute_eq]
  rcases h.runs_ends hk hs hticks budget with ⟨r, hr⟩ | ⟨hoverflow, hmany⟩
  · rw [hr]
    exact .inl ⟨_, rfl⟩
  · rw [hoverflow]
    exact .inr ⟨rfl, hmany⟩

/-- From small counters every run of a plain machine returns, if one of its processors asks for no
port. -/
theorem Plain.execute_returns {k : ℕ} (h : m.Plain k) (hk : k < UInt32.size)
    (hs : m.scheduler.Roomy) (hticks : ∀ s, m.hardware.ticks s ≤ 2 ^ 62) {i : Side}
    {K : Hardware δ → Prop} (hquiet : Hardware.processors.Quiet i K) (hK : K m.hardware)
    (budget : UInt32) : ∃ r, m.execute budget = .ok r := by
  refine (h.execute_ends hk hs hticks budget).resolve_right ?_
  rintro ⟨-, hmany⟩
  have hnone : m.overtakings budget = 0 := by
    rw [overtakings]
    cases m.stint budget with
    | main budget => rfl
    | both ratio budget => exact Scheduler.overtakings_of_quiet hquiet hK
  omega

/-- Whatever the program, every run of a machine that begins with it returns. -/
theorem Starting.execute_returns {k : ℕ} {program : List UInt8} (h : m.Starting program)
    (hplain : m.Plain k) (hk : k < UInt32.size) (budget : UInt32) :
    ∃ r, m.execute budget = .ok r := by
  refine hplain.execute_returns hk (h.scheduler ▸ Scheduler.roomy_initial) (fun s => ?_)
    Hardware.processors_quiet h.isIdle_sub budget
  cases s
  · show (m.cpu .main).ticks.count.toNat ≤ _
    rw [h.main]
    decide
  · show (m.cpu .sub).ticks.count.toNat ≤ _
    rw [h.sub]
    decide

/-! ### Counts -/

/-- In a run that returns, each processor counts as many T-states as the scheduler does for it, and
the result is the count of the main one. -/
theorem ticks_follow_clocks {budget : UInt32} (h : m.execute budget = .ok (moved, m')) :
    (∀ s, ∃ n : ℕ, (m'.cpu s).ticks.count.toNat = (m.cpu s).ticks.count.toNat + n ∧
        (m'.scheduler.clocks.get s).toNat = (m.scheduler.clocks.get s).toNat + n) ∧
      (m'.cpu .main).ticks.count.toNat = (m.cpu .main).ticks.count.toNat + moved.toNat := by
  have hstep := Scheduler.perform_inStep Hardware.processors_count (perform_stint h)
  exact ⟨hstep.clocks, hstep.moved⟩

/-- `IN A,(FCh)` and a jump back to it: the program asks for a shared port again and again. -/
def polling : List UInt8 := [0xDB, 0xFC, 0x18, 0xFC]

/-- A machine whose main processor polls the link, beside a halted processor that is stepped. -/
theorem polling_ticks_follow_clocks :
    ∃ (m m' : Machine ParallelLink) (moved : UInt64), m.Starting polling ∧ m.link?.isSome ∧
      m.config.idleSkip = false ∧ m.execute 1000 = .ok (moved, m') ∧
      (∀ s, ∃ n : ℕ, (m'.cpu s).ticks.count.toNat = (m.cpu s).ticks.count.toNat + n ∧
          (m'.scheduler.clocks.get s).toNat = (m.scheduler.clocks.get s).toNat + n) ∧
        (m'.cpu .main).ticks.count.toNat = (m.cpu .main).ticks.count.toNat + moved.toNat := by
  obtain ⟨m₀, hnew⟩ : ∃ m₀ : Machine ParallelLink, new { Config.standard with idleSkip := false } =
    .ok m₀ := ⟨_, rfl⟩
  have hlinked := (plain_new hnew).attachLink
  have hfields : m₀.attachLink.2.config.idleSkip = false ∧ m₀.attachLink.2.linkId.isSome := by
    rw [new_eq_ok hnew]
    exact ⟨rfl, rfl⟩
  obtain ⟨m, -, hplain, hstarting, hconfig, hid, -⟩ :=
    hlinked.load_starting polling (by decide)
  obtain ⟨⟨moved, m'⟩, hexecute⟩ := hstarting.execute_returns hplain (by decide) 1000
  refine ⟨m, m', moved, hstarting, ?_, ?_, hexecute, ticks_follow_clocks hexecute⟩
  · rw [hplain.isSome_link?_eq, hid]
    exact hfields.2
  · rw [hconfig]
    exact hfields.1

end Machine
end TandemZ80
