import TandemZ80.Proofs.Machine.Runs
import TandemZ80.Proofs.Schedule.Frame

/-!
# The rates of a machine

The ratio of the two rates is written down twice: in the configuration, and in the weights of the
scheduler. Only a run of both processors takes the weights from the configuration. A run of the main
one keeps those that it finds, which are the last that a run or a snapshot has set, and by them it
credits the sub processor with time.

* `Scheduler.execMain_credits`, the time that a sub processor is credited with;
* `Machine.Operation.rates?`, the weights that an operation sets, and `Machine.Rated.perform`;
* `Machine.lastRates?`, the last weights that a sequence of operations sets, and
  `Machine.Rated.run`;
* `Machine.runs_at_last_rates`.
-/

namespace TandemZ80

/-! ### Time without steps -/

namespace Scheduler

variable {σ : Type} {p : Processors σ} {s s' : Scheduler} {st st' : σ} {budget : UInt32}
  {moved : UInt64}

/-- The sub processor has just reached its target, or was there already. -/
structure Credits (s s' : Scheduler) : Prop where
  reached : (s'.targets.get .sub).toNat ≤ s'.time s'.weights .sub
  least : s'.time s'.weights .sub < (s'.targets.get .sub).toNat + (s'.weights.get .sub).toNat ∨
    s'.clocks.get .sub = s.clocks.get .sub

/-- In a run of the main processor the clock of the sub one goes to where it has just reached its
target, at the weight that the scheduler has found, or stays if it is there already. -/
theorem execMain_credits (hw : weightFits (s.weights.get .sub))
    (h : s.execMain p budget st = .ok (moved, s', st')) : s.Credits s' := by
  obtain ⟨s₁, hextend, -⟩ := Fault.bind_eq_ok h
  obtain ⟨hweights, hclocks⟩ := extend_eq_ok hextend
  rw [execMain_eq hextend] at h
  obtain ⟨st₁, -, hfinish⟩ := Fault.bind_eq_ok h
  obtain ⟨l', hrun, rfl, -⟩ := finish_eq_ok hfinish
  have hclock : l'.sub.clock = s₁.caughtUp .sub :=
    congrArg Lane.clock (Lanes.run_parked (i := .sub) rfl hrun)
  rw [← hweights] at hw
  obtain ⟨hreached, hcaught⟩ := caughtUp_bounds hw
  rw [← hclock, hclocks] at hcaught
  rw [← hclock] at hreached
  exact ⟨hreached, hcaught⟩

end Scheduler

/-! ### What sets the weights -/

/-- The weights that a stint sets. -/
def Stint.rates? : Stint → Option (PerSide UInt64)
  | .both ratio _ => some ratio.weights
  | .main _ => none

namespace Machine

variable {δ : Type} {m m' : Machine δ} {config : Config} {rates : PerSide UInt64} {op : Operation δ}
  {a : Answer} {t t' : Session δ} {budget : UInt32} {moved : UInt64}

/-- The weights that an operation sets, by its answer. -/
def Operation.rates? (m : Machine δ) : Operation δ → Answer → Option (PerSide UInt64)
  | .execute budget, _ => (m.stint budget).rates?
  | .load p, .loaded (.ok ()) => some p.scheduler.weights
  | _, _ => none

/-- The same configuration, and the same counters. -/
def SameTiming (m m' : Machine δ) : Prop := m'.config = m.config ∧ m'.scheduler = m.scheduler

theorem sameTiming_updateCpu (m : Machine δ) (s : Side) (f : Cpu → Cpu) :
    m.SameTiming (m.updateCpu s f) := by
  rw [updateCpu_eq]
  exact ⟨rfl, rfl⟩

theorem sameTiming_loadRam (m : Machine δ) (s : Side) (a : UInt16) (bytes : List UInt8) :
    m.SameTiming (m.loadRam s a bytes) := by
  rw [loadRam, withMemory_snd]
  exact ⟨rfl, rfl⟩

theorem sameTiming_withPorts {α : Type} (m : Machine δ) (s : Side)
    (f : Devices (Part δ) → Ports → α × Ports) : m.SameTiming (m.withPorts s f).2 := by
  rw [withPorts_snd]
  exact ⟨rfl, rfl⟩

theorem sameTiming_withDevices {α : Type} (m : Machine δ)
    (f : Devices (Part δ) → α × Devices (Part δ)) : m.SameTiming (m.withDevices f).2 := by
  rw [withDevices_snd]
  exact ⟨rfl, rfl⟩

theorem sameTiming_loadRom (m : Machine δ) (s : Side) (a : UInt16) (bytes : List UInt8) :
    m.SameTiming (m.loadRom s a bytes).2 := by
  rw [loadRom_eq]
  split_ifs
  · exact ⟨rfl, rfl⟩
  · dsimp only
    split <;> simp only [withDevices_snd, withMemory_snd] <;> exact ⟨rfl, rfl⟩

theorem sameTiming_unloadRom (m : Machine δ) (rom : RomHandle) :
    m.SameTiming (m.unloadRom rom) := by
  rw [unloadRom, withDevices_snd, withMemory_snd]
  exact ⟨rfl, rfl⟩

/-- A machine of this configuration whose scheduler counts by these weights. -/
structure Rated (config : Config) (rates : PerSide UInt64) (m : Machine δ) : Prop where
  config : m.config = config
  weights : m.scheduler.weights = rates
  fits : ∀ s, Scheduler.weightFits (m.scheduler.weights.get s)

theorem rated_new (h : new config = .ok m) : m.Rated config ClockRatio.oneToOne.weights := by
  rw [new_eq_ok h]
  refine ⟨rfl, rfl, fun s => ?_⟩
  cases s <;> exact .inl rfl

theorem Rated.of_sameTiming (h : m.Rated config rates) (hm : m.SameTiming m') :
    m'.Rated config rates := by
  obtain ⟨hconfig, hscheduler⟩ := hm
  refine ⟨hconfig.trans h.config, ?_, ?_⟩ <;> rw [hscheduler]
  · exact h.weights
  · exact h.fits

theorem weights_load {p : Scheduler.Snapshot} {s : Scheduler} (h : Scheduler.load p = .ok s) :
    s.weights = p.weights :=
  congrArg Scheduler.Snapshot.weights (Scheduler.save_of_load h)

/-- A snapshot that is taken over brings its weights along. -/
theorem Rated.load (h : m.Rated config rates) (hram : m.HasRam) {p : Snapshot}
    {r : Except StateError Unit} (hl : m.load p = .ok (r, m')) :
    m'.Rated config (((Operation.load p).rates? m (.loaded r)).getD rates) := by
  rcases load_of_hasRam hram p with ⟨e, he⟩ | ⟨cpus, scheduler, -, -, hscheduler, he⟩
  · rw [hl] at he
    cases he
    exact h
  · rw [hl] at he
    cases he
    obtain ⟨hconfig, hcounters, -, -⟩ := fields_restored m p cpus scheduler
    refine ⟨hconfig.trans h.config, ?_, ?_⟩ <;> rw [hcounters]
    · exact weights_load hscheduler
    · exact Scheduler.weightFits_of_load hscheduler

variable [Device δ]

theorem sameTiming_attachLink (m : Machine δ) : m.SameTiming m.attachLink.2 := by
  cases hlink : m.linkId with
  | none =>
    rw [attachLink_of_none hlink]
    exact ⟨rfl, rfl⟩
  | some id =>
    rw [attachLink_of_some hlink]
    exact ⟨rfl, rfl⟩

/-- A run sets the weights to those of the configuration, unless it is of the main processor
alone. -/
theorem Rated.execute (h : m.Rated config rates) (he : m.execute budget = .ok (moved, m')) :
    m'.Rated config ((m.stint budget).rates?.getD rates) := by
  have hperform := perform_stint he
  have hconfig : m'.config = config := by
    rw [execute_eq] at he
    obtain ⟨r, -, he⟩ := Fault.map_eq_ok he
    cases he
    exact h.config
  generalize m.stint budget = stint at hperform ⊢
  cases stint with
  | both ratio budget =>
    have hweights : m'.scheduler.weights = ratio.weights := Scheduler.execBoth_weights hperform
    exact ⟨hconfig, hweights, by rw [hweights]; exact Scheduler.weightFits_ratio ratio⟩
  | main budget =>
    have hweights : m'.scheduler.weights = m.scheduler.weights :=
      Scheduler.execMain_weights hperform
    exact ⟨hconfig, hweights.trans h.weights, by rw [hweights]; exact h.fits⟩

/-- What one operation does to the weights. -/
theorem Rated.perform (h : t.machine.Rated config rates) (hram : t.machine.HasRam)
    (hr : system.perform op t = .ok (a, t')) :
    t'.machine.Rated config ((op.rates? t.machine a).getD rates) := by
  cases op with
  | execute budget =>
    obtain ⟨⟨n, machine⟩, he, hr⟩ := Fault.map_eq_ok hr
    cases hr
    exact h.execute he
  | reset =>
    cases hr
    exact ⟨h.config, h.weights, h.fits⟩
  | setIntLine s level =>
    cases hr
    exact h.of_sameTiming (sameTiming_updateCpu _ _ _)
  | nmi s =>
    cases hr
    exact h.of_sameTiming (sameTiming_updateCpu _ _ _)
  | read s a =>
    obtain ⟨⟨v, machine⟩, he, hr⟩ := Fault.map_eq_ok hr
    cases hr
    obtain ⟨⟨v, devices⟩, -, he⟩ := Fault.bind_eq_ok he
    cases he
    exact h.of_sameTiming ⟨rfl, rfl⟩
  | write s a v =>
    obtain ⟨machine, he, hr⟩ := Fault.map_eq_ok hr
    cases hr
    rw [write_eq] at he
    obtain ⟨r, -, he⟩ := Fault.map_eq_ok he
    cases he
    exact h.of_sameTiming ⟨rfl, rfl⟩
  | loadRam s a bytes =>
    cases hr
    exact h.of_sameTiming (sameTiming_loadRam _ _ _ _)
  | loadRom s a bytes =>
    cases hr
    exact h.of_sameTiming (sameTiming_loadRom _ _ _ _)
  | unloadRom n =>
    cases hr
    refine h.of_sameTiming ?_
    show t.machine.SameTiming ((t.images[n]?.join).elim t.machine t.machine.unloadRom)
    cases t.images[n]?.join with
    | none => exact ⟨rfl, rfl⟩
    | some rom => exact sameTiming_unloadRom _ _
  | attachLink =>
    cases hr
    exact h.of_sameTiming (sameTiming_attachLink _)
  | load p =>
    obtain ⟨⟨r, machine⟩, he, hr⟩ := Fault.map_eq_ok hr
    cases hr
    exact h.load hram he
  | cpu s f =>
    cases hr
    exact h.of_sameTiming (sameTiming_updateCpu _ _ _)
  | memory s op =>
    obtain ⟨⟨a, memory, devices⟩, -, hr⟩ := Fault.bind_eq_ok hr
    cases hr
    refine h.of_sameTiming ?_
    rw [withDevices_snd]
    exact ⟨rfl, rfl⟩
  | ports s f =>
    cases hr
    exact h.of_sameTiming (sameTiming_withPorts _ s fun ds p => ((), f ds p))
  | devices f =>
    cases hr
    exact h.of_sameTiming (sameTiming_withDevices _ fun ds => ((), f ds))

/-! ### Sequences of operations -/

/-- The last weights that a sequence of operations sets. -/
def lastRates? : List (Operation δ) → Session δ → Option (PerSide UInt64)
  | [], _ => none
  | op :: ops, t =>
    match system.perform op t with
    | .error _ => none
    | .ok (a, t') => (lastRates? ops t').or (op.rates? t.machine a)

/-- The scheduler counts by the last weights that were set. -/
theorem Rated.run {ops : List (Operation δ)} (h : t.machine.Rated config rates)
    (hram : t.machine.HasRam) (hr : system.run ops t = .ok t') :
    t'.machine.Rated config ((lastRates? ops t).getD rates) := by
  induction ops generalizing t rates with
  | nil =>
    cases hr
    exact h
  | cons op ops ih =>
    obtain ⟨⟨a, t₁⟩, hop, hr⟩ := Fault.bind_eq_ok hr
    have hrest := ih (h.perform hram hop) (hram.perform hop) hr
    have hlast : lastRates? (op :: ops) t = (lastRates? ops t₁).or (op.rates? t.machine a) := by
      rw [lastRates?, hop]
    rw [hlast]
    cases hrates : lastRates? ops t₁ with
    | none => rwa [hrates] at hrest
    | some w => rwa [hrates] at hrest

/-- A machine after any operations: a run of both processors goes by the ratio of the configuration.
A run in which the sub processor is left out goes by the last weights that a run or a snapshot has
set, equal ones if there are none, and by these the sub processor is credited with time. -/
theorem runs_at_last_rates {m₀ : Machine δ} (hnew : new config = .ok m₀) {ops : List (Operation δ)}
    (hrun : system.run ops ⟨m₀, []⟩ = .ok t)
    (hexecute : t.machine.execute budget = .ok (moved, m')) :
    m'.config = config ∧
      if config.idleSkip && (t.machine.cpu .sub).isIdle then
        m'.scheduler.weights = (lastRates? ops ⟨m₀, []⟩).getD ClockRatio.oneToOne.weights ∧
          t.machine.scheduler.Credits m'.scheduler
      else m'.scheduler.weights = config.ratio.weights := by
  have hrated := (rated_new hnew).run (t := ⟨m₀, []⟩) (hasRam_new hnew) hrun
  have hafter := hrated.execute hexecute
  have hstint := perform_stint hexecute
  have hweights := hafter.weights
  refine ⟨hafter.config, ?_⟩
  rw [← hrated.config]
  unfold stint at hweights
  unfold stint at hstint
  split_ifs with hidle
  · rw [if_pos hidle] at hweights hstint
    exact ⟨hweights, Scheduler.execMain_credits (hrated.fits .sub) hstint⟩
  · rw [if_neg hidle] at hweights
    exact hweights

/-- Two halted processors wait for 4 T-states, one of them by being credited with the time. -/
theorem execMain_of_halted {h : Hardware δ} (hmain : h.boards.main.cpu = halted)
    (hsub : h.boards.sub.cpu = halted) :
    ∃ r, Scheduler.initial.execMain Hardware.processors 4 h = .ok r := by
  obtain ⟨⟨⟨cpu, memory, ports⟩, ⟨cpu', memory', ports'⟩⟩, devices⟩ := h
  obtain rfl : cpu = halted := hmain
  obtain rfl : cpu' = halted := hsub
  exact ⟨_, rfl⟩

/-- A machine with a sub processor of half the rate that is halted from the beginning: it is
credited with time at the full rate. -/
theorem halted_runs_at_initial_rates :
    ∃ (m₀ : Machine ParallelLink) (t : Session ParallelLink) (moved : UInt64)
      (m' : Machine ParallelLink),
      new { Config.standard with ratio := .twoToOne } = .ok m₀ ∧
        system.run [.cpu .main fun _ => halted, .cpu .sub fun _ => halted] ⟨m₀, []⟩ = .ok t ∧
        t.machine.execute 4 = .ok (moved, m') ∧
        m'.config.ratio.weights = ⟨1, 2⟩ ∧ m'.scheduler.weights = ⟨1, 1⟩ ∧
        t.machine.scheduler.Credits m'.scheduler := by
  obtain ⟨m₀, hnew⟩ : ∃ m₀ : Machine ParallelLink,
      new { Config.standard with ratio := .twoToOne } = .ok m₀ := ⟨_, rfl⟩
  obtain ⟨m, hm⟩ : ∃ m, m = (m₀.updateCpu .main fun _ => halted).updateCpu .sub fun _ => halted :=
    ⟨_, rfl⟩
  have hrun : system.run [.cpu .main fun _ => halted, .cpu .sub fun _ => halted] ⟨m₀, []⟩ =
      .ok ⟨m, []⟩ := by
    rw [hm]
    rfl
  rw [updateCpu_eq, updateCpu_eq, new_eq_ok hnew] at hm
  obtain ⟨⟨moved, scheduler, hardware⟩, hr⟩ :=
    execMain_of_halted (h := m.hardware) (by rw [hm]; rfl) (by rw [hm]; rfl)
  have hruns : m.runs 4 = .ok (moved, scheduler, hardware) := by
    rw [← hr, hm]
    rfl
  have hexecute : m.execute 4 = .ok (moved, { m with scheduler, hardware }) := by
    rw [execute_eq, hruns]
    rfl
  obtain ⟨hconfig, hrates⟩ := runs_at_last_rates hnew hrun hexecute
  have hidle : (Config.standard.idleSkip && (m.cpu .sub).isIdle) = true := by
    rw [hm]
    rfl
  rw [if_pos hidle] at hrates
  exact ⟨m₀, ⟨m, []⟩, moved, _, hnew, hrun, hexecute, by rw [hconfig]; rfl, hrates.1, hrates.2⟩

end Machine
end TandemZ80
