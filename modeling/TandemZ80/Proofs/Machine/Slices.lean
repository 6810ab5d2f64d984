import TandemZ80.Proofs.Cpu.Idle
import TandemZ80.Proofs.Machine.Rates
import TandemZ80.Proofs.Schedule.Slices

/-!
# Time that is skipped in slices

A sub processor that is left out of several runs is credited with a slice of time in each of them.
Its T-states come out as in one run with the whole budget. R does not: each slice is counted in
slots of its own, and what is left over of the slot at its end is never made up.

* `Machine.Resting`, a machine that leaves its sub processor out, and `Machine.Resting.execute`;
* `Machine.slices` and `Machine.Resting.run`, the time that is skipped in several runs;
* `Machine.idle_credit_sliced`.
-/

namespace TandemZ80

open Cpu (lostSlots)

/-- A halted processor may be credited with no time at all. -/
theorem Cpu.advanceIdle_zero {s : Cpu} (hs : s.regs.halted = true) : s.advanceIdle ⟨0⟩ = .ok s := by
  have hidled := advanceIdle_eq (n := ⟨0⟩) hs s.ticks.count.toNat_lt
  rw [hidled]
  exact congrArg Except.ok s.idled_zero

namespace Machine

variable {δ : Type} {m m' : Machine δ} {t t' : Session δ} {budget : UInt32} {budgets : List UInt32}
  {moved : UInt64}

/-- A machine that leaves its sub processor out of the next run. -/
structure Resting (m : Machine δ) : Prop where
  skips : m.config.idleSkip = true
  idle : (m.cpu .sub).isIdle = true
  fits : Scheduler.weightFits (m.scheduler.weights.get .sub)

/-- The time that a machine skips for its sub processor in each of several runs. -/
def slices (m : Machine δ) (budgets : List UInt32) : List ℕ :=
  Scheduler.slices (m.scheduler.weights.get .sub).toNat (m.scheduler.clocks.get .sub).toNat
    (m.scheduler.targets.get .sub).toNat budgets

variable [Device δ]

/-- A main processor takes its steps beside the sub one. -/
theorem step_main_ends (cpu : Cpu) (h : Hardware δ) (hcpu : h.boards.sub.cpu = cpu) :
    (Hardware.processors.step .main h).Ends fun r => r.2.boards.sub.cpu = cpu := by
  show (Hardware.step .main h).Ends _
  rw [Hardware.step_eq]
  exact (Dialogue.Ends.unconditional _).bind fun r _ => .done hcpu

/-- In a run the sub processor is credited with the time by which its clock moves, and goes on being
left out. -/
theorem Resting.execute (h : m.Resting) (he : m.execute budget = .ok (moved, m')) :
    m'.Resting ∧ m.scheduler.Credited budget m'.scheduler ∧
      (m.cpu .sub).advanceIdle ⟨m'.scheduler.clocks.sub - m.scheduler.clocks.sub⟩ =
        .ok (m'.cpu .sub) := by
  have hidle : (m.config.idleSkip && (m.cpu .sub).isIdle) = true := by rw [h.skips, h.idle]; rfl
  have hstint := perform_stint he
  have hconfig : m'.config = m.config := by
    rw [execute_eq] at he
    obtain ⟨r, -, he⟩ := Fault.map_eq_ok he
    cases he
    rfl
  rw [stint, if_pos hidle] at hstint
  obtain ⟨hcredited, hardware, hskip, hkeeps⟩ := Scheduler.execMain_credited h.fits hstint
  have hcpu : m'.cpu .sub = hardware.boards.sub.cpu :=
    hkeeps (fun st => st.boards.sub.cpu = hardware.boards.sub.cpu) (step_main_ends _) rfl
  have hadvance : (m.cpu .sub).advanceIdle ⟨m'.scheduler.clocks.sub - m.scheduler.clocks.sub⟩ =
      .ok (m'.cpu .sub) := by
    rw [hcpu]
    split_ifs at hskip with hpos
    · have hskip : Hardware.skipIdle .sub _ m.hardware = .ok hardware := hskip
      rw [Hardware.skipIdle_eq] at hskip
      obtain ⟨u, hu, rfl⟩ := Fault.map_eq_ok hskip
      exact hu
    · cases hskip
      have hzero : m'.scheduler.clocks.sub - m.scheduler.clocks.sub = 0 := by
        rw [← UInt64.toNat_inj]
        rw [UInt64.lt_iff_toNat_lt] at hpos
        exact Nat.eq_zero_of_not_pos hpos
      rw [hzero]
      exact Cpu.advanceIdle_zero (Cpu.halted_of_isIdle h.idle)
  refine ⟨⟨hconfig ▸ h.skips, ?_, hcredited.weights ▸ h.fits⟩, hcredited, hadvance⟩
  rcases Cpu.advanceIdle_of_isIdle h.idle _ with hfault | ⟨u, hu, hwaited⟩
  · rw [hfault] at hadvance
    cases hadvance
  · obtain rfl := Except.ok.inj (hu.symm.trans hadvance)
    exact hwaited.idle

/-- In several runs the sub processor is credited with one slice after the other. -/
theorem Resting.run (h : t.machine.Resting)
    (hrun : system.run (budgets.map .execute) t = .ok t') :
    ∃ slices : List Ticks, slices.map (·.count.toNat) = t.machine.slices budgets ∧
      slices.foldlM Cpu.advanceIdle (t.machine.cpu .sub) = .ok (t'.machine.cpu .sub) := by
  induction budgets generalizing t with
  | nil =>
    cases hrun
    exact ⟨[], rfl, rfl⟩
  | cons n budgets ih =>
    obtain ⟨⟨a, t₁⟩, hop, hrun⟩ := Fault.bind_eq_ok hrun
    obtain ⟨⟨moved, m₁⟩, he, hr⟩ := Fault.map_eq_ok hop
    cases hr
    obtain ⟨hresting, hcredited, hadvance⟩ := h.execute he
    obtain ⟨rest, hrest, hfold⟩ := ih hresting hrun
    refine ⟨⟨m₁.scheduler.clocks.sub - t.machine.scheduler.clocks.sub⟩ :: rest, ?_, ?_⟩
    · have hclock := hcredited.clock
      rw [hcredited.target] at hclock
      have hle : t.machine.scheduler.clocks.sub ≤ m₁.scheduler.clocks.sub := by
        rw [UInt64.le_iff_toNat_le]
        exact (Scheduler.clock_le_reached _ _ _).trans_eq hclock.symm
      rw [List.map_cons, hrest, slices, slices, Scheduler.slices, ← hclock, ← hcredited.target,
        hcredited.weights]
      exact congrArg (· :: _) (UInt64.toNat_sub_of_le _ _ hle)
    · rw [List.foldlM_cons, hadvance]
      exact hfold

/-- Every machine has weights that its scheduler can take. -/
theorem Reached.weightFits (h : m.Reached) (s : Side) :
    Scheduler.weightFits (m.scheduler.weights.get s) := by
  obtain ⟨config, m₀, ops, images, hnew, hrun⟩ := h
  exact ((rated_new hnew).run (t := ⟨m₀, []⟩) (hasRam_new hnew) hrun).fits s

/-- One run in which the sub processor is left out, beside several with the same budget. -/
theorem Resting.execute_whole {images : List (Option RomHandle)} {whole : UInt32} (h : m.Resting)
    (hbudgets : budgets ≠ []) (hwhole : whole.toNat = (budgets.map UInt32.toNat).sum)
    (he : m.execute whole = .ok (moved, m'))
    (hrun : system.run (budgets.map .execute) ⟨m, images⟩ = .ok t) :
    m'.cpu .sub = (t.machine.cpu .sub).idled (lostSlots (m.slices budgets)) 0 := by
  obtain ⟨-, hcredited, hadvance⟩ := h.execute he
  obtain ⟨slices, hslices, hfold⟩ := Resting.run (t := ⟨m, images⟩) h hrun
  -- The whole is the sum of the slices.
  have hsum : (m'.scheduler.clocks.sub - m.scheduler.clocks.sub).toNat =
      (slices.map (·.count.toNat)).sum := by
    obtain ⟨n, ns, rfl⟩ := List.exists_cons_of_ne_nil hbudgets
    have htotal := Scheduler.sum_slices (m.scheduler.weights.get .sub).toNat
      (m.scheduler.clocks.get .sub).toNat (m.scheduler.targets.get .sub).toNat n ns
    have hclock := hcredited.clock
    rw [hcredited.target, hwhole, ← htotal] at hclock
    have hclock : m'.scheduler.clocks.sub.toNat = m.scheduler.clocks.sub.toNat +
        (m.slices (n :: ns)).sum := hclock
    have hle : m.scheduler.clocks.sub ≤ m'.scheduler.clocks.sub := by
      rw [UInt64.le_iff_toNat_le]
      omega
    rw [hslices, UInt64.toNat_sub_of_le _ _ hle]
    show _ = (m.slices (n :: ns)).sum
    omega
  have hroom : (m.cpu .sub).ticks.count.toNat + (slices.map (·.count.toNat)).sum < UInt64.size := by
    have hticks := Cpu.advanceIdle_ticks hadvance
    have hlt := (m'.cpu .sub).ticks.count.toNat_lt
    rw [← hsum]
    exact hticks ▸ hlt
  obtain ⟨u, hu, hall⟩ := Cpu.advanceIdle_sliced (Cpu.halted_of_isIdle h.idle) hroom
  obtain rfl := Except.ok.inj (hu.symm.trans hfold)
  rw [← hsum, UInt64.ofNat_toNat] at hall
  rw [← hslices]
  exact Except.ok.inj (hadvance.symm.trans hall)

/-- A halted processor that is credited with slices of time has the T-states that it would have if
it were credited with all of it at once, but it is behind in R by the slots that are lost at the
ends of the slices. The same holds of the sub processor of a machine that leaves it out, and of
budgets of runs. -/
theorem idle_credit_sliced :
    (∀ (s : Cpu) (slices : List Ticks), s.regs.halted = true →
      s.ticks.count.toNat + (slices.map (·.count.toNat)).sum < UInt64.size →
      ∃ t u, slices.foldlM Cpu.advanceIdle s = .ok t ∧
        s.advanceIdle ⟨UInt64.ofNat (slices.map (·.count.toNat)).sum⟩ = .ok u ∧
        u = t.idled (lostSlots (slices.map (·.count.toNat))) 0 ∧
        (t.save = u.save ↔ lostSlots (slices.map (·.count.toNat)) % 128 = 0)) ∧
    ∀ (m m' : Machine δ) (images : List (Option RomHandle)) (t : Session δ) (moved : UInt64)
      (budgets : List UInt32) (whole : UInt32), m.Reached → m.config.idleSkip = true →
      (m.cpu .sub).isIdle = true → budgets ≠ [] → whole.toNat = (budgets.map UInt32.toNat).sum →
      m.execute whole = .ok (moved, m') →
      system.run (budgets.map .execute) ⟨m, images⟩ = .ok t →
      m'.cpu .sub = (t.machine.cpu .sub).idled (lostSlots (m.slices budgets)) 0 ∧
        ((t.machine.cpu .sub).save = (m'.cpu .sub).save ↔
          lostSlots (m.slices budgets) % 128 = 0) := by
  have hsave : ∀ (u : Cpu) (k : ℕ), u.save = (u.idled k 0).save ↔ k % 128 = 0 := by
    intro u k
    have hsame := Cpu.save_idled_eq_iff (s := u) (i := 0) (j := k) (a := 0)
    rw [Cpu.idled_zero] at hsame
    exact hsame.trans eq_comm
  constructor
  · intro s slices hs hroom
    obtain ⟨t, ht, hu⟩ := Cpu.advanceIdle_sliced hs hroom
    exact ⟨t, _, ht, hu, rfl, hsave _ _⟩
  · intro m m' images t moved budgets whole hm hskips hidle hbudgets hwhole he hrun
    have hresting : m.Resting := ⟨hskips, hidle, hm.weightFits .sub⟩
    have hcpu := hresting.execute_whole hbudgets hwhole he hrun
    refine ⟨hcpu, ?_⟩
    rw [hcpu]
    exact hsave _ _

/-- Two halted processors, and a budget of 4 T-states or twice one of 2: the slot of the sub
processor is lost between the two. -/
theorem idle_credit_sliced_in_halves :
    ∃ (m m' : Machine ParallelLink) (t : Session ParallelLink) (moved : UInt64), m.Reached ∧
      m.execute 4 = .ok (moved, m') ∧ system.run [.execute 2, .execute 2] ⟨m, []⟩ = .ok t ∧
      m'.cpu .sub = (t.machine.cpu .sub).idled 1 0 ∧
      (t.machine.cpu .sub).save ≠ (m'.cpu .sub).save := by
  obtain ⟨m₀, hnew⟩ : ∃ m₀ : Machine ParallelLink, new .standard = .ok m₀ := ⟨_, rfl⟩
  obtain ⟨m, hm⟩ : ∃ m, m = (m₀.updateCpu .main fun _ => Machine.halted).updateCpu .sub
      fun _ => Machine.halted := ⟨_, rfl⟩
  have hreached : m.Reached := by
    refine ⟨.standard, m₀,
      [.cpu .main fun _ => Machine.halted, .cpu .sub fun _ => Machine.halted], [], hnew, ?_⟩
    rw [hm]
    rfl
  rw [updateCpu_eq, updateCpu_eq, new_eq_ok hnew] at hm
  have hexecute : ∃ r, m.execute 4 = .ok r := by
    rw [hm]
    exact ⟨_, rfl⟩
  have hruns : ∃ t, system.run [.execute 2, .execute 2] ⟨m, []⟩ = .ok t := by
    rw [hm]
    exact ⟨_, rfl⟩
  obtain ⟨⟨moved, m'⟩, he⟩ := hexecute
  obtain ⟨t, hrun⟩ := hruns
  have hskips : m.config.idleSkip = true := by rw [hm]; rfl
  have hidle : (m.cpu .sub).isIdle = true := by rw [hm]; rfl
  have hlost : lostSlots (m.slices [2, 2]) = 1 := by rw [hm]; rfl
  obtain ⟨hcpu, hsame⟩ := idle_credit_sliced.2 m m' [] t moved [2, 2] 4 hreached hskips hidle
    (List.cons_ne_nil _ _) rfl he hrun
  rw [hlost] at hcpu hsame
  exact ⟨m, m', t, moved, hreached, he, hrun, hcpu, fun h => absurd (hsame.1 h) (by decide)⟩

end Machine
end TandemZ80
