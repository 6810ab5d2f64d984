import TandemZ80.Proofs.Schedule.Lone
import TandemZ80.Proofs.Schedule.Returns
import TandemZ80.Proofs.System

/-!
# The books of the scheduler

What a lane overshoots in one run, or still owes because it was stopped, is in its counters, and the
next run goes on from there. So over any number of runs a processor stays within one step of its
target, and only one that asked for the end of its last run may be short of it.

* `Stint`, a run that a scheduler is asked for, and `Scheduler.system`;
* `Scheduler.begin`, all that happens before the first turn, and `perform_eq`; `perform_overflow`, a
  stint that does not begin;
* `Scheduler.OnPace`, what every run keeps;
* `Scheduler.Accounts`, the counters before and after a run, and `Scheduler.clocks_follow_targets`.
-/

namespace TandemZ80

/-- A run that a scheduler is asked for: of both processors at a ratio of their rates, or of the
main one alone. -/
inductive Stint
  | both (ratio : ClockRatio) (budget : UInt32)
  | main (budget : UInt32)
  deriving DecidableEq

namespace Stint

/-- By how much both targets rise. -/
def budget : Stint → UInt32
  | both _ budget => budget
  | main budget => budget

/-- How much a T-state of each processor counts for. -/
def weights (s : Scheduler) : Stint → PerSide UInt64
  | both ratio _ => ratio.weights
  | main _ => s.weights

end Stint

namespace Scheduler

variable {σ : Type} {p : Processors σ} {most : ℕ} {I : σ → Prop} {s s' : Scheduler} {st st' : σ}
  {budget : UInt32} {weights : PerSide UInt64} {stint : Stint}

/-- A scheduler with its processors. It answers each stint by the time that the main clock moved. -/
def system (p : Processors σ) : System Stint UInt64 Scheduler (Scheduler × σ) where
  perform
    | .both ratio budget, (s, st) => s.execBoth p ratio.weights budget st
    | .main budget, (s, st) => s.execMain p budget st
  view := Prod.fst

/-- All that happens before the first turn: the counters, the lanes, and the processors, of which
one may have been credited with time. -/
def begin (p : Processors σ) (stint : Stint) (s : Scheduler) (st : σ) :
    Except Fault (Scheduler × Lanes × σ) :=
  match stint with
  | .both ratio budget => (fun s => (s, s.lanes, st)) <$> s.prepare ratio.weights budget
  | .main budget => do
    let s ← s.extend budget
    (fun st => (s, s.lanesAlone, st)) <$> s.credit p st

/-- The sides that ask for the end of their run. -/
def stops (p : Processors σ) (stint : Stint) (s : Scheduler) (st : σ) : List Side :=
  match begin p stint s st with
  | .error _ => []
  | .ok (_, l, st) => Lanes.stops p turnLimit l st

theorem perform_eq (p : Processors σ) (stint : Stint) (s : Scheduler) (st : σ) :
    (system p).perform stint (s, st) =
      begin p stint s st >>= fun b => b.1.finish p b.2.1 b.2.2 := by
  cases stint with
  | both ratio budget =>
    show s.execBoth p ratio.weights budget st = _
    rw [execBoth_eq, begin]
    cases s.prepare ratio.weights budget <;> rfl
  | main budget =>
    show s.execMain p budget st = _
    rw [begin]
    cases h : s.extend budget with
    | error f =>
      rw [execMain, h]
      rfl
    | ok s' =>
      rw [execMain_eq h]
      show s'.credit p st >>= _ = ((fun st => (s', s'.lanesAlone, st)) <$> s'.credit p st) >>= _
      cases s'.credit p st <;> rfl

/-! ### Before the first turn -/

/-- No stint begins if a target has no room for its budget. -/
theorem perform_overflow {i : Side}
    (h : UInt64.size ≤ s.origin (stint.weights s) i + stint.budget.toNat) :
    (system p).perform stint (s, st) = .error .overflow := by
  rw [perform_eq]
  cases stint with
  | both ratio budget =>
    have hprepare : s.prepare ratio.weights budget = .error .overflow := prepare_overflow h
    rw [begin, hprepare]
    rfl
  | main budget =>
    have hextend : s.extend budget = .error .overflow := by
      rw [← prepare_self]
      exact prepare_overflow h
    rw [begin, hextend]
    rfl

/-- The clock of a processor that is credited with the time up to its target has just reached it, or
stays as it was. -/
theorem caughtUp_bounds (hw : weightFits (s.weights.get .sub)) :
    (s.targets.get .sub).toNat ≤ (s.caughtUp .sub).toNat * (s.weights.get .sub).toNat ∧
      ((s.caughtUp .sub).toNat * (s.weights.get .sub).toNat <
          (s.targets.get .sub).toNat + (s.weights.get .sub).toNat ∨
        s.caughtUp .sub = s.clocks.get .sub) := by
  have hreached := toNat_caughtUp hw
  unfold reached at hreached
  rw [← UInt64.toNat_inj]
  rcases hw with hw | hw <;> rw [hw] at hreached ⊢
  · simp at hreached ⊢
    omega
  · have htwo : (2 : UInt64).toNat = 2 := rfl
    rw [htwo] at hreached ⊢
    omega

/-! ### From run to run -/

/-- Weights that a scheduler can take, and processors that have overshot their targets by less than
one step. -/
structure OnPace (most : ℕ) (s : Scheduler) : Prop where
  weights : ∀ i, weightFits (s.weights.get i)
  below : ∀ i, s.time s.weights i < (s.targets.get i).toNat + most * (s.weights.get i).toNat

theorem onPace_initial (hmost : 1 ≤ most) : initial.OnPace most := by
  refine ⟨fun i => ?_, fun i => ?_⟩
  · cases i <;> exact .inl rfl
  · have hzero : initial.time initial.weights i = 0 := by cases i <;> rfl
    have hone : (initial.weights.get i).toNat = 1 := by cases i <;> rfl
    rw [hzero, hone]
    omega

theorem OnPace.reweigh (h : s.OnPace most) (hmost : 1 ≤ most) {ratio : ClockRatio}
    (hs : s.reweigh ratio.weights = .ok s') : s'.OnPace most := by
  obtain ⟨hweights, hclocks⟩ := reweigh_eq_ok hs
  by_cases hw : ratio.weights = s.weights
  · rw [reweigh_self hw.symm] at hs
    cases hs
    exact h
  · refine ⟨fun i => by rw [hweights]; exact weightFits_ratio ratio i, fun i => ?_⟩
    have hpos := (weightFits_bounds (weightFits_ratio ratio i)).1
    have hstep := Nat.mul_le_mul hmost hpos
    rw [reweigh_targets hs hw i, time, hclocks, hweights, time]
    omega

theorem OnPace.extend (h : s.OnPace most) (hs : s.extend budget = .ok s') : s'.OnPace most := by
  obtain ⟨hweights, hclocks⟩ := extend_eq_ok hs
  refine ⟨by rw [hweights]; exact h.weights, fun i => ?_⟩
  have := h.below i
  rw [extend_targets hs, time, hclocks, hweights, ← time]
  omega

theorem paced_lanes
    (hbelow : ∀ i, s.time s.weights i < (s.targets.get i).toNat + most * (s.weights.get i).toNat) :
    Lanes.Paced most s.targets s.lanes := by
  refine ⟨fun i => ?_, fun i => ?_, fun i => ?_, fun i hi => ?_⟩ <;> simp only [get_lanes] at *
  · rfl
  · exact le_refl _
  · exact hbelow i
  · cases hi

theorem OnPace.lanesAlone (h : s.OnPace most) (hmost : 1 ≤ most) :
    Lanes.Paced most s.targets s.lanesAlone := by
  have hpaced := paced_lanes h.below
  obtain ⟨hreached, hcaught⟩ := caughtUp_bounds (h.weights .sub)
  refine ⟨fun i => ?_, fun i => ?_, fun i => ?_, fun i hi => ?_⟩ <;> cases i
  · exact hpaced.free .main
  · exact hpaced.free .sub
  · exact hpaced.goal .main
  · exact hpaced.goal .sub
  · exact hpaced.below .main
  · show (s.caughtUp .sub).toNat * (s.weights.get .sub).toNat < _
    rcases hcaught with hlt | heq
    · have hstep := Nat.mul_le_mul_right (s.weights.get .sub).toNat hmost
      exact hlt.trans_le (Nat.add_le_add_left (by rwa [one_mul] at hstep) _)
    · rw [heq]
      exact h.below .sub
  · cases hi
  · exact hreached

/-- What is true when the lanes of a stint begin. -/
structure Begun (most : ℕ) (stint : Stint) (s s' : Scheduler) (l : Lanes) : Prop where
  weights : s'.weights = stint.weights s
  targets : stint.weights s = s.weights →
    ∀ i, (s'.targets.get i).toNat = (s.targets.get i).toNat + stint.budget.toNat
  clocks : s'.clocks = s.clocks
  fits : ∀ i, weightFits (s'.weights.get i)
  weight : ∀ i, (l.get i).weight = s'.weights.get i
  goal : ∀ i, (l.get i).goal = (s'.targets.get i).toNat
  main : l.main.clock = s.clocks.main
  paced : Lanes.Paced most s'.targets l

theorem OnPace.begun_both (h : s.OnPace most) (hmost : 1 ≤ most) {ratio : ClockRatio}
    (hs : s.prepare ratio.weights budget = .ok s') :
    Begun most (.both ratio budget) s s' s'.lanes := by
  obtain ⟨s₁, hreweigh, hextend⟩ := Fault.bind_eq_ok hs
  obtain ⟨hweights, hclocks⟩ := prepare_eq_ok hs
  have hpace := (h.reweigh hmost hreweigh).extend hextend
  refine ⟨hweights, fun hsame i => ?_, hclocks, hpace.weights, fun i => ?_, fun i => ?_, ?_,
    paced_lanes hpace.below⟩
  · have hsame : ratio.weights = s.weights := hsame
    rw [reweigh_self hsame.symm] at hreweigh
    cases hreweigh
    exact extend_targets hextend i
  · rw [get_lanes]
    rfl
  · rw [get_lanes]
    rfl
  · rw [← hclocks]
    rfl

theorem OnPace.begun_main (h : s.OnPace most) (hmost : 1 ≤ most) (hs : s.extend budget = .ok s') :
    Begun most (.main budget) s s' s'.lanesAlone := by
  obtain ⟨hweights, hclocks⟩ := extend_eq_ok hs
  have hpace := h.extend hs
  refine ⟨hweights, fun _ => extend_targets hs, hclocks, hpace.weights, fun i => ?_,
    fun i => ?_, ?_, hpace.lanesAlone hmost⟩
  · cases i <;> rfl
  · cases i <;> rfl
  · rw [← hclocks]
    rfl

/-- A stint begins on pace, unless a counter overflows. -/
theorem OnPace.begin (hskip : p.Skips I) (hmost : 1 ≤ most) (h : s.OnPace most) (hst : I st)
    (stint : Stint) :
    Scheduler.begin p stint s st = .error .overflow ∨
      ∃ s' l st', Scheduler.begin p stint s st = .ok (s', l, st') ∧ Begun most stint s s' l ∧
        I st' := by
  cases stint with
  | both ratio budget =>
    rw [Scheduler.begin]
    cases hs : s.prepare ratio.weights budget with
    | error f =>
      obtain rfl := prepare_error hs
      exact .inl rfl
    | ok s' => exact .inr ⟨s', s'.lanes, st, rfl, h.begun_both hmost hs, hst⟩
  | main budget =>
    rw [Scheduler.begin]
    cases hs : s.extend budget with
    | error f =>
      obtain rfl := extend_error hs
      exact .inl rfl
    | ok s' =>
      show (fun st => (s', s'.lanesAlone, st)) <$> s'.credit p st = _ ∨
        ∃ s₁ l st', (fun st => (s', s'.lanesAlone, st)) <$> s'.credit p st = _ ∧ _
      rcases credit_skips hskip s' hst with herror | ⟨st', hcredit, hst'⟩
      · rw [herror]
        exact .inl rfl
      · rw [hcredit]
        exact .inr ⟨s', s'.lanesAlone, st', rfl, h.begun_main hmost hs, hst'⟩

/-- The counters before and after a stint that was answered by `moved`, and in which the sides in
`stopped` asked for the end of their run. -/
structure Accounts (most : ℕ) (stint : Stint) (stopped : List Side) (s : Scheduler) (moved : UInt64)
    (s' : Scheduler) : Prop where
  weights : s'.weights = stint.weights s
  /-- Both targets rise by the budget, if the ratio stays. -/
  targets : stint.weights s = s.weights →
    ∀ i, (s'.targets.get i).toNat = (s.targets.get i).toNat + stint.budget.toNat
  /-- No processor has overshot its target by a whole step. -/
  below : ∀ i,
    s'.time s'.weights i < (s'.targets.get i).toNat + most * (s'.weights.get i).toNat
  /-- A processor that did not ask for the end of its run has come to its target. -/
  reached : ∀ i, i ∉ stopped → (s'.targets.get i).toNat ≤ s'.time s'.weights i
  /-- The answer is the time by which the main clock moved. -/
  moved : s'.clocks.main.toNat = s.clocks.main.toNat + moved.toNat

/-- From lanes on pace a run comes to its end, on pace, unless a counter overflows. -/
theorem finish_lone (hp : p.Lone most I) {targets : PerSide UInt64} {l : Lanes}
    (hpaced : Lanes.Paced most targets l) (hst : I st) (s : Scheduler) :
    s.finish p l st = .error .overflow ∨
      ∃ l' st', Lanes.run p turnLimit l st = .ok (l', st') ∧
        s.finish p l st =
          .ok (l'.main.clock - s.clocks.main, { s with clocks := l'.map Lane.clock }, st') ∧
        I st' ∧ Lanes.Paced most targets l' ∧ l'.next = .ok none ∧
        ∀ i, (l.get i).Moved (i ∈ Lanes.stops p turnLimit l st) (l'.get i) := by
  rw [finish_eq]
  rcases Lanes.run_lone hp hpaced hst (left_lt_turnLimit l) with
    herror | ⟨l', st', hrun, hst', hpaced', hend, hmoved⟩
  · rw [herror]
    exact .inl rfl
  · rw [hrun]
    exact .inr ⟨l', st', rfl, rfl, hst', hpaced', hend, hmoved⟩

/-- The books at the end of the lanes. -/
theorem Begun.accounts {l l' : Lanes} {stopped : List Side} (h : Begun most stint s s' l)
    (hpaced : Lanes.Paced most s'.targets l') (hend : l'.next = .ok none)
    (hmoved : ∀ i, (l.get i).Moved (i ∈ stopped) (l'.get i)) :
    Accounts most stint stopped s (l'.main.clock - s'.clocks.main)
      { s' with clocks := l'.map Lane.clock } := by
  have hweight : ∀ i, (l'.get i).weight = s'.weights.get i := fun i =>
    (hmoved i).weight.trans (h.weight i)
  have htime : ∀ i, (Scheduler.mk (l'.map Lane.clock) s'.targets s'.weights).time s'.weights i =
      (l'.get i).time := by
    intro i
    rw [Lane.time, hweight]
    cases i <;> rfl
  refine ⟨h.weights, h.targets, fun i => ?_, fun i hi => ?_, ?_⟩
  · have hbelow := hpaced.below i
    rw [hweight] at hbelow
    rw [htime]
    exact hbelow
  · rw [htime]
    rcases hpaced.free.goal_le_time hend i with hparked | hgoal
    · exact hpaced.parked i hparked
    · rw [← h.goal, ← (hmoved i).goal hi]
      exact hgoal
  · have hclock : l.main.clock.toNat ≤ l'.main.clock.toNat := (hmoved .main).clock
    rw [h.main] at hclock
    show l'.main.clock.toNat = _ + (l'.main.clock - s'.clocks.main).toNat
    rw [h.clocks]
    exact Counter.toNat_eq_add_sub hclock

/-- Every stint returns and leaves the processors on pace, unless a counter overflows. -/
theorem OnPace.perform (hp : p.Lone most I) (hskip : p.Skips I) (hmost : 1 ≤ most)
    (h : s.OnPace most) (hst : I st) (stint : Stint) :
    (system p).perform stint (s, st) = .error .overflow ∨
      ∃ moved s' st', (system p).perform stint (s, st) = .ok (moved, s', st') ∧ s'.OnPace most ∧
        I st' ∧ Accounts most stint (stops p stint s st) s moved s' := by
  rw [perform_eq]
  rcases h.begin hskip hmost hst stint with herror | ⟨s₁, l, st₁, hok, hbegun, hst₁⟩
  · rw [herror]
    exact .inl rfl
  have hstops : stops p stint s st = Lanes.stops p turnLimit l st₁ := by rw [stops, hok]
  rw [hok, hstops]
  show s₁.finish p l st₁ = _ ∨ ∃ moved s' st', s₁.finish p l st₁ = _ ∧ _
  rcases finish_lone hp hbegun.paced hst₁ s₁ with
    herror | ⟨l', st', -, hfinish, hst', hpaced, hend, hmoved⟩
  · exact .inl herror
  have haccounts := hbegun.accounts hpaced hend hmoved
  exact .inr ⟨_, _, st', hfinish, ⟨hbegun.fits, haccounts.below⟩, hst', haccounts⟩

/-- Processors that never ask for shared ports, and whose every step takes between 1 and `most`
T-states: from the initial counters every stint of any sequence returns, and its books are in order,
unless a counter overflows. -/
theorem clocks_follow_targets (hmost : 1 ≤ most) (hp : p.Lone most I) (hskip : p.Skips I)
    (hst : I st) (stints : List Stint) (stint : Stint)
    (hfits : (system p).run (stints ++ [stint]) (initial, st) ≠ .error .overflow) :
    ∃ s st₁ moved s' st₂, (system p).run stints (initial, st) = .ok (s, st₁) ∧
      (system p).perform stint (s, st₁) = .ok (moved, s', st₂) ∧
      Accounts most stint (stops p stint s st₁) s moved s' := by
  have hstep : ∀ op r, r.1.OnPace most ∧ I r.2 → (system p).perform op r = .error .overflow ∨
      ∃ r', (system p).perform op r = .ok r' ∧ r'.2.1.OnPace most ∧ I r'.2.2 := by
    rintro op ⟨s, st⟩ ⟨hpace, hst⟩
    rcases hpace.perform hp hskip hmost hst op with herror | ⟨moved, s', st', hok, hpace', hst', -⟩
    · exact .inl herror
    · exact .inr ⟨_, hok, hpace', hst'⟩
  rw [System.run_append] at hfits
  rcases System.run_returns hstep stints (s := (initial, st)) ⟨onPace_initial hmost, hst⟩ with
    herror | ⟨⟨s, st₁⟩, hrun, hpace, hst₁⟩
  · rw [herror] at hfits
    exact absurd rfl hfits
  rw [hrun] at hfits ⊢
  rcases hpace.perform hp hskip hmost hst₁ stint with
    herror | ⟨moved, s', st₂, hok, -, -, haccounts⟩
  · refine absurd ?_ hfits
    show ((system p).perform stint (s, st₁) >>= _) = _
    rw [herror]
    rfl
  · exact ⟨s, st₁, moved, s', st₂, rfl, hok, haccounts⟩

/-- Steps of 7 T-states on the main side, and on the sub side steps of 3 that all ask for the end of
the run. -/
def unequal : Processors Unit where
  step
    | .main, _ => .done (7, ())
    | .sub, _ => .ask (.stop 1) fun _ => .done (3, ())
  skipIdle _ _ _ := .ok ()

theorem unequal_lone : unequal.Lone 7 fun _ => True := by
  refine ⟨fun i st _ => ?_⟩
  cases i
  · exact .done (by decide)
  · exact .stop 1 (.done (by decide))

/-- A run of both, one of the main processor alone, and one of both at another ratio. -/
theorem unequal_follow_targets :
    ∃ s st₁ moved s' st₂,
      (system unequal).run [.both .oneToOne 10, .main 5] (initial, ()) = .ok (s, st₁) ∧
        (system unequal).perform (.both .twoToOne 11) (s, st₁) = .ok (moved, s', st₂) ∧
        Accounts 7 (.both .twoToOne 11) (stops unequal (.both .twoToOne 11) s st₁) s moved s' := by
  refine clocks_follow_targets (by decide) unequal_lone (fun _ _ _ => .inr ⟨(), rfl, trivial⟩)
    trivial _ _ ?_
  have hreturns : ((system unequal).run [.both .oneToOne 10, .main 5, .both .twoToOne 11]
      (initial, ())).toOption.isSome = true := by
    decide +kernel
  intro h
  rw [List.cons_append, List.cons_append, List.nil_append] at h
  rw [h] at hreturns
  cases hreturns

end Scheduler
end TandemZ80
