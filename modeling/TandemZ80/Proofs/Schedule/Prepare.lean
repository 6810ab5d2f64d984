import Mathlib.Tactic
import TandemZ80.Schedule.Scheduler

/-!
# The beginning and the end of a run

A run of both processors sets the weights, raises the targets, and then lets the lanes go.

* `Scheduler.prepare` and `Scheduler.credit`, what happens before the first turn; `execBoth_eq`,
  `execMain_eq`, and `finish_eq` for the end;
* what is left as it was: `reweigh_eq_ok`, `extend_eq_ok`, `prepare_eq_ok`, `finish_eq_ok`,
  `execBoth_weights`, `execMain_weights`;
* where the targets are set: `extend_targets`, `reweigh_targets`, and `Scheduler.time`;
* `execBoth_reset`, a run after a reset;
* what may fail: `prepare_error`, `Processors.Skips`, `credit_skips`; `Scheduler.origin`, and
  `prepare_overflow`, what certainly fails;
* `Scheduler.Roomy`, counters far from their end, from which `prepare_ok` begins a run;
* `Scheduler.reached` and `Scheduler.toNat_caughtUp`, where the clock of a processor that is left
  out is moved to.
-/

namespace TandemZ80

/-- A counter that has not gone back has moved by the difference. -/
theorem Counter.toNat_eq_add_sub {a b : UInt64} (h : a.toNat ≤ b.toNat) :
    b.toNat = a.toNat + (b - a).toNat := by
  rw [UInt64.toNat_sub_of_le _ _ (UInt64.le_iff_toNat_le.2 h)]
  omega

/-- The sub processor can be credited with time, unless a counter overflows. -/
def Processors.Skips {σ : Type} (p : Processors σ) (I : σ → Prop) : Prop :=
  ∀ clocks st, I st →
    p.skipIdle .sub clocks st = .error .overflow ∨
      ∃ st', p.skipIdle .sub clocks st = .ok st' ∧ I st'

namespace Scheduler

variable {σ : Type} {p : Processors σ} {I : σ → Prop} {weights : PerSide UInt64}
  {s s' : Scheduler} {budget : UInt32} {st : σ}

/-- The scheduler when the lanes of a run begin. -/
def prepare (weights : PerSide UInt64) (budget : UInt32) (s : Scheduler) :
    Except Fault Scheduler := do
  (← s.reweigh weights).extend budget

theorem execBoth_eq (p : Processors σ) (weights : PerSide UInt64) (budget : UInt32) (s : Scheduler)
    (st : σ) :
    s.execBoth p weights budget st =
      s.prepare weights budget >>= fun s' => s'.finish p s'.lanes st := by
  unfold execBoth prepare
  cases s.reweigh weights <;> rfl

theorem execBoth_of_prepare {budget : UInt32} (h : s.prepare weights budget = .ok s')
    (p : Processors σ) (st : σ) : s.execBoth p weights budget st = s'.finish p s'.lanes st := by
  rw [execBoth_eq, h]
  rfl

theorem get_lanes (s : Scheduler) (i : Side) : s.lanes.get i = s.lane i := by cases i <;> rfl

/-- The lanes of a run of the main processor alone. -/
def lanesAlone (s : Scheduler) : Lanes :=
  ⟨s.lane .main, { s.lane .sub with clock := s.caughtUp .sub, parked := true }⟩

/-- Credit the sub processor with the time up to its target. -/
def credit (p : Processors σ) (s : Scheduler) (st : σ) : Except Fault σ :=
  if 0 < s.caughtUp .sub - s.clocks.sub then p.skipIdle .sub (s.caughtUp .sub - s.clocks.sub) st
  else .ok st

theorem credit_skips (hp : p.Skips I) (s : Scheduler) (hst : I st) :
    s.credit p st = .error .overflow ∨ ∃ st', s.credit p st = .ok st' ∧ I st' := by
  unfold credit
  split_ifs
  · exact hp _ st hst
  · exact .inr ⟨st, rfl, hst⟩

theorem execMain_eq {budget : UInt32} (h : s.extend budget = .ok s') (p : Processors σ) (st : σ) :
    s.execMain p budget st = s'.credit p st >>= s'.finish p s'.lanesAlone := by
  unfold credit
  simp only [execMain, h]
  show (if 0 < s'.caughtUp .sub - s'.clocks.sub then _ else _) = _
  by_cases hskip : 0 < s'.caughtUp .sub - s'.clocks.sub
  · rw [if_pos hskip, if_pos hskip]
    rfl
  · rw [if_neg hskip, if_neg hskip]
    rfl

theorem reweigh_eq_ok (h : s.reweigh weights = .ok s') :
    s'.weights = weights ∧ s'.clocks = s.clocks := by
  unfold reweigh at h
  split at h
  · next hw =>
    cases h
    exact ⟨hw.symm, rfl⟩
  · obtain ⟨targets, -, ht⟩ := Fault.bind_eq_ok h
    cases ht
    exact ⟨rfl, rfl⟩

theorem extend_eq_ok {budget : UInt32} (h : s.extend budget = .ok s') :
    s'.weights = s.weights ∧ s'.clocks = s.clocks := by
  obtain ⟨targets, -, ht⟩ := Fault.bind_eq_ok h
  cases ht
  exact ⟨rfl, rfl⟩

theorem prepare_eq_ok {budget : UInt32} (h : s.prepare weights budget = .ok s') :
    s'.weights = weights ∧ s'.clocks = s.clocks := by
  obtain ⟨s₁, hr, he⟩ := Fault.bind_eq_ok h
  obtain ⟨hw, hc⟩ := reweigh_eq_ok hr
  obtain ⟨hw', hc'⟩ := extend_eq_ok he
  exact ⟨hw'.trans hw, hc'.trans hc⟩

theorem finish_eq (s : Scheduler) (p : Processors σ) (l : Lanes) (st : σ) :
    s.finish p l st =
      (fun r => (r.1.main.clock - s.clocks.main, { s with clocks := r.1.map Lane.clock }, r.2)) <$>
        Lanes.run p turnLimit l st := by
  unfold finish
  cases Lanes.run p turnLimit l st <;> rfl

/-- A run that returns has only moved the clocks. -/
theorem finish_eq_ok {p : Processors σ} {l : Lanes} {st st' : σ} {moved : UInt64}
    (h : s.finish p l st = .ok (moved, s', st')) :
    ∃ l', Lanes.run p turnLimit l st = .ok (l', st') ∧
      s' = { s with clocks := l'.map Lane.clock } ∧ moved = l'.main.clock - s.clocks.main := by
  rw [finish_eq] at h
  obtain ⟨⟨l', st₁⟩, hr, h⟩ := Fault.map_eq_ok h
  cases h
  exact ⟨l', hr, rfl, rfl⟩

theorem execBoth_weights {p : Processors σ} {budget : UInt32} {st st' : σ} {moved : UInt64}
    (h : s.execBoth p weights budget st = .ok (moved, s', st')) : s'.weights = weights := by
  rw [execBoth_eq] at h
  obtain ⟨s₁, hprepare, hfinish⟩ := Fault.bind_eq_ok h
  obtain ⟨l', -, rfl, -⟩ := finish_eq_ok hfinish
  exact (prepare_eq_ok hprepare).1

theorem execMain_weights {p : Processors σ} {budget : UInt32} {st st' : σ} {moved : UInt64}
    (h : s.execMain p budget st = .ok (moved, s', st')) : s'.weights = s.weights := by
  obtain ⟨s₁, hextend, -⟩ := Fault.bind_eq_ok h
  rw [execMain_eq hextend] at h
  obtain ⟨st₁, -, hfinish⟩ := Fault.bind_eq_ok h
  obtain ⟨l', -, rfl, -⟩ := finish_eq_ok hfinish
  exact (extend_eq_ok hextend).1

/-! ### Targets that rise -/

/-- The time at which a processor stands. -/
def time (s : Scheduler) (weights : PerSide UInt64) (i : Side) : ℕ :=
  (s.clocks.get i).toNat * (weights.get i).toNat

theorem reweigh_self {weights : PerSide UInt64} (h : s.weights = weights) :
    s.reweigh weights = .ok s := if_pos h.symm

theorem forBoth_eq_ok {α : Type} {f : Side → Except Fault α} {r : PerSide α} (h : forBoth f = .ok r)
    (i : Side) : f i = .ok (r.get i) := by
  obtain ⟨a, ha, h⟩ := Fault.bind_eq_ok h
  obtain ⟨b, hb, h⟩ := Fault.bind_eq_ok h
  cases h
  cases i
  · exact ha
  · exact hb

theorem extend_targets (h : s.extend budget = .ok s') (i : Side) :
    (s'.targets.get i).toNat = (s.targets.get i).toNat + budget.toNat := by
  obtain ⟨targets, ht, h⟩ := Fault.bind_eq_ok h
  cases h
  rw [← Counter.add_eq_ok.1 (forBoth_eq_ok ht i), UInt32.toNat_toUInt64]

/-- Where the weights change, each processor starts out from its target. -/
theorem reweigh_targets (h : s.reweigh weights = .ok s') (hw : weights ≠ s.weights) (i : Side) :
    (s'.targets.get i).toNat = s.time weights i := by
  rw [reweigh, if_neg hw] at h
  obtain ⟨targets, ht, h⟩ := Fault.bind_eq_ok h
  cases h
  exact (Counter.ofNat_eq_ok.1 (forBoth_eq_ok ht i)).symm

/-! ### Runs after a reset -/

theorem reweigh_reset (s : Scheduler) (weights : PerSide UInt64) :
    s.reset.reweigh weights = .ok { initial with weights } := by
  unfold reweigh
  split_ifs with hweights
  · rw [hweights]
    rfl
  · have hzero :
        ∀ i, Counter.ofNat ((s.reset.clocks.get i).toNat * (weights.get i).toNat) = .ok 0 := by
      intro i
      rw [show (s.reset.clocks.get i).toNat = 0 by cases i <;> rfl, Nat.zero_mul]
      rfl
    simp only [forBoth, hzero]
    rfl

/-- After a reset the weights of earlier runs make no difference. -/
theorem execBoth_reset (s : Scheduler) (p : Processors σ) (weights : PerSide UInt64)
    (budget : UInt32) (st : σ) :
    s.reset.execBoth p weights budget st = initial.execBoth p weights budget st := by
  have hinitial : initial.reweigh weights = .ok { initial with weights } :=
    reweigh_reset initial weights
  rw [execBoth_eq, execBoth_eq, prepare, prepare, reweigh_reset, hinitial]

/-! ### Counters that overflow -/

theorem forBoth_error {α : Type} {f : Side → Except Fault α} {e : Fault}
    (h : forBoth f = .error e) : ∃ i, f i = .error e := by
  unfold forBoth at h
  cases hmain : f .main with
  | error e' =>
    rw [hmain] at h
    cases h
    exact ⟨.main, hmain⟩
  | ok a =>
    cases hsub : f .sub with
    | error e' =>
      rw [hmain, hsub] at h
      cases h
      exact ⟨.sub, hsub⟩
    | ok b =>
      rw [hmain, hsub] at h
      cases h

theorem extend_error {budget : UInt32} {f : Fault} (h : s.extend budget = .error f) :
    f = .overflow := by
  unfold extend at h
  cases ht : forBoth fun i => Counter.add (s.targets.get i) budget.toUInt64 with
  | error e =>
    rw [ht] at h
    cases h
    obtain ⟨i, hi⟩ := forBoth_error ht
    exact Counter.ofNat_eq_error hi
  | ok targets =>
    rw [ht] at h
    cases h

theorem reweigh_error {f : Fault} (h : s.reweigh weights = .error f) : f = .overflow := by
  unfold reweigh at h
  split_ifs at h
  cases ht : forBoth fun i => Counter.ofNat ((s.clocks.get i).toNat * (weights.get i).toNat) with
  | error e =>
    rw [ht] at h
    cases h
    obtain ⟨i, hi⟩ := forBoth_error ht
    exact Counter.ofNat_eq_error hi
  | ok targets =>
    rw [ht] at h
    cases h

theorem prepare_error {f : Fault} (h : s.prepare weights budget = .error f) : f = .overflow := by
  unfold prepare at h
  cases hs : s.reweigh weights with
  | error e =>
    rw [hs] at h
    cases h
    exact reweigh_error hs
  | ok s₁ =>
    rw [hs] at h
    exact extend_error h

/-- Where the target of a processor begins in a run with these weights. -/
def origin (s : Scheduler) (weights : PerSide UInt64) (i : Side) : ℕ :=
  if weights = s.weights then (s.targets.get i).toNat else s.time weights i

theorem reweigh_origin (h : s.reweigh weights = .ok s') (i : Side) :
    (s'.targets.get i).toNat = s.origin weights i := by
  unfold origin
  by_cases hw : weights = s.weights
  · rw [reweigh_self hw.symm] at h
    cases h
    rw [if_pos hw]
  · rw [if_neg hw]
    exact reweigh_targets h hw i

/-- A run does not begin if a target has no room for the budget. -/
theorem prepare_overflow {i : Side} (h : UInt64.size ≤ s.origin weights i + budget.toNat) :
    s.prepare weights budget = .error .overflow := by
  cases hs : s.prepare weights budget with
  | error f => rw [prepare_error hs]
  | ok s' =>
    obtain ⟨s₁, hreweigh, hextend⟩ := Fault.bind_eq_ok hs
    have htarget := extend_targets hextend i
    have hlt := (s'.targets.get i).toNat_lt
    rw [reweigh_origin hreweigh] at htarget
    simp only [UInt64.size] at h
    omega

theorem prepare_self (s : Scheduler) (budget : UInt32) :
    s.prepare s.weights budget = s.extend budget := by
  rw [prepare, reweigh_self rfl]
  rfl

/-! ### Counters far from their end -/

/-- A scheduler whose counters are far from overflowing, with weights that it can take. -/
structure Roomy (s : Scheduler) : Prop where
  clocks : ∀ i, (s.clocks.get i).toNat < 2 ^ 62
  targets : ∀ i, (s.targets.get i).toNat < 2 ^ 62
  weights : ∀ i, weightFits (s.weights.get i)

theorem roomy_initial : Roomy initial := by
  refine ⟨fun i => ?_, fun i => ?_, fun i => ?_⟩ <;> cases i <;> decide

theorem weightFits_bounds {w : UInt64} (h : weightFits w) : 1 ≤ w.toNat ∧ w.toNat ≤ 2 := by
  rcases h with rfl | rfl <;> decide

theorem weightFits_ratio (ratio : ClockRatio) (i : Side) : weightFits (ratio.weights.get i) := by
  cases ratio <;> cases i <;> decide

/-- A scheduler with fitting weights is read back as it is. -/
theorem load_save (h : ∀ i, weightFits (s.weights.get i)) : load s.save = .ok s := by
  have hrev : ¬s.save.rev ≠ revision := not_not.2 rfl
  have hfits : weightFits s.save.weights.main ∧ weightFits s.save.weights.sub := ⟨h .main, h .sub⟩
  rw [load, if_neg hrev, if_pos hfits]
  rfl

theorem weightFits_of_load {p : Snapshot} (h : load p = .ok s) (i : Side) :
    weightFits (s.weights.get i) := by
  unfold load at h
  split_ifs at h with hrev hweights
  cases h
  cases i
  · exact hweights.1
  · exact hweights.2

theorem forBoth_ok {α : Type} {f : Side → Except Fault α} {P : Side → α → Prop}
    (h : ∀ i, ∃ a, f i = .ok a ∧ P i a) : ∃ r, forBoth f = .ok r ∧ ∀ i, P i (r.get i) := by
  obtain ⟨a, ha, hPa⟩ := h .main
  obtain ⟨b, hb, hPb⟩ := h .sub
  refine ⟨⟨a, b⟩, by simp only [forBoth, ha, hb]; rfl, fun i => ?_⟩
  cases i
  · exact hPa
  · exact hPb

theorem counter_ofNat_ok {n : ℕ} (h : n < UInt64.size) :
    ∃ c, Counter.ofNat n = .ok c ∧ c.toNat = n :=
  ⟨UInt64.ofNat n, if_pos h, UInt64.toNat_ofNat_of_lt' h⟩

theorem extend_ok (budget : UInt32)
    (h : ∀ i, (s.targets.get i).toNat + UInt32.size ≤ UInt64.size) :
    ∃ s', s.extend budget = .ok s' ∧
      ∀ i, (s'.targets.get i).toNat ≤ (s.targets.get i).toNat + UInt32.size := by
  have hbudget := budget.toNat_lt
  obtain ⟨targets, ht, hle⟩ := forBoth_ok
    (f := fun i => Counter.add (s.targets.get i) budget.toUInt64)
    (P := fun i c => c.toNat ≤ (s.targets.get i).toNat + UInt32.size) fun i => by
      have hi := h i
      simp only [UInt32.size] at hi ⊢
      obtain ⟨c, hc, hn⟩ := counter_ofNat_ok
        (n := (s.targets.get i).toNat + budget.toUInt64.toNat) (by
          rw [UInt32.toNat_toUInt64]
          omega)
      refine ⟨c, hc, ?_⟩
      rw [hn, UInt32.toNat_toUInt64]
      omega
  exact ⟨{ s with targets }, by simp only [extend, ht]; rfl, hle⟩

theorem reweigh_ok (hs : s.Roomy) (ratio : ClockRatio) :
    ∃ s', s.reweigh ratio.weights = .ok s' ∧ ∀ i, (s'.targets.get i).toNat < 2 ^ 63 := by
  unfold reweigh
  by_cases hw : ratio.weights = s.weights
  · rw [if_pos hw]
    exact ⟨s, rfl, fun i => (hs.targets i).trans (by decide)⟩
  · rw [if_neg hw]
    obtain ⟨targets, ht, hlt⟩ := forBoth_ok
      (f := fun i => Counter.ofNat ((s.clocks.get i).toNat * (ratio.weights.get i).toNat))
      (P := fun _ c => c.toNat < 2 ^ 63) fun i => by
        have hclock := hs.clocks i
        have hle := Nat.mul_le_mul_left (s.clocks.get i).toNat
          (weightFits_bounds (weightFits_ratio ratio i)).2
        obtain ⟨c, hc, hn⟩ := counter_ofNat_ok
          (n := (s.clocks.get i).toNat * (ratio.weights.get i).toNat) (by
            simp only [UInt64.size]
            omega)
        exact ⟨c, hc, by omega⟩
    exact ⟨{ s with targets, weights := ratio.weights }, by simp only [ht]; rfl, hlt⟩

/-- From a roomy scheduler every run of both processors begins, with goals far from overflowing. -/
theorem prepare_ok (hs : s.Roomy) (ratio : ClockRatio) (budget : UInt32) :
    ∃ s', s.prepare ratio.weights budget = .ok s' ∧
      ∀ i, (s'.targets.get i).toNat ≤ 2 ^ 63 + UInt32.size := by
  obtain ⟨s₁, h₁, hlt⟩ := reweigh_ok hs ratio
  obtain ⟨s₂, h₂, hle⟩ := extend_ok (s := s₁) budget fun i => by
    have := hlt i
    simp only [UInt32.size, UInt64.size]
    omega
  refine ⟨s₂, by simp only [prepare, h₁]; exact h₂, fun i => ?_⟩
  have h₁ := hlt i
  have h₂ := hle i
  omega

/-! ### A clock that is moved to its target -/

/-- The clock of a processor that goes on to `target`, unless it is beyond it already. -/
def reached (weight clock target : ℕ) : ℕ := max clock ((target + (weight - 1)) / weight)

theorem toNat_caughtUp (hw : weightFits (s.weights.get .sub)) :
    (s.caughtUp .sub).toNat = reached (s.weights.get .sub).toNat (s.clocks.get .sub).toNat
      (s.targets.get .sub).toNat := by
  have htarget := (s.targets.get .sub).toNat_lt
  have hround : (UInt64.ofNat (((s.targets.get .sub).toNat + ((s.weights.get .sub).toNat - 1)) /
      (s.weights.get .sub).toNat)).toNat =
        ((s.targets.get .sub).toNat + ((s.weights.get .sub).toNat - 1)) /
          (s.weights.get .sub).toNat := by
    refine UInt64.toNat_ofNat_of_lt' (Nat.div_lt_of_lt_mul ?_)
    rw [UInt64.size]
    rcases hw with hw | hw <;> rw [hw]
    · show _ + 0 < 1 * _
      omega
    · show _ + 1 < 2 * _
      omega
  unfold caughtUp reached
  dsimp only
  split_ifs with hlt
  · rw [UInt64.lt_iff_toNat_lt, hround] at hlt
    rw [hround, max_eq_right hlt.le]
  · rw [UInt64.lt_iff_toNat_lt, hround, not_lt] at hlt
    rw [max_eq_left hlt]

theorem clock_le_reached (weight clock target : ℕ) : clock ≤ reached weight clock target :=
  le_max_left _ _

theorem clock_le_caughtUp (s : Scheduler) (i : Side) :
    (s.clocks.get i).toNat ≤ (s.caughtUp i).toNat := by
  unfold caughtUp
  dsimp only
  split_ifs with hlt
  · exact (UInt64.lt_iff_toNat_lt.1 hlt).le
  · exact le_refl _

/-- With small counters the sub processor is credited with little time. -/
theorem toNat_caughtUp_lt {n : ℕ} (hw : weightFits (s.weights.get .sub))
    (hclock : (s.clocks.get .sub).toNat < n) (htarget : (s.targets.get .sub).toNat < n) :
    (s.caughtUp .sub).toNat < n := by
  have hreached := toNat_caughtUp hw
  unfold reached at hreached
  have hround : ((s.targets.get .sub).toNat + ((s.weights.get .sub).toNat - 1)) /
      (s.weights.get .sub).toNat ≤ (s.targets.get .sub).toNat := by
    obtain hw | hw : s.weights.get .sub = 1 ∨ s.weights.get .sub = 2 := hw
    · simp [hw]
    · rw [hw]
      show (_ + 1) / 2 ≤ _
      omega
  omega

end Scheduler
end TandemZ80
