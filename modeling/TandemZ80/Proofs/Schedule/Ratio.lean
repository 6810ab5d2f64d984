import TandemZ80.Proofs.Schedule.Bookkeeping

/-!
# Changes of the ratio

The time of a lane is its clock times its weight. So a change of the weights counts all that has
passed anew, and the lanes, which stood together, stand apart by what the sub processor has run. The
targets begin again where each processor stands: they keep that distance from then on, and the lanes
keep it with them.

* `Scheduler.gap`, by how much the sub lane is ahead of the main one, and `Scheduler.offset`, the
  same for the targets;
* `perform_offset`, what a stint does to the distance of the targets;
* `Processors.Silent`, processors that ask for nothing, and `Accounts.near`, their lanes are as far
  apart as the targets;
* `Scheduler.gap_follows_offset`.
-/

namespace TandemZ80

/-- Processors that ask their partner for nothing, and whose every step takes between 1 and `most`
T-states. What they depend on is in `I`. -/
structure Processors.Silent {σ : Type} (p : Processors σ) (most : ℕ) (I : σ → Prop) : Prop where
  step : ∀ i st, I st →
    ∃ cost st', p.step i st = .done (cost, st') ∧ 0 < cost ∧ cost ≤ most ∧ I st'

namespace Processors.Silent

variable {σ : Type} {p : Processors σ} {most : ℕ} {I : σ → Prop} {st : σ}

theorem lone (hp : p.Silent most I) : p.Lone most I := by
  constructor
  intro i st hst
  obtain ⟨cost, st', hstep, hpos, hmost, hst'⟩ := hp.step i st hst
  rw [hstep]
  exact .done ⟨⟨hpos, hmost⟩, hst'⟩

/-- Nobody asks for the end of a run. -/
theorem stops_eq_nil (hp : p.Silent most I) (n : ℕ) (l : Lanes) (hst : I st) :
    Lanes.stops p n l st = [] := by
  induction n generalizing l st with
  | zero => rfl
  | succ n ih =>
    unfold Lanes.stops
    split
    · next s hn =>
      obtain ⟨cost, st₁, hstep, -, -, hst₁⟩ := hp.step s st hst
      have hquiet : Lanes.turnStops p s l st = false := by
        rw [Lanes.turnStops, hstep]
        rfl
      rw [hquiet, Lanes.turn, hstep]
      cases hadvance : Lanes.advance s cost l with
      | error f => simp [Dialogue.run, hadvance]
      | ok l' => simpa [Dialogue.run, hadvance] using ih l' hst₁
    · rfl

end Processors.Silent

namespace Scheduler

variable {σ : Type} {p : Processors σ} {most : ℕ} {I : σ → Prop} {s s' : Scheduler} {st st' : σ}
  {budget : UInt32} {weights : PerSide UInt64} {stint : Stint} {ratio : ClockRatio} {moved : UInt64}

/-- By how much the sub processor is ahead of the main one, if T-states count by `weights`. -/
def gap (s : Scheduler) (weights : PerSide UInt64) : ℤ := s.time weights .sub - s.time weights .main

/-- By how much the target of the sub processor is ahead of that of the main one. -/
def offset (s : Scheduler) : ℤ := s.targets.sub.toNat - s.targets.main.toNat

/-! ### The distance of the targets -/

theorem reweigh_offset (h : s.reweigh weights = .ok s') :
    s'.offset = if weights = s.weights then s.offset else s.gap weights := by
  split_ifs with hw
  · rw [reweigh_self hw.symm] at h
    cases h
    rfl
  · have hmain := reweigh_targets h hw .main
    have hsub := reweigh_targets h hw .sub
    simp only [PerSide.get] at hmain hsub
    rw [offset, gap, hmain, hsub]

theorem extend_offset (h : s.extend budget = .ok s') : s'.offset = s.offset := by
  have hmain := extend_targets h .main
  have hsub := extend_targets h .sub
  simp only [PerSide.get] at hmain hsub
  rw [offset, offset, hmain, hsub]
  omega

theorem finish_offset {l : Lanes} (h : s.finish p l st = .ok (moved, s', st')) :
    s'.offset = s.offset := by
  obtain ⟨l', -, rfl, -⟩ := finish_eq_ok h
  rfl

/-- A stint at the same ratio keeps the distance of the targets; with the ratio, it becomes the
distance of the processors, all that has passed counted anew. -/
theorem perform_offset (h : (system p).perform stint (s, st) = .ok (moved, s', st')) :
    s'.offset = if stint.weights s = s.weights then s.offset else s.gap (stint.weights s) := by
  cases stint with
  | both ratio budget =>
    have h : s.execBoth p ratio.weights budget st = _ := h
    rw [execBoth_eq] at h
    obtain ⟨s₂, hprepare, hfinish⟩ := Fault.bind_eq_ok h
    obtain ⟨s₁, hreweigh, hextend⟩ := Fault.bind_eq_ok hprepare
    rw [finish_offset hfinish, extend_offset hextend, reweigh_offset hreweigh]
    rfl
  | main budget =>
    have h : s.execMain p budget st = _ := h
    obtain ⟨s₁, hextend, -⟩ := Fault.bind_eq_ok h
    rw [execMain_eq hextend] at h
    obtain ⟨st₁, -, hfinish⟩ := Fault.bind_eq_ok h
    rw [finish_offset hfinish, extend_offset hextend]
    simp [Stint.weights]

theorem perform_weights (h : (system p).perform stint (s, st) = .ok (moved, s', st')) :
    s'.weights = stint.weights s := by
  cases stint with
  | both ratio budget => exact execBoth_weights h
  | main budget => exact execMain_weights h

/-- Targets without a distance, of processors that run at one ratio or have not begun to run. -/
structure Level (ratio : ClockRatio) (s : Scheduler) : Prop where
  offset : s.offset = 0
  rate : s.weights = ratio.weights ∨ s.gap ratio.weights = 0

theorem level_initial (ratio : ClockRatio) : initial.Level ratio := by
  constructor
  · rfl
  · right
    cases ratio <;> rfl

theorem Level.perform (h : s.Level ratio)
    (hs : (system p).perform (.both ratio budget) (s, st) = .ok (moved, s', st')) :
    s'.Level ratio := by
  refine ⟨?_, .inl (perform_weights hs)⟩
  rw [perform_offset hs]
  show (if ratio.weights = s.weights then s.offset else s.gap ratio.weights) = 0
  split_ifs with hw
  · exact h.offset
  · exact h.rate.resolve_left fun heq => hw heq.symm

/-! ### The distance of the processors -/

/-- Processors that have come to their targets, and not beyond them by a whole step, are as far
apart as the targets. -/
theorem Accounts.near (h : Accounts most stint [] s moved s') (hs' : s'.OnPace most) :
    |s'.gap s'.weights - s'.offset| < 2 * most := by
  have hmain := h.reached .main List.not_mem_nil
  have hsub := h.reached .sub List.not_mem_nil
  have hmain' := h.below .main
  have hsub' := h.below .sub
  have hstep : ∀ i, most * (s'.weights.get i).toNat ≤ most * 2 := fun i =>
    Nat.mul_le_mul_left most (weightFits_bounds (hs'.weights i)).2
  have hstep_main := hstep .main
  have hstep_sub := hstep .sub
  simp only [gap, offset, PerSide.get] at *
  rw [abs_lt]
  omega

/-- What a stint of processors that ask for nothing does to their distance. -/
structure Spaced (most : ℕ) (stint : Stint) (s s' : Scheduler) : Prop where
  /-- With the ratio, the distance of the targets becomes that of the processors at the new
  ratio. -/
  offset : s'.offset = if stint.weights s = s.weights then s.offset else s.gap (stint.weights s)
  /-- The processors are as far apart as the targets, up to one step of each. -/
  near : |s'.gap s'.weights - s'.offset| < 2 * most

/-- Every stint of processors that ask for nothing returns, unless a counter overflows. -/
theorem OnPace.perform_silent (hp : p.Silent most I) (hskip : p.Skips I) (hmost : 1 ≤ most)
    (h : s.OnPace most) (hst : I st) (stint : Stint) :
    (system p).perform stint (s, st) = .error .overflow ∨
      ∃ moved s' st', (system p).perform stint (s, st) = .ok (moved, s', st') ∧ s'.OnPace most ∧
        I st' ∧ Spaced most stint s s' := by
  have hstops : stops p stint s st = [] := by
    rw [stops]
    rcases h.begin hskip hmost hst stint with herror | ⟨s₁, l, st₁, hok, -, hst₁⟩
    · rw [herror]
    · rw [hok]
      exact hp.stops_eq_nil turnLimit l hst₁
  rcases h.perform hp.lone hskip hmost hst stint with
    herror | ⟨moved, s', st', hok, hpace, hst', haccounts⟩
  · exact .inl herror
  · rw [hstops] at haccounts
    exact .inr ⟨moved, s', st', hok, hpace, hst', perform_offset hok, haccounts.near hpace⟩

/-- Processors that ask for nothing, and whose every step takes between 1 and `most` T-states: from
the initial counters every stint of any sequence returns, unless a counter overflows, and leaves
them as far apart as their targets. These stay level as long as there is one ratio only; with each
change of it, they are moved apart to where the processors stand once all that has passed is counted
anew. -/
theorem gap_follows_offset (hmost : 1 ≤ most) (hp : p.Silent most I) (hskip : p.Skips I)
    (hst : I st) (stints : List Stint) (stint : Stint)
    (hfits : (system p).run (stints ++ [stint]) (initial, st) ≠ .error .overflow) :
    ∃ s st₁ moved s' st₂, (system p).run stints (initial, st) = .ok (s, st₁) ∧
      (system p).perform stint (s, st₁) = .ok (moved, s', st₂) ∧ Spaced most stint s s' ∧
      ((∃ ratio, ∀ op ∈ stints ++ [stint], ∃ budget, op = .both ratio budget) →
        |s'.gap s'.weights| < 2 * most) := by
  have hstep : ∀ op r, r.1.OnPace most ∧ I r.2 → (system p).perform op r = .error .overflow ∨
      ∃ r', (system p).perform op r = .ok r' ∧ r'.2.1.OnPace most ∧ I r'.2.2 := by
    rintro op ⟨s, st⟩ ⟨hpace, hst⟩
    rcases hpace.perform_silent hp hskip hmost hst op with
      herror | ⟨moved, s', st', hok, hpace', hst', -⟩
    · exact .inl herror
    · exact .inr ⟨_, hok, hpace', hst'⟩
  rw [System.run_append] at hfits
  rcases System.run_returns hstep stints (s := (initial, st)) ⟨onPace_initial hmost, hst⟩ with
    herror | ⟨⟨s, st₁⟩, hrun, hpace, hst₁⟩
  · rw [herror] at hfits
    exact absurd rfl hfits
  rw [hrun] at hfits
  rcases hpace.perform_silent hp hskip hmost hst₁ stint with
    herror | ⟨moved, s', st₂, hok, -, -, hspaced⟩
  · refine absurd ?_ hfits
    show ((system p).perform stint (s, st₁) >>= _) = _
    rw [herror]
    rfl
  refine ⟨s, st₁, moved, s', st₂, hrun, hok, hspaced, ?_⟩
  rintro ⟨ratio, hratio⟩
  rw [List.forall_mem_append, List.forall_mem_singleton] at hratio
  obtain ⟨hbefore, budget, rfl⟩ := hratio
  have hlevel : s.Level ratio := by
    refine System.run_keeps (I := fun r => r.1.Level ratio) ?_ hbefore (level_initial ratio) hrun
    rintro _ ⟨budget, rfl⟩ r r' hr hperform
    exact hr.perform hperform
  have hnear := hspaced.near
  rwa [(hlevel.perform hok).offset, sub_zero] at hnear

/-- Steps of one T-state that ask for nothing. -/
def regular : Processors Unit where
  step _ _ := .done (1, ())
  skipIdle _ _ _ := .ok ()

theorem regular_silent : regular.Silent 1 fun _ => True := by
  constructor
  intro i st _
  exact ⟨1, (), rfl, by decide, by decide, trivial⟩

/-- Ten T-states side by side, and then twenty at another ratio: the sub processor is ten ahead. -/
theorem regular_moved_apart :
    (∃ s st₁ moved s' st₂,
      (system regular).run [.both .oneToOne 10] (initial, ()) = .ok (s, st₁) ∧
        (system regular).perform (.both .twoToOne 20) (s, st₁) = .ok (moved, s', st₂) ∧
        Spaced 1 (.both .twoToOne 20) s s' ∧
        ((∃ ratio, ∀ op ∈ [Stint.both .oneToOne 10] ++ [.both .twoToOne 20],
          ∃ budget, op = .both ratio budget) → |s'.gap s'.weights| < 2 * (1 : ℕ))) ∧
      ((system regular).run [.both .oneToOne 10, .both .twoToOne 20] (initial, ())).toOption.map
        (fun r => r.1.gap r.1.weights) = some 10 := by
  have hgap : ((system regular).run [.both .oneToOne 10, .both .twoToOne 20]
      (initial, ())).toOption.map (fun r => r.1.gap r.1.weights) = some 10 := by
    decide +kernel
  refine ⟨gap_follows_offset (le_refl 1) regular_silent (fun _ _ _ => .inr ⟨(), rfl, trivial⟩)
    trivial _ _ ?_, hgap⟩
  intro h
  rw [List.cons_append, List.nil_append] at h
  rw [h] at hgap
  cases hgap

end Scheduler
end TandemZ80
