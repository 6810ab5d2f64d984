import TandemZ80.Proofs.Schedule.Bookkeeping
import TandemZ80.Proofs.Schedule.Frame

/-!
# Counts in step with the clocks

The scheduler has a clock for each processor, and a processor may count its T-states for itself.
Both move in places of their own: the clock at the end of a turn, or before a run, the count inside
a step, or as the processor is credited with time. They stay in step all the same.

* `Processors.Counts`, processors that count their steps;
* `Lanes.InStep`, lanes and processors of which both have moved by the same, and `Lanes.run_inStep`;
* `Scheduler.InStep`, counters and processors before and after a stint, and
  `Scheduler.perform_inStep`.
-/

namespace TandemZ80

open Rendezvous

variable {σ : Type}

/-- Processors that count their T-states: `count` moves by the cost of each step, and by the time
that a processor is credited with. -/
structure Processors.Counts (p : Processors σ) (count : Side → σ → ℕ) : Prop where
  step : ∀ i st, (p.step i st).Ends fun r =>
    count i r.2 = count i st + r.1 ∧ count i.partner r.2 = count i.partner st
  skipIdle : ∀ i clocks st st', p.skipIdle i clocks st = .ok st' →
    count i st' = count i st + clocks.toNat ∧ count i.partner st' = count i.partner st

namespace Lanes

variable {p : Processors σ} {count : Side → σ → ℕ} {s : Side} {l l' l'' : Lanes} {st st' st'' : σ}

/-- Every count has moved by as much as the clock of its lane. -/
def InStep (count : Side → σ → ℕ) (l : Lanes) (st : σ) (l' : Lanes) (st' : σ) : Prop :=
  ∀ i, ∃ n, count i st' = count i st + n ∧ (l'.get i).clock.toNat = (l.get i).clock.toNat + n

theorem InStep.refl (count : Side → σ → ℕ) (l : Lanes) (st : σ) : InStep count l st l st :=
  fun _ => ⟨0, rfl, rfl⟩

theorem InStep.trans (h : InStep count l st l' st') (h' : InStep count l' st' l'' st'') :
    InStep count l st l'' st'' := by
  intro i
  obtain ⟨n, hcount, hclock⟩ := h i
  obtain ⟨n', hcount', hclock'⟩ := h' i
  exact ⟨n + n', by omega, by omega⟩

/-- A turn moves count and clock of its own side by the cost of the step. -/
theorem turn_inStep (hp : p.Counts count) (h : turn p s l st = .ok (l', st')) :
    InStep count l st l' st' := by
  obtain ⟨cost, clock, goal, demand, ⟨l₁, hr⟩, hclock, rfl⟩ := turn_eq_ok h
  obtain ⟨hcount, hpartner⟩ := (hp.step s st).run hr
  refine (Side.forall_iff s).2 ⟨⟨cost, hcount, ?_⟩, 0, hpartner, ?_⟩
  · rw [PerSide.get_set_self, hclock]
  · rw [PerSide.get_set_partner]
    rfl

theorem run_inStep (hp : p.Counts count) {n : ℕ} (h : run p n l st = .ok (l', st')) :
    InStep count l st l' st' :=
  (run_keeps (I := InStep count l st) (fun _ ht hk => hk.trans (turn_inStep hp ht)) h
    (.refl count l st)).2

end Lanes

namespace Scheduler

variable {p : Processors σ} {count : Side → σ → ℕ} {s s' : Scheduler} {st st' : σ} {stint : Stint}
  {moved : UInt64}

/-- Every count has moved by as much as the clock of its processor, and the main one by `moved`. -/
structure InStep (count : Side → σ → ℕ) (s : Scheduler) (st : σ) (moved : UInt64) (s' : Scheduler)
    (st' : σ) : Prop where
  clocks : ∀ i, ∃ n, count i st' = count i st + n ∧
    (s'.clocks.get i).toNat = (s.clocks.get i).toNat + n
  moved : count .main st' = count .main st + moved.toNat

/-- The sub processor is credited with as much as its clock is moved by. -/
theorem credit_inStep (hp : p.Counts count) (h : s.credit p st = .ok st') :
    Lanes.InStep count s.lanes st s.lanesAlone st' := by
  have hskipped := Counter.toNat_eq_add_sub (s.clock_le_caughtUp .sub)
  unfold credit at h
  split_ifs at h with hskip
  · obtain ⟨hsub, hmain⟩ := hp.skipIdle _ _ _ _ h
    refine (Side.forall_iff .sub).2 ⟨⟨_, hsub, ?_⟩, 0, hmain, rfl⟩
    exact hskipped
  · cases h
    refine (Side.forall_iff .sub).2 ⟨⟨0, rfl, ?_⟩, 0, rfl, rfl⟩
    have hnone : (s.caughtUp .sub - s.clocks.sub).toNat = 0 := by
      rw [UInt64.lt_iff_toNat_lt, UInt64.toNat_zero] at hskip
      omega
    exact hskipped.trans (congrArg (s.clocks.sub.toNat + ·) hnone)

/-- Before the first turn nothing has moved, or one processor has been credited with time. -/
theorem begin_inStep (hp : p.Counts count) {l : Lanes} (h : begin p stint s st = .ok (s', l, st')) :
    s'.clocks = s.clocks ∧ l.main.clock = s.clocks.main ∧ Lanes.InStep count s.lanes st l st' := by
  have hlanes : ∀ {s₁ : Scheduler}, s₁.clocks = s.clocks → ∀ i,
      (s₁.lanes.get i).clock = (s.lanes.get i).clock := by
    intro s₁ hs i
    rw [get_lanes, get_lanes, lane, lane, hs]
  cases stint with
  | both ratio budget =>
    obtain ⟨s₁, hs, h⟩ := Fault.map_eq_ok h
    cases h
    obtain ⟨-, hclocks⟩ := prepare_eq_ok hs
    exact ⟨hclocks, congrArg PerSide.main hclocks, fun i => ⟨0, rfl, by rw [hlanes hclocks]; rfl⟩⟩
  | main budget =>
    obtain ⟨s₁, hs, h⟩ := Fault.bind_eq_ok h
    obtain ⟨st₁, hcredit, h⟩ := Fault.map_eq_ok h
    cases h
    obtain ⟨-, hclocks⟩ := extend_eq_ok hs
    refine ⟨hclocks, congrArg PerSide.main hclocks, fun i => ?_⟩
    obtain ⟨n, hcount, hclock⟩ := credit_inStep hp hcredit i
    exact ⟨n, hcount, by rw [hclock, hlanes hclocks]⟩

/-- In every stint that returns, the counts stay in step with the clocks. -/
theorem perform_inStep (hp : p.Counts count)
    (h : (system p).perform stint (s, st) = .ok (moved, s', st')) :
    InStep count s st moved s' st' := by
  rw [perform_eq] at h
  obtain ⟨⟨s₁, l, st₁⟩, hbegin, hfinish⟩ := Fault.bind_eq_ok h
  obtain ⟨hclocks, hmain, hstart⟩ := begin_inStep hp hbegin
  obtain ⟨l', hrun, rfl, rfl⟩ := finish_eq_ok hfinish
  have hall := hstart.trans (Lanes.run_inStep hp hrun)
  refine ⟨fun i => ?_, ?_⟩
  · obtain ⟨n, hcount, hclock⟩ := hall i
    refine ⟨n, hcount, ?_⟩
    rw [get_lanes] at hclock
    rw [← show (s.lane i).clock = s.clocks.get i from rfl, ← hclock]
    cases i <;> rfl
  · obtain ⟨n, hcount, hclock⟩ := hall .main
    have hclock : l'.main.clock.toNat = s.clocks.main.toNat + n := hclock
    have hmoved := Counter.toNat_eq_add_sub (a := s.clocks.main) (b := l'.main.clock) (by omega)
    rw [hclocks]
    omega

end Scheduler
end TandemZ80
