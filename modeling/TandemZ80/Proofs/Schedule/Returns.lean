import TandemZ80.Proofs.Schedule.Leapfrog
import TandemZ80.Proofs.Schedule.Overtaking
import TandemZ80.Proofs.Schedule.Prepare

/-!
# Runs that return, and runs that do not

A run returns unless its lanes overtake each other again and again.

* `Scheduler.overtakings`, how often that happens in a run of both processors, and
  `Scheduler.overtakings_of_quiet`;
* `Scheduler.execBoth_ends` and `Scheduler.execMain_ends`, for processors that fail at a full count
  only;
* `Scheduler.returns_unless_overtaking`, for processors that never fail;
* `Scheduler.metronome_never_returns`, a run without end.
-/

namespace TandemZ80

open Rendezvous

namespace Scheduler

variable {σ : Type} {p : Processors σ} {I : PerSide (Option ℕ) → σ → Prop}
  {count : Side → σ → ℕ} {s s' : Scheduler} {st : σ}

/-- How often a lane overtakes its partner in a run of both processors. -/
def overtakings (p : Processors σ) (weights : PerSide UInt64) (budget : UInt32) (s : Scheduler)
    (st : σ) : ℕ :=
  match s.prepare weights budget with
  | .error _ => 0
  | .ok s' => Lanes.overtakings p turnLimit s'.lanes st

/-- It never happens if one of the processors asks for no port. -/
theorem overtakings_of_quiet {i : Side} {K : σ → Prop} (hp : p.Quiet i K) (hst : K st)
    {weights : PerSide UInt64} {budget : UInt32} : s.overtakings p weights budget st = 0 := by
  unfold overtakings
  cases s.prepare weights budget with
  | error f => rfl
  | ok s' =>
    refine Lanes.overtakings_of_quiet hp ?_ hst
    rw [get_lanes]
    rfl

theorem finish_of_run {l : Lanes} {r : Lanes × σ} (h : Lanes.run p turnLimit l st = .ok r) :
    ∃ r', s.finish p l st = .ok r' := by
  simp only [finish, h]
  exact ⟨_, rfl⟩

theorem left_lt_turnLimit (l : Lanes) : l.left < turnLimit := by
  have hlane : ∀ l : Lane, l.left ≤ 2 * UInt64.size + 1 := by
    intro l
    unfold Lane.left
    split <;> omega
  have hmain := hlane l.main
  have hsub := hlane l.sub
  have hlimit : 4 * UInt64.size + 2 < turnLimit := by decide
  unfold Lanes.left
  omega

/-- Lanes that nobody overtakes come to their goals. -/
theorem finish_returns (hI : p.Keeps Brisk I) (hp : p.Sturdy count I) (hst : I (.both none) st)
    {l : Lanes} (hl : Lanes.Bounded (2 ^ 63 + UInt32.size) 0 (.both none) l)
    (hcount : Lanes.Counted count (2 ^ 62) l st)
    (hk : Lanes.overtakings p turnLimit l st < 2 ^ 56) :
    ∃ r, s.finish p l st = .ok r := by
  rcases Lanes.run_ends hI hp hl.tracks hst (left_lt_turnLimit l) with ⟨r, hr⟩ | hoverflow
  · exact finish_of_run hr
  · refine (hl.run_ne_overflow hI hp hst hcount ?_ hoverflow).elim
    simp only [UInt32.size, UInt64.size]
    omega

/-- The lanes as a run begins. -/
theorem bounded_of_begin {l : Lanes} (hd : ∀ i, (l.get i).demand = none)
    (hw : ∀ i, weightFits (l.get i).weight) (hg : ∀ i, (l.get i).goal ≤ 2 ^ 63 + UInt32.size)
    (hc : ∀ i, (l.get i).parked = false → (l.get i).clock.toNat < 2 ^ 62) :
    Lanes.Bounded (2 ^ 63 + UInt32.size) 0 (.both none) l := by
  refine ⟨fun i => ?_, fun i => weightFits_bounds (hw i), hg, fun i d hd' => ?_, fun i hi => ?_⟩
  · rw [hd]
    cases i <;> rfl
  · rw [hd] at hd'
    cases hd'
  · have hclock := hc i hi
    have hle := Nat.mul_le_mul_left (l.get i).clock.toNat (weightFits_bounds (hw i)).2
    rw [Lane.time]
    omega

section Begin

variable (hweights : ∀ i, weightFits (s.weights.get i))
  (htargets : ∀ i, (s.targets.get i).toNat ≤ 2 ^ 63 + UInt32.size)
  (hclocks : ∀ i, (s.clocks.get i).toNat < 2 ^ 62)

include hweights htargets hclocks

theorem bounded_lanes : Lanes.Bounded (2 ^ 63 + UInt32.size) 0 (.both none) s.lanes := by
  refine bounded_of_begin (fun i => ?_) (fun i => ?_) (fun i => ?_) fun i _ => ?_ <;> rw [get_lanes]
  · rfl
  · exact hweights i
  · exact htargets i
  · exact hclocks i

theorem bounded_lanesAlone : Lanes.Bounded (2 ^ 63 + UInt32.size) 0 (.both none) s.lanesAlone := by
  refine bounded_of_begin (fun i => ?_) (fun i => ?_) (fun i => ?_) fun i hi => ?_ <;> cases i
  · rfl
  · rfl
  · exact hweights .main
  · exact hweights .sub
  · exact htargets .main
  · exact htargets .sub
  · exact hclocks .main
  · cases hi

end Begin

/-- Counts that are small as a run begins. -/
theorem counted_of_le {l : Lanes} (h : ∀ i, (l.get i).parked = false → count i st ≤ 2 ^ 62) :
    Lanes.Counted count (2 ^ 62) l st := fun i hi => (h i hi).trans (Nat.le_add_right _ _)

/-- A run of both processors either returns, or its lanes overtake each other until a counter
overflows. -/
theorem execBoth_ends (hI : p.Keeps Brisk I) (hp : p.Sturdy count I) (hst : I (.both none) st)
    (hcount : ∀ i, count i st ≤ 2 ^ 62) (hs : s.Roomy) (ratio : ClockRatio) (budget : UInt32) :
    (∃ r, s.execBoth p ratio.weights budget st = .ok r) ∨
      s.execBoth p ratio.weights budget st = .error .overflow ∧
        2 ^ 56 ≤ s.overtakings p ratio.weights budget st := by
  obtain ⟨s₁, h₁, htargets⟩ := prepare_ok hs ratio budget
  obtain ⟨hw, hc⟩ := prepare_eq_ok h₁
  have hbounded := bounded_lanes (s := s₁) (hw ▸ weightFits_ratio ratio) htargets (hc ▸ hs.clocks)
  have hovertaken : s.overtakings p ratio.weights budget st =
      Lanes.overtakings p turnLimit s₁.lanes st := by
    rw [overtakings, h₁]
  rw [execBoth_of_prepare h₁, hovertaken]
  by_cases hk : Lanes.overtakings p turnLimit s₁.lanes st < 2 ^ 56
  · exact .inl (finish_returns hI hp hst hbounded (counted_of_le fun i _ => hcount i) hk)
  · rcases Lanes.run_ends hI hp hbounded.tracks hst (left_lt_turnLimit s₁.lanes) with
      ⟨r, hr⟩ | hoverflow
    · exact .inl (finish_of_run hr)
    · exact .inr ⟨by simp only [finish, hoverflow], not_lt.1 hk⟩

/-- The lane of the main processor alone comes to its goal. -/
theorem finish_alone (hI : p.Keeps Brisk I) (hp : p.Sturdy count I) (hst : I (.both none) st)
    (hcount : count .main st ≤ 2 ^ 62)
    (hl : Lanes.Bounded (2 ^ 63 + UInt32.size) 0 (.both none) s.lanesAlone) :
    ∃ r, s.finish p s.lanesAlone st = .ok r := by
  refine finish_returns hI hp hst hl (counted_of_le fun i hi => ?_) ?_
  · cases i
    · exact hcount
    · cases hi
  · -- The lane of the sub processor takes no steps, so nobody waits for it.
    rw [Lanes.overtakings_of_parked (i := .sub) rfl]
    decide

/-- A run of the main processor alone returns, if the sub one can be credited with the time. -/
theorem execMain_ends (hI : p.Keeps Brisk I) (hp : p.Sturdy count I) (hst : I (.both none) st)
    (hcount : count .main st ≤ 2 ^ 62) (hs : s.Roomy) (budget : UInt32)
    (hskip : ∀ clocks : UInt64, clocks.toNat < 2 ^ 63 → ∃ st', p.skipIdle .sub clocks st = .ok st' ∧
      I (.both none) st' ∧ count .main st' ≤ 2 ^ 62) :
    ∃ r, s.execMain p budget st = .ok r := by
  obtain ⟨s₁, h₁, hgoal⟩ := extend_ok (s := s) budget fun i => by
    have := hs.targets i
    simp only [UInt32.size, UInt64.size]
    omega
  obtain ⟨hw, hc⟩ := extend_eq_ok h₁
  have hweights : ∀ i, weightFits (s₁.weights.get i) := hw ▸ hs.weights
  have hclocks : ∀ i, (s₁.clocks.get i).toNat < 2 ^ 62 := hc ▸ hs.clocks
  have htargets : ∀ i, (s₁.targets.get i).toNat < 2 ^ 62 + UInt32.size + 1 := by
    intro i
    have hrisen := hgoal i
    have hbefore := hs.targets i
    omega
  have hbounded := bounded_lanesAlone hweights (fun i => by have := htargets i; omega) hclocks
  rw [execMain_eq h₁]
  unfold credit
  split_ifs
  · have hcredit : (s₁.caughtUp .sub - s₁.clocks.sub).toNat < 2 ^ 63 := by
      have hclock := hclocks .sub
      have htarget := htargets .sub
      have hmoved : (s₁.caughtUp .sub).toNat =
          s₁.clocks.sub.toNat + (s₁.caughtUp .sub - s₁.clocks.sub).toNat :=
        Counter.toNat_eq_add_sub (s₁.clock_le_caughtUp .sub)
      have hcaught := toNat_caughtUp_lt (hweights .sub) (hclock.trans (by decide : _ < 2 ^ 63))
        (htarget.trans (by decide))
      omega
    obtain ⟨st', hskipped, hst', hcount'⟩ := hskip _ hcredit
    rw [hskipped]
    exact finish_alone hI hp hst' hcount' hbounded
  · exact finish_alone hI hp hst hcount hbounded

/-- A run of both processors that never fail either returns, or its lanes overtake each other until
a counter overflows. -/
theorem execBoth_returns_or (hI : p.Keeps Brisk I) (hp : p.Reliable I) (hst : I (.both none) st)
    (hs : s.Roomy) (ratio : ClockRatio) (budget : UInt32) :
    (∃ r, s.execBoth p ratio.weights budget st = .ok r) ∨
      s.execBoth p ratio.weights budget st = .error .overflow ∧
        2 ^ 56 ≤ s.overtakings p ratio.weights budget st :=
  execBoth_ends hI hp.sturdy hst (fun _ => Nat.zero_le _) hs ratio budget

/-- A run of the main processor alone returns, if the processors never fail. -/
theorem execMain_returns (hI : p.Keeps Brisk I) (hp : p.Reliable I) (hst : I (.both none) st)
    (hs : s.Roomy) (budget : UInt32) : ∃ r, s.execMain p budget st = .ok r := by
  refine execMain_ends hI hp.sturdy hst (Nat.zero_le _) hs budget fun clocks _ => ?_
  obtain ⟨st', hskipped, hst'⟩ := hp.skipIdle .sub clocks hst
  exact ⟨st', hskipped, hst', Nat.zero_le _⟩

/-- Brisk processors that never fail, and counters far from their end: a run of the main processor
always returns, and a run of both does not exactly if its lanes overtake each other until a counter
overflows. -/
theorem returns_unless_overtaking (hI : p.Keeps Brisk I) (hp : p.Reliable I)
    (hst : I (.both none) st) (hs : s.Roomy) (budget : UInt32) :
    (∃ r, s.execMain p budget st = .ok r) ∧
      ∀ ratio : ClockRatio,
        (∃ r, s.execBoth p ratio.weights budget st = .ok r) ↔
          ¬(s.execBoth p ratio.weights budget st = .error .overflow ∧
            2 ^ 56 ≤ s.overtakings p ratio.weights budget st) := by
  refine ⟨execMain_returns hI hp hst hs budget, fun ratio => ⟨?_, fun h => ?_⟩⟩
  · rintro ⟨r, hr⟩ ⟨hoverflow, -⟩
    rw [hr] at hoverflow
    cases hoverflow
  · exact (execBoth_returns_or hI hp hst hs ratio budget).resolve_right h

/-- The sub processor is half a beat ahead. -/
def uneven : Scheduler := { initial with clocks := ⟨0, 5⟩ }

theorem uneven_roomy : uneven.Roomy := by
  refine ⟨fun i => ?_, fun i => ?_, fun i => ?_⟩ <;> cases i <;> decide

/-- A run of 5 T-states has begun. -/
def unevenBegun : Scheduler := { uneven with targets := ⟨5, 5⟩ }

/-- The lanes of the metronome after the first turn of a run in which it is out of step. -/
def unevenLanes : Lanes :=
  ⟨⟨0, 1, 5, some 7, false⟩, ⟨5, 1, 5, none, false⟩⟩

theorem metronome_leapfrogs : Leapfrog .main 0 unevenLanes := by
  refine ⟨fun j => ?_, fun j => ?_, rfl, rfl, rfl, .inl rfl⟩ <;> cases j <;> rfl

theorem metronome_run_ne_ok (r : Lanes × Unit) :
    Lanes.run metronome turnLimit unevenBegun.lanes () ≠ .ok r := by
  have hnext : Lanes.next unevenBegun.lanes = .ok (some .main) := rfl
  have hturn : Lanes.turn metronome .main unevenBegun.lanes () = .ok (unevenLanes, ()) := rfl
  obtain ⟨n, hn⟩ : ∃ n, turnLimit = n + 1 :=
    ⟨turnLimit - 1, (Nat.sub_add_cancel (by decide)).symm⟩
  rw [hn, Lanes.run_of_next_some hnext, hturn]
  exact metronome_leapfrogs.run_ne_ok n r

/-- Out of step, the metronome never comes to the end of a run. -/
theorem metronome_never_returns (r : UInt64 × Scheduler × Unit) :
    uneven.execBoth metronome ClockRatio.oneToOne.weights 5 () ≠ .ok r := by
  have hbegin : uneven.prepare ClockRatio.oneToOne.weights 5 = .ok unevenBegun := rfl
  intro h
  rw [execBoth_of_prepare hbegin] at h
  obtain ⟨l, hr, -, -⟩ := finish_eq_ok h
  exact metronome_run_ne_ok _ hr

/-- The metronome out of step: the main processor alone comes to its goal, both together overtake
each other without end. -/
theorem metronome_overtakes :
    (∃ r, uneven.execMain metronome 5 () = .ok r) ∧
      uneven.execBoth metronome ClockRatio.oneToOne.weights 5 () = .error .overflow ∧
      2 ^ 56 ≤ uneven.overtakings metronome ClockRatio.oneToOne.weights 5 () := by
  have h := returns_unless_overtaking metronome_brisk metronome_reliable onBeat_none uneven_roomy 5
  refine ⟨h.1, ?_⟩
  by_contra hne
  obtain ⟨r, hr⟩ := (h.2 .oneToOne).2 hne
  exact metronome_never_returns r hr

end Scheduler
end TandemZ80
