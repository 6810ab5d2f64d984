import TandemZ80.Config
import TandemZ80.Schedule.Run
import TandemZ80.StateError

/-!
# The scheduler

The scheduler keeps the counters of both processors from run to run. Each run raises both *targets*
and lets each lane go on until it has reached its own; what a lane overshoots, or has not made up
because it was stopped, counts in the next run.

* `Scheduler`, `Scheduler.initial`, `Scheduler.reset`;
* `Scheduler.execBoth`, a run of both processors, and `Scheduler.execMain`, a run of the main one in
  which the sub one is credited with the time;
* `Scheduler.Snapshot`; `Scheduler.save`, `Scheduler.load`, and the JSON form.
-/

namespace TandemZ80

/-- The counters of both processors. -/
structure Scheduler where
  /-- The T-states of each processor. -/
  clocks : PerSide UInt64
  /-- The time that each processor is heading for. -/
  targets : PerSide UInt64
  weights : PerSide UInt64
  deriving DecidableEq

namespace Scheduler

variable {σ : Type}

/-- No time has passed, and both clocks count alike. -/
def initial : Scheduler :=
  { clocks := .both 0, targets := .both 0, weights := ClockRatio.oneToOne.weights }

instance : Inhabited Scheduler := ⟨initial⟩

/-- Clear the counters. -/
def reset (s : Scheduler) : Scheduler := { initial with weights := s.weights }

/-- A computation for each side, the main one first. -/
def forBoth {α : Type} (f : Side → Except Fault α) : Except Fault (PerSide α) := do
  return ⟨← f .main, ← f .sub⟩

/-- Change the weights. If they differ, the targets begin again at the time where each processor
stands. -/
def reweigh (s : Scheduler) (weights : PerSide UInt64) : Except Fault Scheduler :=
  if weights = s.weights then .ok s
  else do
    let targets ← forBoth fun i =>
      Counter.ofNat ((s.clocks.get i).toNat * (weights.get i).toNat)
    return { s with targets, weights }

/-- Raise both targets. -/
def extend (s : Scheduler) (budget : UInt32) : Except Fault Scheduler := do
  let targets ← forBoth fun i => Counter.add (s.targets.get i) budget.toUInt64
  return { s with targets }

/-- The lane of a processor at the start of a run. -/
def lane (s : Scheduler) (i : Side) : Lane :=
  { clock := s.clocks.get i
    weight := s.weights.get i
    goal := (s.targets.get i).toNat
    demand := none
    parked := false }

/-- The lanes at the start of a run of both processors. -/
def lanes (s : Scheduler) : Lanes := ⟨s.lane .main, s.lane .sub⟩

/-- The clock that a processor has when it has just reached its target, or is beyond it. -/
def caughtUp (s : Scheduler) (i : Side) : UInt64 :=
  let w := (s.weights.get i).toNat
  let least := UInt64.ofNat (((s.targets.get i).toNat + (w - 1)) / w)
  if (s.clocks.get i) < least then least else s.clocks.get i

/-- Enough turns for every run. A step moves a clock of 64 bits or leaves a wait that is longer than
the one before; a run that takes more turns than this never ends. -/
def turnLimit : Nat := UInt64.size * UInt64.size

/-- Run the lanes, and keep their clocks. The result is the time by which the main clock moved. -/
def finish (s : Scheduler) (p : Processors σ) (l : Lanes) (st : σ) :
    Except Fault (UInt64 × Scheduler × σ) :=
  match Lanes.run p turnLimit l st with
  | .error f => .error f
  | .ok (l, st) => .ok (l.main.clock - s.clocks.main, { s with clocks := l.map Lane.clock }, st)

/-- Run both processors. -/
def execBoth (p : Processors σ) (weights : PerSide UInt64) (budget : UInt32) (s : Scheduler)
    (st : σ) : Except Fault (UInt64 × Scheduler × σ) := do
  let s ← (← s.reweigh weights).extend budget
  s.finish p s.lanes st

/-- Run the main processor only. The sub processor is credited with the time up to its target. -/
def execMain (p : Processors σ) (budget : UInt32) (s : Scheduler) (st : σ) :
    Except Fault (UInt64 × Scheduler × σ) := do
  let s ← s.extend budget
  let clock := s.caughtUp .sub
  let skipped := clock - s.clocks.sub
  let st ← if 0 < skipped then p.skipIdle .sub skipped st else .ok st
  s.finish p ⟨s.lane .main, { s.lane .sub with clock, parked := true }⟩ st

/-! ### Snapshots -/

/-- The stored state of a scheduler. -/
structure Snapshot where
  rev : UInt8
  clocks : PerSide UInt64
  targets : PerSide UInt64
  weights : PerSide UInt64
  deriving DecidableEq

/-- The layout of snapshots. -/
def revision : UInt8 := 1

/-- Store the counters. -/
def save (s : Scheduler) : Snapshot :=
  { rev := revision, clocks := s.clocks, targets := s.targets, weights := s.weights }

/-- The weights that a scheduler can take. -/
def weightFits (w : UInt64) : Prop := w = 1 ∨ w = 2

instance (w : UInt64) : Decidable (weightFits w) := inferInstanceAs (Decidable (_ ∨ _))

/-- Read the counters back. -/
def load (p : Snapshot) : Except StateError Scheduler :=
  if p.rev ≠ revision then .error (.revision "scheduler" revision p.rev)
  else if weightFits p.weights.main ∧ weightFits p.weights.sub then
    .ok { clocks := p.clocks, targets := p.targets, weights := p.weights }
  else .error (.invalid "scheduler" "weights")

/-- Loading gives a scheduler with the same snapshot. -/
theorem save_of_load {p : Snapshot} {s : Scheduler} (h : load p = .ok s) : s.save = p := by
  unfold load at h
  split at h
  · cases h
  · next hr =>
    split at h
    · cases h
      simp [save, ← Classical.not_not.mp hr]
    · cases h

namespace Snapshot

/-- A snapshot as an object. -/
def toJson (p : Snapshot) : Json :=
  let counts := Json.ofPerSide fun n : UInt64 => Json.nat n.toNat
  .object
    [("rev", .nat p.rev.toNat), ("clocks", counts p.clocks), ("targets", counts p.targets),
      ("weights", counts p.weights)]

/-- Read a snapshot; no field may be missing. -/
def ofJson? (j : Json) : Option Snapshot := do
  let r ← j.record? ["rev", "clocks", "targets", "weights"] false
  return {
    rev := ← r.required "rev" Json.byte?
    clocks := ← r.required "clocks" (Json.perSide? Json.count?)
    targets := ← r.required "targets" (Json.perSide? Json.count?)
    weights := ← r.required "weights" (Json.perSide? Json.count?) }

end Snapshot
end Scheduler
end TandemZ80
