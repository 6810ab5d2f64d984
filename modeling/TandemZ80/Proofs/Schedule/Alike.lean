import TandemZ80.Proofs.Alike
import TandemZ80.Proofs.Schedule.Prepare

/-!
# Runs that go alike

Two pairs of processors that cannot be told apart by what they ask of each other run alike: turn by
turn, over whole runs, and under the scheduler. If one of the pairs may stop by itself on a fault of
some kind, its runs may do so too.

* `Processors.AlikeUnless`, by a relation `V` of their states; `Processors.Alike` without an
  exception;
* `Lanes.turn_eq`, a turn as a step and the end of it; `Lanes.turn_unless` and `Lanes.run_unless`;
* `Scheduler.execBoth_unless`, `Scheduler.execMain_unless`.

With one pair of processors on both sides and `V` below equality this says that a property of the
state is kept.
-/

namespace TandemZ80

variable {σ σ' : Type} {F T : Fault → Prop} {V : σ → σ' → Prop}

/-- Processors that step alike in related states, to related states. -/
structure Processors.Alike (F : Fault → Prop) (V : σ → σ' → Prop) (p : Processors σ)
    (p' : Processors σ') : Prop where
  step : ∀ s st st', V st st' →
    Dialogue.Alike F (fun r r' => r.1 = r'.1 ∧ V r.2 r'.2) (p.step s st) (p'.step s st')
  skipIdle : ∀ s n st st', V st st' → Fault.Alike V (p.skipIdle s n st) (p'.skipIdle s n st')

/-- Processors that step alike in related states, unless one of them stops on a fault in `T`. -/
structure Processors.AlikeUnless (T : Fault → Prop) (V : σ → σ' → Prop) (p : Processors σ)
    (p' : Processors σ') : Prop where
  step : ∀ s st st', V st st' →
    Dialogue.AlikeUnless T (fun r r' => r.1 = r'.1 ∧ V r.2 r'.2) (p.step s st) (p'.step s st')
  skipIdle : ∀ s n st st', V st st' →
    Fault.AlikeUnless T V (p.skipIdle s n st) (p'.skipIdle s n st')

variable {p : Processors σ} {p' : Processors σ'} {st : σ} {st' : σ'}

theorem Processors.Alike.unless (hp : p.Alike F V p') : p.AlikeUnless T V p' where
  step s st st' h := (hp.step s st st' h).unless
  skipIdle s n st st' h := .alike (hp.skipIdle s n st st' h)

namespace Lanes

/-- What a turn makes of the result of a step. -/
def conclude (s : Side) (r : (ℕ × σ) × Lanes) : Except Fault (Lanes × σ) :=
  (fun l => (l, r.1.2)) <$> advance s r.1.1 r.2

theorem turn_eq (p : Processors σ) (s : Side) (l : Lanes) (st : σ) :
    turn p s l st = (p.step s st).run (answer s) l >>= conclude s := by
  unfold turn
  cases (p.step s st).run (answer s) l with
  | error f => rfl
  | ok r =>
    obtain ⟨⟨cost, st₁⟩, l₁⟩ := r
    show _ = (fun l => (l, st₁)) <$> advance s cost l₁
    dsimp only
    cases advance s cost l₁ <;> rfl

theorem turn_unless (hp : p.AlikeUnless T V p') (s : Side) (l : Lanes) (h : V st st') :
    Fault.AlikeUnless T (fun r r' => r.1 = r'.1 ∧ V r.2 r'.2) (turn p s l st)
      (turn p' s l st') := by
  rw [turn_eq, turn_eq]
  refine ((hp.step s st st' h).run (answer s) l).bind ?_
  rintro ⟨⟨cost, st₁⟩, l₁⟩ ⟨⟨cost', st₁'⟩, l₁'⟩ ⟨⟨hcost, hV⟩, hl⟩
  cases hcost
  cases hl
  refine .map (.alike (.refl (fun _ => rfl) _)) fun l₂ l₂' hl₂ => ?_
  exact ⟨hl₂, hV⟩

theorem run_unless (hp : p.AlikeUnless T V p') (n : ℕ) (l : Lanes) (h : V st st') :
    Fault.AlikeUnless T (fun r r' => r.1 = r'.1 ∧ V r.2 r'.2) (run p n l st) (run p' n l st') := by
  induction n generalizing l st st' with
  | zero => exact .alike (.error _)
  | succ n ih =>
    cases hl : next l with
    | error f =>
      simp only [run, hl]
      exact .alike (.error f)
    | ok o =>
      cases o with
      | none =>
        rw [run_of_next_none hl, run_of_next_none hl]
        exact .ok ⟨rfl, h⟩
      | some s =>
        rw [run_of_next_some hl, run_of_next_some hl]
        refine (turn_unless hp s l h).bind fun r r' hr => ?_
        rw [← hr.1]
        exact ih r.1 hr.2

end Lanes

namespace Scheduler

/-- Results of two runs: the same count and counters, and states in relation. -/
def Results (V : σ → σ' → Prop) (r : UInt64 × Scheduler × σ) (r' : UInt64 × Scheduler × σ') :
    Prop :=
  r.1 = r'.1 ∧ r.2.1 = r'.2.1 ∧ V r.2.2 r'.2.2

theorem finish_unless (hp : p.AlikeUnless T V p') (s : Scheduler) (l : Lanes) (h : V st st') :
    Fault.AlikeUnless T (Results V) (s.finish p l st) (s.finish p' l st') := by
  rw [finish_eq, finish_eq]
  refine (Lanes.run_unless hp turnLimit l h).map ?_
  rintro ⟨l₁, st₁⟩ ⟨l₁', st₁'⟩ ⟨hl, hV⟩
  cases hl
  exact ⟨rfl, rfl, hV⟩

theorem execBoth_unless (hp : p.AlikeUnless T V p') (weights : PerSide UInt64) (budget : UInt32)
    (s : Scheduler) (h : V st st') :
    Fault.AlikeUnless T (Results V) (s.execBoth p weights budget st)
      (s.execBoth p' weights budget st') := by
  rw [execBoth_eq, execBoth_eq]
  refine .bind (.alike (.refl (R := Eq) (fun _ => rfl) _)) fun s₁ s₁' hs₁ => ?_
  cases hs₁
  exact finish_unless hp s₁ _ h

theorem execMain_unless (hp : p.AlikeUnless T V p') (budget : UInt32) (s : Scheduler)
    (h : V st st') :
    Fault.AlikeUnless T (Results V) (s.execMain p budget st) (s.execMain p' budget st') := by
  cases hs : s.extend budget with
  | error f =>
    unfold execMain
    rw [hs]
    exact .alike (.error f)
  | ok s₁ =>
    rw [execMain_eq hs, execMain_eq hs]
    unfold credit
    split_ifs
    · exact (hp.skipIdle .sub _ st st' h).bind fun st₁ st₁' h₁ => finish_unless hp s₁ _ h₁
    · exact finish_unless hp s₁ _ h

end Scheduler
end TandemZ80
