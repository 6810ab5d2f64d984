import TandemZ80.Proofs.Schedule.Bookkeeping
import TandemZ80.Proofs.Schedule.Frame
import TandemZ80.Proofs.Schedule.InStep

/-!
# Credit for a parked processor

In a run of the main processor alone the clock of the sub one is moved to its target, and the time
in between is credited to the sub processor. Nothing else happens to either in that run. Several
runs in a row therefore credit it with slices of the time for which one run would credit it as a
whole.

* `Lanes.run_beside_parked`, a run in which one lane takes no steps;
* `Scheduler.Credited` and `Scheduler.execMain_credited`, a run of the main processor alone;
* `Scheduler.slices` and `Scheduler.sum_slices`, several of them in a row.
-/

namespace TandemZ80

variable {σ : Type} {p : Processors σ} {st st' : σ}

/-- What the steps of one processor keep is kept in a run in which the other one takes no steps. -/
theorem Lanes.run_beside_parked {i : Side} {I : σ → Prop} {l l' : Lanes} {n : ℕ}
    (hstep : ∀ st, I st → (p.step i.partner st).Ends fun r => I r.2)
    (hparked : (l.get i).parked = true) (h : run p n l st = .ok (l', st')) (hst : I st) :
    I st' := by
  refine (run_keeps (I := fun k u => (k.get i).parked = true ∧ I u) (fun hn ht hk => ?_) h
    ⟨hparked, hst⟩).2.2
  obtain rfl := eq_partner_of_next hk.1 hn
  obtain ⟨cost, clock, goal, demand, ⟨l₂, hrun⟩, -, -⟩ := turn_eq_ok ht
  rw [Side.partner_partner] at hstep
  exact ⟨(turn_parked ht _).trans hk.1, (hstep _ hk.2).run hrun⟩

namespace Scheduler

variable {s s' : Scheduler} {budget : UInt32} {moved : UInt64}

/-- What a run of the main processor alone does to the counters of the sub one. -/
structure Credited (budget : UInt32) (s s' : Scheduler) : Prop where
  weights : s'.weights = s.weights
  target : (s'.targets.get .sub).toNat = (s.targets.get .sub).toNat + budget.toNat
  clock : (s'.clocks.get .sub).toNat =
    reached (s.weights.get .sub).toNat (s.clocks.get .sub).toNat (s'.targets.get .sub).toNat

/-- In a run of the main processor alone the sub one is credited with the time by which its clock
moves, and apart from that keeps what the main one leaves alone. -/
theorem execMain_credited (hw : weightFits (s.weights.get .sub))
    (h : s.execMain p budget st = .ok (moved, s', st')) :
    s.Credited budget s' ∧ ∃ st₁,
      (if 0 < s'.clocks.sub - s.clocks.sub then p.skipIdle .sub (s'.clocks.sub - s.clocks.sub) st
        else .ok st) = .ok st₁ ∧
      ∀ I : σ → Prop, (∀ st, I st → (p.step .main st).Ends fun r => I r.2) → I st₁ → I st' := by
  obtain ⟨s₁, hextend, -⟩ := Fault.bind_eq_ok h
  obtain ⟨hweights, hclocks⟩ := extend_eq_ok hextend
  rw [execMain_eq hextend] at h
  obtain ⟨st₁, hcredit, hfinish⟩ := Fault.bind_eq_ok h
  obtain ⟨l', hrun, rfl, -⟩ := finish_eq_ok hfinish
  have hclock : l'.sub.clock = s₁.caughtUp .sub :=
    congrArg Lane.clock (Lanes.run_parked (i := .sub) rfl hrun)
  refine ⟨⟨hweights, extend_targets hextend .sub, ?_⟩, st₁, ?_, fun I hstep hst =>
    Lanes.run_beside_parked (i := .sub) hstep rfl hrun hst⟩
  · rw [← hweights] at hw ⊢
    rw [← hclocks, ← toNat_caughtUp hw, ← hclock]
    rfl
  · unfold credit at hcredit
    rw [hclocks, ← hclock] at hcredit
    exact hcredit

/-- The time that a sub processor is credited with in each of several runs of the main one. It
stands at `clock`, and heads for `target`. -/
def slices (weight : ℕ) : ℕ → ℕ → List UInt32 → List ℕ
  | _, _, [] => []
  | clock, target, n :: ns =>
    (reached weight clock (target + n.toNat) - clock) ::
      slices weight (reached weight clock (target + n.toNat)) (target + n.toNat) ns

/-- A clock that goes on in two parts gets as far as one that goes on at once. -/
theorem reached_reached (weight clock target n : ℕ) :
    reached weight (reached weight clock target) (target + n) =
      reached weight clock (target + n) := by
  have hmono : (target + (weight - 1)) / weight ≤ (target + n + (weight - 1)) / weight :=
    Nat.div_le_div_right (by omega)
  unfold reached
  rw [max_assoc, max_eq_right hmono]

/-- Together the slices are the time that one run with the whole budget credits. -/
theorem sum_slices (weight clock target : ℕ) (n : UInt32) (ns : List UInt32) :
    clock + (slices weight clock target (n :: ns)).sum =
      reached weight clock (target + ((n :: ns).map UInt32.toNat).sum) := by
  induction ns generalizing clock target n with
  | nil =>
    have hle := clock_le_reached weight clock (target + n.toNat)
    show clock + ((reached weight clock (target + n.toNat) - clock) + 0) =
      reached weight clock (target + (n.toNat + 0))
    rw [Nat.add_zero, Nat.add_zero, Nat.add_sub_cancel' hle]
  | cons n' ns ih =>
    have hle := clock_le_reached weight clock (target + n.toNat)
    have hsum : ((n :: n' :: ns).map UInt32.toNat).sum =
        n.toNat + ((n' :: ns).map UInt32.toNat).sum :=
      List.sum_cons
    rw [slices, List.sum_cons, ← Nat.add_assoc, Nat.add_sub_cancel' hle, ih, reached_reached, hsum,
      Nat.add_assoc]

end Scheduler
end TandemZ80
