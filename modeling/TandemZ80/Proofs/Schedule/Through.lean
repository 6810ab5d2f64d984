import TandemZ80.Proofs.Schedule.Bookkeeping
import TandemZ80.Proofs.Schedule.Frame

/-!
# Lanes that are through

A run ends when no lane can go on. Whether one can depends on the other lane as well: one that waits
needs a partner that has come as far, and one that has reached its goal goes on while its partner
waits for it. Taken together, no lane can go on exactly if every lane that takes part is *through*:
it waits for nobody, and it has reached its goal. So no two lanes ever wait for each other, and none
is left waiting when a run returns.

* `Lane.Through`; `Lanes.pick_eq_none_iff`;
* `Lanes.run_through`, the lanes at the end of a run;
* `Stint.parks`, the processors that take no part in a stint, and `Scheduler.returns_when_through`.
-/

namespace TandemZ80

namespace Lane

variable {own partner : Lane}

/-- The lane waits for nobody and has come to the end of its run. -/
structure Through (l : Lane) : Prop where
  demand : l.demand = none
  goal : l.goal ≤ l.time

/-- A lane that does not wait goes on unless it has reached its goal and holds nobody up. -/
theorem turnAt?_eq_none_iff (hrunning : own.parked = false) (hfree : own.demand = none) :
    own.turnAt? partner = none ↔ own.goal ≤ own.time ∧ partner.awaits own.time = false := by
  simp only [turnAt?, hrunning, hfree, Bool.false_eq_true, if_false]
  cases hawaits : partner.awaits own.time
  · simp
  · simp

theorem turnAt?_isSome_of_demand {d : ℕ} (hrunning : own.parked = false) (hd : own.demand = some d)
    (hreach : partner.reaches d = true) : (own.turnAt? partner).isSome = true := by
  simp [turnAt?, hrunning, hd, hreach]

/-- A lane that cannot go on beside one that cannot either is not waiting. -/
theorem demand_of_stuck (hrunning : own.parked = false) (hown : own.turnAt? partner = none)
    (hpartner : partner.turnAt? own = none) : own.demand = none := by
  cases hparked : partner.parked with
  | false => exact demand_eq_none hrunning hparked hown hpartner
  | true =>
    -- A parked partner has come as far as anyone may ask.
    by_contra hne
    obtain ⟨d, hd⟩ := Option.ne_none_iff_exists'.1 hne
    have hreach : partner.reaches d = true := by rw [reaches, hparked, Bool.true_or]
    have hturn := turnAt?_isSome_of_demand hrunning hd hreach
    rw [hown] at hturn
    cases hturn

end Lane

namespace Lanes

variable {σ : Type} {p : Processors σ} {l l' : Lanes} {st st' : σ}

theorem pick_eq_none_iff_turnAt? :
    pick l = none ↔ ∀ i, (l.get i).turnAt? (l.get i.partner) = none := by
  rw [Side.forall_iff .main]
  show pick l = none ↔ l.main.turnAt? l.sub = none ∧ l.sub.turnAt? l.main = none
  unfold pick
  cases l.main.turnAt? l.sub <;> cases l.sub.turnAt? l.main
  · simp
  · simp
  · simp
  · simp only [reduceCtorEq, false_and, iff_false]
    split_ifs <;> simp

/-- No lane can go on exactly if all that take part are through. -/
theorem pick_eq_none_iff (l : Lanes) :
    pick l = none ↔ ∀ i, (l.get i).parked = false → (l.get i).Through := by
  rw [pick_eq_none_iff_turnAt?]
  constructor
  · intro h i hrunning
    have hpartner := h i.partner
    rw [Side.partner_partner] at hpartner
    have hfree := Lane.demand_of_stuck hrunning (h i) hpartner
    exact ⟨hfree, ((Lane.turnAt?_eq_none_iff hrunning hfree).1 (h i)).1⟩
  · intro h i
    cases hparked : (l.get i).parked with
    | true => rw [Lane.turnAt?, if_pos hparked]
    | false =>
      obtain ⟨hfree, hgoal⟩ := h i hparked
      refine (Lane.turnAt?_eq_none_iff hparked hfree).2 ⟨hgoal, ?_⟩
      cases hpartner : (l.get i.partner).parked with
      | true => rw [Lane.awaits, hpartner, Bool.not_true, Bool.false_and]
      | false => rw [Lane.awaits, (h i.partner hpartner).demand, Option.any_none, Bool.and_false]

/-- A run that returns has brought all lanes through that took part in it. -/
theorem run_through {n : ℕ} (h : run p n l st = .ok (l', st')) (i : Side)
    (hrunning : (l.get i).parked = false) : (l'.get i).Through := by
  have hend := (run_keeps (I := fun _ _ => True) (fun _ _ _ => trivial) h trivial).1
  have hpick := (next_eq_ok hend).2
  rw [← run_parked_eq h i] at hrunning
  exact (pick_eq_none_iff l').1 hpick i hrunning

end Lanes

/-- The processors that take no part in a stint. -/
def Stint.parks : Stint → Side → Bool
  | .main _, .sub => true
  | _, _ => false

namespace Scheduler

variable {σ : Type} {p : Processors σ} {s s' : Scheduler} {l : Lanes} {st st' : σ} {stint : Stint}

theorem begin_parked (h : begin p stint s st = .ok (s', l, st')) (i : Side) :
    (l.get i).parked = stint.parks i := by
  cases stint with
  | both ratio budget =>
    obtain ⟨s₁, -, h⟩ := Fault.map_eq_ok h
    cases h
    cases i <;> rfl
  | main budget =>
    obtain ⟨s₁, -, h⟩ := Fault.bind_eq_ok h
    obtain ⟨st₁, -, h⟩ := Fault.map_eq_ok h
    cases h
    cases i <;> rfl

/-- Whatever the processors do: no lane goes on exactly if all lanes that take part are through, and
a stint that returns has brought them there. -/
theorem returns_when_through (p : Processors σ) (stint : Stint) (s : Scheduler) (st : σ) :
    (∀ l : Lanes, l.pick = none ↔ ∀ i, (l.get i).parked = false → (l.get i).Through) ∧
    ∀ moved s' st', (system p).perform stint (s, st) = .ok (moved, s', st') →
      ∃ s₁ l₀ st₀ l, begin p stint s st = .ok (s₁, l₀, st₀) ∧
        Lanes.run p turnLimit l₀ st₀ = .ok (l, st') ∧ s'.clocks = l.map Lane.clock ∧
        ∀ i, (l.get i).parked = stint.parks i ∧ (stint.parks i = false → (l.get i).Through) := by
  refine ⟨Lanes.pick_eq_none_iff, fun moved s' st' h => ?_⟩
  rw [perform_eq] at h
  obtain ⟨⟨s₁, l₀, st₀⟩, hbegin, hfinish⟩ := Fault.bind_eq_ok h
  obtain ⟨l, hrun, rfl, -⟩ := finish_eq_ok hfinish
  refine ⟨s₁, l₀, st₀, l, hbegin, hrun, rfl, fun i => ⟨?_, fun hi => ?_⟩⟩
  · rw [Lanes.run_parked_eq hrun, begin_parked hbegin]
  · exact Lanes.run_through hrun i (by rw [begin_parked hbegin, hi])

/-- Steps of 4 T-states on both sides. In each the main processor asks for the end of its run, and
the sub one for a shared port. -/
def escort : Processors Unit where
  step
    | .main, _ => .ask (.stop 4) fun _ => .done (4, ())
    | .sub, _ => .ask (.sync 2) fun granted => .done (if granted then 4 else 0, ())
  skipIdle _ _ _ := .ok ()

/-- The main processor has ended its run after one step, but the sub one takes it along. -/
theorem escort_returns_through :
    ∃ s' st', (system escort).perform (.both .oneToOne 40) (initial, ()) = .ok (40, s', st') ∧
      ∃ s₁ l₀ st₀ l, begin escort (.both .oneToOne 40) initial () = .ok (s₁, l₀, st₀) ∧
        Lanes.run escort turnLimit l₀ st₀ = .ok (l, st') ∧ s'.clocks = l.map Lane.clock ∧
        ∀ i, (l.get i).parked = Stint.parks (.both .oneToOne 40) i ∧
          (Stint.parks (.both .oneToOne 40) i = false → (l.get i).Through) := by
  have hmoved : ((system escort).perform (.both .oneToOne 40) (initial, ())).toOption.map Prod.fst =
      some 40 := by
    decide +kernel
  cases h : (system escort).perform (.both .oneToOne 40) (initial, ()) with
  | error f =>
    rw [h] at hmoved
    cases hmoved
  | ok r =>
    obtain ⟨moved, s', st'⟩ := r
    rw [h] at hmoved
    obtain rfl : moved = 40 := Option.some.inj hmoved
    exact ⟨s', st', rfl, (returns_when_through escort _ initial ()).2 _ _ _ h⟩

end Scheduler
end TandemZ80
