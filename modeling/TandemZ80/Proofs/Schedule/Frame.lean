import TandemZ80.Proofs.Schedule.Lone

/-!
# What a turn leaves alone

A turn of one lane sets nothing but the clock, the goal and the wait of that lane. Whether a lane
takes part in a run, how much its T-states count for, and all of the lane of the partner stay as
they are, whatever the processors say in the turn.

* `Lanes.run_answer_eq_ok`, the answers of a step; `Lanes.advance_eq_ok`, its end;
  `Lanes.turn_eq_ok`;
* `Lanes.turn_other`, `Lanes.turn_parked` and `Lanes.run_parked_eq`;
* `Lanes.run_parked`, a lane that takes no part in a run.
-/

namespace TandemZ80.Lanes

open Rendezvous

variable {σ α : Type} {p : Processors σ} {s i : Side} {l l' : Lanes} {st st' : σ}

/-- An answer sets the goal or the wait of the lane that asks. -/
theorem answer_eq_ok {q : Call} {x : Reply q} (h : answer s q l = .ok (x, l')) :
    ∃ goal demand, l' = l.set s { l.get s with goal := goal, demand := demand } := by
  cases q with
  | stop n =>
    obtain ⟨t, -, h⟩ := Fault.bind_eq_ok h
    cases h
    exact ⟨_, _, rfl⟩
  | sync n =>
    obtain ⟨t, -, h⟩ := Fault.bind_eq_ok h
    split at h <;> cases h <;> exact ⟨_, _, rfl⟩

theorem run_answer_eq_ok {d : Program α} {a : α} (h : d.run (answer s) l = .ok (a, l')) :
    ∃ goal demand, l' = l.set s { l.get s with goal := goal, demand := demand } := by
  induction d generalizing l with
  | done b =>
    cases h
    exact ⟨_, _, (set_get _ s).symm⟩
  | fail f => cases h
  | ask q next ih =>
    obtain ⟨⟨x, l₁⟩, hq, hr⟩ := Fault.bind_eq_ok h
    obtain ⟨goal, demand, rfl⟩ := answer_eq_ok hq
    obtain ⟨goal', demand', rfl⟩ := ih x hr
    refine ⟨goal', demand', ?_⟩
    rw [PerSide.get_set_self, set_set]

/-- The end of a step moves the clock by the cost. -/
theorem advance_eq_ok {cost : ℕ} (h : advance s cost l = .ok l') :
    ∃ clock goal demand, clock.toNat = (l.get s).clock.toNat + cost ∧
      l' = l.set s { l.get s with clock := clock, goal := goal, demand := demand } := by
  unfold advance at h
  dsimp only at h
  split_ifs at h with hcost hnone
  · obtain ⟨clock, hclock, h⟩ := Fault.bind_eq_ok h
    cases h
    exact ⟨clock, _, _, (Counter.ofNat_eq_ok.1 hclock).symm, rfl⟩
  · cases h
    exact ⟨_, _, _, congrArg ((l.get s).clock.toNat + ·) (Nat.eq_zero_of_not_pos hcost).symm, rfl⟩
  · cases h
    refine ⟨(l.get s).clock, _, _, ?_, (set_get l s).symm⟩
    rw [Nat.eq_zero_of_not_pos hcost, Nat.add_zero]

/-- A turn sets the clock, the goal and the wait of its own lane. -/
theorem turn_eq_ok (h : turn p s l st = .ok (l', st')) :
    ∃ cost clock goal demand, (∃ l₁, (p.step s st).run (answer s) l = .ok ((cost, st'), l₁)) ∧
      clock.toNat = (l.get s).clock.toNat + cost ∧
      l' = l.set s { l.get s with clock := clock, goal := goal, demand := demand } := by
  rw [turn_eq] at h
  obtain ⟨⟨⟨cost, st₁⟩, l₁⟩, hr, hend⟩ := Fault.bind_eq_ok h
  obtain ⟨l₂, ha, hl⟩ := Fault.map_eq_ok hend
  cases hl
  obtain ⟨goal, demand, rfl⟩ := run_answer_eq_ok hr
  obtain ⟨clock, goal', demand', hclock, rfl⟩ := advance_eq_ok ha
  refine ⟨cost, clock, goal', demand', ⟨_, hr⟩, ?_, ?_⟩
  · rw [hclock, PerSide.get_set_self]
  · rw [PerSide.get_set_self, set_set]

theorem turn_other (h : turn p s l st = .ok (l', st')) : l'.get s.partner = l.get s.partner := by
  obtain ⟨cost, clock, goal, demand, -, -, rfl⟩ := turn_eq_ok h
  exact PerSide.get_set_partner _ _ _

theorem turn_parked (h : turn p s l st = .ok (l', st')) (i : Side) :
    (l'.get i).parked = (l.get i).parked := by
  obtain ⟨cost, clock, goal, demand, -, -, rfl⟩ := turn_eq_ok h
  rcases Side.eq_or_eq_partner s i with rfl | rfl
  · rw [PerSide.get_set_self]
  · rw [PerSide.get_set_partner]

/-- A run has the same lanes take part at its end as at its beginning. -/
theorem run_parked_eq {n : ℕ} (h : run p n l st = .ok (l', st')) (i : Side) :
    (l'.get i).parked = (l.get i).parked :=
  (run_keeps (I := fun k _ => (k.get i).parked = (l.get i).parked)
    (fun _ ht hk => (turn_parked ht i).trans hk) h rfl).2

/-- Beside a lane that takes no steps all turns are those of the other one. -/
theorem eq_partner_of_next (hparked : (l.get i).parked = true) (hn : next l = .ok (some s)) :
    i = s.partner := by
  have hrunning := (Lane.turnAt?_isSome (turnAt?_of_next_some hn)).1
  rcases Side.eq_or_eq_partner s i with rfl | hi
  · rw [hparked] at hrunning
    cases hrunning
  · exact hi

/-- A lane that takes no steps stays as it is. -/
theorem run_parked {n : ℕ} (hparked : (l.get i).parked = true) (h : run p n l st = .ok (l', st')) :
    l'.get i = l.get i := by
  refine (run_keeps (I := fun k _ => k.get i = l.get i) (fun hn ht hk => ?_) h rfl).2
  obtain rfl := eq_partner_of_next (hk ▸ hparked) hn
  exact (turn_other ht).trans hk

end TandemZ80.Lanes
