import TandemZ80.Proofs.Schedule.Turn

/-!
# Two metronomes out of step

Two processors that touch a shared port in every instruction, one of them half a beat ahead. Each of
them, made to go on because the other one waits, begins to wait for the beat after, and they go on
in turns for ever.

* `Leapfrog`, the two states that alternate; `Leapfrog.turn_partner` and `Leapfrog.turn_own`, the
  two turns;
* `Leapfrog.run_ne_ok`, a run that begins so does not return.
-/

namespace TandemZ80

open Rendezvous

variable {l l' : Lanes} {i : Side} {a : ℕ}

theorem metronome_step (i : Side) : Meets
    (fun c r => c = .granted 7 ∧ r.1 = 10 ∨ c = .refused 7 ∧ r.1 = 0) .none (metronome.step i ()) :=
  ⟨rfl, .inl ⟨rfl, rfl⟩, .inr ⟨rfl, rfl⟩⟩

/-- Lane `i` of the metronome waits for its partner, which is half a beat ahead and does not wait,
or waits for the beat after. -/
structure Leapfrog (i : Side) (a : ℕ) (l : Lanes) : Prop where
  running : ∀ j, (l.get j).parked = false
  weight : ∀ j, (l.get j).weight = 1
  clock : (l.get i).clock.toNat = a
  ahead : (l.get i.partner).clock.toNat = a + 5
  waits : (l.get i).demand = some (a + 7)
  answers : (l.get i.partner).demand = none ∨ (l.get i.partner).demand = some (a + 12)

namespace Leapfrog

theorem after_eq (h : Leapfrog i a l) (n : ℕ) :
    (l.get i).after n = a + n ∧ (l.get i.partner).after n = a + 5 + n := by
  rw [Lane.after, Lane.after, h.weight, h.weight, h.clock, h.ahead]
  exact ⟨Nat.mul_one _, Nat.mul_one _⟩

theorem time_eq (h : Leapfrog i a l) : (l.get i.partner).time = a + 5 := by
  rw [Lane.time, h.weight, h.ahead]
  exact Nat.mul_one _

theorem reaches_partner (h : Leapfrog i a l) :
    (l.get i.partner).reaches (a + 7) = true ↔ (l.get i.partner).demand = some (a + 12) := by
  rw [Lane.reaches_iff (h.running _)]
  rcases h.answers with hd | hd
  · rw [hd, Option.getD_none, h.time_eq]
    simp
  · rw [hd, Option.getD_some]
    simp

theorem not_reaches (h : Leapfrog i a l) : (l.get i).reaches (a + 12) = false := by
  by_contra hr
  rw [Bool.not_eq_false, Lane.reaches_iff (h.running _), h.waits, Option.getD_some] at hr
  omega

/-- The partner goes on while it does not wait, and then asks for the beat after. -/
theorem turn_partner (h : Leapfrog i a l)
    (ht : Lanes.turn metronome i.partner l () = .ok (l', ())) : Leapfrog i a l' := by
  obtain ⟨c, cost, hc, hs, hp, -⟩ := Lanes.turn_stepped (metronome_step i.partner) ht
  rw [Side.partner_partner] at hs hp
  have hafter : (l.get i.partner).after 7 = a + 12 := (h.after_eq 7).2
  rcases hc with ⟨rfl, -⟩ | ⟨rfl, hcost⟩
  · have hgranted : (l.get i).reaches ((l.get i.partner).after 7) = true := hs.heeds
    rw [hafter, h.not_reaches] at hgranted
    cases hgranted
  · obtain rfl : cost = 0 := hcost
    refine ⟨(Side.forall_iff i).2 ⟨?_, ?_⟩, (Side.forall_iff i).2 ⟨?_, ?_⟩, ?_, ?_, ?_, .inr ?_⟩
    · rw [hp, h.running]
    · rw [hs.parked, h.running]
    · rw [hp, h.weight]
    · rw [hs.weight, h.weight]
    · rw [hp, h.clock]
    · rw [hs.clock, h.ahead]
    · rw [hp, h.waits]
    · rw [hs.demand, ← hafter]
      rfl

/-- The lane that waited goes on once its partner waits for the beat after, and is behind it
then. -/
theorem turn_own (h : Leapfrog i a l) (hd : (l.get i.partner).demand = some (a + 12))
    (ht : Lanes.turn metronome i l () = .ok (l', ())) : Leapfrog i.partner (a + 5) l' := by
  obtain ⟨c, cost, hc, hs, hp, -⟩ := Lanes.turn_stepped (metronome_step i) ht
  have hafter : (l.get i).after 7 = a + 7 := (h.after_eq 7).1
  rcases hc with ⟨rfl, hcost⟩ | ⟨rfl, -⟩
  · obtain rfl : cost = 10 := hcost
    refine ⟨(Side.forall_iff i).2 ⟨?_, ?_⟩, (Side.forall_iff i).2 ⟨?_, ?_⟩, ?_, ?_, ?_, .inl ?_⟩
    · rw [hs.parked, h.running]
    · rw [hp, h.running]
    · rw [hs.weight, h.weight]
    · rw [hp, h.weight]
    · rw [hp, h.ahead]
    · rw [Side.partner_partner, hs.clock, h.clock]
    · rw [hp, hd]
    · rw [Side.partner_partner, hs.demand]
      rfl
  · have hrefused : (l.get i.partner).reaches ((l.get i).after 7) = false := hs.heeds
    rw [hafter, h.reaches_partner.2 hd] at hrefused
    cases hrefused

/-- The lane that waits cannot go on before its partner waits. -/
theorem turnAt?_own (h : Leapfrog i a l) (hd : (l.get i.partner).demand = none) :
    ((l.get i).turnAt? (l.get i.partner)).isSome = false := by
  have hreaches : (l.get i.partner).reaches (a + 7) = false := by
    by_contra hr
    rw [Bool.not_eq_false, h.reaches_partner, hd] at hr
    cases hr
  rw [Lane.turnAt?, h.running, h.waits]
  simp [hreaches]

/-- The partner cannot go on once it waits. -/
theorem turnAt?_partner (h : Leapfrog i a l) (hd : (l.get i.partner).demand = some (a + 12)) :
    ((l.get i.partner).turnAt? (l.get i)).isSome = false := by
  rw [Lane.turnAt?, h.running, hd]
  simp [h.not_reaches]

/-- Some lane can always go on: as long as one waits, the run does not end. -/
theorem next_ne_none (h : Leapfrog i a l) : Lanes.next l ≠ .ok none := by
  intro hn
  have hdemand := Lanes.demand_of_next_none h.running hn i
  rw [h.waits] at hdemand
  cases hdemand

/-- Every turn leads on to a state of the same kind. -/
theorem turn (h : Leapfrog i a l) {j : Side} (hn : Lanes.next l = .ok (some j))
    (ht : Lanes.turn metronome j l () = .ok (l', ())) : ∃ i' a', Leapfrog i' a' l' := by
  have hgo := Lanes.turnAt?_of_next_some hn
  rcases h.answers with hd | hd
  · obtain rfl | rfl := Side.eq_or_eq_partner i j
    · rw [h.turnAt?_own hd] at hgo
      cases hgo
    · exact ⟨i, a, h.turn_partner ht⟩
  · obtain rfl | rfl := Side.eq_or_eq_partner i j
    · exact ⟨j.partner, a + 5, h.turn_own hd ht⟩
    · rw [Side.partner_partner, h.turnAt?_partner hd] at hgo
      cases hgo

/-- However many turns there are, the run does not come to its end. -/
theorem run_ne_ok (h : Leapfrog i a l) (n : ℕ) (r : Lanes × Unit) :
    Lanes.run metronome n l () ≠ .ok r := by
  obtain ⟨l', u⟩ := r
  intro hr
  obtain ⟨hend, i', a', h'⟩ := Lanes.run_keeps (I := fun k _ => ∃ i a, Leapfrog i a k)
    (fun hn ht ⟨_, _, hk⟩ => hk.turn hn ht) hr ⟨i, a, h⟩
  exact h'.next_ne_none hend

end Leapfrog

end TandemZ80
