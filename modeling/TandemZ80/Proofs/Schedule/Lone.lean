import TandemZ80.Proofs.Schedule.Idle

/-!
# Processors that keep to themselves

Where no port is shared, a processor has nothing to ask of its partner. All that it may ask for is
the end of its own run, so the answers come from its own lane, and a turn is a turn of that lane
alone.

* `Rendezvous.Lone`, a program that asks for no port, and `Processors.Lone`;
* `Lane.turn`, the turn of a lane without its partner, and `Lanes.turn_lone`;
* `Lanes.stops`, the sides that asked for the end of their run;
* `Lane.Moved`, a lane before and after a number of turns;
* `Lanes.Free`, lanes that wait for nobody, and which of them go on;
* `Lanes.Paced`, lanes that are not far beyond their targets, and `Lanes.run_lone`.
-/

namespace TandemZ80

namespace Rendezvous

variable {α β : Type} {P : α → Prop}

/-- The program never asks for a shared port, fails by an overflow only, and `P` holds of its
result. -/
inductive Lone (P : α → Prop) : Program α → Prop
  | done {a : α} (h : P a) : Lone P (.done a)
  | overflow : Lone P (.fail .overflow)
  | stop (n : ℕ) {next : Unit → Program α} (h : Lone P (next ())) : Lone P (.ask (.stop n) next)

theorem Lone.mono {P' : α → Prop} {d : Program α} (hd : Lone P d) (hP : ∀ a, P a → P' a) :
    Lone P' d := by
  induction hd with
  | done h => exact .done (hP _ h)
  | overflow => exact .overflow
  | stop n _ ih => exact .stop n ih

/-- A program that asks for no port, and goes like one that fails by an overflow only. -/
theorem Lone.of_sure {R : α → β → Prop} {d : Program α} {d' : Program β} (hd : Sure P d)
    (h : Dialogue.Alike (· = .overflow) R d d') : Lone (fun a => P a ∧ ∃ b, R a b) d := by
  induction hd generalizing d' with
  | @done a hP =>
    obtain ⟨b, -, hR⟩ := h.exists_eq_done
    exact .done ⟨hP, b, hR⟩
  | fail f =>
    cases h with
    | fail hf =>
      cases hf
      exact .overflow
  | stop n _ ih =>
    cases h with
    | ask _ hnext => exact .stop n (ih (hnext ()))

theorem Lone.ends {d : Program α} (hd : Lone P d) : d.Ends P := by
  induction hd with
  | done h => exact .done h
  | overflow => exact .fail _
  | stop n _ ih => exact .ask _ fun _ => ih

theorem Lone.bind {Q : β → Prop} {d : Program α} {f : α → Program β} (hd : Lone P d)
    (hf : ∀ a, P a → Lone Q (f a)) : Lone Q (d >>= f) := by
  induction hd with
  | done h => exact hf _ h
  | overflow => exact .overflow
  | stop n _ ih => exact .stop n ih

/-- Whether a program asked for the end of its run. -/
def stopped (said : List ((q : Call) × Reply q)) : Bool :=
  said.any fun
    | ⟨.stop _, _⟩ => true
    | ⟨.sync _, _⟩ => false

end Rendezvous

open Rendezvous

/-! ### A lane on its own -/

namespace Lane

variable {σ α : Type} {P : α → Prop}

/-- The answers to a processor that asks for no port. -/
def answer : Dialogue.Handler Reply Lane
  | .sync _, _ => .error .misuse
  | .stop clocks, l => do
    let t ← Lanes.ahead l clocks
    return ((), { l with goal := min l.goal t })

/-- The end of a step that costs something. -/
def forward (cost : ℕ) (l : Lane) : Except Fault Lane := do
  let clock ← Counter.ofNat (l.clock.toNat + cost)
  return { l with clock, demand := none }

/-- The turn of a lane whose processor takes the step `d`. -/
def turn (d : Program (ℕ × σ)) (l : Lane) : Except Fault (Lane × σ) := do
  let ((cost, st), l) ← d.run answer l
  let l ← forward cost l
  return (l, st)

/-- A lane before and after a number of turns; `asked` is whether it asked for their end. -/
structure Moved (asked : Prop) (l l' : Lane) : Prop where
  weight : l'.weight = l.weight
  parked : l'.parked = l.parked
  clock : l.clock.toNat ≤ l'.clock.toNat
  goal_le : l'.goal ≤ l.goal
  goal : ¬asked → l'.goal = l.goal

namespace Moved

variable {l l' l'' : Lane} {asked asked' : Prop}

theorem refl (asked : Prop) (l : Lane) : Moved asked l l :=
  ⟨rfl, rfl, le_refl _, le_refl _, fun _ => rfl⟩

theorem trans (h : Moved asked l l') (h' : Moved asked' l' l'') : Moved (asked ∨ asked') l l'' where
  weight := h'.weight.trans h.weight
  parked := h'.parked.trans h.parked
  clock := h.clock.trans h'.clock
  goal_le := h'.goal_le.trans h.goal_le
  goal hno := (h'.goal (not_or.1 hno).2).trans (h.goal (not_or.1 hno).1)

end Moved

/-- What a processor says on its own moves at most the goal of its lane. -/
theorem run_answer {d : Program α} (hd : Rendezvous.Lone P d) (l : Lane) :
    d.run answer l = .error .overflow ∨
      ∃ a goal, P a ∧ d.run answer l = .ok (a, { l with goal }) ∧
        Moved (stopped (d.transcript answer l)) l { l with goal } := by
  induction hd generalizing l with
  | @done a h => exact .inr ⟨a, l.goal, h, rfl, .refl _ l⟩
  | overflow => exact .inl rfl
  | @stop n next _ ih =>
    by_cases hn : l.after n < UInt64.size
    · have hanswer : answer (.stop n) l = .ok ((), { l with goal := min l.goal (l.after n) }) := by
        simp only [answer, Lanes.ahead_of_lt hn]
        rfl
      rw [Dialogue.run_ask, Dialogue.transcript_ask hanswer, hanswer]
      rcases ih { l with goal := min l.goal (l.after n) } with herror | ⟨a, goal, hP, hrun, hmoved⟩
      · exact .inl herror
      · refine .inr ⟨a, goal, hP, hrun, rfl, rfl, le_refl _, ?_, fun hno => absurd rfl hno⟩
        exact hmoved.goal_le.trans (min_le_left _ _)
    · refine .inl ?_
      rw [Dialogue.run_ask]
      simp only [answer, Lanes.ahead_of_not_lt hn]
      rfl

end Lane

namespace Lanes

variable {σ α : Type} {p : Processors σ} {s : Side} {st : σ} {P : α → Prop}

theorem set_get (l : Lanes) (s : Side) : l.set s (l.get s) = l := by cases s <;> rfl

theorem set_set (l : Lanes) (s : Side) (a b : Lane) : (l.set s a).set s b = l.set s b := by
  cases s <;> rfl

/-- A processor that asks for no port is answered from its own lane. -/
theorem run_answer {d : Program α} (hd : Rendezvous.Lone P d) (s : Side) (l : Lanes) :
    d.run (answer s) l = (fun r => (r.1, l.set s r.2)) <$> d.run Lane.answer (l.get s) := by
  induction hd generalizing l with
  | @done a _ =>
    show Except.ok (a, l) = .ok (a, l.set s (l.get s))
    rw [set_get]
  | overflow => rfl
  | @stop n next _ ih =>
    rw [Dialogue.run_ask, Dialogue.run_ask]
    by_cases hn : (l.get s).after n < UInt64.size
    · rw [answer_stop hn]
      simp only [Lane.answer, ahead_of_lt hn]
      refine (ih _).trans ?_
      simp only [PerSide.get_set_self, set_set]
      rfl
    · rw [(answer_error hn).1]
      simp only [Lane.answer, ahead_of_not_lt hn]
      rfl

/-- What such a processor says is the same too. -/
theorem transcript_answer {d : Program α} (hd : Rendezvous.Lone P d) (s : Side) (l : Lanes) :
    d.transcript (answer s) l = d.transcript Lane.answer (l.get s) := by
  induction hd generalizing l with
  | done _ => rfl
  | overflow => rfl
  | @stop n next _ ih =>
    by_cases hn : (l.get s).after n < UInt64.size
    · have hanswer : Lane.answer (.stop n) (l.get s) =
          .ok ((), { l.get s with goal := min (l.get s).goal ((l.get s).after n) }) := by
        simp only [Lane.answer, ahead_of_lt hn]
        rfl
      rw [Dialogue.transcript_ask (answer_stop hn), Dialogue.transcript_ask hanswer, ih,
        PerSide.get_set_self]
    · have hanswer : Lane.answer (.stop n) (l.get s) = .error .overflow := by
        simp only [Lane.answer, ahead_of_not_lt hn]
        rfl
      rw [Dialogue.transcript_ask_error (answer_error hn).1, Dialogue.transcript_ask_error hanswer]

/-- A step that costs something moves its own lane forward. -/
theorem advance_eq_forward {cost : ℕ} (hcost : 0 < cost) (s : Side) (l : Lanes) :
    advance s cost l = (fun own => l.set s own) <$> (l.get s).forward cost := by
  simp only [advance, if_pos hcost, Lane.forward]
  cases Counter.ofNat ((l.get s).clock.toNat + cost) <;> rfl

/-- The turn of a processor that asks for no port is one of its own lane. -/
theorem turn_lone (hd : Rendezvous.Lone (fun r => 0 < r.1) (p.step s st)) (l : Lanes) :
    turn p s l st = (fun r => (l.set s r.1, r.2)) <$> (l.get s).turn (p.step s st) := by
  rw [turn_eq, run_answer hd]
  unfold Lane.turn
  rcases Lane.run_answer hd (l.get s) with herror | ⟨⟨cost, st₁⟩, goal, hcost, hrun, -⟩
  · rw [herror]
    rfl
  · rw [hrun]
    show (fun l => (l, st₁)) <$> advance s cost (l.set s { l.get s with goal }) =
      (fun r : Lane × σ => (l.set s r.1, r.2)) <$>
        ((fun own => (own, st₁)) <$> Lane.forward cost { l.get s with goal })
    rw [advance_eq_forward hcost, PerSide.get_set_self]
    cases Lane.forward cost { l.get s with goal } with
    | error f => rfl
    | ok own =>
      show Except.ok ((l.set s _).set s own, st₁) = .ok (l.set s own, st₁)
      rw [set_set]

end Lanes

/-- The turn of a lane on its own: its clock moves by the cost of the step, unless a counter
overflows. -/
theorem Lane.turn_moved {σ : Type} {P : ℕ × σ → Prop} {d : Program (ℕ × σ)}
    (hd : Rendezvous.Lone P d) (l : Lane) :
    l.turn d = .error .overflow ∨
      ∃ cost st l', P (cost, st) ∧ l.turn d = .ok (l', st) ∧
        l'.clock.toNat = l.clock.toNat + cost ∧ l'.demand = none ∧
        l.Moved (stopped (d.transcript Lane.answer l)) l' := by
  unfold turn
  rcases run_answer hd l with herror | ⟨⟨cost, st⟩, goal, hP, hrun, hmoved⟩
  · rw [herror]
    exact .inl rfl
  rw [hrun]
  by_cases hfits : l.clock.toNat + cost < UInt64.size
  · obtain ⟨clock, hclock, hn⟩ := Scheduler.counter_ofNat_ok hfits
    refine .inr ⟨cost, st, { l with clock, goal, demand := none }, hP, ?_, hn, rfl, rfl, rfl, ?_,
      hmoved.goal_le, hmoved.goal⟩
    · show (fun own => (own, st)) <$> Lane.forward cost { l with goal } = _
      simp only [forward, hclock]
      rfl
    · rw [hn]
      exact Nat.le_add_right _ _
  · refine .inl ?_
    show (fun own => (own, st)) <$> Lane.forward cost { l with goal } = _
    simp only [forward, Counter.ofNat, if_neg hfits]
    rfl

/-! ### Runs -/

variable {σ : Type}

/-- Processors that never ask for shared ports, and whose every step takes between 1 and `most`
T-states. What they depend on is in `I`. -/
structure Processors.Lone (p : Processors σ) (most : ℕ) (I : σ → Prop) : Prop where
  step : ∀ i st, I st →
    Rendezvous.Lone (fun r => (0 < r.1 ∧ r.1 ≤ most) ∧ I r.2) (p.step i st)

namespace Lanes

variable {p : Processors σ} {most : ℕ} {I : σ → Prop} {s : Side} {targets : PerSide UInt64}
  {l l' : Lanes} {st : σ}

/-- Whether the processor in lane `s` asks for the end of its run in its next turn. -/
def turnStops (p : Processors σ) (s : Side) (l : Lanes) (st : σ) : Bool :=
  stopped ((p.step s st).transcript (answer s) l)

/-- The sides that ask for the end of their run, in the order in which they do. -/
def stops (p : Processors σ) : ℕ → Lanes → σ → List Side
  | 0, _, _ => []
  | n + 1, l, st =>
    match next l with
    | .ok (some s) =>
      (if turnStops p s l st then [s] else []) ++
        match turn p s l st with
        | .ok (l', st') => stops p n l' st'
        | .error _ => []
    | _ => []

theorem stops_of_turn {n : ℕ} {st' : σ} (hn : next l = .ok (some s))
    (ht : turn p s l st = .ok (l', st')) (i : Side) :
    i ∈ stops p (n + 1) l st ↔ (i = s ∧ turnStops p s l st = true) ∨ i ∈ stops p n l' st' := by
  simp only [stops, hn, ht, List.mem_append]
  cases turnStops p s l st <;> simp

/-- Lanes that wait for nobody. -/
def Free (l : Lanes) : Prop := ∀ i, (l.get i).demand = none

theorem Free.set {own : Lane} (h : Free l) (s : Side) (hown : own.demand = none) :
    Free (l.set s own) := by
  refine (Side.forall_iff s).2 ⟨?_, ?_⟩
  · rw [PerSide.get_set_self, hown]
  · rw [PerSide.get_set_partner, h]

/-- Of lanes that wait for nobody, one that goes on has not reached its goal. -/
theorem Free.time_lt_goal (h : Free l) (hn : next l = .ok (some s)) :
    (l.get s).parked = false ∧ (l.get s).time < (l.get s).goal := by
  obtain ⟨hparked, ⟨d, hd, -⟩ | ⟨-, hlt | hawaits⟩⟩ := Lane.turnAt?_isSome (turnAt?_of_next_some hn)
  · rw [h] at hd
    cases hd
  · exact ⟨hparked, hlt⟩
  · rw [Lane.awaits, h, Option.any_none, Bool.and_false] at hawaits
    cases hawaits

/-- Of lanes that wait for nobody, one that goes no further has reached its goal, or is parked. -/
theorem Free.goal_le_time (h : Free l) (hn : next l = .ok none) (i : Side) :
    (l.get i).parked = true ∨ (l.get i).goal ≤ (l.get i).time := by
  have hturn := turnAt?_of_next_none hn i
  cases hparked : (l.get i).parked with
  | true => exact .inl rfl
  | false =>
    refine .inr (not_lt.1 fun hlt => ?_)
    simp [Lane.turnAt?, hparked, h i, hlt] at hturn

/-- Lanes that wait for nobody, and have overshot their targets by less than one step. -/
structure Paced (most : ℕ) (targets : PerSide UInt64) (l : Lanes) : Prop where
  free : Free l
  goal : ∀ i, (l.get i).goal ≤ (targets.get i).toNat
  below : ∀ i, (l.get i).time < (targets.get i).toNat + most * (l.get i).weight.toNat
  parked : ∀ i, (l.get i).parked = true → (targets.get i).toNat ≤ (l.get i).time

/-- A turn keeps the pace. -/
theorem Paced.turn (h : Paced most targets l) (hn : next l = .ok (some s)) {own : Lane} {cost : ℕ}
    {asked : Prop} (hmoved : (l.get s).Moved asked own) (hdemand : own.demand = none)
    (hclock : own.clock.toNat = (l.get s).clock.toNat + cost) (hcost : cost ≤ most) :
    Paced most targets (l.set s own) := by
  obtain ⟨hparked, hlt⟩ := h.free.time_lt_goal hn
  have hgoal := h.goal s
  have htime : own.time = (l.get s).time + cost * (l.get s).weight.toNat := by
    rw [Lane.time, hclock, hmoved.weight]
    exact Nat.add_mul _ _ _
  have hstep := Nat.mul_le_mul_right (l.get s).weight.toNat hcost
  refine ⟨h.free.set s hdemand, (Side.forall_iff s).2 ⟨?_, ?_⟩, (Side.forall_iff s).2 ⟨?_, ?_⟩,
    (Side.forall_iff s).2 ⟨?_, ?_⟩⟩ <;>
    simp only [PerSide.get_set_self, PerSide.get_set_partner]
  · exact hmoved.goal_le.trans hgoal
  · exact h.goal _
  · rw [htime, hmoved.weight]
    omega
  · exact h.below _
  · rw [hmoved.parked, hparked]
    exact fun h => by cases h
  · exact h.parked _

/-- A lane that waits for nobody uses up a turn as its clock moves. -/
theorem left_set_lt {own : Lane} (hfree : (l.get s).demand = none) (hdemand : own.demand = none)
    (hclock : (l.get s).clock.toNat < own.clock.toNat) : left (l.set s own) < left l := by
  have hlt := own.clock.toNat_lt
  rw [left_eq _ s, left_eq l s, PerSide.get_set_self, PerSide.get_set_partner]
  simp only [Lane.left, hfree, hdemand, UInt64.size]
  omega

/-- A lane that has moved, among both. -/
theorem moved_set {own : Lane} {asked : Prop} (h : (l.get s).Moved asked own) (i : Side) :
    (l.get i).Moved (i = s ∧ asked) ((l.set s own).get i) := by
  rcases Side.eq_or_eq_partner s i with rfl | rfl
  · rw [PerSide.get_set_self]
    exact ⟨h.weight, h.parked, h.clock, h.goal_le,
      fun hno => h.goal fun hasked => hno ⟨rfl, hasked⟩⟩
  · rw [PerSide.get_set_partner]
    exact .refl _ _

/-- A run of processors that keep to themselves comes to its end, at their pace, unless a counter
overflows. -/
theorem run_lone (hp : p.Lone most I) {n : ℕ} (h : Paced most targets l) (hst : I st)
    (hleft : left l < n) :
    run p n l st = .error .overflow ∨
      ∃ l' st', run p n l st = .ok (l', st') ∧ I st' ∧ Paced most targets l' ∧ next l' = .ok none ∧
        ∀ i, (l.get i).Moved (i ∈ stops p n l st) (l'.get i) := by
  induction n generalizing l st with
  | zero => exact absurd hleft (Nat.not_lt_zero _)
  | succ n ih =>
    cases hn : next l with
    | error f =>
      obtain rfl := next_error hn
      refine .inl ?_
      simp only [run, hn]
    | ok o =>
      cases o with
      | none => exact .inr ⟨l, st, run_of_next_none hn n st, hst, h, hn, fun i => .refl _ _⟩
      | some s =>
        have hstep := hp.step s st hst
        have hturn := turn_lone (hstep.mono fun _ hP => hP.1.1) l
        rw [run_of_next_some hn]
        rcases (l.get s).turn_moved hstep with
          herror | ⟨cost, st₁, own, ⟨⟨hpos, hmost⟩, hst₁⟩, hok, hclock, hdemand, hmoved⟩
        · rw [hturn, herror]
          exact .inl rfl
        rw [hok] at hturn
        rw [← transcript_answer hstep] at hmoved
        -- The clock has moved, so that fewer turns are left.
        have hfewer : left (l.set s own) < left l :=
          left_set_lt (h.free s) hdemand (by rw [hclock]; exact Nat.lt_add_of_pos_right hpos)
        rw [hturn]
        rcases ih (h.turn hn hmoved hdemand hclock hmost) hst₁ (by omega) with
          herror | ⟨l', st', hrun, hst', hpaced, hend, hrest⟩
        · exact .inl herror
        refine .inr ⟨l', st', hrun, hst', hpaced, hend, fun i => ?_⟩
        rw [propext (stops_of_turn (n := n) hn hturn i)]
        exact (moved_set hmoved i).trans (hrest i)

end Lanes
end TandemZ80
