import TandemZ80.Proofs.Schedule.Frame

/-!
# Lanes that overtake each other

A lane that has reached its goal goes on while its partner waits for it. If it asks for a shared
port itself before it has caught up, it begins to wait at a later time, and now its partner, which
may have reached its goal as well, has to go on for it. As long as that does not happen times stay
close to the goals, and each time it happens adds two instructions at most.

* `Lane.overtakes`, and `Lanes.overtakings`, how often that happens in a run;
* `Lanes.Bounded`, how far the lanes can be after so many of them, with `Bounded.turn`;
* `Lanes.Counted`, counts beside the clocks, and `Bounded.run_ne_overflow`;
* `Lanes.overtakings_of_parked` and `Lanes.overtakings_of_quiet`: it takes two lanes that ask for
  ports.
-/

namespace TandemZ80

open Rendezvous

/-- A lane that went on for its partner only has begun to wait itself. -/
def Lane.overtakes (own own' : Lane) : Bool :=
  own.demand.isNone && own.goal ≤ own.time && own'.demand.isSome

namespace Lanes

variable {σ : Type}

/-- How often a lane overtakes its partner in a run. -/
def overtakings (p : Processors σ) : ℕ → Lanes → σ → ℕ
  | 0, _, _ => 0
  | n + 1, l, st =>
    match next l with
    | .ok (some s) =>
      match turn p s l st with
      | .ok (l', st') => ((l.get s).overtakes (l'.get s)).toNat + overtakings p n l' st'
      | .error _ => 0
    | _ => 0

end Lanes

/-- Processors of which the one on side `i` asks for no shared port as long as `K` holds. -/
structure Processors.Quiet {σ : Type} (p : Processors σ) (i : Side) (K : σ → Prop) : Prop where
  own : ∀ st, K st → Rendezvous.Lone (fun r => 0 < r.1 ∧ K r.2) (p.step i st)
  partner : ∀ st, K st → (p.step i.partner st).Ends fun r => K r.2

theorem Processors.Lone.quiet {σ : Type} {p : Processors σ} {most : ℕ} {I : σ → Prop}
    (h : p.Lone most I) (i : Side) : p.Quiet i I where
  own st hst := (h.step i st hst).mono fun _ hr => ⟨hr.1.1, hr.2⟩
  partner st hst := ((h.step i.partner st hst).mono fun _ hr => hr.2).ends

namespace Lane

variable {own partner own' : Lane} {c : Contact} {cost : ℕ} {want : Option ℕ}

/-- A lane that nobody waits for takes steps for itself only. -/
theorem overtakes_eq_false (hgo : (own.turnAt? partner).isSome = true)
    (h : partner.awaits own.time = false) (own' : Lane) : own.overtakes own' = false := by
  obtain ⟨-, ⟨d, hd, -⟩ | ⟨-, hlt | hawaits⟩⟩ := turnAt?_isSome hgo
  · rw [overtakes, hd]
    rfl
  · rw [overtakes, decide_eq_false (not_le.2 hlt), Bool.and_false, Bool.false_and]
  · rw [h] at hawaits
    cases hawaits

/-- An instruction takes at most 54 units of time. -/
theorem after_le {l : Lane} (hw : l.weight.toNat ≤ 2) {n : ℕ} (hn : n ≤ 27) :
    l.after n ≤ l.time + 54 := by
  have := Nat.mul_le_mul hn hw
  rw [after_eq]
  omega

theorem Stepped.time_le (h : own.Stepped partner c cost own') (hk : Brisk want c cost)
    (hw : own.weight.toNat ≤ 2) : own'.time ≤ own.time + 54 := by
  rw [h.time_eq]
  exact after_le hw hk.cost_le

/-- A brisk step without cost waits, so it does not end the run for its lane. -/
theorem Stepped.goal_le (h : own.Stepped partner c cost own') (hk : Brisk want c cost) :
    own'.goal ≤ own.goal := by
  rcases h.goal with hle | ⟨rfl, hnone, -⟩
  · exact hle
  · cases c with
    | none => exact absurd hk.2.1 (by omega)
    | granted elapsed => exact absurd hk.2.1 (by omega)
    | refused elapsed => cases hnone

/-- A lane that waits after its turn did not wait before, and it waits within one instruction. -/
theorem Stepped.waits (h : own.Stepped partner c cost own') (hk : Brisk want c cost)
    (hc : ∀ elapsed, c = .refused elapsed → elapsed < 27) (hw : own.weight.toNat ≤ 2)
    (hd : own.demand = want.map own.after) (hgo : (own.turnAt? partner).isSome = true) {d : ℕ}
    (hd' : own'.demand = some d) : own.demand = none ∧ d ≤ own.time + 54 := by
  rw [h.demand] at hd'
  split at hd'
  · cases hd'
  · next hcost =>
    cases c with
    | none => exact absurd hk.2.1 (by omega)
    | granted elapsed => cases hd'
    | refused elapsed =>
      cases hd'
      exact ⟨h.demand_of_refused hk.orderly hd hgo, after_le hw (hc elapsed rfl).le⟩

end Lane

namespace Lanes

variable {σ : Type} {p : Processors σ} {I : PerSide (Option ℕ) → σ → Prop}
  {requests : PerSide (Option ℕ)} {s : Side} {l l' : Lanes} {st st' : σ} {horizon k : ℕ}

/-- The lanes of a run whose goals lie before `horizon`, after `k` overtakings. -/
structure Bounded (horizon k : ℕ) (requests : PerSide (Option ℕ)) (l : Lanes) : Prop where
  tracks : Tracks requests l
  weight : ∀ i, 1 ≤ (l.get i).weight.toNat ∧ (l.get i).weight.toNat ≤ 2
  goal : ∀ i, (l.get i).goal ≤ horizon
  waits : ∀ i, ∀ d ∈ (l.get i).demand, d < horizon + 54 * (k + 1)
  time : ∀ i, (l.get i).parked = false → (l.get i).time < horizon + 54 * (k + 2)

/-- A lane that is chosen stands before its goal, or before a time at which somebody waits. -/
theorem Bounded.time_of_turn (h : Bounded horizon k requests l)
    (hgo : ((l.get s).turnAt? (l.get s.partner)).isSome = true) :
    (l.get s).time < horizon + 54 * (k + 1) := by
  rcases (Lane.turnAt?_isSome hgo).2 with ⟨d, hd, -⟩ | ⟨-, hlt | hawaits⟩
  · have hwait := h.waits s d hd
    rw [h.tracks s] at hd
    obtain ⟨w, -, rfl⟩ := Option.map_eq_some_iff.1 hd
    exact ((l.get s).time_le_after w).trans_lt hwait
  · have := h.goal s
    omega
  · rw [Lane.awaits, Bool.and_eq_true, Option.any_eq_true] at hawaits
    obtain ⟨-, d, hd, hlt⟩ := hawaits
    exact (decide_eq_true_iff.1 hlt).trans (h.waits s.partner d hd)

/-- A turn moves its lane by one instruction, and moves the time at which somebody waits away from
the horizon only if it overtakes. -/
theorem Bounded.turn (h : Bounded horizon k requests l) {c : Contact} {cost : ℕ}
    (hgo : ((l.get s).turnAt? (l.get s.partner)).isSome = true)
    (hs : (l.get s).Stepped (l.get s.partner) c cost (l'.get s))
    (hp : l'.get s.partner = l.get s.partner) (hk : Brisk (requests.get s) c cost)
    (hc : ∀ elapsed, c = .refused elapsed → elapsed < 27) :
    Bounded horizon (k + ((l.get s).overtakes (l'.get s)).toNat) (requests.set s c.request) l' := by
  have hweight := h.weight s
  have htime := h.time_of_turn hgo
  have htime' := hs.time_le hk hweight.2
  refine ⟨h.tracks.turn hs hp hk.orderly, (Side.forall_iff s).2 ⟨?_, ?_⟩,
    (Side.forall_iff s).2 ⟨?_, ?_⟩, (Side.forall_iff s).2 ⟨?_, ?_⟩, (Side.forall_iff s).2 ⟨?_, ?_⟩⟩
  · rwa [hs.weight]
  · rw [hp]
    exact h.weight _
  · exact (hs.goal_le hk).trans (h.goal s)
  · rw [hp]
    exact h.goal _
  · intro d hd
    obtain ⟨hnone, hle⟩ := hs.waits hk hc hweight.2 (h.tracks s) hgo hd
    by_cases hlt : (l.get s).time < (l.get s).goal
    · have := h.goal s
      omega
    · -- It had nothing left to do for itself, so the new time of waiting counts as one more
      -- overtaking.
      have hovertakes : (l.get s).overtakes (l'.get s) = true := by
        rw [Lane.overtakes, hnone, hd, decide_eq_true (not_lt.1 hlt)]
        rfl
      rw [hovertakes, Bool.toNat_true]
      omega
  · intro d hd
    rw [hp] at hd
    have := h.waits _ d hd
    omega
  · intro _
    omega
  · rw [hp]
    intro hrunning
    have := h.time _ hrunning
    omega

/-- What a step of brisk processors does, with the bound for the times at which it asks. -/
theorem brisk_step (hI : p.Keeps Brisk I) {s : Side} (ht : Tame (p.step s st))
    (hst : I requests st) :
    Meets (fun c r => (Brisk (requests.get s) c r.1 ∧ I (requests.set s c.request) r.2) ∧
      ∀ elapsed, c = .refused elapsed → elapsed < 27) .none (p.step s st) :=
  (hI.step s hst).refused_of_granted (fun _ _ hP => hP.1.2.1.trans_le hP.1.2.2) ht

/-- The counts of the processors that take part have run ahead of their clocks by `ahead` at
most. -/
def Counted (count : Side → σ → ℕ) (ahead : ℕ) (l : Lanes) (st : σ) : Prop :=
  ∀ i, (l.get i).parked = false → count i st ≤ ahead + (l.get i).clock.toNat

section Counted

variable {count : Side → σ → ℕ} {ahead : ℕ}

/-- A count that adds the costs of the steps stays as it is beside the clock. -/
theorem Counted.turn (h : Counted count ahead l st)
    (hp : (p.step s st).Ends fun r =>
      count s r.2 ≤ count s st + r.1 ∧ count s.partner r.2 ≤ count s.partner st)
    (ht : Lanes.turn p s l st = .ok (l', st')) : Counted count ahead l' st' := by
  obtain ⟨cost, clock, goal, demand, ⟨l₁, hr⟩, hclock, rfl⟩ := turn_eq_ok ht
  obtain ⟨hown, hpartner⟩ := hp.run hr
  dsimp only at hown hpartner
  refine (Side.forall_iff s).2 ⟨fun hrunning => ?_, fun hrunning => ?_⟩
  · rw [PerSide.get_set_self] at hrunning ⊢
    have := h s hrunning
    dsimp only
    omega
  · rw [PerSide.get_set_partner] at hrunning ⊢
    exact hpartner.trans (h _ hrunning)

/-- As long as the lanes do not overtake each other too often, no counter overflows: neither clocks
and times, nor the counts of the processors. -/
theorem Bounded.run_ne_overflow (hI : p.Keeps Brisk I) (hp : p.Sturdy count I) {n : ℕ}
    (h : Bounded horizon k requests l) (hst : I requests st) (hcount : Counted count ahead l st)
    (hroom : horizon + 54 * (k + overtakings p n l st + 2) + 2 * UInt32.size + ahead ≤
      UInt64.size) :
    run p n l st ≠ .error .overflow := by
  induction n generalizing l st requests k with
  | zero => simp [run]
  | succ n ih =>
    have htime : ∀ i, (l.get i).parked = false →
        (l.get i).time + 2 * UInt32.size + ahead < UInt64.size := by
      intro i hi
      have := h.time i hi
      omega
    -- All times lie before the horizon of the run, so neither the choice of a lane nor its turn
    -- fails.
    have hfits : ∀ i, (l.get i).Fits := by
      intro i
      by_cases hi : (l.get i).parked = true
      · exact .inl hi
      · have := htime i (eq_false_of_ne_true hi)
        exact .inr (by omega)
    have hnext := next_of_fits ⟨hfits .main, hfits .sub⟩
    cases hpick : pick l with
    | none =>
      rw [hpick] at hnext
      rw [run_of_next_none hnext]
      simp
    | some s =>
      rw [hpick] at hnext
      have hgo := turnAt?_of_next_some hnext
      have hrunning := (Lane.turnAt?_isSome hgo).1
      have hlate := htime s hrunning
      have htame : Tame (p.step s st) := by
        refine (hp.step s hst).tame ?_
        have hclock := Nat.le_mul_of_pos_right (l.get s).clock.toNat (h.weight s).1
        have hahead := hcount s hrunning
        rw [Lane.time] at hlate
        simp only [UInt32.size] at hlate
        omega
      have hstep := brisk_step hI htame hst
      have hafter : (l.get s).after UInt32.size < UInt64.size := by
        have hw := Nat.mul_le_mul_left UInt32.size (h.weight s).2
        rw [Lane.after_eq]
        omega
      obtain ⟨⟨l', st'⟩, ht⟩ := turn_ok hstep (fun c r hP => Brisk.cost_le hP.1.1) htame hafter
        (h.weight s).1
      obtain ⟨c, cost, ⟨⟨hk, hst'⟩, hc⟩, hs, hpartner, -⟩ := turn_stepped hstep ht
      have hovertaken : overtakings p (n + 1) l st =
          ((l.get s).overtakes (l'.get s)).toNat + overtakings p n l' st' := by
        rw [overtakings, hnext]
        simp only [ht]
      rw [run_of_next_some hnext, ht]
      refine ih (h.turn hgo hs hpartner hk hc) hst' (hcount.turn (hp.count s st) ht) ?_
      rw [hovertaken] at hroom
      rwa [Nat.add_assoc k]

end Counted

/-! ### Runs in which nobody is overtaken -/

/-- Where no turn overtakes, as long as `J` holds, there are no overtakings. -/
theorem overtakings_eq_zero {J : Lanes → σ → Prop}
    (hturn : ∀ {s l st l' st'}, next l = .ok (some s) → turn p s l st = .ok (l', st') → J l st →
      (l.get s).overtakes (l'.get s) = false ∧ J l' st')
    {n : ℕ} (hJ : J l st) : overtakings p n l st = 0 := by
  induction n generalizing l st with
  | zero => rfl
  | succ n ih =>
    unfold overtakings
    cases hn : next l with
    | error f => rfl
    | ok o =>
      cases o with
      | none => rfl
      | some s =>
        cases ht : turn p s l st with
        | error f => simp only [ht]
        | ok r =>
          obtain ⟨hfalse, hJ'⟩ := hturn hn ht hJ
          simp only [ht, hfalse, ih hJ']
          rfl

/-- Nobody is overtaken in a run of one lane. -/
theorem overtakings_of_parked {i : Side} (hpark : (l.get i).parked = true) {n : ℕ} :
    overtakings p n l st = 0 := by
  refine overtakings_eq_zero (J := fun l _ => (l.get i).parked = true) ?_ hpark
  intro s l st l' st' hn ht hpark
  obtain rfl := eq_partner_of_next hpark hn
  refine ⟨Lane.overtakes_eq_false (turnAt?_of_next_some hn) ?_ _, (turn_parked ht _).trans hpark⟩
  rw [Lane.awaits, hpark]
  rfl

/-- Nobody is overtaken where one processor asks for no port. -/
theorem overtakings_of_quiet {i : Side} {K : σ → Prop} (hp : p.Quiet i K)
    (hdemand : (l.get i).demand = none) (hst : K st) {n : ℕ} : overtakings p n l st = 0 := by
  refine overtakings_eq_zero (J := fun l st => (l.get i).demand = none ∧ K st) ?_ ⟨hdemand, hst⟩
  rintro s l st l' st' hn ht ⟨hdemand, hst⟩
  rcases Side.eq_or_eq_partner i s with rfl | rfl
  · -- Its own lane never waits.
    have hown := hp.own st hst
    rw [turn_lone (hown.mono fun _ hr => hr.1)] at ht
    obtain ⟨r, hr, h⟩ := Fault.map_eq_ok ht
    cases h
    rcases (l.get s).turn_moved hown with herror | ⟨cost, st₁, own, ⟨-, hst₁⟩, hok, -, hnone, -⟩
    · rw [herror] at hr
      cases hr
    · cases hr.symm.trans hok
      rw [PerSide.get_set_self]
      refine ⟨?_, hnone, hst₁⟩
      rw [Lane.overtakes, hnone, Option.isSome_none, Bool.and_false]
  · -- So the other one takes steps for itself only.
    have hother := turn_other ht
    obtain ⟨cost, -, -, -, ⟨l₁, hr⟩, -, -⟩ := turn_eq_ok ht
    rw [Side.partner_partner] at hother
    refine ⟨Lane.overtakes_eq_false (turnAt?_of_next_some hn) ?_ _, hother ▸ hdemand,
      (hp.partner st hst).run hr⟩
    rw [Side.partner_partner, Lane.awaits, hdemand, Option.any_none, Bool.and_false]

end Lanes
end TandemZ80
