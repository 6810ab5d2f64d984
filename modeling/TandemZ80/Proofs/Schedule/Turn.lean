import TandemZ80.Proofs.Schedule.Contract
import TandemZ80.Proofs.Transcript

/-!
# One turn of a lane

Everything that a turn does to the lanes, in one statement for all processors that make contact at
most once in a step.

* `Lane.after`, `Lane.demandAfter` and `Lane.Heeds`: the times of contact and what comes of it;
* `Lanes.Underway`, the lanes in the middle of a step, kept by every answer;
* `Lane.Stepped`, a lane before and after a turn, and `Lanes.turn_stepped`;
* `Lanes.next_eq_ok` and what follows it, the lane that is chosen;
* `Lanes.Tracks`, which ties what a lane waits for to the request that is left over;
* `Lanes.grants`, the times at which ports are granted in a run.
-/

namespace TandemZ80

open Rendezvous

theorem PerSide.eq_both {α : Type} {p : PerSide α} {a : α} (h : ∀ i, p.get i = a) :
    p = .both a := by
  show PerSide.mk (p.get .main) (p.get .sub) = _
  rw [h, h]
  rfl

theorem Side.forall_iff (s : Side) {P : Side → Prop} : (∀ i, P i) ↔ P s ∧ P s.partner := by
  refine ⟨fun h => ⟨h s, h s.partner⟩, fun ⟨hs, hp⟩ i => ?_⟩
  cases s <;> cases i
  · exact hs
  · exact hp
  · exact hp
  · exact hs

theorem Side.eq_or_eq_partner (s i : Side) : i = s ∨ i = s.partner := by
  cases s <;> cases i <;> simp [Side.partner]

namespace Lane

/-- The time so many T-states after that of the lane. -/
def after (l : Lane) (elapsed : ℕ) : ℕ := (l.clock.toNat + elapsed) * l.weight.toNat

theorem after_eq (l : Lane) (elapsed : ℕ) : l.after elapsed = l.time + elapsed * l.weight.toNat :=
  Nat.add_mul _ _ _

theorem time_le_after (l : Lane) (elapsed : ℕ) : l.time ≤ l.after elapsed := by
  rw [after_eq]
  exact Nat.le_add_right _ _

theorem after_le_after (l : Lane) {a b : ℕ} (h : a ≤ b) : l.after a ≤ l.after b :=
  Nat.mul_le_mul_right _ (Nat.add_le_add_left h _)

/-- What the lane waits for after its contact. -/
def demandAfter (l : Lane) : Contact → Option ℕ
  | .none => l.demand
  | .granted _ => none
  | .refused elapsed => some (l.after elapsed)

/-- A port is granted exactly if the partner has come as far. -/
def Heeds (l partner : Lane) : Contact → Prop
  | .none => True
  | .granted elapsed => partner.reaches (l.after elapsed) = true
  | .refused elapsed => partner.reaches (l.after elapsed) = false

/-- The times at which a port was granted to the lane, by what was said in its step. -/
def grants (l : Lane) (said : List ((q : Call) × Reply q)) : List ℕ :=
  said.filterMap fun
    | ⟨.sync elapsed, true⟩ => some (l.after elapsed)
    | _ => none

/-- The time of a grant, if that is what came of the contact. -/
def granted (l : Lane) : Contact → List ℕ
  | .granted elapsed => [l.after elapsed]
  | _ => []

theorem reaches_iff {l : Lane} (hl : l.parked = false) (t : ℕ) :
    l.reaches t = true ↔ t ≤ l.demand.getD l.time := by
  rw [reaches, hl, Bool.false_or, decide_eq_true_iff]

end Lane

namespace Lanes

variable {σ α : Type} {s : Side}

theorem ahead_of_lt {l : Lane} {n : ℕ} (h : l.after n < UInt64.size) :
    ahead l n = .ok (l.after n) := by
  rw [Lane.after_eq] at h ⊢
  simp only [ahead, Fault.require_of h]
  rfl

theorem ahead_of_not_lt {l : Lane} {n : ℕ} (h : ¬l.after n < UInt64.size) :
    ahead l n = .error .overflow := by
  rw [Lane.after_eq] at h
  simp only [ahead, Fault.require_of_not h]
  rfl

/-- The answer to a lane that wants its run to end, if the time of the end fits. -/
theorem answer_stop {l : Lanes} {n : ℕ} (h : (l.get s).after n < UInt64.size) :
    answer s (.stop n) l =
      .ok ((), l.set s { l.get s with goal := min (l.get s).goal ((l.get s).after n) }) := by
  simp only [answer, ahead_of_lt h]
  rfl

/-- The answer to a lane that asks for a shared port, if the time of the access fits. -/
theorem answer_sync {l : Lanes} {n : ℕ} (h : (l.get s).after n < UInt64.size) :
    answer s (.sync n) l =
      .ok ((l.get s.partner).reaches ((l.get s).after n), l.set s { l.get s with
        demand := if (l.get s.partner).reaches ((l.get s).after n) then none
          else some ((l.get s).after n) }) := by
  simp only [answer, ahead_of_lt h]
  show (if (l.get s.partner).reaches ((l.get s).after n) = true then _ else _) = _
  cases (l.get s.partner).reaches ((l.get s).after n) <;> rfl

theorem answer_error {l : Lanes} {n : ℕ} (h : ¬(l.get s).after n < UInt64.size) :
    answer s (.stop n) l = .error .overflow ∧ answer s (.sync n) l = .error .overflow := by
  simp only [answer, ahead_of_not_lt h]
  exact ⟨rfl, rfl⟩

/-- The lanes in the middle of a step that began in `l₀`, after the contact `c`. -/
structure Underway (s : Side) (l₀ : Lanes) (c : Contact) (l : Lanes) : Prop where
  own : ∃ goal ≤ (l₀.get s).goal,
    l.get s = { l₀.get s with goal := goal, demand := (l₀.get s).demandAfter c }
  partner : l.get s.partner = l₀.get s.partner
  heeds : (l₀.get s).Heeds (l₀.get s.partner) c

namespace Underway

variable {l₀ l l' : Lanes} {c : Contact}

theorem start (s : Side) (l : Lanes) : Underway s l .none l :=
  ⟨⟨(l.get s).goal, le_refl _, rfl⟩, rfl, trivial⟩

theorem after_eq (h : Underway s l₀ c l) (n : ℕ) : (l.get s).after n = (l₀.get s).after n := by
  obtain ⟨goal, -, ho⟩ := h.own
  rw [ho]
  rfl

theorem stop (h : Underway s l₀ c l) {n : ℕ} {x : Unit}
    (ha : answer s (.stop n) l = .ok (x, l')) : Underway s l₀ c l' := by
  obtain ⟨goal, hgoal, ho⟩ := h.own
  by_cases hn : (l.get s).after n < UInt64.size
  · rw [answer_stop hn] at ha
    cases ha
    refine ⟨⟨min goal ((l.get s).after n), le_trans (min_le_left _ _) hgoal, ?_⟩, ?_, h.heeds⟩
    · rw [PerSide.get_set_self, ho]
    · rw [PerSide.get_set_partner, h.partner]
  · rw [(answer_error hn).1] at ha
    cases ha

theorem sync (h : Underway s l₀ .none l) {n : ℕ} {x : Bool}
    (ha : answer s (.sync n) l = .ok (x, l')) :
    Underway s l₀ (if x then .granted n else .refused n) l' := by
  obtain ⟨goal, hgoal, ho⟩ := h.own
  by_cases hn : (l.get s).after n < UInt64.size
  · rw [answer_sync hn, h.after_eq, h.partner] at ha
    cases hr : (l₀.get s.partner).reaches ((l₀.get s).after n) <;> rw [hr] at ha <;> cases ha
    · refine ⟨⟨goal, hgoal, ?_⟩, ?_, hr⟩
      · rw [PerSide.get_set_self, ho]
        rfl
      · rw [PerSide.get_set_partner, h.partner]
    · refine ⟨⟨goal, hgoal, ?_⟩, ?_, hr⟩
      · rw [PerSide.get_set_self, ho]
        rfl
      · rw [PerSide.get_set_partner, h.partner]
  · rw [(answer_error hn).2] at ha
    cases ha

/-- Whatever the rest of the step says, the lanes stay those of a step that is under way. -/
theorem run {P : Contact → α → Prop} {d : Program α} (hd : Meets P c d) (h : Underway s l₀ c l)
    {a : α} (hr : d.run (answer s) l = .ok (a, l')) :
    ∃ c', P c' a ∧ Underway s l₀ c' l' ∧
      (l₀.get s).granted c' =
        (l₀.get s).granted c ++ (l₀.get s).grants (d.transcript (answer s) l) := by
  induction d generalizing c l with
  | done b =>
    cases hr
    exact ⟨c, hd, h, (List.append_nil _).symm⟩
  | fail f => cases hr
  | ask q next ih =>
    obtain ⟨⟨x, l₁⟩, hq, hr⟩ := Fault.bind_eq_ok hr
    rw [Dialogue.transcript_ask hq]
    cases q with
    | stop n => exact ih () hd (h.stop hq) hr
    | sync n =>
      obtain ⟨rfl, hgranted, hrefused⟩ := hd
      have h₁ := h.sync hq
      cases x with
      | true =>
        obtain ⟨c', hP, hu, hg⟩ := ih true hgranted h₁ hr
        exact ⟨c', hP, hu, hg⟩
      | false =>
        obtain ⟨c', hP, hu, hg⟩ := ih false hrefused h₁ hr
        exact ⟨c', hP, hu, hg⟩

end Underway

end Lanes

/-- A lane before and after a turn in which the contact `c` was made and which cost `cost`. -/
structure Lane.Stepped (own partner : Lane) (c : Contact) (cost : ℕ) (own' : Lane) : Prop where
  weight : own'.weight = own.weight
  parked : own'.parked = own.parked
  clock : own'.clock.toNat = own.clock.toNat + cost
  goal : own'.goal ≤ own.goal ∨ cost = 0 ∧ own.demandAfter c = none ∧ own'.goal = own.time
  demand : own'.demand = if 0 < cost then none else own.demandAfter c
  heeds : own.Heeds partner c

namespace Lane

variable {own partner own' : Lane} {c : Contact} {cost : ℕ} {want : Option ℕ}

theorem Stepped.time_eq (h : own.Stepped partner c cost own') : own'.time = own.after cost := by
  rw [time, h.clock, h.weight]
  rfl

/-- A lane that waits does so at the time of the request that is left over. -/
theorem Stepped.demand_eq (h : own.Stepped partner c cost own') (hk : Orderly want c cost)
    (hd : own.demand = want.map own.after) : own'.demand = c.request.map own'.after := by
  rw [h.demand]
  cases c with
  | none =>
    obtain ⟨hw, -⟩ := hk
    obtain rfl : want = none := hw
    simp [demandAfter, hd, Contact.request]
  | granted elapsed => simp [demandAfter, Contact.request]
  | refused elapsed =>
    obtain ⟨-, hcost⟩ := hk
    obtain rfl : cost = 0 := hcost
    have hafter : own'.after elapsed = own.after elapsed := by
      rw [after, h.clock, h.weight]
      rfl
    simp [demandAfter, Contact.request, hafter]

/-- A lane that can go on either waits no longer, or has time to make up, or holds its partner
up. -/
theorem turnAt?_isSome (h : (own.turnAt? partner).isSome = true) :
    own.parked = false ∧
      ((∃ d, own.demand = some d ∧ partner.reaches d = true) ∨
        own.demand = none ∧ (own.time < own.goal ∨ partner.awaits own.time = true)) := by
  unfold turnAt? at h
  split at h
  · cases h
  · next hparked =>
    refine ⟨eq_false_of_ne_true hparked, ?_⟩
    cases hd : own.demand with
    | some d =>
      simp only [hd] at h
      split at h
      · next hreach => exact .inl ⟨d, rfl, hreach⟩
      · cases h
    | none =>
      simp only [hd] at h
      split at h
      · next hgo =>
        rw [Bool.or_eq_true, decide_eq_true_iff] at hgo
        exact .inr ⟨rfl, hgo⟩
      · cases h

/-- Of two lanes that cannot go on neither waits. -/
theorem demand_eq_none {a b : Lane} (ha : a.parked = false) (hb : b.parked = false)
    (hab : a.turnAt? b = none) (hba : b.turnAt? a = none) : a.demand = none := by
  by_contra hne
  obtain ⟨d, hd⟩ := Option.ne_none_iff_exists'.1 hne
  have hlt : b.demand.getD b.time < d := by
    by_contra hle
    have hreach : b.reaches d = true := (reaches_iff hb d).2 (not_lt.1 hle)
    simp [turnAt?, ha, hd, hreach] at hab
  cases hd' : b.demand with
  | none =>
    -- The partner would have to catch up.
    rw [hd', Option.getD_none] at hlt
    simp [turnAt?, hb, hd', awaits, ha, hd, hlt] at hba
  | some d' =>
    -- The partner waits at an earlier time, so it may go on.
    rw [hd', Option.getD_some] at hlt
    have hreach : a.reaches d' = true := (reaches_iff ha d').2 (by rw [hd]; exact hlt.le)
    simp [turnAt?, hb, hd', hreach] at hba

end Lane

namespace Lanes

variable {σ : Type} {p : Processors σ} {s : Side} {l₀ l l' : Lanes} {st st' : σ}

theorem Underway.advance {c : Contact} {cost : ℕ} (h : Underway s l₀ c l)
    (ha : advance s cost l = .ok l') :
    (l₀.get s).Stepped (l₀.get s.partner) c cost (l'.get s) ∧
      l'.get s.partner = l₀.get s.partner := by
  obtain ⟨goal, hgoal, ho⟩ := h.own
  simp only [Lanes.advance, ho] at ha
  by_cases hcost : 0 < cost
  · rw [if_pos hcost] at ha
    cases hclock : Counter.ofNat ((l₀.get s).clock.toNat + cost) with
    | error f =>
      rw [hclock] at ha
      cases ha
    | ok clock =>
      rw [hclock] at ha
      cases ha
      refine ⟨?_, by rw [PerSide.get_set_partner, h.partner]⟩
      rw [PerSide.get_set_self]
      exact ⟨rfl, rfl, (Counter.ofNat_eq_ok.1 hclock).symm, .inl hgoal, (if_pos hcost).symm,
        h.heeds⟩
  · obtain rfl : cost = 0 := by omega
    rw [if_neg hcost] at ha
    by_cases hd : (l₀.get s).demandAfter c = none
    · simp only [hd, Option.isNone_none] at ha
      cases ha
      refine ⟨?_, by rw [PerSide.get_set_partner, h.partner]⟩
      rw [PerSide.get_set_self]
      exact ⟨rfl, rfl, rfl, .inr ⟨rfl, hd, rfl⟩, hd.symm, h.heeds⟩
    · rw [← Option.isNone_iff_eq_none, Bool.not_eq_true] at hd
      simp only [hd] at ha
      cases ha
      refine ⟨?_, h.partner⟩
      rw [ho]
      exact ⟨rfl, rfl, rfl, .inl hgoal, rfl, h.heeds⟩

/-- The times at which ports are granted in one turn. -/
def turnGrants (p : Processors σ) (s : Side) (l : Lanes) (st : σ) : List ℕ :=
  (l.get s).grants ((p.step s st).transcript (answer s) l)

/-- A turn steps the own lane, by the contact that was made, and leaves that of the partner. -/
theorem turn_stepped {P : Contact → ℕ × σ → Prop} (hp : Meets P .none (p.step s st))
    (ht : turn p s l st = .ok (l', st')) :
    ∃ c cost, P c (cost, st') ∧ (l.get s).Stepped (l.get s.partner) c cost (l'.get s) ∧
      l'.get s.partner = l.get s.partner ∧ turnGrants p s l st = (l.get s).granted c := by
  unfold turn at ht
  cases hr : (p.step s st).run (answer s) l with
  | error f =>
    rw [hr] at ht
    cases ht
  | ok r =>
    obtain ⟨⟨cost, st₁⟩, l₁⟩ := r
    obtain ⟨c, hP, hu, hg⟩ := (Underway.start s l).run hp hr
    rw [hr] at ht
    cases ha : Lanes.advance s cost l₁ with
    | error f =>
      simp only [ha] at ht
      cases ht
    | ok l₂ =>
      simp only [ha] at ht
      cases ht
      obtain ⟨hstep, hpartner⟩ := hu.advance ha
      exact ⟨c, cost, hP, hstep, hpartner, hg.symm⟩

/-! ### The choice of a lane -/

theorem next_eq_ok {o : Option Side} (h : next l = .ok o) :
    (l.main.Fits ∧ l.sub.Fits) ∧ pick l = o := by
  unfold next at h
  by_cases hf : l.main.Fits ∧ l.sub.Fits
  · rw [Fault.require_of hf] at h
    exact ⟨hf, Except.ok.inj h⟩
  · rw [Fault.require_of_not hf] at h
    cases h

theorem next_of_fits (h : l.main.Fits ∧ l.sub.Fits) : next l = .ok (pick l) := by
  unfold next
  rw [Fault.require_of h]
  rfl

theorem turnAt?_of_next_none (h : next l = .ok none) (s : Side) :
    (l.get s).turnAt? (l.get s.partner) = none := by
  have hpick := (next_eq_ok h).2
  unfold pick at hpick
  cases hm : l.main.turnAt? l.sub <;> cases hs : l.sub.turnAt? l.main <;>
    simp only [hm, hs] at hpick
  · cases s
    · exact hm
    · exact hs
  · cases hpick
  · cases hpick
  · split at hpick <;> cases hpick

theorem turnAt?_of_next_some (h : next l = .ok (some s)) :
    ((l.get s).turnAt? (l.get s.partner)).isSome = true := by
  have hpick := (next_eq_ok h).2
  unfold pick at hpick
  cases hm : l.main.turnAt? l.sub <;> cases hs : l.sub.turnAt? l.main <;>
    simp only [hm, hs] at hpick
  · cases hpick
  · cases hpick
    exact Option.isSome_iff_exists.2 ⟨_, hs⟩
  · cases hpick
    exact Option.isSome_iff_exists.2 ⟨_, hm⟩
  · cases s
    · exact Option.isSome_iff_exists.2 ⟨_, hm⟩
    · exact Option.isSome_iff_exists.2 ⟨_, hs⟩

/-- When a run of both lanes is through, neither waits. -/
theorem demand_of_next_none (hrunning : ∀ i, (l.get i).parked = false) (h : next l = .ok none)
    (i : Side) : (l.get i).demand = none := by
  have hpartner := turnAt?_of_next_none h i.partner
  rw [Side.partner_partner] at hpartner
  exact Lane.demand_eq_none (hrunning i) (hrunning _) (turnAt?_of_next_none h i) hpartner

/-! ### Requests and grants -/

/-- A lane waits at the time of the request that is left over. -/
def Tracks (requests : PerSide (Option ℕ)) (l : Lanes) : Prop :=
  ∀ i, (l.get i).demand = (requests.get i).map (l.get i).after

theorem Tracks.turn {requests : PerSide (Option ℕ)} (h : Tracks requests l) {c : Contact} {cost : ℕ}
    (hs : (l.get s).Stepped (l.get s.partner) c cost (l'.get s))
    (hp : l'.get s.partner = l.get s.partner) (hk : Orderly (requests.get s) c cost) :
    Tracks (requests.set s c.request) l' := by
  refine (Side.forall_iff s).2 ⟨?_, ?_⟩
  · rw [PerSide.get_set_self]
    exact hs.demand_eq hk (h s)
  · rw [PerSide.get_set_partner, hp]
    exact h _

/-- The times at which ports are granted in a run, in the order of the grants. -/
def grants (p : Processors σ) : ℕ → Lanes → σ → List ℕ
  | 0, _, _ => []
  | n + 1, l, st =>
    match next l with
    | .ok (some s) =>
      turnGrants p s l st ++
        match turn p s l st with
        | .ok (l', st') => grants p n l' st'
        | .error _ => []
    | _ => []

end Lanes
end TandemZ80
