import TandemZ80.Proofs.Schedule.Frame
import TandemZ80.Proofs.Schedule.Prepare

/-!
# Fruitless steps

A step that costs nothing and leaves no request behind gives the scheduler nothing to go by. It
takes back the goal of the lane to where the lane stands, which ends the run for it only as long as
its partner waits for nobody: a lane past its goal is taken along while its partner waits for it,
and stepping it again may well be fruitless again.

* `Lanes.Taken` and `Lanes.taken`, the turns of a run in their order; `Scheduler.taken`, those of a
  run of both processors;
* `Lane.Spent`, a lane that has come to its end, and `Lanes.spent_of_fruitless`;
* `Lanes.taken_again_iff`, when a spent lane gets another turn;
* `Scheduler.fruitless_again_iff`, and `Scheduler.hesitant_again`, a run in which one does.
-/

namespace TandemZ80

namespace Lanes

variable {σ : Type} {p : Processors σ} {i j : Side} {l l' l₁ : Lanes} {st st' : σ}

/-- A turn that is taken: the lane that goes on, and the lanes before its step. -/
structure Taken where
  side : Side
  lanes : Lanes
  deriving DecidableEq

/-- The turns of a run, also of one that a fault or the limit cuts short. -/
def taken (p : Processors σ) : ℕ → Lanes → σ → List Taken
  | 0, _, _ => []
  | n + 1, l, st =>
    match next l with
    | .ok (some s) =>
      ⟨s, l⟩ ::
        match turn p s l st with
        | .ok (l', st') => taken p n l' st'
        | .error _ => []
    | _ => []

/-- The turns of a run, if there are any: the first one, and those of the run that goes on from
it. -/
theorem taken_eq_cons {n : ℕ} {t : Taken} {rest : List Taken} (h : taken p n l st = t :: rest) :
    t.lanes = l ∧ next l = .ok (some t.side) ∧
      (rest = [] ∨
        ∃ l' st', turn p t.side l st = .ok (l', st') ∧ taken p (n - 1) l' st' = rest) := by
  cases n with
  | zero => cases h
  | succ n =>
    rw [taken] at h
    cases hnext : next l with
    | error f =>
      rw [hnext] at h
      cases h
    | ok o =>
      cases o with
      | none =>
        rw [hnext] at h
        cases h
      | some s =>
        rw [hnext] at h
        obtain ⟨rfl, hrest⟩ := List.cons.inj h
        refine ⟨rfl, rfl, ?_⟩
        cases hturn : turn p s l st with
        | error f =>
          simp only [hturn] at hrest
          exact .inl hrest.symm
        | ok r =>
          simp only [hturn] at hrest
          exact .inr ⟨r.1, r.2, rfl, hrest⟩

/-- The turns of a run from one of them on are those of a run that begins there. -/
theorem taken_suffix {n : ℕ} {t : Taken} {earlier later : List Taken}
    (h : taken p n l st = earlier ++ t :: later) :
    ∃ m st', taken p m t.lanes st' = t :: later := by
  induction earlier generalizing n l st with
  | nil =>
    obtain ⟨rfl, -, -⟩ := taken_eq_cons h
    exact ⟨n, st, h⟩
  | cons t₀ earlier ih =>
    obtain ⟨-, -, hrest | ⟨l', st', -, hrest⟩⟩ := taken_eq_cons h
    · cases earlier <;> cases hrest
    · exact ih hrest

/-- Between two turns in a row lies the first one. -/
theorem turn_of_taken {n : ℕ} {later : List Taken}
    (h : taken p n l st = ⟨i, l⟩ :: ⟨j, l₁⟩ :: later) :
    next l = .ok (some i) ∧ ∃ m st', turn p i l st = .ok (l₁, st') ∧
      taken p m l₁ st' = ⟨j, l₁⟩ :: later := by
  obtain ⟨-, hnext, hrest | ⟨l', st', hturn, hrest⟩⟩ := taken_eq_cons h
  · cases hrest
  · obtain ⟨rfl, -, -⟩ := taken_eq_cons hrest
    exact ⟨hnext, n - 1, st', hturn, hrest⟩

end Lanes

namespace Lane

variable {own partner : Lane}

/-- A lane that takes part in a run, waits for nobody, and has come to its goal. -/
structure Spent (l : Lane) : Prop where
  running : l.parked = false
  demand : l.demand = none
  goal : l.goal ≤ l.time

/-- A spent lane goes on only for a partner that waits for it. -/
theorem Spent.awaited (h : own.Spent) (hturn : (own.turnAt? partner).isSome = true) :
    partner.awaits own.time = true := by
  obtain ⟨-, ⟨d, hd, -⟩ | ⟨-, hlt | hawaits⟩⟩ := turnAt?_isSome hturn
  · rw [h.demand] at hd
    cases hd
  · exact absurd hlt (not_lt.2 h.goal)
  · exact hawaits

/-- A partner that waits for a spent lane does not go on before it. -/
theorem Spent.turnAt?_partner (h : own.Spent) (hawaits : partner.awaits own.time = true) :
    partner.turnAt? own = none := by
  rw [Lane.awaits, Bool.and_eq_true, Bool.not_eq_true', Option.any_eq_true] at hawaits
  obtain ⟨hrunning, d, hd, hlt⟩ := hawaits
  have hreach : own.reaches d = false := by
    rw [← Bool.not_eq_true, reaches_iff h.running, h.demand]
    exact not_le.2 (of_decide_eq_true hlt)
  simp [turnAt?, hrunning, hd, hreach]

end Lane

namespace Lanes

variable {σ : Type} {p : Processors σ} {i s : Side} {l l' : Lanes} {st st' : σ}

/-- The turn from `l` to `l'` moved no clock of its lane, and left no request behind. -/
structure Fruitless (i : Side) (l l' : Lanes) : Prop where
  clock : (l'.get i).clock = (l.get i).clock
  demand : (l'.get i).demand = none

/-- The end of a step that costs nothing and leaves no request behind takes back the goal. -/
theorem goal_of_advance_zero (h : advance s 0 l = .ok l') (hdemand : (l'.get s).demand = none) :
    (l'.get s).goal = (l'.get s).time := by
  simp only [advance, Nat.lt_irrefl, if_false] at h
  cases hd : (l.get s).demand.isNone with
  | true =>
    rw [hd] at h
    cases h
    rw [PerSide.get_set_self]
    rfl
  | false =>
    rw [hd] at h
    cases h
    rw [hdemand] at hd
    cases hd

/-- After a fruitless turn the lane is spent. -/
theorem spent_of_fruitless (hnext : next l = .ok (some s)) (hturn : turn p s l st = .ok (l', st'))
    (h : Fruitless s l l') : (l'.get s).Spent := by
  have hparked := (Lane.turnAt?_isSome (turnAt?_of_next_some hnext)).1
  refine ⟨by rw [turn_parked hturn, hparked], h.demand, ?_⟩
  rw [turn_eq] at hturn
  obtain ⟨⟨⟨cost, st₁⟩, l₁⟩, hr, hend⟩ := Fault.bind_eq_ok hturn
  obtain ⟨l₂, ha, hl⟩ := Fault.map_eq_ok hend
  cases hl
  obtain ⟨goal, demand, hl₁⟩ := run_answer_eq_ok hr
  obtain ⟨clock, goal', demand', hclock, hl'⟩ := advance_eq_ok ha
  have hzero : cost = 0 := by
    have hsame := h.clock
    rw [hl', PerSide.get_set_self] at hsame
    rw [show clock = (l.get s).clock from hsame, hl₁, PerSide.get_set_self] at hclock
    exact Nat.left_eq_add.1 hclock
  subst hzero
  exact (goal_of_advance_zero ha h.demand).le

/-- From where it is spent, a lane gets another turn exactly if its partner comes to wait for it. -/
theorem taken_again_iff {n : ℕ} (h : (l.get i).Spent) :
    (∃ t ∈ taken p n l st, t.side = i) ↔
      ∃ t ∈ taken p n l st, (t.lanes.get i.partner).awaits (l.get i).time = true := by
  induction n generalizing l st with
  | zero => simp [taken]
  | succ n ih =>
    cases htaken : taken p (n + 1) l st with
    | nil => simp
    | cons t rest =>
      obtain ⟨rfl, hnext, hrest⟩ := taken_eq_cons htaken
      have hgoes := turnAt?_of_next_some hnext
      simp only [List.mem_cons, exists_eq_or_imp]
      rcases Side.eq_or_eq_partner i t.side with hs | hs
      · -- It is its turn now: its partner waits for it.
        rw [hs] at hgoes
        simp [hs, h.awaited hgoes]
      · -- It is the turn of its partner, which does not wait for it and leaves it as it is.
        have hne : t.side ≠ i := by
          rw [hs]
          exact i.partner_ne
        have hfree : (t.lanes.get i.partner).awaits (t.lanes.get i).time = false := by
          by_contra hawaits
          rw [Bool.not_eq_false] at hawaits
          rw [hs, Side.partner_partner, h.turnAt?_partner hawaits] at hgoes
          cases hgoes
        rcases hrest with rfl | ⟨l', st', hturn, rfl⟩
        · simp [hne, hfree]
        · have hkept := turn_other hturn
          rw [hs, Side.partner_partner] at hkept
          have hspent : (l'.get i).Spent := by
            rw [hkept]
            exact h
          have hagain : (∃ t ∈ taken p n l' st', t.side = i) ↔
              ∃ t ∈ taken p n l' st', (t.lanes.get i.partner).awaits (l'.get i).time = true :=
            ih hspent
          rw [hkept] at hagain
          simp only [hne, hfree, Bool.false_eq_true, false_or]
          exact hagain

end Lanes

namespace Scheduler

variable {σ : Type} {p : Processors σ} {weights : PerSide UInt64} {budget : UInt32} {s : Scheduler}
  {st : σ}

/-- The turns of a run of both processors. -/
def taken (p : Processors σ) (weights : PerSide UInt64) (budget : UInt32) (s : Scheduler) (st : σ) :
    List Lanes.Taken :=
  match s.prepare weights budget with
  | .error _ => []
  | .ok s' => Lanes.taken p turnLimit s'.lanes st

theorem taken_eq_lanes {earlier later : List Lanes.Taken} {t : Lanes.Taken}
    (h : s.taken p weights budget st = earlier ++ t :: later) :
    ∃ l, Lanes.taken p turnLimit l st = earlier ++ t :: later := by
  unfold taken at h
  cases hs : s.prepare weights budget with
  | error f =>
    rw [hs] at h
    cases earlier <;> cases h
  | ok s' =>
    rw [hs] at h
    exact ⟨s'.lanes, h⟩

/-- After a fruitless turn of any processors in any run of both, the lane gets another turn exactly
if from then on its partner comes to wait for it. -/
theorem fruitless_again_iff {i j : Side} {l l₁ : Lanes} {earlier later : List Lanes.Taken}
    (h : s.taken p weights budget st = earlier ++ ⟨i, l⟩ :: ⟨j, l₁⟩ :: later)
    (hfruitless : Lanes.Fruitless i l l₁) :
    (∃ t ∈ ⟨j, l₁⟩ :: later, t.side = i) ↔
      ∃ t ∈ ⟨j, l₁⟩ :: later, (t.lanes.get i.partner).awaits (l₁.get i).time = true := by
  obtain ⟨l₀, hl₀⟩ := taken_eq_lanes h
  obtain ⟨n, st₀, htaken⟩ := Lanes.taken_suffix hl₀
  obtain ⟨hnext, m, st₁, hturn, hrest⟩ := Lanes.turn_of_taken htaken
  rw [← hrest]
  exact Lanes.taken_again_iff (Lanes.spent_of_fruitless hnext hturn hfruitless)

/-- The first step of the main processor is fruitless, its later ones take 10 T-states. Those of the
sub one touch a shared port after 7. -/
def hesitant : Processors Bool where
  step
    | .main, started => .done (if started then 10 else 0, true)
    | .sub, started => .ask (.sync 7) fun granted => .done (if granted then 10 else 0, started)
  skipIdle _ _ started := .ok started

/-- Lanes that have not moved, with a goal for the main one. -/
def unmoved (goal : ℕ) : Lanes :=
  ⟨⟨0, 1, goal, none, false⟩, ⟨0, 1, 5, none, false⟩⟩

/-- The main processor goes on after its fruitless step, since the sub one is refused. -/
theorem hesitant_again :
    ∃ later, initial.taken hesitant ClockRatio.oneToOne.weights 5 false =
        [] ++ ⟨.main, unmoved 5⟩ :: ⟨.sub, unmoved 0⟩ :: later ∧
      Lanes.Fruitless .main (unmoved 5) (unmoved 0) ∧
      ∃ t ∈ ⟨.sub, unmoved 0⟩ :: later, t.side = .main := by
  have htaken : initial.taken hesitant ClockRatio.oneToOne.weights 5 false =
      [] ++ ⟨.main, unmoved 5⟩ :: ⟨.sub, unmoved 0⟩ ::
        (initial.taken hesitant ClockRatio.oneToOne.weights 5 false).drop 2 := by
    decide +kernel
  have hfruitless : Lanes.Fruitless .main (unmoved 5) (unmoved 0) := ⟨rfl, rfl⟩
  refine ⟨_, htaken, hfruitless, (fruitless_again_iff htaken hfruitless).2 ?_⟩
  decide +kernel

end Scheduler
end TandemZ80
