import TandemZ80.Proofs.Schedule.Prepare
import TandemZ80.Proofs.Schedule.Turn

/-!
# The order of accesses to shared ports

No processor touches a shared port after its partner has touched one at a later time. Every lane has
an earliest time at which it can still touch a port; the time of the last grant lies before both of
them, and no turn takes either of them back.

* `Lane.earliest`, and what a turn does to it;
* `Lanes.Ordered`, the invariant of a run, with `Ordered.turn` and `Ordered.run`;
* `Scheduler.execAll` and `Scheduler.allGrants`, a sequence of runs; `grants_in_order`.
-/

namespace TandemZ80

open Rendezvous

namespace Lane

theorem granted_pairwise (l : Lane) (c : Contact) : (l.granted c).Pairwise (· ≤ ·) := by
  cases c <;> simp [granted]

/-- No port is touched by the lane before this time. -/
def earliest (l : Lane) : ℕ := l.demand.getD l.time

section Turn

variable {own partner own' : Lane} {c : Contact} {cost : ℕ} {want : Option ℕ}

theorem earliest_le_after (hd : own.demand = want.map own.after) {elapsed : ℕ}
    (hw : ∀ w ∈ want, w = elapsed) : own.earliest ≤ own.after elapsed := by
  rw [earliest, hd]
  cases want with
  | none => exact own.time_le_after elapsed
  | some w =>
    obtain rfl := hw w rfl
    exact le_refl _

/-- A port is granted no sooner than the lane could touch one, and no later than its partner can. -/
theorem Stepped.grant_bounds {elapsed : ℕ} (h : own.Stepped partner (.granted elapsed) cost own')
    (hk : Orderly want (.granted elapsed) cost) (hd : own.demand = want.map own.after)
    (hp : partner.parked = false) :
    own.earliest ≤ own.after elapsed ∧ own.after elapsed ≤ own'.earliest ∧
      own.after elapsed ≤ partner.earliest := by
  obtain ⟨hw, hcost⟩ := hk
  refine ⟨earliest_le_after hd hw, ?_, (reaches_iff hp _).1 h.heeds⟩
  have hnone : own'.demand = none := by
    rw [h.demand]
    split <;> rfl
  rw [earliest, hnone, Option.getD_none, h.time_eq]
  exact own.after_le_after hcost

/-- A turn does not take back the earliest time of an access. -/
theorem Stepped.earliest_le (h : own.Stepped partner c cost own') (hk : Orderly want c cost)
    (hd : own.demand = want.map own.after) (hp : partner.parked = false) :
    own.earliest ≤ own'.earliest := by
  have hd' := h.demand_eq hk hd
  cases c with
  | none =>
    obtain rfl : want = none := hk.1
    have hnone : own.demand = none := hd
    have hnone' : own'.demand = none := hd'
    rw [earliest, earliest, hnone, hnone', Option.getD_none, Option.getD_none, h.time_eq]
    exact own.time_le_after cost
  | granted elapsed =>
    obtain ⟨h₁, h₂, -⟩ := h.grant_bounds hk hd hp
    exact h₁.trans h₂
  | refused elapsed =>
    obtain ⟨hw, hcost⟩ := hk
    obtain rfl : cost = 0 := hcost
    have hd'' : own'.earliest = own.after elapsed := by
      rw [earliest, h.demand]
      rfl
    rw [hd'']
    exact earliest_le_after hd hw

end Turn

end Lane

namespace Lanes

variable {σ : Type} {p : Processors σ} {I : PerSide (Option ℕ) → σ → Prop}
  {weights : PerSide UInt64} {requests : PerSide (Option ℕ)} {last : ℕ} {l l' : Lanes} {st st' : σ}

/-- The lanes of a run in which the requests `requests` are left over, and in which the last grant
was at the time `last`. -/
structure Ordered (weights : PerSide UInt64) (requests : PerSide (Option ℕ)) (last : ℕ)
    (l : Lanes) : Prop where
  running : ∀ i, (l.get i).parked = false
  weight : ∀ i, (l.get i).weight = weights.get i
  tracks : Tracks requests l
  last_le : ∀ i, last ≤ (l.get i).earliest

/-- A turn keeps the order: what it grants is granted after the last grant. -/
theorem Ordered.turn (h : Ordered weights requests last l) {s : Side} {c : Contact} {cost : ℕ}
    (hs : (l.get s).Stepped (l.get s.partner) c cost (l'.get s))
    (hp : l'.get s.partner = l.get s.partner) (hk : Orderly (requests.get s) c cost) :
    ∃ last', Ordered weights (requests.set s c.request) last' l' ∧ last ≤ last' ∧
      ∀ t ∈ (l.get s).granted c, last ≤ t ∧ t ≤ last' := by
  have hearliest : ∀ i, (l.get i).earliest ≤ (l'.get i).earliest := by
    refine (Side.forall_iff s).2 ⟨?_, ?_⟩
    · exact hs.earliest_le hk (h.tracks s) (h.running _)
    · rw [hp]
  have key : ∀ last', (∀ i, last' ≤ (l'.get i).earliest) →
      Ordered weights (requests.set s c.request) last' l' := by
    intro last' hlast'
    refine ⟨(Side.forall_iff s).2 ⟨?_, ?_⟩, (Side.forall_iff s).2 ⟨?_, ?_⟩,
      h.tracks.turn hs hp hk, hlast'⟩
    · rw [hs.parked, h.running]
    · rw [hp, h.running]
    · rw [hs.weight, h.weight]
    · rw [hp, h.weight]
  cases c with
  | granted elapsed =>
    -- The grant becomes the new bound: both lanes have come as far.
    obtain ⟨h₁, h₂, h₃⟩ := hs.grant_bounds hk (h.tracks s) (h.running _)
    have hle : last ≤ (l.get s).after elapsed := (h.last_le s).trans h₁
    refine ⟨(l.get s).after elapsed, key _ ((Side.forall_iff s).2 ⟨h₂, ?_⟩), hle, ?_⟩
    · rw [hp]
      exact h₃
    · intro t ht
      obtain rfl := List.mem_singleton.1 ht
      exact ⟨hle, le_refl _⟩
  | none =>
    exact ⟨last, key _ fun i => (h.last_le i).trans (hearliest i),
      le_refl _, by simp [Lane.granted]⟩
  | refused elapsed =>
    exact ⟨last, key _ fun i => (h.last_le i).trans (hearliest i),
      le_refl _, by simp [Lane.granted]⟩

/-- When no lane can go on, no request is left over. -/
theorem Ordered.requests_eq (h : Ordered weights requests last l) (hn : next l = .ok none) :
    requests = .both none := by
  refine PerSide.eq_both fun i => ?_
  have hd := demand_of_next_none h.running hn i
  rw [h.tracks, Option.map_eq_none_iff] at hd
  exact hd

/-- The grants of a run come in order, after all grants before it, and when the run is through no
request is left over. -/
theorem Ordered.run (hI : p.Keeps Orderly I) {n : ℕ} (h : Ordered weights requests last l)
    (hst : I requests st) (hr : Lanes.run p n l st = .ok (l', st')) :
    (last :: grants p n l st).Pairwise (· ≤ ·) ∧
      ∃ last', Ordered weights (.both none) last' l' ∧ I (.both none) st' ∧ last ≤ last' ∧
        ∀ t ∈ grants p n l st, t ≤ last' := by
  induction n generalizing l st requests last with
  | zero => cases hr
  | succ n ih =>
    rcases run_eq_ok hr with ⟨hn, heq⟩ | ⟨s, l₁, st₁, hn, ht, hr⟩
    · have hg : grants p (n + 1) l st = [] := by rw [grants, hn]
      obtain rfl := h.requests_eq hn
      cases heq
      rw [hg]
      exact ⟨List.pairwise_singleton _ _, last, h, hst, le_refl _, by simp⟩
    · obtain ⟨c, cost, ⟨hk, hst₁⟩, hs, hp, hgrant⟩ := turn_stepped (hI.step s hst) ht
      obtain ⟨last₁, h₁, hle₁, hc⟩ := h.turn hs hp hk
      obtain ⟨hsorted, last', h', hst', hle', hrest⟩ := ih h₁ hst₁ hr
      have hg : grants p (n + 1) l st = (l.get s).granted c ++ grants p n l₁ st₁ := by
        rw [grants, hn, ← hgrant]
        simp only [ht]
      rw [List.pairwise_cons] at hsorted
      rw [hg]
      refine ⟨?_, last', h', hst', hle₁.trans hle', ?_⟩
      · rw [List.pairwise_cons, List.pairwise_append]
        refine ⟨fun t hmem => ?_, (l.get s).granted_pairwise c, hsorted.2, fun a ha b hb => ?_⟩
        · rcases List.mem_append.1 hmem with hmem | hmem
          · exact (hc t hmem).1
          · exact hle₁.trans (hsorted.1 t hmem)
        · exact (hc a ha).2.trans (hsorted.1 b hb)
      · intro t hmem
        rcases List.mem_append.1 hmem with hmem | hmem
        · exact (hc t hmem).2.trans hle'
        · exact hrest t hmem

end Lanes
namespace Scheduler

variable {σ : Type} {p : Processors σ} {I : PerSide (Option ℕ) → σ → Prop}
  {weights : PerSide UInt64} {s s' : Scheduler} {st st' : σ}

/-- The times at which ports are granted in one run of both processors. -/
def grants (p : Processors σ) (weights : PerSide UInt64) (budget : UInt32) (s : Scheduler)
    (st : σ) : List ℕ :=
  match s.prepare weights budget with
  | .error _ => []
  | .ok s' => Lanes.grants p turnLimit s'.lanes st

/-- Run both processors once for each budget. -/
def execAll (p : Processors σ) (weights : PerSide UInt64) :
    List UInt32 → Scheduler → σ → Except Fault (Scheduler × σ)
  | [], s, st => .ok (s, st)
  | budget :: budgets, s, st => do
    let (_, s, st) ← s.execBoth p weights budget st
    execAll p weights budgets s st

/-- The times at which ports are granted in all runs, in the order of the grants. -/
def allGrants (p : Processors σ) (weights : PerSide UInt64) : List UInt32 → Scheduler → σ → List ℕ
  | [], _, _ => []
  | budget :: budgets, s, st =>
    s.grants p weights budget st ++
      match s.execBoth p weights budget st with
      | .error _ => []
      | .ok (_, s, st) => allGrants p weights budgets s st

/-- Between two runs no request is left over, and both processors stand after the last grant. -/
theorem execBoth_in_order (hI : p.Keeps Orderly I) (hst : I (.both none) st) {last : ℕ}
    (hlast : ∀ i, last ≤ s.time weights i) {budget : UInt32} {moved : UInt64}
    (h : s.execBoth p weights budget st = .ok (moved, s', st')) :
    (last :: s.grants p weights budget st).Pairwise (· ≤ ·) ∧ I (.both none) st' ∧
      ∃ last', last ≤ last' ∧ (∀ t ∈ s.grants p weights budget st, t ≤ last') ∧
        ∀ i, last' ≤ s'.time weights i := by
  rw [execBoth_eq] at h
  obtain ⟨s₁, hs, h⟩ := Fault.bind_eq_ok h
  obtain ⟨hw, hc⟩ := prepare_eq_ok hs
  have hbegin : Lanes.Ordered weights (.both none) last s₁.lanes := by
    refine ⟨fun i => ?_, fun i => ?_, fun i => ?_, fun i => ?_⟩
    · rw [get_lanes]; rfl
    · rw [get_lanes, ← hw]; rfl
    · rw [get_lanes]; cases i <;> rfl
    · rw [get_lanes]
      show last ≤ (s₁.clocks.get i).toNat * (s₁.weights.get i).toNat
      rw [hw, hc]
      exact hlast i
  have hgrants : s.grants p weights budget st = Lanes.grants p turnLimit s₁.lanes st := by
    rw [grants, hs]
  obtain ⟨l', hr, rfl, -⟩ := finish_eq_ok h
  obtain ⟨hsorted, last', hend, hst', hle, hgr⟩ := hbegin.run hI hst hr
  rw [hgrants]
  refine ⟨hsorted, hst', last', hle, hgr, fun i => ?_⟩
  -- Nobody waits any more, so the earliest time of an access is the time of the lane.
  have hearliest := hend.last_le i
  have hnone : (l'.get i).demand = none := by rw [hend.tracks i]; cases i <;> rfl
  rw [Lane.earliest, hnone, Option.getD_none, Lane.time, hend.weight] at hearliest
  cases i <;> exact hearliest

/-- In any number of runs at the same rates, with any budgets, the ports are granted in order: no
processor touches a shared port after its partner has touched one at a later time. -/
theorem grants_in_order (hI : p.Keeps Orderly I) (hst : I (.both none) st) (ratio : ClockRatio)
    (budgets : List UInt32) (s : Scheduler) {r : Scheduler × σ}
    (h : execAll p ratio.weights budgets s st = .ok r) :
    (allGrants p ratio.weights budgets s st).Pairwise (· ≤ ·) := by
  have key : ∀ last, (∀ i, last ≤ s.time ratio.weights i) →
      (last :: allGrants p ratio.weights budgets s st).Pairwise (· ≤ ·) := by
    induction budgets generalizing s st with
    | nil =>
      intro last _
      exact List.pairwise_singleton _ _
    | cons budget budgets ih =>
      intro last hlast
      unfold execAll at h
      unfold allGrants
      obtain ⟨⟨moved, s₁, st₁⟩, he, h⟩ := Fault.bind_eq_ok h
      simp only [he]
      obtain ⟨hsorted, hst₁, last₁, hle, hgr, hlast₁⟩ := execBoth_in_order hI hst hlast he
      have hrest := ih hst₁ s₁ h last₁ hlast₁
      rw [List.pairwise_cons] at hsorted hrest
      rw [List.pairwise_cons, List.pairwise_append]
      refine ⟨fun t hmem => ?_, hsorted.2, hrest.2,
        fun a ha b hb => (hgr a ha).trans (hrest.1 b hb)⟩
      rcases List.mem_append.1 hmem with hmem | hmem
      · exact hsorted.1 t hmem
      · exact hle.trans (hrest.1 t hmem)
  exact (List.pairwise_cons.1 (key 0 fun i => Nat.zero_le _)).2

/-- Two runs of the metronome. -/
theorem metronome_in_order :
    ∃ r, execAll metronome ClockRatio.oneToOne.weights [20, 15] initial () = .ok r ∧
      (allGrants metronome ClockRatio.oneToOne.weights [20, 15] initial ()).Pairwise (· ≤ ·) := by
  have hreturns :
      (execAll metronome ClockRatio.oneToOne.weights [20, 15] initial ()).toOption.isSome =
        true := by
    decide +kernel
  cases h : execAll metronome ClockRatio.oneToOne.weights [20, 15] initial () with
  | error f =>
    rw [h] at hreturns
    cases hreturns
  | ok r =>
    exact ⟨r, rfl, grants_in_order metronome_brisk.orderly onBeat_none .oneToOne [20, 15] initial h⟩

end Scheduler
end TandemZ80
