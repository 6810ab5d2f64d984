import TandemZ80.Proofs.Schedule.Bookkeeping

/-!
# Processors without influence on each other

The lane that goes on is found by a comparison of both, so the order in which two processors take
their steps depends on both. Where they ask for no ports and change nothing of each other, the steps
of one, and their order among themselves, do not depend on the other one all the same.

* `Processors.Apart`, processors of which one is watched, by a relation of states in which that one
  cannot be told apart;
* `Lanes.reach_own`, the turns that come before the next one of the watched lane, and
  `Lanes.run_apart`, two runs with the same watched lane;
* `Scheduler.Agree` and `Scheduler.execBoth_apart`.
-/

namespace TandemZ80

open Rendezvous

variable {σ : Type}

/-- Processors of which the one on side `s` is watched. `V` relates states that differ in its
partner only, and `I` holds of all of them. -/
structure Processors.Apart (p : Processors σ) (s : Side) (I : σ → Prop) (V : σ → σ → Prop) :
    Prop where
  symm : ∀ st st', V st st' → V st' st
  inside : ∀ st st', V st st' → I st
  own : ∀ st st', V st st' →
    Dialogue.Alike (· = .overflow) (fun r r' => r.1 = r'.1 ∧ V r.2 r'.2) (p.step s st)
      (p.step s st')
  partner : ∀ st st', V st st' → (p.step s.partner st).Ends fun r => V r.2 st'

/-- Lanes that are equal take turns alike. -/
theorem Lane.turn_alike {V : σ → σ → Prop} {d d' : Program (ℕ × σ)}
    (h : Dialogue.Alike (· = .overflow) (fun r r' => r.1 = r'.1 ∧ V r.2 r'.2) d d') (l : Lane) :
    Fault.Alike (fun r r' => r.1 = r'.1 ∧ V r.2 r'.2) (l.turn d) (l.turn d') := by
  unfold turn
  refine (h.run answer l).bind ?_
  rintro ⟨⟨cost, st⟩, own⟩ ⟨⟨cost', st'⟩, own'⟩ ⟨⟨hcost, hV⟩, hown⟩
  cases hcost
  cases hown
  exact .bind (.refl (fun _ => rfl) _) fun a a' ha => .ok ⟨ha, hV⟩

namespace Lanes

variable {p : Processors σ} {most : ℕ} {I : σ → Prop} {V : σ → σ → Prop} {s : Side} {n n' : ℕ}
  {l l' l₁ l₁' : Lanes} {st st' st₁ st₁' : σ}

/-- A turn that returns has moved its own lane, which waits for nobody after it. -/
theorem turn_lone_eq_ok (hp : p.Lone most I) {i : Side} (hst : I st)
    (ht : turn p i l st = .ok (l₁, st₁)) :
    ∃ own, (l.get i).turn (p.step i st) = .ok (own, st₁) ∧ own.demand = none ∧
      l₁ = l.set i own := by
  have hstep := hp.step i st hst
  rw [turn_lone (hstep.mono fun _ hP => hP.1.1)] at ht
  rcases (l.get i).turn_moved hstep with herror | ⟨cost, st₂, own, -, hok, -, hdemand, -⟩
  · rw [herror] at ht
    cases ht
  · rw [hok] at ht
    cases ht
    exact ⟨own, hok, hdemand, rfl⟩

/-- The state after a turn of the partner cannot be told apart from what the state before it could
not be told apart from. -/
theorem turn_partner (hp : p.Apart s I V) (hV : V st st')
    (ht : turn p s.partner l st = .ok (l₁, st₁)) : V st₁ st' := by
  rw [turn_eq] at ht
  obtain ⟨⟨⟨cost, st₂⟩, l₂⟩, hr, hend⟩ := Fault.bind_eq_ok ht
  obtain ⟨l₃, -, hl⟩ := Fault.map_eq_ok hend
  cases hl
  exact (hp.partner st st' hV).run hr

/-- A run comes by turns of the partner to where the watched lane goes on, or to its end. -/
theorem reach_own (hlone : p.Lone most I) (hp : p.Apart s I V) (hl : Free l) (hV : V st st')
    {r : Lanes × σ} (hr : run p n l st = .ok r) :
    ∃ m l₁ st₁, m ≤ n ∧ run p m l₁ st₁ = .ok r ∧ Free l₁ ∧ l₁.get s = l.get s ∧ V st₁ st' ∧
      (next l₁ = .ok none ∨ next l₁ = .ok (some s)) := by
  induction n generalizing l st with
  | zero => cases hr
  | succ n ih =>
    rcases run_eq_ok hr with ⟨hn, -⟩ | ⟨i, l₂, st₂, hn, ht, hr₂⟩
    · exact ⟨n + 1, l, st, le_refl _, hr, hl, rfl, hV, .inl hn⟩
    · rcases Side.eq_or_eq_partner s i with rfl | rfl
      · exact ⟨n + 1, l, st, le_refl _, hr, hl, rfl, hV, .inr hn⟩
      · obtain ⟨own, -, hdemand, rfl⟩ := turn_lone_eq_ok hlone (hp.inside st st' hV) ht
        obtain ⟨m, l₁, st₁, hm, hrun, hfree, hown, hV₁, hnext⟩ :=
          ih (hl.set _ hdemand) (turn_partner hp hV ht) hr₂
        refine ⟨m, l₁, st₁, hm.trans (Nat.le_succ n), hrun, hfree, hown.trans ?_, hV₁, hnext⟩
        have hother := PerSide.get_set_partner l s.partner own
        rwa [Side.partner_partner] at hother

/-- Where the watched lane goes on, a run with the same one is not at its end. -/
theorem next_ne_none (hl : Free l) (hl' : Free l') (hown : l'.get s = l.get s)
    (hn : next l = .ok (some s)) : next l' ≠ .ok none := by
  intro hn'
  obtain ⟨hparked, hlt⟩ := hl.time_lt_goal hn
  rcases hl'.goal_le_time hn' s with hparked' | hle
  · rw [hown, hparked] at hparked'
    cases hparked'
  · rw [hown] at hle
    exact absurd hlt (not_lt.2 hle)

theorem eq_of_next {i : Side} (h : next l = .ok none ∨ next l = .ok (some s))
    (hn : next l = .ok (some i)) : i = s := by
  rw [hn] at h
  simpa using h

/-- Both watched lanes take their turn alike. -/
theorem turn_own_apart (hlone : p.Lone most I) (hp : p.Apart s I V) (hl : Free l) (hl' : Free l')
    (hown : l'.get s = l.get s) (hV : V st st') (ht : turn p s l st = .ok (l₁, st₁))
    (ht' : turn p s l' st' = .ok (l₁', st₁')) :
    Free l₁ ∧ Free l₁' ∧ l₁'.get s = l₁.get s ∧ V st₁ st₁' := by
  obtain ⟨own, hok, hdemand, rfl⟩ := turn_lone_eq_ok hlone (hp.inside _ _ hV) ht
  obtain ⟨own', hok', hdemand', rfl⟩ :=
    turn_lone_eq_ok hlone (hp.inside _ _ (hp.symm _ _ hV)) ht'
  have halike := Lane.turn_alike (hp.own _ _ hV) (l.get s)
  rw [hown] at hok'
  rw [hok, hok'] at halike
  cases halike with
  | ok h =>
    obtain ⟨rfl, hV₁⟩ := h
    refine ⟨hl.set _ hdemand, hl'.set _ hdemand', ?_, hV₁⟩
    rw [PerSide.get_set_self, PerSide.get_set_self]

/-- Two runs that return, with the same watched lane and in states that cannot be told apart, end
with the same watched lane and in such states again, whatever the partner does in each. -/
theorem run_apart (hlone : p.Lone most I) (hp : p.Apart s I V) (hl : Free l) (hl' : Free l')
    (hown : l'.get s = l.get s) (hV : V st st') (hr : run p n l st = .ok (l₁, st₁))
    (hr' : run p n' l' st' = .ok (l₁', st₁')) : l₁'.get s = l₁.get s ∧ V st₁ st₁' := by
  -- On the turns of the first run. In both the partner goes on until the watched lane is next,
  -- which may take any number of turns, and so the induction is a strong one.
  induction n using Nat.strong_induction_on generalizing n' l l' st st' with
  | _ n ih =>
    obtain ⟨m, k, u, hm, hrun, hfree, hk, hV, hnext⟩ := reach_own hlone hp hl hV hr
    obtain ⟨m', k', u', -, hrun', hfree', hk', hV', hnext'⟩ :=
      reach_own hlone hp hl' (hp.symm _ _ hV) hr'
    have hV := hp.symm _ _ hV'
    have hsame : k'.get s = k.get s := hk'.trans (hown.trans hk.symm)
    cases m with
    | zero => cases hrun
    | succ m =>
      cases m' with
      | zero => cases hrun'
      | succ m' =>
        rcases run_eq_ok hrun with ⟨hn, hend⟩ | ⟨i, k₂, u₂, hn, ht, hrest⟩ <;>
          rcases run_eq_ok hrun' with ⟨hn', hend'⟩ | ⟨i', k₂', u₂', hn', ht', hrest'⟩
        · cases hend
          cases hend'
          exact ⟨hsame, hV⟩
        · obtain rfl := eq_of_next hnext' hn'
          exact absurd hn (next_ne_none hfree' hfree hsame.symm hn')
        · obtain rfl := eq_of_next hnext hn
          exact absurd hn' (next_ne_none hfree hfree' hsame hn)
        · obtain rfl := eq_of_next hnext hn
          obtain rfl := eq_of_next hnext' hn'
          obtain ⟨hfree₂, hfree₂', hsame₂, hV₂⟩ :=
            turn_own_apart hlone hp hfree hfree' hsame hV ht ht'
          exact ih m (Nat.lt_of_succ_le hm) hfree₂ hfree₂' hsame₂ hV₂ hrest hrest'

end Lanes

namespace Scheduler

variable {p : Processors σ} {I : σ → Prop} {V : σ → σ → Prop} {i : Side} {s s' t t' : Scheduler}
  {st st' : σ} {weights : PerSide UInt64} {budget : UInt32}

/-- Schedulers with the same counters for one processor. -/
structure Agree (i : Side) (s t : Scheduler) : Prop where
  clock : t.clocks.get i = s.clocks.get i
  target : t.targets.get i = s.targets.get i
  weights : t.weights = s.weights

theorem Agree.prepare (h : Agree i s t) (hs : s.prepare weights budget = .ok s')
    (ht : t.prepare weights budget = .ok t') : Agree i s' t' := by
  obtain ⟨hw, hc⟩ := prepare_eq_ok hs
  obtain ⟨hw', hc'⟩ := prepare_eq_ok ht
  refine ⟨by rw [hc, hc', h.clock], UInt64.toNat_inj.1 ?_, hw'.trans hw.symm⟩
  obtain ⟨s₁, hreweigh, hextend⟩ := Fault.bind_eq_ok hs
  obtain ⟨t₁, hreweigh', hextend'⟩ := Fault.bind_eq_ok ht
  rw [extend_targets hextend, extend_targets hextend']
  by_cases hsame : weights = s.weights
  · rw [reweigh_self hsame.symm] at hreweigh
    rw [reweigh_self (h.weights.trans hsame.symm)] at hreweigh'
    cases hreweigh
    cases hreweigh'
    rw [h.target]
  · rw [reweigh_targets hreweigh hsame, reweigh_targets hreweigh' (by rwa [h.weights]), time, time,
      h.clock]

theorem Agree.lanes (h : Agree i s t) : t.lanes.get i = s.lanes.get i := by
  rw [get_lanes, get_lanes, lane, lane, h.clock, h.target, h.weights]

/-- A run of processors that keep to themselves returns, unless a counter overflows. -/
theorem execBoth_lone (hlone : p.Lone UInt64.size I) (hst : I st) (ratio : ClockRatio)
    (hfits : s.execBoth p ratio.weights budget st ≠ .error .overflow) :
    ∃ s₁ l st₁, s.prepare ratio.weights budget = .ok s₁ ∧
      Lanes.run p turnLimit s₁.lanes st = .ok (l, st₁) ∧
      s.execBoth p ratio.weights budget st =
        .ok (l.main.clock - s₁.clocks.main, { s₁ with clocks := l.map Lane.clock }, st₁) ∧
      Lanes.Free s₁.lanes := by
  cases hs : s.prepare ratio.weights budget with
  | error f =>
    obtain rfl := prepare_error hs
    rw [execBoth_eq, hs] at hfits
    exact absurd rfl hfits
  | ok s₁ =>
    rw [execBoth_of_prepare hs] at hfits ⊢
    -- No processor is further beyond its target than a counter can count.
    have hpaced : Lanes.Paced UInt64.size s₁.targets s₁.lanes := paced_lanes fun i => by
      have hpos : 0 < (s₁.weights.get i).toNat := by
        rw [(prepare_eq_ok hs).1]
        exact (weightFits_bounds (weightFits_ratio ratio i)).1
      have hlt := Nat.mul_lt_mul_of_pos_right (s₁.clocks.get i).toNat_lt hpos
      exact hlt.trans_le (Nat.le_add_left _ _)
    rcases finish_lone hlone hpaced hst s₁ with herror | ⟨l, st₁, hrun, hfinish, -⟩
    · exact absurd herror hfits
    · exact ⟨s₁, l, st₁, rfl, hrun, hfinish, hpaced.free⟩

/-- Two runs of both processors, of which one cannot be told apart in the two. If no counter
overflows they both return, and that one still cannot be told apart. -/
theorem execBoth_apart (hlone : p.Lone UInt64.size I) (hp : p.Apart i I V) (h : Agree i s t)
    (hV : V st st') (ratio : ClockRatio)
    (hfits : s.execBoth p ratio.weights budget st ≠ .error .overflow)
    (hfits' : t.execBoth p ratio.weights budget st' ≠ .error .overflow) :
    ∃ moved s₁ st₁ moved' t₁ st₁', s.execBoth p ratio.weights budget st = .ok (moved, s₁, st₁) ∧
      t.execBoth p ratio.weights budget st' = .ok (moved', t₁, st₁') ∧ Agree i s₁ t₁ ∧
      V st₁ st₁' := by
  obtain ⟨s₁, l, st₁, hs, hrun, hok, hfree⟩ := execBoth_lone hlone (hp.inside _ _ hV) ratio hfits
  obtain ⟨t₁, l', st₁', ht, hrun', hok', hfree'⟩ :=
    execBoth_lone hlone (hp.inside _ _ (hp.symm _ _ hV)) ratio hfits'
  have hagree := h.prepare hs ht
  obtain ⟨hown, hV₁⟩ := Lanes.run_apart hlone hp hfree hfree' hagree.lanes hV hrun hrun'
  refine ⟨_, _, st₁, _, _, st₁', hok, hok', ⟨?_, hagree.target, hagree.weights⟩, hV₁⟩
  have hclock : ∀ l : Lanes, (l.map Lane.clock).get i = (l.get i).clock := by
    intro l
    cases i <;> rfl
  rw [hclock, hclock, hown]

end Scheduler
end TandemZ80
