import TandemZ80.Proofs.Schedule.Turn

/-!
# Every run ends

A brisk turn moves a clock, or leaves a lane waiting that did not wait before: a lane that waits is
not refused a second time. Clocks are counters of 64 bits, so a run either returns within a fixed
number of turns, or a counter overflows.

* `Processors.Sturdy`, processors that fail only where one of them has counted too far;
* `Lane.left` and `Lanes.left`, the turns that are left; `Stepped.left_lt`;
* `turn_error`, the only fault of such processors, and `turn_ok`, turns that have none;
* `Lanes.run_ends`.
-/

namespace TandemZ80

open Rendezvous

/-- The processors may count their T-states, by `count`: then a step adds its cost at most, and a
step fails only if the count does not hold another 27. -/
structure Processors.Sturdy {σ : Type} (p : Processors σ) (count : Side → σ → ℕ)
    (I : PerSide (Option ℕ) → σ → Prop) : Prop where
  step : ∀ {requests : PerSide (Option ℕ)} {st : σ} (i : Side), I requests st →
    Rendezvous.Sturdy (UInt64.size ≤ count i st + 27) (p.step i st)
  count : ∀ (i : Side) (st : σ), (p.step i st).Ends fun r =>
    count i r.2 ≤ count i st + r.1 ∧ count i.partner r.2 ≤ count i.partner st

/-- Processors that never fail need not count. -/
theorem Processors.Reliable.sturdy {σ : Type} {p : Processors σ} {I : PerSide (Option ℕ) → σ → Prop}
    (h : p.Reliable I) : p.Sturdy (fun _ _ => 0) I where
  step i hst := (h.step i hst).sturdy _
  count _ _ := (Dialogue.Ends.unconditional _).mono fun _ _ => ⟨Nat.zero_le _, le_refl 0⟩

namespace Lane

variable {own partner own' : Lane} {c : Contact} {cost : ℕ} {want : Option ℕ}

/-- A bound for the turns that a lane has left: two for each T-state that its clock can still count,
and one if it can begin to wait. -/
def left (l : Lane) : ℕ := 2 * (UInt64.size - l.clock.toNat) + if l.demand = none then 1 else 0

/-- A lane goes on waiting only for as long as it is not chosen. -/
theorem Stepped.demand_of_refused {elapsed : ℕ}
    (h : own.Stepped partner (.refused elapsed) cost own')
    (hk : Orderly want (.refused elapsed) cost) (hd : own.demand = want.map own.after)
    (hgo : (own.turnAt? partner).isSome = true) : own.demand = none := by
  rcases (turnAt?_isSome hgo).2 with ⟨d, hdemand, hreach⟩ | ⟨hnone, -⟩
  · rw [hdemand] at hd
    obtain ⟨w, hw, rfl⟩ := Option.map_eq_some_iff.1 hd.symm
    obtain rfl := hk.1 w hw
    have hrefused : partner.reaches (own.after w) = false := h.heeds
    rw [hreach] at hrefused
    cases hrefused
  · exact hnone

/-- Every turn uses up one that was left. -/
theorem Stepped.left_lt (h : own.Stepped partner c cost own') (hk : Brisk want c cost)
    (hd : own.demand = want.map own.after) (hgo : (own.turnAt? partner).isSome = true) :
    own'.left < own.left := by
  have hlt := own'.clock.toNat_lt
  rw [h.clock] at hlt
  by_cases hc : ∃ elapsed, c = .refused elapsed
  · -- The clock stands still, but the lane begins to wait, which it did not do before.
    obtain ⟨elapsed, rfl⟩ := hc
    obtain rfl : cost = 0 := hk.2
    have hnone := h.demand_of_refused hk.orderly hd hgo
    have hwaits : own'.demand ≠ none := by
      rw [h.demand]
      exact Option.some_ne_none _
    rw [left, left, h.clock, if_pos hnone, if_neg hwaits]
    omega
  · -- The clock moves on, which makes up for a lane that waits no longer.
    have hcost : 0 < cost := by
      cases c with
      | none => exact hk.2.1
      | granted elapsed => exact Nat.zero_lt_of_lt hk.2.1
      | refused elapsed => exact (hc ⟨elapsed, rfl⟩).elim
    have hnone : own'.demand = none := by rw [h.demand, if_pos hcost]
    rw [left, left, h.clock, if_pos hnone, UInt64.size]
    split <;> omega

end Lane

namespace Lanes

variable {σ α : Type} {p : Processors σ} {I : PerSide (Option ℕ) → σ → Prop}
  {requests : PerSide (Option ℕ)} {s : Side} {l l' : Lanes} {st st' : σ}

/-- A bound for the turns that a run has left. -/
def left (l : Lanes) : ℕ := l.main.left + l.sub.left

theorem left_eq (l : Lanes) (s : Side) : l.left = (l.get s).left + (l.get s.partner).left := by
  cases s
  · rfl
  · exact Nat.add_comm _ _

/-! ### Faults -/

theorem next_error {f : Fault} (h : next l = .error f) : f = .overflow := by
  by_cases hf : l.main.Fits ∧ l.sub.Fits
  · rw [next_of_fits hf] at h
    cases h
  · unfold next at h
    rw [Fault.require_of_not hf] at h
    cases h
    rfl

theorem run_error {F : Prop} {d : Program α} (hd : Sturdy F d) {f : Fault}
    (h : d.run (answer s) l = .error f) : f = .overflow := by
  induction d generalizing l with
  | done a => cases h
  | fail g =>
    cases h
    exact hd.1
  | ask q next ih =>
    rw [Dialogue.run_ask] at h
    cases q with
    | sync n =>
      by_cases hn : (l.get s).after n < UInt64.size
      · rw [answer_sync hn] at h
        cases hx : (l.get s.partner).reaches ((l.get s).after n) <;> rw [hx] at h
        · exact ih false hd.2.2 h
        · exact ih true hd.2.1 h
      · rw [(answer_error hn).2] at h
        cases h
        rfl
    | stop n =>
      by_cases hn : (l.get s).after n < UInt64.size
      · rw [answer_stop hn] at h
        exact ih () hd.2 h
      · rw [(answer_error hn).1] at h
        cases h
        rfl

theorem advance_error {cost : ℕ} {f : Fault} (h : advance s cost l = .error f) : f = .overflow := by
  unfold advance at h
  by_cases hcost : 0 < cost
  · simp only [if_pos hcost, Counter.ofNat] at h
    by_cases hfit : (l.get s).clock.toNat + cost < UInt64.size
    · rw [if_pos hfit] at h
      cases h
    · rw [if_neg hfit] at h
      cases h
      rfl
  · simp only [if_neg hcost] at h
    split at h <;> cases h

theorem turn_error {F : Prop} (hp : Sturdy F (p.step s st)) {f : Fault}
    (h : turn p s l st = .error f) : f = .overflow := by
  unfold turn at h
  cases hr : (p.step s st).run (answer s) l with
  | error g =>
    rw [hr] at h
    cases h
    exact run_error hp hr
  | ok r =>
    obtain ⟨⟨cost, st₁⟩, l₁⟩ := r
    rw [hr] at h
    cases ha : advance s cost l₁ with
    | error g =>
      simp only [ha] at h
      cases h
      exact advance_error ha
    | ok l₂ =>
      simp only [ha] at h
      cases h

/-! ### Turns without a fault -/

theorem run_ok {d : Program α} (hd : Tame d) (hroom : (l.get s).after UInt32.size < UInt64.size) :
    ∃ r, d.run (answer s) l = .ok r := by
  induction d generalizing l with
  | done a => exact ⟨(a, l), rfl⟩
  | fail f => exact hd.elim
  | ask q next ih =>
    rw [Dialogue.run_ask]
    cases q with
    | sync n =>
      have hn : (l.get s).after n < UInt64.size := ((l.get s).after_le_after hd.1.le).trans_lt hroom
      rw [answer_sync hn]
      cases (l.get s.partner).reaches ((l.get s).after n)
      · exact ih false hd.2.2 (by rwa [PerSide.get_set_self])
      · exact ih true hd.2.1 (by rwa [PerSide.get_set_self])
    | stop n =>
      have hn : (l.get s).after n < UInt64.size := ((l.get s).after_le_after hd.1.le).trans_lt hroom
      rw [answer_stop hn]
      exact ih () hd.2 (by rwa [PerSide.get_set_self])

theorem advance_ok {cost : ℕ} (h : (l.get s).clock.toNat + cost < UInt64.size) :
    ∃ l', advance s cost l = .ok l' := by
  unfold advance
  by_cases hcost : 0 < cost
  · simp only [if_pos hcost, Counter.ofNat, if_pos h]
    exact ⟨_, rfl⟩
  · simp only [if_neg hcost]
    split
    · exact ⟨_, rfl⟩
    · exact ⟨_, rfl⟩

/-- A turn of a lane that is far from the end of its counters has no fault. -/
theorem turn_ok {P : Contact → ℕ × σ → Prop} (hp : Meets P .none (p.step s st))
    (hP : ∀ c r, P c r → r.1 ≤ 27) (ht : Tame (p.step s st))
    (hroom : (l.get s).after UInt32.size < UInt64.size) (hw : 1 ≤ (l.get s).weight.toNat) :
    ∃ r, turn p s l st = .ok r := by
  obtain ⟨⟨⟨cost, st₁⟩, l₁⟩, hr⟩ := run_ok ht hroom
  obtain ⟨c, hc, hu, -⟩ := (Underway.start s l).run hp hr
  obtain ⟨goal, -, ho⟩ := hu.own
  have hclock : (l₁.get s).clock = (l.get s).clock := by rw [ho]
  have hfit : (l₁.get s).clock.toNat + cost < UInt64.size := by
    have hcost := hP c _ hc
    have hle := Nat.mul_le_mul_left ((l.get s).clock.toNat + UInt32.size) hw
    rw [hclock]
    rw [Lane.after] at hroom
    simp only [UInt32.size] at hroom hle
    omega
  obtain ⟨l₂, ha⟩ := advance_ok hfit
  exact ⟨(l₂, st₁), by simp only [turn, hr, ha]⟩

/-! ### Runs -/

/-- A run of brisk processors that fail at a full count only returns within the turns that are left,
unless a counter overflows. -/
theorem run_ends {count : Side → σ → ℕ} (hI : p.Keeps Brisk I) (hp : p.Sturdy count I) {n : ℕ}
    (h : Tracks requests l) (hst : I requests st) (hn : l.left < n) :
    (∃ r, run p n l st = .ok r) ∨ run p n l st = .error .overflow := by
  induction n generalizing l st requests with
  | zero => omega
  | succ n ih =>
    cases ho : next l with
    | error f =>
      obtain rfl := next_error ho
      exact .inr (by rw [run, ho])
    | ok o =>
      cases o with
      | none => exact .inl ⟨(l, st), run_of_next_none ho n st⟩
      | some s =>
        rw [run_of_next_some ho]
        cases ht : turn p s l st with
        | error f =>
          obtain rfl := turn_error (hp.step s hst) ht
          exact .inr rfl
        | ok r =>
          obtain ⟨l', st'⟩ := r
          obtain ⟨c, cost, ⟨hk, hst'⟩, hs, hpartner, -⟩ := turn_stepped (hI.step s hst) ht
          have hlt := hs.left_lt hk (h s) (turnAt?_of_next_some ho)
          have hleft : l'.left < l.left := by
            rw [left_eq l' s, left_eq l s, hpartner]
            omega
          have hn' : l'.left < n := by omega
          exact ih (h.turn hs hpartner hk.orderly) hst' hn'

end Lanes
end TandemZ80
