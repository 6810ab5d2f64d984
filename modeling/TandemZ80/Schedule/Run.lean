import TandemZ80.Schedule.Lane

/-!
# Runs

* `Processors`, the two processors as a run sees them;
* `Lanes.turn`, one step of one lane;
* `Lanes.run`, turns until no lane can go on;
* `Lanes.run_of_next_none` and `Lanes.run_of_next_some`, the equations of a run, and
  `Lanes.run_eq_ok`;
* `Lanes.run_keeps`, what every turn keeps;
* `Lanes.run_le`: more turns than a run takes make no difference.
-/

namespace TandemZ80

/-- Two processors with a common state. -/
structure Processors (σ : Type) where
  /-- Take one step, and give its cost; 0 if the step has to be taken again. -/
  step : Side → σ → Rendezvous.Program (Nat × σ)
  /-- Credit a processor with time that it was not stepped for. -/
  skipIdle : Side → UInt64 → σ → Except Fault σ

namespace Lanes

variable {σ : Type}

/-- Let a lane take one step. -/
def turn (p : Processors σ) (s : Side) (l : Lanes) (st : σ) : Except Fault (Lanes × σ) :=
  match (p.step s st).run (answer s) l with
  | .error f => .error f
  | .ok ((cost, st), l) =>
    match advance s cost l with
    | .error f => .error f
    | .ok l => .ok (l, st)

/-- Take turns until no lane can go on, at most `n` of them. -/
def run (p : Processors σ) (n : Nat) (l : Lanes) (st : σ) : Except Fault (Lanes × σ) :=
  match n with
  | 0 => .error .exhausted
  | n + 1 =>
    match next l with
    | .error f => .error f
    | .ok none => .ok (l, st)
    | .ok (some s) =>
      match turn p s l st with
      | .error f => .error f
      | .ok (l, st) => run p n l st

theorem run_of_next_none {p : Processors σ} {l : Lanes} (h : next l = .ok none) (n : Nat) (st : σ) :
    run p (n + 1) l st = .ok (l, st) := by
  simp only [run, h]

theorem run_of_next_some {p : Processors σ} {l : Lanes} {s : Side} (h : next l = .ok (some s))
    (n : Nat) (st : σ) :
    run p (n + 1) l st = turn p s l st >>= fun r => run p n r.1 r.2 := by
  simp only [run, h]
  cases turn p s l st <;> rfl

/-- A run that returns has come to its end, or has taken a turn. -/
theorem run_eq_ok {p : Processors σ} {n : Nat} {l : Lanes} {st : σ} {r : Lanes × σ}
    (h : run p (n + 1) l st = .ok r) :
    next l = .ok none ∧ r = (l, st) ∨
      ∃ s l' st', next l = .ok (some s) ∧ turn p s l st = .ok (l', st') ∧
      run p n l' st' = .ok r := by
  cases hl : next l with
  | error f =>
    simp only [run, hl] at h
    cases h
  | ok o =>
    cases o with
    | none =>
      rw [run_of_next_none hl] at h
      cases h
      exact .inl ⟨rfl, rfl⟩
    | some s =>
      rw [run_of_next_some hl] at h
      obtain ⟨⟨l', st'⟩, ht, hr⟩ := Fault.bind_eq_ok h
      exact .inr ⟨s, l', st', rfl, ht, hr⟩

/-- What every turn keeps holds at the end of a run, and there no lane can go on. -/
theorem run_keeps {p : Processors σ} {I : Lanes → σ → Prop}
    (hturn : ∀ {s l st l' st'}, next l = .ok (some s) → turn p s l st = .ok (l', st') → I l st →
      I l' st')
    {n : Nat} {l l' : Lanes} {st st' : σ} (h : run p n l st = .ok (l', st')) (hI : I l st) :
    next l' = .ok none ∧ I l' st' := by
  induction n generalizing l st with
  | zero => cases h
  | succ n ih =>
    rcases run_eq_ok h with ⟨hend, hr⟩ | ⟨s, l₁, st₁, hn, ht, hr⟩
    · cases hr
      exact ⟨hend, hI⟩
    · exact ih hr (hturn hn ht hI)

/-- A run that ends within `n` turns ends in the same way within more. -/
theorem run_le {p : Processors σ} {n m : Nat} {l : Lanes} {st : σ} {r : Lanes × σ} (hnm : n ≤ m)
    (h : run p n l st = .ok r) : run p m l st = .ok r := by
  induction n generalizing m l st with
  | zero => cases h
  | succ n ih =>
    obtain ⟨m, rfl⟩ : ∃ k, m = k + 1 := ⟨m - 1, by omega⟩
    rcases run_eq_ok h with ⟨hl, rfl⟩ | ⟨s, l', st', hl, ht, hr⟩
    · exact run_of_next_none hl m st
    · rw [run_of_next_some hl, ht]
      exact ih (Nat.le_of_succ_le_succ hnm) hr

end Lanes
end TandemZ80
