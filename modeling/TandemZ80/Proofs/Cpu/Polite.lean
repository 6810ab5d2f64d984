import TandemZ80.Proofs.Cpu.Built

/-!
# What no instruction does

The T-states of a processor are counted at the end of a step and nowhere else, so that no part of an
instruction moves the count. No instruction asks its partner for a port of which the bus has not
said that it is shared. And none speaks to its partner of a time that does not fit 32 bits. All of
it holds whatever the bus answers.

* `Bus.Polite`, a program that keeps to the first two; `Exec.Built.polite`, parts of instructions
  do;
* `Exec.Built.asks`, what a part of an instruction asks, and `Exec.Built.fits`, times that fit;
* `Cpu.perform_polite`, the same for every body of a step, and `Cpu.step_ends`, the count of a step.
-/

namespace TandemZ80

variable {α β : Type}

theorem Ticks.add_eq_ok {a b c : Ticks} :
    a.add b = .ok c ↔ c.count.toNat = a.count.toNat + b.count.toNat := by
  unfold add
  constructor
  · intro h
    obtain ⟨n, hn, rfl⟩ := Fault.map_eq_ok h
    exact (Counter.add_eq_ok.1 hn).symm
  · intro h
    rw [Counter.add_eq_ok.2 h.symm]
    rfl

theorem Ticks.size_le_of_add_eq_error {a b : Ticks} {f : Fault} (h : a.add b = .error f) :
    UInt64.size ≤ a.count.toNat + b.count.toNat := by
  by_contra hlt
  unfold add Counter.add Counter.ofNat at h
  rw [if_pos (Nat.lt_of_not_le hlt)] at h
  cases h

theorem Ticks.toNat_ofCost {cost : ℕ} (h : cost < UInt32.size) :
    (ofCost (UInt32.ofNat cost)).count.toNat = cost := by
  rw [ofCost, UInt32.toNat_toUInt64, UInt32.toNat_ofNat_of_lt' h]

/-! ### Programs -/

/-- Whether the answer to a call shows that a port is shared. -/
def Bus.Call.reveals : (q : Call) → Reply q → Bool
  | .isShared _, shared => shared
  | _, _ => false

namespace Bus

/-- However the program is answered, it ends with the count `ticks`, and it asks for a port only
once it has been told that a port is shared. `told` is whether that has happened before. -/
inductive Polite (ticks : Ticks) : Bool → Program (Option α × Cpu) → Prop
  | done {told : Bool} (o : Option α) {t : Cpu} (h : t.ticks = ticks) :
      Polite ticks told (.done (o, t))
  | fail {told : Bool} (f : Fault) : Polite ticks told (.fail f)
  | ask {told : Bool} {q : Call} {next : Reply q → Program (Option α × Cpu)} (hq : q.asks = false)
      (h : ∀ x, Polite ticks (told || q.reveals x) (next x)) : Polite ticks told (.ask q next)
  | sync (e : ℕ) {next : Bool → Program (Option α × Cpu)}
      (h : ∀ granted, Polite ticks true (next granted)) : Polite ticks true (.ask (.sync e) next)

variable {ticks : Ticks} {told : Bool} {d : Program (Option α × Cpu)}

theorem Polite.ends (hd : Polite ticks told d) : d.Ends fun r => r.2.ticks = ticks := by
  induction hd with
  | done o h => exact .done h
  | fail e => exact .fail e
  | ask _ _ ih => exact .ask _ ih
  | sync e _ ih => exact .ask _ ih

theorem Polite.bind {f : Option α × Cpu → Program (Option β × Cpu)} (hd : Polite ticks told d)
    (hf : ∀ o t told, t.ticks = ticks → Polite ticks told (f (o, t))) :
    Polite ticks told (d >>= f) := by
  induction hd with
  | done o h => exact hf o _ _ h
  | fail e => exact .fail e
  | ask hq _ ih => exact .ask hq ih
  | sync e _ ih => exact .sync e ih

end Bus

/-! ### Parts of instructions -/

/-- A part of an instruction that is polite in every state. -/
def Exec.Polite (m : Exec α) : Prop := ∀ (told : Bool) (s : Cpu), Bus.Polite s.ticks told (m s)

open Exec

theorem Cpu.IgnoresTicks.ticks_eq {f : Cpu → Cpu} (h : IgnoresTicks f) (s : Cpu) :
    (f s).ticks = s.ticks := by
  have hticks := congrArg Cpu.ticks (h s s.ticks)
  exact hticks

theorem Exec.Polite.bind {m : Exec α} {f : α → Exec β} (h : Polite m) (hf : ∀ a, Polite (f a)) :
    Polite (m >>= f) := by
  intro told s
  refine (h told s).bind fun o t told' ht => ?_
  cases o with
  | none => exact .done none ht
  | some a => exact ht ▸ hf a told' t

/-- A port is asked for only if it is shared. -/
theorem Exec.Polite.rendezvous (elapsed : ℕ) (port : UInt16) :
    Polite (Exec.rendezvous elapsed port) := by
  intro told s
  rw [rendezvous_eq]
  refine .ask rfl fun shared => ?_
  split
  · next hshared =>
    have htold : (told || (Bus.Call.isShared port).reveals shared) = true := by
      rw [hshared]
      exact Bool.or_true told
    rw [htold]
    split
    · exact .sync elapsed fun granted => .done _ rfl
    · exact .fail _
  · exact .done _ rfl

theorem Exec.Built.polite {rights : Right → Prop} {m : Exec α} (h : Built rights m) : Polite m := by
  induction h with
  | pure a => exact fun _ _ => .done _ rfl
  | bind _ _ ih ihf => exact ih.bind ihf
  | regs _ ih => exact fun told s => ih s.regs told s
  | window _ ih => exact fun told s => ih s.window told s
  | modify hf => exact fun _ s => .done _ (hf.ignoresTicks.ticks_eq s)
  | replace f _ _ _ ih =>
    exact fun told s => ih (f s.regs).1 told { s with regs := (f s.regs).2 }
  | call hq => exact fun _ _ => .ask (Bus.Call.asks_of_ordinary hq) fun _ => .done _ rfl
  | acknowledge _ => exact fun _ _ => .ask rfl fun _ => .done _ rfl
  | rendezvous elapsed port => exact .rendezvous elapsed port
  | overflow => exact fun _ _ => .fail _

/-! ### Questions -/

/-- The times that the partner hears of fit 32 bits. -/
def Bus.Call.fits : Bus.Call → Prop
  | .sync elapsed => elapsed < UInt32.size
  | .stop clocks => clocks < UInt32.size
  | _ => True

theorem Bus.Call.fits_of_ordinary {q : Bus.Call} (h : q.ordinary = true) : q.fits := by
  cases q with
  | stop clocks =>
    obtain rfl : clocks = 0 := of_decide_eq_true h
    exact (by decide : 0 < UInt32.size)
  | sync e => cases h
  | _ => trivial

/-- All that a part of an instruction asks: ordinary calls, ports at times that fit, and who
interrupts, if it has the right to. -/
theorem Exec.Built.asks {rights : Right → Prop} {P : Bus.Call → Prop} {m : Exec α}
    (h : Built rights m) (hordinary : ∀ q : Bus.Call, q.ordinary = true → P q)
    (hsync : ∀ e < UInt32.size, P (.sync e)) (hack : rights .acknowledge → P .acknowledge)
    (s : Cpu) : (m s).Asks P := by
  induction h generalizing s with
  | pure a => exact .done _
  | bind _ _ ih ihf =>
    refine (ih s).bind ?_
    rintro ⟨o, t⟩
    cases o with
    | none => exact .done _
    | some a => exact ihf a t
  | regs _ ih => exact ih s.regs s
  | window _ ih => exact ih s.window s
  | modify _ => exact .done _
  | replace f _ _ _ ih => exact ih (f s.regs).1 { s with regs := (f s.regs).2 }
  | call hq => exact .ask (hordinary _ hq) fun _ => .done _
  | acknowledge h => exact .ask (hack h) fun _ => .done _
  | rendezvous elapsed port =>
    rw [rendezvous_eq]
    refine .ask (hordinary _ rfl) fun shared => ?_
    split
    · split
      · next helapsed => exact .ask (hsync _ helapsed) fun granted => .done _
      · exact .fail _
    · exact .done _
  | overflow => exact .fail _

theorem Exec.Built.fits {rights : Right → Prop} {m : Exec α} (h : Built rights m) (s : Cpu) :
    (m s).Asks Bus.Call.fits :=
  h.asks (fun _ => Bus.Call.fits_of_ordinary) (fun _ => id) (fun _ => trivial) s

/-! ### Steps -/

namespace Cpu

/-- The body of every step is polite. -/
theorem perform_polite (a : Action) : Polite (perform a) := (perform_built a).polite

/-- The end of a step with a result: it is counted, unless one of the counters is too small for
it. -/
theorem finish_cases (s t : Cpu) (cost : ℕ) :
    (∃ ticks, finish s (some cost, t) = .done (cost, { t with ticks }) ∧
        ticks.count.toNat = t.ticks.count.toNat + cost) ∨
      finish s (some cost, t) = .fail .overflow ∧
        (UInt32.size ≤ cost ∨ UInt64.size ≤ t.ticks.count.toNat + cost) := by
  unfold finish
  dsimp only
  split_ifs with hcost
  · cases hadd : t.ticks.add (.ofCost (UInt32.ofNat cost)) with
    | ok ticks =>
      have hticks := Ticks.add_eq_ok.1 hadd
      rw [Ticks.toNat_ofCost hcost] at hticks
      exact .inl ⟨ticks, rfl, hticks⟩
    | error f =>
      have hsize := Ticks.size_le_of_add_eq_error hadd
      rw [Ticks.toNat_ofCost hcost] at hsize
      exact .inr ⟨congrArg Dialogue.fail (Ticks.add_eq_error hadd), .inr hsize⟩
  · exact .inr ⟨rfl, .inl (Nat.le_of_not_lt hcost)⟩

/-- Whatever a step is answered, it adds its cost to the count of T-states. -/
theorem step_ends (s : Cpu) :
    s.step.Ends fun r => r.2.ticks.count.toNat = s.ticks.count.toNat + r.1 := by
  refine (perform_polite s.action false { s with afterEI := false }).ends.bind ?_
  rintro ⟨o, t⟩ (ht : t.ticks = s.ticks)
  cases o with
  | none => exact .done (congrArg (fun n => n.count.toNat) ht)
  | some cost =>
    rcases finish_cases s t cost with ⟨ticks, hfinish, hticks⟩ | ⟨hfinish, -⟩
    · rw [hfinish]
      exact .done (ht ▸ hticks)
    · rw [hfinish]
      exact .fail _

end Cpu
end TandemZ80
