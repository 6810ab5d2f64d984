/-!
# Faults

A computation of this library either has a result or stops on a `Fault`. Counters have a fixed
width and never wrap: a sum or product that does not fit is a fault, and so is an index outside
its table.

* `Fault`, the causes;
* `Fault.require`, a condition that has to hold, and `Fault.require_eq_ok`;
* `Fault.bind_eq_ok`, two computations in a row that have a result, and `Fault.map_eq_ok`;
* `Fault.bind_eq_error`, two computations in a row that have none;
* `Fault.eq_ok_of_toOption`, a result that is looked for.
-/

namespace TandemZ80

/-- Why a computation stopped without a result. -/
inductive Fault
  /-- A sum or product does not fit its counter. -/
  | overflow
  /-- A rate was divided by zero. -/
  | divisionByZero
  /-- An index lies outside its table. -/
  | outOfBounds
  /-- An operation was used outside the states it is meant for. -/
  | misuse
  /-- A run was given fewer steps than it needs. -/
  | exhausted
  deriving DecidableEq

namespace Fault

/-- Go on only if `p` holds. -/
def require (p : Prop) [Decidable p] (f : Fault) : Except Fault Unit :=
  if p then .ok () else .error f

theorem require_of {p : Prop} [Decidable p] (h : p) (f : Fault) : require p f = .ok () := if_pos h

theorem require_of_not {p : Prop} [Decidable p] (h : ¬p) (f : Fault) : require p f = .error f :=
  if_neg h

theorem require_eq_ok {p : Prop} [Decidable p] {f : Fault} {u : Unit} (h : require p f = .ok u) :
    p := by
  unfold require at h
  split at h
  · assumption
  · cases h

theorem bind_eq_ok {α β : Type} {x : Except Fault α} {f : α → Except Fault β} {b : β}
    (h : (x >>= f) = .ok b) : ∃ a, x = .ok a ∧ f a = .ok b := by
  cases x with
  | error e => cases h
  | ok a => exact ⟨a, rfl, h⟩

theorem bind_eq_error {α β : Type} {x : Except Fault α} {f : α → Except Fault β} {e : Fault}
    (h : (x >>= f) = .error e) : x = .error e ∨ ∃ a, x = .ok a ∧ f a = .error e := by
  cases x with
  | error e' =>
    cases h
    exact .inl rfl
  | ok a => exact .inr ⟨a, rfl, h⟩

theorem eq_ok_of_toOption {α : Type} {x : Except Fault α} {a : α} (h : x.toOption = some a) :
    x = .ok a := by
  cases x with
  | error e => cases h
  | ok b => exact congrArg Except.ok (Option.some.inj h)

theorem map_eq_ok {α β : Type} {x : Except Fault α} {f : α → β} {b : β} (h : f <$> x = .ok b) :
    ∃ a, x = .ok a ∧ f a = b := by
  cases x with
  | error e => cases h
  | ok a => exact ⟨a, rfl, Except.ok.inj h⟩

end Fault
end TandemZ80
