/-!
# The two sides

A machine has a main and a sub processor. What there is once for each of them comes as a `PerSide`.

* `Side`, `Side.partner`;
* `PerSide`; `get`, `set`, `map`; `split` and `join`, a side's own part beside its partner's.
-/

namespace TandemZ80

/-- One of the two processors. -/
inductive Side
  | main
  | sub
  deriving DecidableEq

/-- The other processor. -/
def Side.partner : Side → Side
  | main => sub
  | sub => main

@[simp] theorem Side.partner_partner (s : Side) : s.partner.partner = s := by cases s <;> rfl

theorem Side.partner_ne (s : Side) : s.partner ≠ s := by cases s <;> decide

/-- A pair with one part for each side. -/
structure PerSide (α : Type) where
  main : α
  sub : α
  deriving DecidableEq

namespace PerSide

variable {α β : Type}

/-- The same for both sides. -/
def both (a : α) : PerSide α := ⟨a, a⟩

/-- The part of a side. -/
def get (p : PerSide α) : Side → α
  | .main => p.main
  | .sub => p.sub

/-- Change the part of a side. -/
def set (p : PerSide α) (s : Side) (a : α) : PerSide α :=
  match s with
  | .main => { p with main := a }
  | .sub => { p with sub := a }

/-- Change both parts. -/
def map (f : α → β) (p : PerSide α) : PerSide β := ⟨f p.main, f p.sub⟩

/-- The part of a side, beside that of its partner. -/
def split (s : Side) : PerSide α → α × α
  | ⟨a, b⟩ =>
    match s with
    | .main => (a, b)
    | .sub => (b, a)

/-- Put the part of a side and that of its partner together. -/
def join (s : Side) (own partner : α) : PerSide α :=
  match s with
  | .main => ⟨own, partner⟩
  | .sub => ⟨partner, own⟩

@[simp] theorem get_set_self (p : PerSide α) (s : Side) (a : α) : (p.set s a).get s = a := by
  cases s <;> rfl

@[simp] theorem get_set_partner (p : PerSide α) (s : Side) (a : α) :
    (p.set s a).get s.partner = p.get s.partner := by
  cases s <;> rfl

end PerSide
end TandemZ80
