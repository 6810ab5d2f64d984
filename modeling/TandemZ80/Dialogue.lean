import TandemZ80.Fault

/-!
# Dialogues

A processor does not own its bus. What it does is a *dialogue*: it asks one question at a time,
and goes on with the answer. Who answers is decided later, so one dialogue can be run against
plain memory, against a whole machine, or reasoned about for every possible partner.

* `Dialogue R α`: questions `q` with answers in `R q`, ending in an `α` or a fault;
* `Dialogue.run` runs a dialogue against a `Handler`, which answers from a state of its own;
* `Dialogue.relay` answers the questions of one dialogue by dialogues of another kind;
* the monad laws, and the equations of both under sequencing.
-/

namespace TandemZ80

/-- A computation that asks questions `q` and goes on with answers in `R q`. -/
inductive Dialogue {Q : Type} (R : Q → Type) (α : Type) : Type
  | done (a : α)
  | fail (f : Fault)
  | ask (q : Q) (next : R q → Dialogue R α)

namespace Dialogue

variable {Q Q' : Type} {R : Q → Type} {S : Q' → Type} {σ α β γ : Type}

/-- Go on with the result. -/
def bind : Dialogue R α → (α → Dialogue R β) → Dialogue R β
  | done a, f => f a
  | fail e, _ => fail e
  | ask q next, f => ask q fun x => bind (next x) f

instance : Monad (Dialogue R) where
  pure := done
  bind := bind

/-- A computation that asks nothing. -/
def ofExcept : Except Fault α → Dialogue R α
  | .ok a => done a
  | .error f => fail f

/-! ### Laws -/

@[simp] theorem pure_eq (a : α) : (pure a : Dialogue R α) = done a := rfl

@[simp] theorem done_bind (a : α) (f : α → Dialogue R β) : (done a >>= f) = f a := rfl

@[simp] theorem ask_bind (q : Q) (next : R q → Dialogue R α) (f : α → Dialogue R β) :
    (ask q next >>= f) = ask q fun x => next x >>= f := rfl

theorem bind_done (d : Dialogue R α) : (d >>= done) = d := by
  induction d with
  | done a => rfl
  | fail e => rfl
  | ask q next ih => simp only [ask_bind, ih]

theorem bind_assoc (d : Dialogue R α) (f : α → Dialogue R β) (g : β → Dialogue R γ) :
    (d >>= f >>= g) = d >>= fun a => f a >>= g := by
  induction d with
  | done a => rfl
  | fail e => rfl
  | ask q next ih => simp only [ask_bind, ih]

/-! ### Running against a handler -/

/-- Answers questions from a state. -/
abbrev Handler (R : Q → Type) (σ : Type) : Type := (q : Q) → σ → Except Fault (R q × σ)

/-- Run a dialogue, answering every question by `h`. -/
def run (h : Handler R σ) : Dialogue R α → σ → Except Fault (α × σ)
  | done a, s => .ok (a, s)
  | fail f, _ => .error f
  | ask q next, s => do
    let (x, s') ← h q s
    run h (next x) s'

theorem run_ask (h : Handler R σ) (q : Q) (next : R q → Dialogue R α) (s : σ) :
    (ask q next).run h s = h q s >>= fun p => (next p.1).run h p.2 := rfl

theorem run_bind (h : Handler R σ) (d : Dialogue R α) (f : α → Dialogue R β) (s : σ) :
    (d >>= f).run h s = d.run h s >>= fun p => (f p.1).run h p.2 := by
  induction d generalizing s with
  | done a => rfl
  | fail e => rfl
  | ask q next ih =>
    simp only [ask_bind, run_ask]
    cases h q s with
    | error e => rfl
    | ok p => exact ih p.1 p.2

/-! ### Answering by another dialogue -/

/-- Answer every question by a dialogue of another kind. -/
def relay (h : (q : Q) → σ → Dialogue S (R q × σ)) : Dialogue R α → σ → Dialogue S (α × σ)
  | done a, s => done (a, s)
  | fail f, _ => fail f
  | ask q next, s => h q s >>= fun p => relay h (next p.1) p.2

theorem relay_ask (h : (q : Q) → σ → Dialogue S (R q × σ)) (q : Q) (next : R q → Dialogue R α)
    (s : σ) : (ask q next).relay h s = h q s >>= fun p => (next p.1).relay h p.2 := rfl

theorem relay_bind (h : (q : Q) → σ → Dialogue S (R q × σ)) (d : Dialogue R α)
    (f : α → Dialogue R β) (s : σ) :
    (d >>= f).relay h s = d.relay h s >>= fun p => (f p.1).relay h p.2 := by
  induction d generalizing s with
  | done a => rfl
  | fail e => rfl
  | ask q next ih =>
    simp only [ask_bind, relay, bind_assoc]
    congr 1
    funext p
    exact ih p.1 p.2

end Dialogue
end TandemZ80
