import TandemZ80.Proofs.Alike

/-!
# Systems

A system performs operations one after the other, answers each, and shows something of its state.

* `System`; `System.run`, the state after a sequence of operations; `System.trace`, all that is to
  be seen on the way;
* `System.trace_eq`, systems in related states that stay so have the same traces, and
  `System.trace_eq_unless`, unless one of them stops by itself;
* `System.run_keeps`, what every operation keeps holds after a sequence of them;
* `System.run_returns`, operations that all return, unless for one fault, do so in sequence;
* `System.run_both`, the same for two systems side by side.
-/

namespace TandemZ80

/-- What performs operations `O` on states `σ`, with answers `α`, and shows a `ν` of its state. -/
structure System (O α ν σ : Type) where
  perform : O → σ → Except Fault (α × σ)
  view : σ → ν

namespace System

variable {O α ν σ σ' : Type} {A : System O α ν σ} {B : System O α ν σ'}

/-- The state after a sequence of operations. -/
def run (A : System O α ν σ) : List O → σ → Except Fault σ
  | [], s => .ok s
  | op :: ops, s => A.perform op s >>= fun r => A.run ops r.2

/-- The answers to a sequence of operations, each with what shows after it. A fault is the end. -/
def trace (A : System O α ν σ) : List O → σ → List (Except Fault (α × ν))
  | [], _ => []
  | op :: ops, s =>
    match A.perform op s with
    | .error f => [.error f]
    | .ok (a, s) => .ok (a, A.view s) :: A.trace ops s

/-- Results of one operation on two systems: the same answer, and states in relation. -/
def Answers (R : σ → σ' → Prop) (r : α × σ) (r' : α × σ') : Prop := r.1 = r'.1 ∧ R r.2 r'.2

/-- What the first operation comes to decides the rest of the trace. -/
theorem trace_congr {A : System O α ν σ} {s t : σ} {ops : List O}
    (h : ∀ op ∈ ops, A.perform op s = A.perform op t) : A.trace ops s = A.trace ops t := by
  cases ops with
  | nil => rfl
  | cons op ops =>
    unfold trace
    rw [h op (List.mem_cons_self ..)]

/-- Systems that answer every operation alike and stay in relation have the same traces, unless a
fault in `T` shows in one of them. -/
theorem trace_eq_unless {R : σ → σ' → Prop} {P : O → Prop} {T : Fault → Prop}
    (hperform : ∀ op, P op → ∀ s s', R s s' →
      Fault.AlikeUnless T (Answers R) (A.perform op s) (B.perform op s'))
    (hview : ∀ s s', R s s' → A.view s = B.view s') {ops : List O} (hops : ∀ op ∈ ops, P op)
    {s : σ} {s' : σ'} (h : R s s') (hs : ∀ f, T f → .error f ∉ A.trace ops s)
    (hs' : ∀ f, T f → .error f ∉ B.trace ops s') : A.trace ops s = B.trace ops s' := by
  induction ops generalizing s s' with
  | nil => rfl
  | cons op ops ih =>
    rw [List.forall_mem_cons] at hops
    have hstep := hperform op hops.1 s s' h
    unfold trace at hs hs' ⊢
    generalize A.perform op s = r at hstep hs ⊢
    generalize B.perform op s' = r' at hstep hs' ⊢
    have hr : ∀ f, T f → r ≠ .error f := fun f hf he => by
      subst he
      exact hs f hf (List.mem_singleton_self _)
    have hr' : ∀ f, T f → r' ≠ .error f := fun f hf he => by
      subst he
      exact hs' f hf (List.mem_singleton_self _)
    cases hstep.strict hr hr' with
    | error f => rfl
    | @ok r r' hanswers =>
      obtain ⟨a, s⟩ := r
      obtain ⟨a', s'⟩ := r'
      obtain ⟨ha, hR⟩ := hanswers
      cases ha
      dsimp only at hs hs' ⊢
      rw [hview s s' hR, ih hops.2 hR (fun f hf he => hs f hf (List.mem_cons_of_mem _ he))
        fun f hf he => hs' f hf (List.mem_cons_of_mem _ he)]

/-- Systems that answer every operation alike and stay in relation have the same traces. -/
theorem trace_eq {R : σ → σ' → Prop} {P : O → Prop}
    (hperform : ∀ op, P op → ∀ s s', R s s' →
      Fault.Alike (Answers R) (A.perform op s) (B.perform op s'))
    (hview : ∀ s s', R s s' → A.view s = B.view s') {ops : List O} (hops : ∀ op ∈ ops, P op)
    {s : σ} {s' : σ'} (h : R s s') : A.trace ops s = B.trace ops s' :=
  trace_eq_unless (T := fun _ => False) (fun op hop s s' hR => .alike (hperform op hop s s' hR))
    hview hops h (fun _ => False.elim) fun _ => False.elim

/-- What every operation keeps holds after a sequence of operations. -/
theorem run_keeps {I : σ → Prop} {P : O → Prop}
    (hperform : ∀ op, P op → ∀ s r, I s → A.perform op s = .ok r → I r.2) {ops : List O}
    (hops : ∀ op ∈ ops, P op) {s s' : σ} (h : I s) (hrun : A.run ops s = .ok s') : I s' := by
  induction ops generalizing s with
  | nil =>
    cases hrun
    exact h
  | cons op ops ih =>
    rw [List.forall_mem_cons] at hops
    obtain ⟨r, hr, hrun⟩ := Fault.bind_eq_ok hrun
    exact ih hops.2 (hperform op hops.1 s r h hr) hrun

/-- One sequence of operations after another. -/
theorem run_append (A : System O α ν σ) (ops ops' : List O) (s : σ) :
    A.run (ops ++ ops') s = A.run ops s >>= A.run ops' := by
  induction ops generalizing s with
  | nil => rfl
  | cons op ops ih =>
    show (A.perform op s >>= fun r => A.run (ops ++ ops') r.2) =
      (A.perform op s >>= fun r => A.run ops r.2) >>= A.run ops'
    rw [bind_assoc]
    simp only [ih]

/-- Operations that return and keep `I`, unless they stop on the fault `f`, do so in sequence. -/
theorem run_returns {I : σ → Prop} {f : Fault}
    (hperform : ∀ op s, I s → A.perform op s = .error f ∨ ∃ r, A.perform op s = .ok r ∧ I r.2)
    (ops : List O) {s : σ} (h : I s) :
    A.run ops s = .error f ∨ ∃ s', A.run ops s = .ok s' ∧ I s' := by
  induction ops generalizing s with
  | nil => exact .inr ⟨s, rfl, h⟩
  | cons op ops ih =>
    show (A.perform op s >>= _) = _ ∨ ∃ s', (A.perform op s >>= _) = _ ∧ _
    rcases hperform op s h with herror | ⟨r, hr, hI⟩
    · rw [herror]
      exact .inl rfl
    · rw [hr]
      exact ih hI

/-- Operations that two systems in related states both perform, to states in relation, unless one of
them stops on the fault `f`, are performed by both in sequence. -/
theorem run_both {R : σ → σ' → Prop} {P : O → Prop} {f : Fault}
    (hperform : ∀ op, P op → ∀ s s', R s s' → A.perform op s ≠ .error f →
      B.perform op s' ≠ .error f →
      ∃ r r', A.perform op s = .ok r ∧ B.perform op s' = .ok r' ∧ R r.2 r'.2)
    {ops : List O} (hops : ∀ op ∈ ops, P op) {s : σ} {s' : σ'} (h : R s s')
    (hs : A.run ops s ≠ .error f) (hs' : B.run ops s' ≠ .error f) :
    ∃ t t', A.run ops s = .ok t ∧ B.run ops s' = .ok t' ∧ R t t' := by
  induction ops generalizing s s' with
  | nil => exact ⟨s, s', rfl, rfl, h⟩
  | cons op ops ih =>
    rw [List.forall_mem_cons] at hops
    obtain ⟨r, r', hr, hr', hR⟩ := hperform op hops.1 s s' h
      (fun he => hs (by rw [run, he]; rfl)) (fun he => hs' (by rw [run, he]; rfl))
    rw [run, hr] at hs ⊢
    rw [run, hr'] at hs' ⊢
    exact ih hops.2 hR hs hs'

end System
end TandemZ80
