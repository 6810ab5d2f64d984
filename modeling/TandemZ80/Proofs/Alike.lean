import Mathlib.Tactic
import TandemZ80.Dialogue

/-!
# Computations that go alike

Two systems behave alike if they stop on the same faults and otherwise come to results that are
again in relation. Two dialogues go alike if besides they ask the same questions, whatever the
answers.

* `Fault.Alike`, computations that fail alike or have results in relation, under `map` and `bind`;
* `Dialogue.Alike`, the same for dialogues; `Dialogue.Alike.run`, one handler for both, and
  `Dialogue.Alike.relay`, two handlers that are dialogues in turn;
* `Fault.AlikeUnless` and `Dialogue.AlikeUnless`, where one of the two may also stop by itself on a
  fault of some kind, and then nothing is said of the other.
-/

namespace TandemZ80

variable {α α' β β' σ σ' : Type}

namespace Fault

/-- Two computations that stop on the same fault, or have results in relation. -/
inductive Alike (R : α → α' → Prop) : Except Fault α → Except Fault α' → Prop
  | ok {a : α} {a' : α'} (h : R a a') : Alike R (.ok a) (.ok a')
  | error (f : Fault) : Alike R (.error f) (.error f)

namespace Alike

variable {R : α → α' → Prop} {S : β → β' → Prop} {x : Except Fault α} {x' : Except Fault α'}

theorem bind {f : α → Except Fault β} {f' : α' → Except Fault β'} (h : Alike R x x')
    (hf : ∀ a a', R a a' → Alike S (f a) (f' a')) : Alike S (x >>= f) (x' >>= f') := by
  cases h with
  | ok h => exact hf _ _ h
  | error f => exact .error f

theorem map {f : α → β} {f' : α' → β'} (h : Alike R x x') (hf : ∀ a a', R a a' → S (f a) (f' a')) :
    Alike S (f <$> x) (f' <$> x') := by
  cases h with
  | ok h => exact .ok (hf _ _ h)
  | error f => exact .error f

/-- If the first has a result, so has the second. -/
theorem exists_eq_ok {a : α} (h : Alike R x x') (hx : x = .ok a) : ∃ a', x' = .ok a' ∧ R a a' := by
  cases h with
  | ok h =>
    cases hx
    exact ⟨_, rfl, h⟩
  | error f => cases hx

/-- If the second has a result, so has the first. -/
theorem exists_ok_eq {a' : α'} (h : Alike R x x') (hx : x' = .ok a') : ∃ a, x = .ok a ∧ R a a' := by
  cases h with
  | ok h =>
    cases hx
    exact ⟨_, rfl, h⟩
  | error f => cases hx

theorem refl {R : α → α → Prop} (hR : ∀ a, R a a) (x : Except Fault α) : Alike R x x := by
  cases x with
  | ok a => exact .ok (hR a)
  | error f => exact .error f

/-- Two computations that go like a third one. -/
theorem join {γ : Type} {T : γ → α' → Prop} {U : α → γ → Prop} {z : Except Fault γ}
    (h : Alike R x x') (h' : Alike T z x') (hU : ∀ a c a', R a a' → T c a' → U a c) :
    Alike U x z := by
  cases h with
  | ok h =>
    cases h' with
    | ok h' => exact .ok (hU _ _ _ h h')
  | error f =>
    cases h' with
    | error f => exact .error f

end Alike

/-- Two computations that go alike, unless one of them stops on a fault in `T`. -/
inductive AlikeUnless (T : Fault → Prop) (R : α → α' → Prop) :
    Except Fault α → Except Fault α' → Prop
  | alike {x : Except Fault α} {x' : Except Fault α'} (h : Alike R x x') : AlikeUnless T R x x'
  | left {f : Fault} (h : T f) (x' : Except Fault α') : AlikeUnless T R (.error f) x'
  | right {f : Fault} (h : T f) (x : Except Fault α) : AlikeUnless T R x (.error f)

namespace AlikeUnless

variable {T : Fault → Prop} {R : α → α' → Prop} {S : β → β' → Prop} {x : Except Fault α}
  {x' : Except Fault α'}

theorem ok {a : α} {a' : α'} (h : R a a') : AlikeUnless T R (.ok a) (.ok a') := .alike (.ok h)

theorem bind {f : α → Except Fault β} {f' : α' → Except Fault β'} (h : AlikeUnless T R x x')
    (hf : ∀ a a', R a a' → AlikeUnless T S (f a) (f' a')) :
    AlikeUnless T S (x >>= f) (x' >>= f') := by
  cases h with
  | alike h =>
    cases h with
    | ok h => exact hf _ _ h
    | error f => exact .alike (.error f)
  | left h x' => exact .left h _
  | right h x => exact .right h _

/-- Between computations that go alike and computations that do so unless one of them stops. -/
theorem after {α'' : Type} {x'' : Except Fault α''} {R' : α' → α'' → Prop} {R'' : α → α'' → Prop}
    (h' : AlikeUnless T R' x' x'') (h : Alike R x x')
    (hR : ∀ a a' a'', R a a' → R' a' a'' → R'' a a'') : AlikeUnless T R'' x x'' := by
  cases h' with
  | alike h' =>
    cases h' with
    | ok h₂ =>
      cases h with
      | ok h₁ => exact .ok (hR _ _ _ h₁ h₂)
    | error f =>
      cases h with
      | error f => exact .alike (.error f)
  | left hf =>
    cases h with
    | error f => exact .left hf _
  | right hf => exact .right hf _

theorem map {f : α → β} {f' : α' → β'} (h : AlikeUnless T R x x')
    (hf : ∀ a a', R a a' → S (f a) (f' a')) : AlikeUnless T S (f <$> x) (f' <$> x') := by
  cases h with
  | alike h => exact .alike (h.map hf)
  | left h x' => exact .left h _
  | right h x => exact .right h _

/-- Where neither stops on such a fault, they go alike. -/
theorem strict (h : AlikeUnless T R x x') (hx : ∀ f, T f → x ≠ .error f)
    (hx' : ∀ f, T f → x' ≠ .error f) : Alike R x x' := by
  cases h with
  | alike h => exact h
  | left h x' => exact absurd rfl (hx _ h)
  | right h x => exact absurd rfl (hx' _ h)

/-- Without such faults they always go alike. -/
theorem of_false (h : AlikeUnless (fun _ => False) R x x') : Alike R x x' :=
  h.strict (fun _ => False.elim) fun _ => False.elim

end AlikeUnless
end Fault

namespace Dialogue

variable {Q Q' : Type} {P : Q → Type} {P' : Q' → Type}

/-- Two dialogues that ask the same questions, and after the same answers stop on the same fault,
one of those in `F`, or have results in relation. -/
inductive Alike (F : Fault → Prop) (R : α → α' → Prop) : Dialogue P α → Dialogue P α' → Prop
  | done {a : α} {a' : α'} (h : R a a') : Alike F R (.done a) (.done a')
  | fail {f : Fault} (h : F f) : Alike F R (.fail f) (.fail f)
  | ask (q : Q) {next : P q → Dialogue P α} {next' : P q → Dialogue P α'}
      (h : ∀ x, Alike F R (next x) (next' x)) : Alike F R (.ask q next) (.ask q next')

namespace Alike

variable {F : Fault → Prop} {R : α → α' → Prop} {S : β → β' → Prop} {d : Dialogue P α}
  {d' : Dialogue P α'}

theorem mono {R' : α → α' → Prop} (h : Alike F R d d') (hR : ∀ a a', R a a' → R' a a') :
    Alike F R' d d' := by
  induction h with
  | done h => exact .done (hR _ _ h)
  | fail h => exact .fail h
  | ask q _ ih => exact .ask q ih

theorem bind {f : α → Dialogue P β} {f' : α' → Dialogue P β'} (h : Alike F R d d')
    (hf : ∀ a a', R a a' → Alike F S (f a) (f' a')) : Alike F S (d >>= f) (d' >>= f') := by
  induction h with
  | done h => exact hf _ _ h
  | fail h => exact .fail h
  | ask q _ ih => exact .ask q ih

theorem refl {R : α → α → Prop} (hF : ∀ f, F f) (hR : ∀ a, R a a) (d : Dialogue P α) :
    Alike F R d d := by
  induction d with
  | done a => exact .done (hR a)
  | fail f => exact .fail (hF f)
  | ask q _ ih => exact .ask q ih

/-- What goes like an end is an end. -/
theorem exists_eq_done {a : α} (h : Alike F R (.done a) d') : ∃ a', d' = .done a' ∧ R a a' := by
  cases h with
  | done hR => exact ⟨_, rfl, hR⟩

/-- Under the same answers dialogues that go alike leave the handler in the same state. -/
theorem run (h : Alike F R d d') (handler : Handler P σ) (s : σ) :
    Fault.Alike (fun r r' => R r.1 r'.1 ∧ r.2 = r'.2) (d.run handler s) (d'.run handler s) := by
  induction h generalizing s with
  | done h => exact .ok ⟨h, rfl⟩
  | fail h => exact .error _
  | ask q _ ih =>
    rw [run_ask, run_ask]
    exact .bind (.refl (fun _ => rfl) _) fun a a' (ha : a = a') => ha ▸ ih a.1 a.2

/-- What goes alike still does so when the questions are answered by dialogues that do. -/
theorem relay {V : σ → σ' → Prop} {h : (q : Q) → σ → Dialogue P' (P q × σ)}
    {h' : (q : Q) → σ' → Dialogue P' (P q × σ')}
    (hh : ∀ q s s', V s s' → Alike F (fun r r' => r.1 = r'.1 ∧ V r.2 r'.2) (h q s) (h' q s'))
    (hd : Alike F R d d') {s : σ} {s' : σ'} (hs : V s s') :
    Alike F (fun r r' => R r.1 r'.1 ∧ V r.2 r'.2) (d.relay h s) (d'.relay h' s') := by
  induction hd generalizing s s' with
  | done ha => exact .done ⟨ha, hs⟩
  | fail hf => exact .fail hf
  | ask q _ ih =>
    refine (hh q s s' hs).bind fun r r' hr => ?_
    obtain ⟨hx, hV⟩ := hr
    show Alike F _ _ (Dialogue.relay h' _ r'.2)
    rw [← hx]
    exact ih r.1 hV

end Alike

/-- Two dialogues that go alike, unless one of them stops on a fault in `T`. -/
inductive AlikeUnless (T : Fault → Prop) (R : α → α' → Prop) : Dialogue P α → Dialogue P α' → Prop
  | done {a : α} {a' : α'} (h : R a a') : AlikeUnless T R (.done a) (.done a')
  | fail (f : Fault) : AlikeUnless T R (.fail f) (.fail f)
  | ask (q : Q) {next : P q → Dialogue P α} {next' : P q → Dialogue P α'}
      (h : ∀ x, AlikeUnless T R (next x) (next' x)) : AlikeUnless T R (.ask q next) (.ask q next')
  | left {f : Fault} (h : T f) (d' : Dialogue P α') : AlikeUnless T R (.fail f) d'
  | right {f : Fault} (h : T f) (d : Dialogue P α) : AlikeUnless T R d (.fail f)

theorem Alike.unless {F T : Fault → Prop} {R : α → α' → Prop} {d : Dialogue P α}
    {d' : Dialogue P α'} (h : Alike F R d d') : AlikeUnless T R d d' := by
  induction h with
  | done h => exact .done h
  | fail _ => exact .fail _
  | ask q _ ih => exact .ask q ih

namespace AlikeUnless

variable {T : Fault → Prop} {R : α → α' → Prop} {S : β → β' → Prop} {d : Dialogue P α}
  {d' : Dialogue P α'}

theorem bind {f : α → Dialogue P β} {f' : α' → Dialogue P β'} (h : AlikeUnless T R d d')
    (hf : ∀ a a', R a a' → AlikeUnless T S (f a) (f' a')) :
    AlikeUnless T S (d >>= f) (d' >>= f') := by
  induction h with
  | done h => exact hf _ _ h
  | fail f => exact .fail f
  | ask q _ ih => exact .ask q ih
  | left h d' => exact .left h _
  | right h d => exact .right h _

/-- Under the same answers such dialogues leave the handler in the same state. -/
theorem run (h : AlikeUnless T R d d') (handler : Handler P σ) (s : σ) :
    Fault.AlikeUnless T (fun r r' => R r.1 r'.1 ∧ r.2 = r'.2) (d.run handler s)
      (d'.run handler s) := by
  induction h generalizing s with
  | done h => exact .ok ⟨h, rfl⟩
  | fail f => exact .alike (.error f)
  | ask q _ ih =>
    rw [run_ask, run_ask]
    exact .bind (.alike (.refl (fun _ => rfl) _)) fun a a' (ha : a = a') => ha ▸ ih a.1 a.2
  | left h d' => exact .left h _
  | right h d => exact .right h _

/-- What goes alike still does so when one and the same dialogue answers each question of both. -/
theorem relay (h : AlikeUnless T R d d') (handler : (q : Q) → σ → Dialogue P' (P q × σ)) (s : σ) :
    AlikeUnless T (fun r r' => R r.1 r'.1 ∧ r.2 = r'.2) (d.relay handler s)
      (d'.relay handler s) := by
  induction h generalizing s with
  | done h => exact .done ⟨h, rfl⟩
  | fail f => exact .fail f
  | ask q _ ih =>
    rw [relay_ask, relay_ask]
    refine .bind (Alike.refl (F := fun _ => True) (fun _ => trivial) (fun _ => rfl) _).unless ?_
    exact fun a a' (ha : a = a') => ha ▸ ih a.1 a.2
  | left h d' => exact .left h _
  | right h d => exact .right h _

end AlikeUnless
end Dialogue
end TandemZ80
