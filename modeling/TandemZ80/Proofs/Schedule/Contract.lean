import Mathlib.Tactic
import TandemZ80.Proofs.Transcript
import TandemZ80.Schedule.Run

/-!
# What a run asks of its processors

A processor that has been refused gives its step up and asks for the same in its next step. What
else it does is its own affair, so a contract speaks about the request that each processor still
has, and about what comes of each step: its contact with the partner, and its cost.

* `Rendezvous.Contact`, and `Rendezvous.Meets`, a property of all ends of a step that makes contact
  at most once;
* `Rendezvous.Tame`, a step that ends whatever it is answered, with arguments that fit, and
  `Rendezvous.Sturdy`, one that does unless a counter is full;
* `Processors.Keeps`, processors that go on in a given manner; `Orderly` and `Brisk`, two manners;
* `Processors.Reliable`, processors that never fail;
* `metronome`, the simplest processors that ask for shared ports.
-/

namespace TandemZ80
namespace Rendezvous

variable {α β : Type}

/-- What came of the contact of a step with its partner. -/
inductive Contact
  | none
  | granted (elapsed : ℕ)
  | refused (elapsed : ℕ)
  deriving DecidableEq

namespace Contact

/-- The time of the request, whatever has come of it. -/
def asked : Contact → Option ℕ
  | none => .none
  | granted elapsed | refused elapsed => some elapsed

/-- The request that is left over. -/
def request : Contact → Option ℕ
  | refused elapsed => some elapsed
  | _ => .none

/-- A request that was left over is made again. -/
def Repeats (want : Option ℕ) : Contact → Prop
  | none => want = .none
  | granted elapsed | refused elapsed => ∀ w ∈ want, w = elapsed

theorem repeats_of_asked {want : Option ℕ} {c : Contact} (h : ∀ w ∈ want, c.asked = some w) :
    c.Repeats want := by
  cases c with
  | none =>
    cases want with
    | none => rfl
    | some w => cases h w rfl
  | granted elapsed => exact fun w hw => (Option.some.inj (h w hw)).symm
  | refused elapsed => exact fun w hw => (Option.some.inj (h w hw)).symm

end Contact

/-- However the program is answered, it asks for a port at most once, and `P` holds of what came of
that and of the result. -/
def Meets (P : Contact → α → Prop) : Contact → Program α → Prop
  | c, .done a => P c a
  | _, .fail _ => True
  | c, .ask (.sync elapsed) next =>
    c = .none ∧ Meets P (.granted elapsed) (next true) ∧ Meets P (.refused elapsed) (next false)
  | c, .ask (.stop _) next => Meets P c (next ())

/-- However the program is answered, it has a result, and its arguments fit 32 bits. -/
def Tame : Program α → Prop
  | .done _ => True
  | .fail _ => False
  | .ask (.sync elapsed) next => elapsed < UInt32.size ∧ Tame (next true) ∧ Tame (next false)
  | .ask (.stop clocks) next => clocks < UInt32.size ∧ Tame (next ())

/-- However the program is answered, it has a result, and its arguments fit 32 bits. If `F` holds, a
counter may overflow instead. -/
def Sturdy (F : Prop) : Program α → Prop
  | .done _ => True
  | .fail f => f = .overflow ∧ F
  | .ask (.sync elapsed) next => elapsed < UInt32.size ∧ Sturdy F (next true) ∧
    Sturdy F (next false)
  | .ask (.stop clocks) next => clocks < UInt32.size ∧ Sturdy F (next ())

theorem Tame.sturdy {d : Program α} (h : Tame d) (F : Prop) : Sturdy F d := by
  induction d with
  | done a => trivial
  | fail f => exact h.elim
  | ask q next ih =>
    cases q with
    | sync elapsed => exact ⟨h.1, ih true h.2.1, ih false h.2.2⟩
    | stop clocks => exact ⟨h.1, ih () h.2⟩

theorem Sturdy.tame {F : Prop} {d : Program α} (h : Sturdy F d) (hF : ¬F) : Tame d := by
  induction d with
  | done a => trivial
  | fail f => exact hF h.2
  | ask q next ih =>
    cases q with
    | sync elapsed => exact ⟨h.1, ih true h.2.1, ih false h.2.2⟩
    | stop clocks => exact ⟨h.1, ih () h.2⟩

theorem Meets.mono {P P' : Contact → α → Prop} (hP : ∀ c a, P c a → P' c a) {c : Contact}
    {d : Program α} (h : Meets P c d) : Meets P' c d := by
  induction d generalizing c with
  | done a => exact hP c a h
  | fail f => trivial
  | ask q next ih =>
    cases q with
    | sync elapsed => exact ⟨h.1, ih true h.2.1, ih false h.2.2⟩
    | stop clocks => exact ih () h

theorem Meets.and {P P' : Contact → α → Prop} {c : Contact} {d : Program α} (h : Meets P c d)
    (h' : Meets P' c d) : Meets (fun c a => P c a ∧ P' c a) c d := by
  induction d generalizing c with
  | done a => exact ⟨h, h'⟩
  | fail f => trivial
  | ask q next ih =>
    cases q with
    | sync elapsed => exact ⟨h.1, ih true h.2.1 h'.2.1, ih false h.2.2 h'.2.2⟩
    | stop clocks => exact ih () h h'

theorem Meets.and_ends {P : Contact → α → Prop} {Q : α → Prop} {c : Contact} {d : Program α}
    (h : Meets P c d) (hd : d.Ends Q) : Meets (fun c a => P c a ∧ Q a) c d := by
  induction hd generalizing c with
  | done hQ => exact ⟨h, hQ⟩
  | fail f => trivial
  | ask q _ ih =>
    cases q with
    | sync elapsed => exact ⟨h.1, ih true h.2.1, ih false h.2.2⟩
    | stop clocks => exact ih () h

theorem Meets.ends {P : Contact → α → Prop} {c : Contact} {d : Program α} (h : Meets P c d) :
    d.Ends fun a => ∃ c, P c a := by
  induction d generalizing c with
  | done a => exact .done ⟨c, h⟩
  | fail f => exact .fail f
  | ask q next ih =>
    cases q with
    | sync elapsed =>
      refine .ask _ fun granted => ?_
      cases granted with
      | true => exact ih true h.2.1
      | false => exact ih false h.2.2
    | stop clocks => exact .ask _ fun _ => ih () h

/-- The contact of the first part is that of the whole, unless the second one makes contact too. -/
theorem Meets.bind {P : Contact → α → Prop} {P' : Contact → β → Prop} {f : α → Program β}
    {c : Contact} {d : Program α} (h : Meets P c d) (hf : ∀ c a, P c a → Meets P' c (f a)) :
    Meets P' c (d >>= f) := by
  induction d generalizing c with
  | done a => exact hf c a h
  | fail f => trivial
  | ask q next ih =>
    cases q with
    | sync elapsed => exact ⟨h.1, ih true h.2.1, ih false h.2.2⟩
    | stop clocks => exact ih () h

theorem Sturdy.mono {F F' : Prop} (hF : F → F') {d : Program α} (h : Sturdy F d) : Sturdy F' d := by
  induction d with
  | done a => trivial
  | fail f => exact ⟨h.1, hF h.2⟩
  | ask q next ih =>
    cases q with
    | sync elapsed => exact ⟨h.1, ih true h.2.1, ih false h.2.2⟩
    | stop clocks => exact ⟨h.1, ih () h.2⟩

theorem Sturdy.bind {F : Prop} {Q : α → Prop} {f : α → Program β} {d : Program α} (hd : Sturdy F d)
    (hQ : d.Ends Q) (hf : ∀ a, Q a → Sturdy F (f a)) : Sturdy F (d >>= f) := by
  induction hQ with
  | done h => exact hf _ h
  | fail f => exact hd
  | ask q _ ih =>
    cases q with
    | sync elapsed => exact ⟨hd.1, ih true hd.2.1, ih false hd.2.2⟩
    | stop clocks => exact ⟨hd.1, ih () hd.2⟩

/-- A program that ends whatever it is answered does meet its property once. -/
theorem Meets.exists {P : Contact → α → Prop} {c : Contact} {d : Program α} (h : Meets P c d)
    (hd : Tame d) : ∃ a c', P c' a ∧ (c ≠ .none → c' = c) := by
  induction d generalizing c with
  | done a => exact ⟨a, c, h, fun _ => rfl⟩
  | fail f => exact hd.elim
  | ask q next ih =>
    cases q with
    | sync elapsed =>
      obtain ⟨a, c', hP, -⟩ := ih true h.2.1 hd.2.1
      exact ⟨a, c', hP, fun hc => (hc h.1).elim⟩
    | stop clocks => exact ih () h hd.2

/-- After its contact a program makes no other one. -/
theorem Meets.fixed {P : Contact → α → Prop} {c : Contact} {d : Program α} (h : Meets P c d)
    (hc : c ≠ .none) : Meets (fun c' a => P c' a ∧ c' = c) c d := by
  induction d with
  | done a => exact ⟨h, rfl⟩
  | fail f => trivial
  | ask q next ih =>
    cases q with
    | sync elapsed => exact (hc h.1).elim
    | stop clocks => exact ih () h

/-- What holds of every time at which a port is granted holds of the times of refusal too: a program
asks before it knows the answer. -/
theorem Meets.refused_of_granted {P : Contact → α → Prop} {B : ℕ → Prop}
    (hB : ∀ elapsed a, P (.granted elapsed) a → B elapsed) {d : Program α} (h : Meets P .none d)
    (hd : Tame d) :
    Meets (fun c a => P c a ∧ ∀ elapsed, c = .refused elapsed → B elapsed) .none d := by
  induction d with
  | done a => exact ⟨h, fun elapsed he => by cases he⟩
  | fail f => trivial
  | ask q next ih =>
    cases q with
    | stop clocks => exact ih () h hd.2
    | sync elapsed =>
      obtain ⟨-, hgranted, hrefused⟩ := h
      refine ⟨rfl, (hgranted.fixed (by simp)).mono ?_, (hrefused.fixed (by simp)).mono ?_⟩
      · rintro c a ⟨hP, rfl⟩
        exact ⟨hP, fun e he => by cases he⟩
      · rintro c a ⟨hP, rfl⟩
        refine ⟨hP, fun e he => ?_⟩
        cases he
        -- The same request, had it been granted, would have kept within the bound.
        obtain ⟨b, c', hP', hc'⟩ := hgranted.exists hd.2.1
        obtain rfl := hc' (by simp)
        exact hB elapsed b hP'

end Rendezvous

open Rendezvous

/-- How a step may go, given the request that is left over from the step before. -/
abbrev Manner : Type := Option ℕ → Contact → ℕ → Prop

/-- A refused step costs nothing, and a step that touches a shared port lasts until then at
least. -/
def Orderly : Manner := fun want c cost =>
  c.Repeats want ∧
    match c with
    | .none => True
    | .granted elapsed => elapsed ≤ cost
    | .refused _ => cost = 0

/-- A refused step costs nothing; any other one costs between 1 and 27 T-states, and the shared port
is touched before its end. -/
def Brisk : Manner := fun want c cost =>
  c.Repeats want ∧
    match c with
    | .none => 1 ≤ cost ∧ cost ≤ 27
    | .granted elapsed => elapsed < cost ∧ cost ≤ 27
    | .refused _ => cost = 0

variable {σ : Type}

/-- The processors go on in the manner `K`. What they depend on is in `I`, which tells from the
requests that are left over in which states they can be. -/
structure Processors.Keeps (p : Processors σ) (K : Manner) (I : PerSide (Option ℕ) → σ → Prop) :
    Prop where
  step : ∀ {requests : PerSide (Option ℕ)} {st : σ} (i : Side), I requests st →
    Meets (fun c r => K (requests.get i) c r.1 ∧ I (requests.set i c.request) r.2) .none
      (p.step i st)

/-- The processors never fail. -/
structure Processors.Reliable (p : Processors σ) (I : PerSide (Option ℕ) → σ → Prop) : Prop where
  step : ∀ {requests : PerSide (Option ℕ)} {st : σ} (i : Side), I requests st → Tame (p.step i st)
  skipIdle : ∀ {requests : PerSide (Option ℕ)} {st : σ} (i : Side) (clocks : UInt64),
    I requests st → ∃ st', p.skipIdle i clocks st = .ok st' ∧ I requests st'

theorem Brisk.orderly {want : Option ℕ} {c : Contact} {cost : ℕ} (h : Brisk want c cost) :
    Orderly want c cost := by
  cases c with
  | none => exact ⟨h.1, trivial⟩
  | granted elapsed => exact ⟨h.1, h.2.1.le⟩
  | refused elapsed => exact h

theorem Brisk.cost_le {want : Option ℕ} {c : Contact} {cost : ℕ} (h : Brisk want c cost) :
    cost ≤ 27 := by
  cases c with
  | none => exact h.2.2
  | granted elapsed => exact h.2.2
  | refused elapsed => exact h.2.le.trans (by omega)

theorem Processors.Keeps.orderly {p : Processors σ} {I : PerSide (Option ℕ) → σ → Prop}
    (h : p.Keeps Brisk I) : p.Keeps Orderly I :=
  ⟨fun i hst => (h.step i hst).mono fun _ _ hP => ⟨hP.1.orderly, hP.2⟩⟩

/-! ### The metronome -/

/-- Processors whose every instruction takes 10 T-states and touches a shared port after 7 of
them. -/
def metronome : Processors Unit where
  step _ _ := .ask (.sync 7) fun granted => .done (if granted then 10 else 0, ())
  skipIdle _ _ _ := .ok ()

/-- All that the metronome can have left over is its one request. -/
def OnBeat (requests : PerSide (Option ℕ)) (_ : Unit) : Prop := ∀ i, ∀ w ∈ requests.get i, w = 7

theorem onBeat_none : OnBeat (.both none) () := by
  intro i w hw
  cases i <;> cases hw

theorem onBeat_set {requests : PerSide (Option ℕ)} (h : OnBeat requests ()) (i : Side)
    {want : Option ℕ} (hwant : ∀ w ∈ want, w = 7) : OnBeat (requests.set i want) () := by
  intro j w hw
  cases i <;> cases j
  · exact hwant w hw
  · exact h .sub w hw
  · exact h .main w hw
  · exact hwant w hw

theorem metronome_brisk : metronome.Keeps Brisk OnBeat := by
  refine ⟨fun i hst => ⟨rfl, ⟨⟨hst i, ?_⟩, onBeat_set hst i ?_⟩,
    ⟨⟨hst i, rfl⟩, onBeat_set hst i ?_⟩⟩⟩
  · decide
  · intro w hw
    cases hw
  · intro w hw
    cases hw
    rfl

theorem metronome_reliable : metronome.Reliable OnBeat := by
  refine ⟨fun i _ => ⟨?_, trivial, trivial⟩, fun i clocks hst => ⟨(), rfl, hst⟩⟩
  decide

end TandemZ80
