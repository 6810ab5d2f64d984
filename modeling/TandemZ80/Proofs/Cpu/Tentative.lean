import Mathlib.Tactic
import TandemZ80.Cpu.Exec
import TandemZ80.Proofs.Transcript

/-!
# What a part of an instruction can do

A refused instruction is tried again, so nothing may have happened before the refusal that a second
attempt does not undo. Parts of instructions come in three kinds:

* *quiet* ones fetch and look things up; they move PC and R on and may take a window;
* *sure* ones do as they please, but never ask for a shared port, so that they are not refused;
* *tentative* ones are sure, or are quiet until they ask for a port; refused, they end at once, and
  granted, the rest is sure.

Only a tentative part can stop on a fault of its own, and only before it asks: the time of a request
may not fit its counter. Each kind is closed under sequencing, with a postcondition for the results.

* `Cpu.Alike`, what fetching changes;
* `Bus.Sure`, `Bus.Quiet` and `Bus.Tentative` for programs; `Exec.Sure`, `Exec.Quiet` and
  `Exec.Tentative` for parts of instructions, with their rules;
* `Bus.Tentative.run_none`, what is known of a run that was refused, and `Bus.Tentative.run_error`,
  of one that stopped.
-/

namespace TandemZ80

variable {α β σ : Type}

/-! ### Programs -/

/-- Calls that only look at what is outside. -/
def Bus.Call.looks : Bus.Call → Bool
  | .read _ | .acknowledge | .window _ | .readWindow .. | .isShared _ => true
  | _ => false

/-- The call that can be refused. -/
def Bus.Call.asks : Bus.Call → Bool
  | .sync _ => true
  | _ => false

/-- Fetching changes PC, R and the window. -/
def Cpu.Alike (s t : Cpu) : Prop :=
  ∃ pc r w, t = { s with regs := { s.regs with pc := pc, r := r }, window := w }

namespace Cpu.Alike

variable {s t u : Cpu}

theorem refl (s : Cpu) : s.Alike s := ⟨s.regs.pc, s.regs.r, s.window, rfl⟩

theorem trans (h : s.Alike t) (h' : t.Alike u) : s.Alike u := by
  obtain ⟨pc, r, w, rfl⟩ := h
  obtain ⟨pc', r', w', rfl⟩ := h'
  exact ⟨pc', r', w', rfl⟩

end Cpu.Alike

namespace Bus

/-- The program never asks for a shared port, and `P` holds of its result. -/
inductive Sure (P : α → Prop) : Program (Option α × Cpu) → Prop
  | done {a : α} (s : Cpu) (h : P a) : Sure P (.done (some a, s))
  | ask {q : Call} {next : Reply q → Program (Option α × Cpu)} (hq : q.asks = false)
      (h : ∀ x, Sure P (next x)) : Sure P (.ask q next)

/-- The program does no more than fetch and look, and `P` holds of its result. -/
inductive Quiet (s : Cpu) (P : α → Prop) : Program (Option α × Cpu) → Prop
  | done {a : α} {t : Cpu} (ht : s.Alike t) (h : P a) : Quiet s P (.done (some a, t))
  | ask {q : Call} {next : Reply q → Program (Option α × Cpu)} (hq : q.looks = true)
      (h : ∀ x, Quiet s P (next x)) : Quiet s P (.ask q next)

/-- The program is sure, or is quiet until it asks for a port: then it ends if it is refused, and is
sure if not. `P` holds of its result and of the time at which it was granted a port, and `F` if it
stops on a fault before it asks. -/
inductive Tentative (s : Cpu) (F : Prop) (P : α → Option ℕ → Prop) : Program (Option α × Cpu) → Prop
  | sure {d : Program (Option α × Cpu)} (h : Sure (P · none) d) : Tentative s F P d
  | fail (f : Fault) (h : F) : Tentative s F P (.fail f)
  | look {q : Call} {next : Reply q → Program (Option α × Cpu)} (hq : q.looks = true)
      (h : ∀ x, Tentative s F P (next x)) : Tentative s F P (.ask q next)
  | sync {e : ℕ} {next : Bool → Program (Option α × Cpu)} {t : Cpu} (ht : s.Alike t)
      (hrefused : next false = .done (none, t)) (hgranted : Sure (P · (some e)) (next true)) :
      Tentative s F P (.ask (.sync e) next)

theorem Call.asks_of_looks {q : Call} (h : q.looks = true) : q.asks = false := by
  cases q <;> first | rfl | cases h

theorem Sure.bind {Q : α → Prop} {P : β → Prop} {d : Program (Option α × Cpu)}
    {f : Option α × Cpu → Program (Option β × Cpu)} (hd : Sure Q d)
    (hf : ∀ a t, Q a → Sure P (f (some a, t))) : Sure P (d >>= f) := by
  induction hd with
  | done s h => exact hf _ s h
  | ask hq _ ih => exact .ask hq ih

theorem Sure.mono {P P' : α → Prop} (hP : ∀ a, P a → P' a) {d : Program (Option α × Cpu)}
    (hd : Sure P d) : Sure P' d := by
  induction hd with
  | done s h => exact .done s (hP _ h)
  | ask hq _ ih => exact .ask hq ih

theorem Quiet.sure {s : Cpu} {P : α → Prop} {d : Program (Option α × Cpu)} (hd : Quiet s P d) :
    Sure P d := by
  induction hd with
  | done ht h => exact .done _ h
  | ask hq _ ih => exact .ask (Call.asks_of_looks hq) ih

theorem Quiet.bind {s : Cpu} {Q : α → Prop} {P : β → Prop} {d : Program (Option α × Cpu)}
    {f : Option α × Cpu → Program (Option β × Cpu)} (hd : Quiet s Q d)
    (hf : ∀ a t, s.Alike t → Q a → Quiet s P (f (some a, t))) : Quiet s P (d >>= f) := by
  induction hd with
  | done ht h => exact hf _ _ ht h
  | ask hq _ ih => exact .ask hq ih

theorem Quiet.of_alike {s t : Cpu} (h : s.Alike t) {P : α → Prop} {d : Program (Option α × Cpu)}
    (hd : Quiet t P d) : Quiet s P d := by
  induction hd with
  | done ht hP => exact .done (h.trans ht) hP
  | ask hq _ ih => exact .ask hq ih

theorem Tentative.of_alike {s t : Cpu} (h : s.Alike t) {F : Prop} {P : α → Option ℕ → Prop}
    {d : Program (Option α × Cpu)} (hd : Tentative t F P d) : Tentative s F P d := by
  induction hd with
  | sure hd => exact .sure hd
  | fail f hF => exact .fail f hF
  | look hq _ ih => exact .look hq ih
  | sync ht hrefused hgranted => exact .sync (h.trans ht) hrefused hgranted

theorem Tentative.mono {s : Cpu} {F F' : Prop} (hF : F → F') {P P' : α → Option ℕ → Prop}
    (hP : ∀ a r, P a r → P' a r) {d : Program (Option α × Cpu)} (hd : Tentative s F P d) :
    Tentative s F' P' d := by
  induction hd with
  | sure hd => exact .sure (hd.mono fun a => hP a none)
  | fail f h => exact .fail f (hF h)
  | look hq _ ih => exact .look hq ih
  | @sync e next t ht hrefused hgranted =>
    exact .sync ht hrefused (hgranted.mono fun a => hP a (some e))

/-- After a quiet beginning a program is as tentative as its rest. -/
theorem Quiet.tentative_bind {s : Cpu} {Q : α → Prop} {F : Prop} {P : β → Option ℕ → Prop}
    {d : Program (Option α × Cpu)} {f : Option α × Cpu → Program (Option β × Cpu)}
    (hd : Quiet s Q d) (hf : ∀ a t, s.Alike t → Q a → Tentative s F P (f (some a, t))) :
    Tentative s F P (d >>= f) := by
  induction hd with
  | done ht h => exact hf _ _ ht h
  | ask hq _ ih => exact .look hq ih

/-- With a rest that is sure, and that does not go on after a refusal, a program stays tentative. -/
theorem Tentative.bind {s : Cpu} {F : Prop} {Q : α → Option ℕ → Prop} {P : β → Option ℕ → Prop}
    {d : Program (Option α × Cpu)} {f : α → Exec β} (hd : Tentative s F Q d)
    (hf : ∀ a r t, Q a r → Sure (P · r) (f a t)) : Tentative s F P (d >>= Exec.andThen f) := by
  induction hd with
  | sure hd => exact .sure (hd.bind fun a t h => hf a none t h)
  | fail f h => exact .fail f h
  | look hq _ ih => exact .look hq ih
  | @sync e next t ht hrefused hgranted =>
    refine .sync ht ?_ (hgranted.bind fun a t h => hf a (some e) t h)
    show next false >>= Exec.andThen f = _
    rw [hrefused]
    rfl

/-! ### Runs -/

section Run

variable {h : Bus σ} {b b' : σ}

/-- A sure program ends with a result. -/
theorem Sure.run {P : α → Prop} {d : Program (Option α × Cpu)} (hd : Sure P d) {o : Option α}
    {t : Cpu} (hr : d.run h b = .ok ((o, t), b')) : ∃ a, o = some a ∧ P a := by
  induction hd generalizing b with
  | done s hP =>
    cases hr
    exact ⟨_, rfl, hP⟩
  | ask hq _ ih =>
    obtain ⟨⟨x, b₁⟩, -, hr⟩ := Fault.bind_eq_ok hr
    exact ih x hr

/-- A sure program stops only where the bus does. -/
theorem Sure.run_error {P : α → Prop} {d : Program (Option α × Cpu)} (hd : Sure P d) {f : Fault}
    (hr : d.run h b = .error f) : ∃ q b₁, h q b₁ = .error f := by
  induction hd generalizing b with
  | done s _ => cases hr
  | ask _ _ ih =>
    rcases Fault.bind_eq_error hr with hq | ⟨⟨x, b₁⟩, -, hr⟩
    · exact ⟨_, _, hq⟩
    · exact ih x hr

/-- A tentative program stops where the bus does, or on its own account before it asks. -/
theorem Tentative.run_error {s : Cpu} {F : Prop} {P : α → Option ℕ → Prop}
    {d : Program (Option α × Cpu)} (hd : Tentative s F P d) {f : Fault}
    (hr : d.run h b = .error f) : (∃ q b₁, h q b₁ = .error f) ∨ F := by
  induction hd generalizing b with
  | sure hd => exact .inl (hd.run_error hr)
  | fail _ hF => exact .inr hF
  | look _ _ ih =>
    rcases Fault.bind_eq_error hr with hq | ⟨⟨x, b₁⟩, -, hr⟩
    · exact .inl ⟨_, _, hq⟩
    · exact ih x hr
  | sync _ hrefused hgranted =>
    rcases Fault.bind_eq_error hr with hq | ⟨⟨granted, b₁⟩, -, hr⟩
    · exact .inl ⟨_, _, hq⟩
    · cases granted with
      | false =>
        rw [hrefused] at hr
        cases hr
      | true => exact .inl (hgranted.run_error hr)

/-- A tentative program that ends with a result has the property of the result. -/
theorem Tentative.run_some {s : Cpu} {F : Prop} {P : α → Option ℕ → Prop}
    {d : Program (Option α × Cpu)} (hd : Tentative s F P d) {a : α} {t : Cpu}
    (hr : d.run h b = .ok ((some a, t), b')) : ∃ r, P a r := by
  induction hd generalizing b with
  | sure hd =>
    obtain ⟨a', ha, hP⟩ := hd.run hr
    cases ha
    exact ⟨none, hP⟩
  | fail f _ => cases hr
  | look hq _ ih =>
    obtain ⟨⟨x, b₁⟩, -, hr⟩ := Fault.bind_eq_ok hr
    exact ih x hr
  | @sync e next u hu hrefused hgranted =>
    obtain ⟨⟨granted, b₁⟩, -, hr⟩ := Fault.bind_eq_ok hr
    cases granted with
    | false =>
      rw [hrefused] at hr
      cases hr
    | true =>
      obtain ⟨a', ha, hP⟩ := hgranted.run hr
      cases ha
      exact ⟨some e, hP⟩

/-- A tentative program that was refused has only looked, up to the refusal, and has only
fetched. -/
theorem Tentative.run_none {s : Cpu} {F : Prop} {P : α → Option ℕ → Prop}
    {d : Program (Option α × Cpu)} (hd : Tentative s F P d) {t : Cpu}
    (hr : d.run h b = .ok ((none, t), b')) :
    s.Alike t ∧ ∃ before e, d.transcript h b = before ++ [⟨.sync e, false⟩] ∧
      ∀ x ∈ before, x.1.looks = true := by
  induction hd generalizing b with
  | sure hd =>
    obtain ⟨a, ha, -⟩ := hd.run hr
    cases ha
  | fail f _ => cases hr
  | @look q next hq _ ih =>
    obtain ⟨⟨x, b₁⟩, hx, hr⟩ := Fault.bind_eq_ok hr
    obtain ⟨ht, before, e, htr, hlooks⟩ := ih x hr
    refine ⟨ht, ⟨q, x⟩ :: before, e, ?_, fun y hy => ?_⟩
    · rw [Dialogue.transcript_ask hx, htr]
      rfl
    · rcases List.mem_cons.1 hy with rfl | hy
      · exact hq
      · exact hlooks y hy
  | @sync e next u hu hrefused hgranted =>
    obtain ⟨⟨granted, b₁⟩, hx, hr⟩ := Fault.bind_eq_ok hr
    cases granted with
    | false =>
      rw [hrefused] at hr
      cases hr
      refine ⟨hu, [], e, ?_, fun y hy => by cases hy⟩
      rw [Dialogue.transcript_ask hx, hrefused]
      rfl
    | true =>
      obtain ⟨a, ha, -⟩ := hgranted.run hr
      cases ha

end Run

end Bus
end TandemZ80
