import TandemZ80.Proofs.Alike
import TandemZ80.Proofs.Cpu.Polite

/-!
# The count of T-states steers nothing

Two processors that differ in nothing but their counts of T-states do the same, whatever the bus
answers, until the count of one of them overflows. The counts differ ever after.

* `Exec.Timeless`, a part of an instruction that does the same under another count;
  `Exec.Built.timeless`;
* `Cpu.step_retime` and `Cpu.advanceIdle_retime`.
-/

namespace TandemZ80

open Exec

variable {α β : Type}

/-! ### Parts of instructions -/

/-- A result of a part of an instruction, under another count. -/
def Exec.retimed (ticks : Ticks) (r : Option α × Cpu) : Bus.Program (Option α × Cpu) :=
  .done (r.1, r.2.retime ticks)

/-- A part of an instruction that does the same under every count, and leaves the count as it is. -/
def Exec.Timeless (m : Exec α) : Prop := ∀ s ticks, m (s.retime ticks) = m s >>= retimed ticks

namespace Exec.Timeless

variable {m : Exec α}

theorem bind {f : α → Exec β} (h : Timeless m) (hf : ∀ a, Timeless (f a)) : Timeless (m >>= f) := by
  intro s ticks
  have hthen : ∀ r, retimed ticks r >>= andThen f = andThen f r >>= retimed ticks := by
    rintro ⟨o, t⟩
    cases o with
    | none => rfl
    | some a => exact hf a t ticks
  rw [bind_apply, bind_apply, h, Dialogue.bind_assoc, Dialogue.bind_assoc]
  exact congrArg (m s >>= ·) (funext hthen)

theorem rendezvous (elapsed : ℕ) (port : UInt16) : Timeless (Exec.rendezvous elapsed port) := by
  intro s ticks
  rw [rendezvous_eq, rendezvous_eq, Dialogue.ask_bind]
  refine congrArg (Dialogue.ask _) (funext fun shared => ?_)
  split
  · split
    · rfl
    · rfl
  · rfl

end Exec.Timeless

theorem Exec.Built.timeless {rights : Right → Prop} {m : Exec α} (h : Built rights m) :
    Timeless m := by
  induction h with
  | pure a => exact fun _ _ => rfl
  | bind _ _ ih ihf => exact ih.bind ihf
  | regs _ ih => exact fun s => ih s.regs s
  | window _ ih => exact fun s => ih s.window s
  | modify hf =>
    exact fun s ticks => congrArg (fun t => Dialogue.done (some (), t)) (hf.ignoresTicks s ticks)
  | replace f _ _ _ ih => exact fun s => ih (f s.regs).1 { s with regs := (f s.regs).2 }
  | call _ => exact fun _ _ => rfl
  | acknowledge _ => exact fun _ _ => rfl
  | rendezvous elapsed port => exact .rendezvous elapsed port
  | overflow => exact fun _ _ => rfl

/-! ### Steps -/

/-- The same time is added to two counts, unless one of them overflows. -/
theorem Ticks.add_unless (a a' b : Ticks) :
    Fault.AlikeUnless (· = .overflow) (fun _ _ => True) (a.add b) (a'.add b) := by
  cases h : a.add b with
  | error f => exact .left (T := (· = .overflow)) (add_eq_error h) _
  | ok c =>
    cases h' : a'.add b with
    | error f => exact .right (T := (· = .overflow)) (add_eq_error h') _
    | ok c' => exact .ok trivial

namespace Cpu

/-- The same processor but for the count of T-states. -/
def SameButTicks (s t : Cpu) : Prop := ∃ ticks, t = s.retime ticks

/-- A step under another count takes as long and does the same, unless a count overflows. -/
theorem step_retime (s : Cpu) (ticks : Ticks) :
    Dialogue.AlikeUnless (· = .overflow) (fun r r' => r.1 = r'.1 ∧ r.2.SameButTicks r'.2) s.step
      (s.retime ticks).step := by
  have hbody : (s.retime ticks).step = perform s.action { s with afterEI := false } >>=
      fun r => retimed ticks r >>= finish (s.retime ticks) := by
    show perform s.action ({ s with afterEI := false }.retime ticks) >>= _ = _
    rw [(perform_built s.action).timeless, Dialogue.bind_assoc]
  rw [hbody]
  refine .bind (Dialogue.Alike.refl (F := fun _ => True) (R := Eq) (fun _ => trivial)
    (fun _ => rfl) _).unless ?_
  rintro ⟨o, t⟩ _ rfl
  show Dialogue.AlikeUnless _ _ _ (finish (s.retime ticks) (o, t.retime ticks))
  cases o with
  | none => exact .done ⟨rfl, ticks, rfl⟩
  | some cost =>
    unfold finish
    dsimp only
    by_cases hcost : cost < UInt32.size
    · rw [if_pos hcost, if_pos hcost]
      have hsum := Ticks.add_unless t.ticks (t.retime ticks).ticks (.ofCost (UInt32.ofNat cost))
      generalize t.ticks.add _ = sum at hsum ⊢
      generalize (t.retime ticks).ticks.add _ = sum' at hsum ⊢
      cases hsum with
      | alike h =>
        cases h with
        | @ok n n' _ => exact .done ⟨rfl, n', rfl⟩
        | error f => exact .fail f
      | left h => exact .left (T := (· = .overflow)) h _
      | right h => exact .right (T := (· = .overflow)) h _
    · rw [if_neg hcost, if_neg hcost]
      exact .fail _

theorem advanceIdle_retime (s : Cpu) (ticks n : Ticks) :
    Fault.AlikeUnless (· = .overflow) SameButTicks (s.advanceIdle n)
      ((s.retime ticks).advanceIdle n) := by
  unfold advanceIdle
  refine .bind (.alike (.refl (R := Eq) (fun _ => rfl) _)) fun u u' _ => ?_
  exact (Ticks.add_unless s.ticks ticks n).bind fun sum sum' _ => .ok ⟨sum', rfl⟩

end Cpu
end TandemZ80
