import TandemZ80.Cpu.Snapshot
import TandemZ80.Proofs.Cpu.Timing

/-!
# Refused steps

A step that is refused a shared port gives back PC, R and the hold-off after EI. That undoes all of
it where it executes an instruction. The acceptance of an interrupt in mode 0 has ended a halt and
masked interrupts before the instruction on the bus can be refused, and that is not given back.

* `Exec.next_tentative` and the parts of a step that are sure;
* `Cpu.perform_tentative`, all that the body of a step can do;
* `Cpu.save_retract`, what is left of a refused step, and `Cpu.refused_step`.
-/

namespace TandemZ80

open Exec

variable {σ : Type}

namespace Exec

theorem next_tentative : Tentative next True (Timely (21 + 4 * prefixLimit) 0) :=
  .quiet_bind (.fetchOpcode fun op => instruction_tentative 0 op)

theorem acceptNMI_sure : Sure acceptNMI (Costs 21) :=
  .bind (.modify (.bind (.update (.bind (.regs fun r => .bind (.push (.bind (.jump
    (.pure (by decide))))))))))

theorem wait_sure : Sure wait (Costs 21) := .work (by decide)

/-- The acceptance of an interrupt before anything is asked of the bus. -/
def acknowledged (s : Registers) : Registers :=
  { s with halted := false, iff1 := false, iff2 := false }.refresh

/-- What is left of the acceptance of an interrupt. -/
def serve : InterruptMode → Exec Nat
  | .mode0 => do
    let op ← call .acknowledge
    let rest ← instruction 2 op
    return 2 + rest
  | .mode1 => do
    push (← regs).pc
    jump 0x0038
    return 13
  | .mode2 => do
    let vector := word (← regs).i (← call .acknowledge)
    push (← regs).pc
    jump (← readWord vector)
    return 19

theorem acceptInt_eq (s : Cpu) :
    acceptInt s = serve s.regs.im { s with regs := acknowledged s.regs } := by
  rfl

/-- The acceptance in the other modes asks for no port. -/
theorem serve_sure {m : InterruptMode} (hm : m ≠ .mode0) : Sure (serve m) (Costs 21) := by
  cases m with
  | mode0 => exact absurd rfl hm
  | mode1 => exact .bind (.regs fun r => .bind (.push (.bind (.jump (.pure (by decide))))))
  | mode2 =>
    exact .bind (.regs fun r => .bind (.call rfl fun v => .bind (.regs fun r' => .bind (.push (.bind
      (.readWord fun a => .bind (.jump (.pure (by decide)))))))))

/-- Only the acceptance in mode 0 asks for a port: it executes the instruction on the bus. -/
theorem serve_tentative (m : InterruptMode) :
    Tentative (serve m) True (Timely (23 + 4 * prefixLimit) 0) := by
  by_cases hm : m = .mode0
  · subst hm
    refine .quiet_bind (.call rfl fun op => .bind ((instruction_tentative 2 op).mono id ?_))
    intro rest r hrest
    have := hrest.least
    have := hrest.most
    refine .pure ⟨by omega, by omega, fun e he => ?_⟩
    have := hrest.before e he
    omega
  · exact .of_sure ((serve_sure hm).mono fun cost hc => (Timely.of_none hc).le (by omega))

end Exec

namespace Cpu

variable {h : Bus σ} {s t : Cpu} {b b' : σ}

/-- The processor when the instruction of a step begins. -/
def begun (s : Cpu) : Cpu :=
  { s with
    regs := if s.action = .acceptInt then acknowledged s.regs else s.regs
    afterEI := false }

/-- The body of a step, once it has begun. -/
theorem perform_tentative (s : Cpu) :
    Bus.Tentative s.begun True (Timely (23 + 4 * prefixLimit) 0)
      (perform s.action { s with afterEI := false }) := by
  have weaken : ∀ cost, Costs 21 cost → Timely (23 + 4 * prefixLimit) 0 cost none :=
    fun cost hc => (Timely.of_none hc).le (by omega)
  unfold begun
  cases ha : s.action with
  | acceptNMI => exact .sure ((acceptNMI_sure _).mono weaken)
  | wait => exact .sure ((wait_sure _).mono weaken)
  | execute => exact (next_tentative _).mono id fun cost r hc => hc.le (by omega)
  | acceptInt =>
    show Bus.Tentative _ _ _ (acceptInt { s with afterEI := false })
    rw [acceptInt_eq]
    exact serve_tentative _ _

/-- A step with a result returns its cost. -/
theorem cost_of_finish {cost n : ℕ} {u : Cpu}
    (hr : (finish s (some cost, u)).run h b = .ok ((n, t), b')) : n = cost := by
  simp only [finish] at hr
  split at hr
  · split at hr
    · cases hr
      rfl
    · cases hr
  · cases hr

theorem iff1_of_acceptInt (ha : s.action = .acceptInt) : s.regs.iff1 = true := by
  unfold action at ha
  split at ha
  · cases ha
  · split at ha
    · next hmask =>
      rw [Bool.and_eq_true, Bool.and_eq_true] at hmask
      exact hmask.1.2
    · split at ha <;> cases ha

/-- What is left of a refused step: the end of a halt and the masking of interrupts, if it was the
acceptance of an interrupt. -/
theorem save_retract (ht : s.begun.Alike t) :
    (retract s t).save =
      if s.action = .acceptInt then { s.save with iff1 := false, iff2 := false, halted := false }
      else s.save := by
  obtain ⟨pc, r, w, rfl⟩ := ht
  by_cases ha : s.action = .acceptInt
  · rw [if_pos ha]
    simp only [begun, if_pos ha]
    rfl
  · rw [if_neg ha]
    simp only [begun, if_neg ha]
    rfl

/-- A step that returns 0 was refused a shared port. Until then it has only looked at memory and at
the ports' settings. The processor is as before the step, except that the acceptance of an interrupt
has ended a halt and masked interrupts. -/
theorem refused_step (hr : s.step.run h b = .ok ((0, t), b')) :
    (∃ before elapsed, s.step.transcript h b = before ++ [⟨.sync elapsed, false⟩] ∧
        ∀ x ∈ before, x.1.looks = true) ∧
      t.save = (if s.action = .acceptInt then
          { s.save with iff1 := false, iff2 := false, halted := false }
        else s.save) ∧
      (t.save = s.save ↔ s.action ≠ .acceptInt) := by
  have htentative := s.perform_tentative
  unfold step at hr ⊢
  rw [Dialogue.run_bind] at hr
  rw [Dialogue.transcript_bind]
  obtain ⟨⟨⟨o, u⟩, b₁⟩, hbody, hr⟩ := Fault.bind_eq_ok hr
  cases o with
  | some cost =>
    -- What is not refused costs something, so it is not this that has returned 0.
    obtain ⟨r, hc⟩ := htentative.run_some hbody
    have hleast := hc.least
    have hcost := cost_of_finish hr
    omega
  | none =>
    obtain ⟨hu, before, e, htr, hlooks⟩ := htentative.run_none hbody
    cases hr
    have hsave := save_retract hu
    refine ⟨⟨before, e, ?_, hlooks⟩, hsave, ?_⟩
    · rw [htr, hbody]
      exact List.append_nil _
    · rw [hsave]
      by_cases ha : s.action = .acceptInt
      · rw [if_pos ha]
        refine ⟨fun heq => ?_, fun hne => (hne ha).elim⟩
        have hiff : s.save.iff1 = true := iff1_of_acceptInt ha
        rw [← heq] at hiff
        cases hiff
      · rw [if_neg ha]
        exact ⟨fun _ => ha, fun _ => rfl⟩

/-- A bus on which every byte is DB, an input from a port, and on which every port is refused. -/
def stubborn : Bus Unit
  | .read _, s => .ok ((0xDB : UInt8), s)
  | .write .., s => .ok ((), s)
  | .input _, s => .ok ((0xFF : UInt8), s)
  | .output .., s => .ok ((), s)
  | .acknowledge, s => .ok ((0xDB : UInt8), s)
  | .window _, s => .ok (none, s)
  | .readWindow .., s => .ok (none, s)
  | .isShared _, s => .ok (true, s)
  | .sync _, s => .ok (false, s)
  | .stop _, s => .ok ((), s)

/-- An interrupt is about to be accepted in mode 0. -/
def interrupted : Cpu :=
  { initial with regs := { initial.regs with iff1 := true, iff2 := true }, intLine := true }

/-- Refused as an instruction, an input leaves the processor as it was; refused as the instruction
of an interrupt, it leaves interrupts masked. -/
theorem stubborn_refuses :
    (∃ t, initial.step.run stubborn () = .ok ((0, t), ()) ∧ t.save = initial.save) ∧
      ∃ t, interrupted.step.run stubborn () = .ok ((0, t), ()) ∧ t.save ≠ interrupted.save := by
  have hplain : initial.step.run stubborn () = .ok ((0, initial), ()) := rfl
  have hmasked : interrupted.step.run stubborn () =
      .ok ((0, { initial with intLine := true }), ()) := rfl
  refine ⟨⟨_, hplain, ?_⟩, ⟨_, hmasked, ?_⟩⟩
  · exact (refused_step hplain).2.2.2 (by decide)
  · exact fun heq => (refused_step hmasked).2.2.1 heq rfl

end Cpu
end TandemZ80
