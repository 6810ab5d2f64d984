import TandemZ80.Proofs.Cpu.Built

/-!
# What a step comes to behind its prefixes

An opcode with index prefixes is executed in two parts. First the prefixes are resolved, which is
nothing but fetching; then what they come to is executed. A step ends between the two if a prefix is
followed by another one.

* `Resolved`, what the prefixes come to, and `Exec.resolve`, how that is found;
* `Opcode.execute` and `Resolved.execute`, the rest, and `Exec.opcode_eq`, which puts both together,
  with `Exec.opcode_of_ne_index` and `Exec.instruction_of_index`, where there is no prefix, or one;
* `Exec.Fetches`, a part that does no more than fetch, and `Exec.resolve_fetches`;
* `Cpu.opening`, the part of a step until an opcode is resolved, with `Cpu.perform_execute` and
  `Cpu.perform_mode0`.
-/

namespace TandemZ80

/-- What index prefixes come to: an opcode, with the register that stands in for HL, or nothing if
the last prefix is followed by another one. -/
structure Resolved where
  prefixes : ℕ
  target : Option (Index × Opcode)

namespace Exec

/-- Resolve an opcode that has been fetched, with at most `n` prefixes. -/
def resolve (n : ℕ) (x : Index) (op : UInt8) : Exec Resolved :=
  match n with
  | 0 => fault .overflow
  | n + 1 =>
    match Opcode.decode op with
    | .index y => do
      if Opcode.isIndex (← peekOpcode) then return ⟨1, none⟩
      let op ← fetchOpcode
      let r ← resolve n y op
      return { r with prefixes := r.prefixes + 1 }
    | o => return ⟨0, some (x, o)⟩

end Exec

open Exec

/-- Execute an opcode. A prefix does nothing by itself. -/
def Opcode.execute (x : Index) (elapsed : ℕ) : Opcode → Exec ℕ
  | .plain i => i.execute x elapsed
  | .bits => do
    if x = .hl then (BitInstruction.decode (← fetchOpcode)).execute
    else
      let d ← fetchByte
      (BitInstruction.decode (← fetchByte)).executeIndexed x d
  | .extended => do (ExtendedInstruction.decode (← fetchOpcode)).execute elapsed
  | .index _ => return 0

/-- Execute what prefixes come to. Each of them takes four T-states. -/
def Resolved.execute (r : Resolved) (elapsed : ℕ) : Exec ℕ :=
  match r.target with
  | none => return 4 * r.prefixes
  | some (x, o) => do
    let rest ← o.execute x (elapsed + 4 * r.prefixes)
    return 4 * r.prefixes + rest

/-- One more prefix takes its time before the rest. -/
theorem Resolved.execute_succ (r : Resolved) (elapsed : ℕ) :
    { r with prefixes := r.prefixes + 1 }.execute elapsed =
      r.execute (elapsed + 4) >>= fun rest => pure (4 + rest) := by
  obtain ⟨k, target⟩ := r
  have hcost : ∀ rest, 4 * (k + 1) + rest = 4 + (4 * k + rest) := fun rest => by omega
  cases target with
  | none => simp only [execute, pure_bind, Nat.mul_succ, Nat.add_comm]
  | some target =>
    have helapsed : elapsed + 4 * (k + 1) = elapsed + 4 + 4 * k := by omega
    simp only [execute, bind_assoc, pure_bind, helapsed, hcost]

/-- An opcode is resolved, and then executed. -/
theorem Exec.opcode_eq (n : ℕ) (x : Index) (elapsed : ℕ) (op : UInt8) :
    opcode n x elapsed op = resolve n x op >>= fun r => r.execute elapsed := by
  induction n generalizing x elapsed op with
  | zero => rfl
  | succ n ih =>
    have hdone : ∀ o : Opcode, (pure ⟨0, some (x, o)⟩ >>= fun r : Resolved => r.execute elapsed) =
        o.execute x elapsed := fun o => by
      simp only [pure_bind, Resolved.execute, Nat.mul_zero, Nat.add_zero, Nat.zero_add, bind_pure]
    unfold opcode resolve
    cases Opcode.decode op with
    | plain i => exact (hdone (.plain i)).symm
    | bits => exact (hdone .bits).symm
    | extended => exact (hdone .extended).symm
    | index y =>
      simp only [ih, bind_assoc]
      refine congrArg (peekOpcode >>= ·) (funext fun seen => ?_)
      split
      · rfl
      · simp only [bind_assoc, pure_bind, Resolved.execute_succ]

/-- An opcode that is no prefix is executed as it is. -/
theorem Exec.opcode_of_ne_index {op : UInt8} (hop : ∀ y, Opcode.decode op ≠ .index y) (n : ℕ)
    (x : Index) (elapsed : ℕ) :
    opcode (n + 1) x elapsed op = (Opcode.decode op).execute x elapsed := by
  unfold opcode
  cases hdecode : Opcode.decode op with
  | index y => exact absurd hdecode (hop y)
  | _ => rfl

/-- A prefix is followed by another one, which ends the instruction, or by an opcode, which is
executed on the register that the prefix names. -/
theorem Exec.instruction_of_index {p : UInt8} {y : Index} (hp : Opcode.decode p = .index y)
    (elapsed : ℕ) :
    instruction elapsed p = peekOpcode >>= fun seen =>
      if Opcode.isIndex seen = true then pure 4
      else fetchOpcode >>= fun op => opcode (prefixLimit - 1) y (elapsed + 4) op >>= fun rest =>
        pure (4 + rest) := by
  have hopcode : ∀ n, opcode (n + 1) .hl elapsed p = peekOpcode >>= fun seen =>
      if Opcode.isIndex seen = true then pure 4
      else fetchOpcode >>= fun op => opcode n y (elapsed + 4) op >>= fun rest =>
        pure (4 + rest) := by
    intro n
    conv_lhs => rw [opcode, hp]
  exact hopcode (prefixLimit - 1)

theorem Bus.Quiet.ends {α : Type} {s : Cpu} {P : α → Prop} {d : Bus.Program (Option α × Cpu)}
    (hd : Bus.Quiet s P d) : d.Ends fun r => s.Alike r.2 := by
  induction hd with
  | done ht _ => exact .done ht
  | ask _ _ ih => exact .ask _ ih

namespace Exec

/-- A part of an instruction that does no more than fetch, though it may stop on a fault. -/
def Fetches {α : Type} (m : Exec α) : Prop := ∀ s, (m s).Ends fun r => s.Alike r.2

theorem Quiet.fetches {α : Type} {m : Exec α} {P : α → Prop} (hm : Quiet m P) : Fetches m :=
  fun s => (hm s).ends

theorem Fetches.bind {α β : Type} {m : Exec α} {f : α → Exec β} (hm : Fetches m)
    (hf : ∀ a, Fetches (f a)) : Fetches (m >>= f) := by
  intro s
  refine (hm s).bind ?_
  rintro ⟨o, t⟩ ht
  cases o with
  | none => exact .done ht
  | some a => exact (hf a t).mono fun r hr => ht.trans hr

theorem Fetches.pure {α : Type} (a : α) : Fetches (Pure.pure a) := fun s => .done (.refl s)

/-- Until an opcode is resolved there is nothing but fetching. -/
theorem resolve_fetches (n : ℕ) (x : Index) (op : UInt8) : Fetches (resolve n x op) := by
  induction n generalizing x op with
  | zero => exact fun s => .fail _
  | succ n ih =>
    unfold resolve
    cases Opcode.decode op with
    | index y =>
      refine .bind (Quiet.peekOpcode fun _ => trivial).fetches fun seen => ?_
      split
      · exact .pure _
      · exact .bind (Quiet.fetchOpcode fun _ => trivial).fetches fun op' =>
          .bind (ih y op') fun r => .pure _
    | _ => exact .pure _

end Exec

/-- What an opcode comes to needs the right to hold interrupts off only if it is EI. -/
theorem Resolved.execute_built {rights : Exec.Right → Prop} (r : Resolved)
    (hei : ∀ x, r.target = some (x, .plain .ei) → rights .holdOff) (hr : rights .moveR)
    (elapsed : ℕ) : Built rights (r.execute elapsed) := by
  obtain ⟨k, target⟩ := r
  cases target with
  | none => exact .pure _
  | some target =>
    obtain ⟨x, o⟩ := target
    refine .bind ?_ fun rest => .pure _
    cases o with
    | plain i => exact i.execute_built (fun hi => hei x (by rw [hi])) x _
    | bits =>
      refine .ite (.bind (.fetchOpcode hr) fun b => BitInstruction.execute_built _) ?_
      exact .bind .fetchByte fun d => .bind .fetchByte fun b =>
        BitInstruction.executeIndexed_built _ x d
    | extended =>
      exact .bind (.fetchOpcode hr) fun b => ExtendedInstruction.execute_built _ (fun _ => hr) _
    | index y => exact .pure 0

/-! ### Steps -/

namespace Cpu

/-- Fetch the opcodes of a step up to the one that is executed. A step that executes none, or an
interrupt that brings none, fetches none. -/
def opening (s : Cpu) : Bus.Program (Option Resolved × Cpu) :=
  match s.action with
  | .execute => (do resolve prefixLimit .hl (← fetchOpcode)) s.begun
  | .acceptInt =>
    match s.regs.im with
    | .mode0 => (do resolve prefixLimit .hl (← call .acknowledge)) s.begun
    | _ => .done (none, s.begun)
  | _ => .done (none, s.begun)

theorem perform_execute {s : Cpu} (ha : s.action = .execute) :
    perform s.action { s with afterEI := false } =
      s.opening >>= andThen fun r => r.execute 0 := by
  have hbegun : s.begun = { s with afterEI := false } := by
    simp only [begun, ha, reduceCtorEq, if_false]
  have hnext : next = (do resolve prefixLimit .hl (← fetchOpcode)) >>= fun r => r.execute 0 := by
    simp only [next, instruction, opcode_eq, bind_assoc]
  simp only [opening, ha, hbegun, perform]
  rw [hnext, bind_apply]

theorem perform_mode0 {s : Cpu} (ha : s.action = .acceptInt) (hm : s.regs.im = .mode0) :
    perform s.action { s with afterEI := false } =
      s.opening >>= andThen fun r => r.execute 2 >>= fun rest => pure (2 + rest) := by
  have hbegun : s.begun = { s with regs := acknowledged s.regs, afterEI := false } := by
    simp only [begun, ha, if_true]
  have hserve : serve .mode0 = (do resolve prefixLimit .hl (← call .acknowledge)) >>=
      fun r => r.execute 2 >>= fun rest => pure (2 + rest) := by
    simp only [serve, instruction, opcode_eq, bind_assoc]
  simp only [opening, ha, hm, hbegun, perform]
  rw [acceptInt_eq]
  show serve s.regs.im _ = _
  rw [hm, hserve, bind_apply]

end Cpu
end TandemZ80
