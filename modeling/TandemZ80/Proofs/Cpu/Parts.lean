import TandemZ80.Proofs.Cpu.Tentative

/-!
# Rules for parts of instructions

The three kinds of parts, for all states of the processor, with one rule for each building block. A
rule for sequencing asks for the postcondition that makes the rest go through, so that a part is
taken to pieces from its beginning to its end.

* `Exec.Quiet` and its rules, down to the fetches;
* `Exec.Sure` and its rules, down to the stack;
* `Exec.Tentative` and its rules, down to `Exec.Tentative.rendezvous`.
-/

namespace TandemZ80.Exec

variable {α β : Type}

/-- A part that is quiet in every state. -/
def Quiet (m : Exec α) (P : α → Prop) : Prop := ∀ s, Bus.Quiet s P (m s)

/-- A part that is sure in every state. -/
def Sure (m : Exec α) (P : α → Prop) : Prop := ∀ s, Bus.Sure P (m s)

/-- A part that is tentative in every state. -/
def Tentative (m : Exec α) (F : Prop) (P : α → Option ℕ → Prop) : Prop :=
  ∀ s, Bus.Tentative s F P (m s)

/-! ### Quiet parts -/

namespace Quiet

variable {m : Exec α} {f : α → Exec β} {P : α → Prop} {Q : β → Prop}

theorem pure {a : α} (h : P a) : Quiet (Pure.pure a) P := fun s => .done (.refl s) h

theorem bind (h : Quiet m fun a => Quiet (f a) Q) : Quiet (m >>= f) Q :=
  fun s => (h s).bind fun _ t ht ha => .of_alike ht (ha t)

theorem state {P : Cpu → Prop} (h : ∀ s, P s) : Quiet state P := fun s => .done (.refl s) (h s)

theorem regs {P : Registers → Prop} (h : ∀ r, P r) : Quiet regs P := fun s => .done (.refl s) (h _)

theorem call {q : Bus.Call} {P : Bus.Reply q → Prop} (hq : q.looks = true) (h : ∀ x, P x) :
    Quiet (call q) P :=
  fun s => .ask hq fun x => .done (.refl s) (h x)

theorem advance {f : UInt16 → UInt16} {g : UInt8 → UInt8} {P : Unit → Prop} (h : P ()) :
    Quiet (update fun r => { r with pc := f r.pc, r := g r.r }) P :=
  fun s => .done ⟨f s.regs.pc, g s.regs.r, s.window, rfl⟩ h

theorem lookUp {a : UInt16} {P : UInt8 → Prop} (h : ∀ v, P v) : Quiet (lookUp a) P := by
  refine .bind (.call rfl fun w => .bind fun s => ?_)
  exact .done ⟨s.regs.pc, s.regs.r, w, rfl⟩ (.call rfl h)

theorem fetchAt {a : UInt16} {P : UInt8 → Prop} (h : ∀ v, P v) : Quiet (fetchAt a) P := by
  refine .bind (.state fun s => ?_)
  cases s.window with
  | none => exact lookUp h
  | some w =>
    show Quiet (ite _ _ _) P
    by_cases hw : w.contains a = true
    · rw [if_pos hw]
      refine .bind (.call rfl fun v => ?_)
      cases v with
      | none => exact lookUp h
      | some v => exact .pure (h v)
    · rw [if_neg hw]
      exact lookUp h

theorem peekOpcode {P : UInt8 → Prop} (h : ∀ v, P v) : Quiet peekOpcode P :=
  .bind (.regs fun _ => .fetchAt h)

theorem fetchByte {P : UInt8 → Prop} (h : ∀ v, P v) : Quiet fetchByte P :=
  .bind (.regs fun r => .bind (.fetchAt fun v =>
    .bind (.advance (f := fun _ => r.pc + 1) (g := id) (.pure (h v)))))

theorem refresh {P : Unit → Prop} (h : P ()) : Quiet (update Registers.refresh) P :=
  .advance (f := id) (g := fun r => r &&& 0x80 ||| (r + 1) &&& 0x7F) h

theorem fetchOpcode {P : UInt8 → Prop} (h : ∀ v, P v) : Quiet fetchOpcode P :=
  .bind (.refresh (.fetchByte h))

theorem fetchWord {P : UInt16 → Prop} (h : ∀ v, P v) : Quiet fetchWord P :=
  .bind (.fetchByte fun _ => .bind (.fetchByte fun _ => .pure (h _)))

theorem sure (h : Quiet m P) : Sure m P := fun s => (h s).sure

end Quiet

/-! ### Sure parts -/

namespace Sure

variable {m : Exec α} {f : α → Exec β} {P : α → Prop} {Q : β → Prop}

theorem pure {a : α} (h : P a) : Sure (Pure.pure a) P := fun s => .done s h

theorem bind (h : Sure m fun a => Sure (f a) Q) : Sure (m >>= f) Q :=
  fun s => (h s).bind fun _ t ha => ha t

theorem mono {P' : α → Prop} (h : Sure m P) (hP : ∀ a, P a → P' a) : Sure m P' :=
  fun s => (h s).mono hP

theorem regs {P : Registers → Prop} (h : ∀ r, P r) : Sure regs P := fun s => .done s (h _)

theorem modify {f : Cpu → Cpu} {P : Unit → Prop} (h : P ()) : Sure (modify f) P :=
  fun s => .done (f s) h

theorem update {f : Registers → Registers} {P : Unit → Prop} (h : P ()) : Sure (update f) P :=
  modify h

theorem call {q : Bus.Call} {P : Bus.Reply q → Prop} (hq : q.asks = false) (h : ∀ x, P x) :
    Sure (call q) P :=
  fun s => .ask hq fun x => .done s (h x)

theorem read {a : UInt16} {P : UInt8 → Prop} (h : ∀ v, P v) : Sure (read a) P := call rfl h

theorem write {a : UInt16} {v : UInt8} {P : Unit → Prop} (h : P ()) : Sure (write a v) P :=
  call rfl fun _ => h

theorem fetchByte {P : UInt8 → Prop} (h : ∀ v, P v) : Sure fetchByte P := (Quiet.fetchByte h).sure

theorem fetchOpcode {P : UInt8 → Prop} (h : ∀ v, P v) : Sure fetchOpcode P :=
  (Quiet.fetchOpcode h).sure

theorem fetchWord {P : UInt16 → Prop} (h : ∀ v, P v) : Sure fetchWord P := (Quiet.fetchWord h).sure

theorem readWord {a : UInt16} {P : UInt16 → Prop} (h : ∀ v, P v) : Sure (readWord a) P :=
  .bind (.read fun _ => .bind (.read fun _ => .pure (h _)))

theorem writeWord {a v : UInt16} {P : Unit → Prop} (h : P ()) : Sure (writeWord a v) P :=
  .bind (.write (.write h))

theorem push {v : UInt16} {P : Unit → Prop} (h : P ()) : Sure (push v) P :=
  .bind (.update (.bind (.regs fun _ => .bind (.write (.bind (.update
    (.bind (.regs fun _ => .write h))))))))

theorem pop {P : UInt16 → Prop} (h : ∀ v, P v) : Sure pop P :=
  .bind (.regs fun _ => .bind (.readWord fun v => .bind (.update (.pure (h v)))))

theorem jump {a : UInt16} {P : Unit → Prop} (h : P ()) : Sure (jump a) P := .update h

theorem jumpBy {d : UInt8} {P : Unit → Prop} (h : P ()) : Sure (jumpBy d) P :=
  .bind (.regs fun _ => .jump h)

theorem ite {c : Prop} [Decidable c] {m m' : Exec α} (h : Sure m P) (h' : Sure m' P) :
    Sure (if c then m else m') P := by
  split
  · exact h
  · exact h'

end Sure

/-! ### Tentative parts -/

namespace Tentative

variable {m : Exec α} {f : α → Exec β} {F : Prop} {P : α → Option ℕ → Prop}
  {Q : β → Option ℕ → Prop}

theorem of_sure (h : Sure m (P · none)) : Tentative m F P := fun s => .sure (h s)

theorem mono {F' : Prop} {P' : α → Option ℕ → Prop} (h : Tentative m F P) (hF : F → F')
    (hP : ∀ a r, P a r → P' a r) : Tentative m F' P' :=
  fun s => (h s).mono hF hP

theorem quiet_bind (h : Quiet m fun a => Tentative (f a) F Q) : Tentative (m >>= f) F Q :=
  fun s => (h s).tentative_bind fun _ t ht ha => .of_alike ht (ha t)

theorem bind (h : Tentative m F fun a r => Sure (f a) (Q · r)) : Tentative (m >>= f) F Q :=
  fun s => (h s).bind fun _ _ t ha => ha t

/-- What asks for a port is tentative. It stops if it asks too late for the time to be counted. -/
theorem rendezvous {elapsed : ℕ} {port : UInt16} {P : Unit → Option ℕ → Prop} (hfree : P () none)
    (hgranted : P () (some elapsed)) :
    Tentative (rendezvous elapsed port) (UInt32.size ≤ elapsed) P := by
  refine quiet_bind (.call rfl fun shared => ?_)
  by_cases hshared : shared = true
  · rw [if_pos hshared]
    by_cases hfit : elapsed < UInt32.size
    · rw [if_pos hfit]
      exact fun s => .sync (.refl s) rfl (.done s hgranted)
    · rw [if_neg hfit]
      exact fun s => .fail _ (Nat.le_of_not_lt hfit)
  · rw [if_neg hshared]
    exact .of_sure (.pure hfree)

end Tentative

end TandemZ80.Exec
