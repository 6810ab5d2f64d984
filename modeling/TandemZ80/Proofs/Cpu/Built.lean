import TandemZ80.Proofs.Cpu.Refusal

/-!
# How instructions are put together

The parts of instructions are put together from a few building blocks. None of them looks at the
count of T-states or changes it, none drives the interrupt line, and ports are asked for in one of
them only, after the bus has been asked whether the port is shared. To hold interrupts off, to take
a non-maskable interrupt, to ask who interrupts, and to move R takes a right that few parts have.
What holds of the blocks, and goes through sequencing, holds of every step.

* `Registers.KeepsR`, work on registers that leaves R alone, with one lemma for each way to set a
  register;
* `Exec.Right` and `Exec.Built`, the blocks, and the rules for what they make up;
* `Instruction.execute_built`, `BitInstruction.execute_built`, `ExtendedInstruction.execute_built`,
  and `Exec.opcode_built`: EI alone holds interrupts off, and what is not a fetch of an opcode moves
  R only if it is `LD R,A`;
* `Cpu.perform_built`, every body of a step, with the rights of `Action.rights`.
-/

namespace TandemZ80

variable {α β : Type}

/-! ### Registers -/

namespace Registers

/-- Work on registers that leaves R alone. -/
def KeepsR (f : Registers → Registers) : Prop := ∀ s, (f s).r = s.r

namespace KeepsR

theorem setIndex (x : Index) (v : Registers → UInt16) :
    KeepsR fun s => s.setIndex x (v s) := fun s => by
  cases x <;> rfl

theorem setPair (x : Index) (p : Pair) (v : Registers → UInt16) :
    KeepsR fun s => s.setPair x p (v s) := by
  cases p with
  | hl => exact setIndex x v
  | _ => exact fun s => rfl

theorem set8 (x : Index) (q : Reg8) (v : Registers → UInt8) : KeepsR fun s => s.set8 x q (v s) := by
  cases q with
  | h => exact setIndex x fun s => word (v s) (low (s.index x))
  | l => exact setIndex x fun s => word (high (s.index x)) (v s)
  | _ => exact fun s => rfl

theorem setStackPair (x : Index) (p : StackPair) (v : UInt16) : KeepsR (·.setStackPair x p v) := by
  cases p with
  | hl => exact setIndex x fun _ => v
  | _ => exact fun s => rfl

theorem alu (op : AluOp) (v : Registers → UInt8) : KeepsR fun s => s.alu op (v s) := fun s => by
  cases op <;> rfl

theorem addPair (x : Index) (p : Pair) : KeepsR (·.addPair x p) := fun s => by
  cases x <;> rfl

end KeepsR

theorem bitOp_r (s : Registers) (op : BitOp) (v xy : UInt8) : (s.bitOp op v xy).2.r = s.r := by
  cases op <;> rfl

end Registers

/-! ### Building blocks -/

/-- The same processor with another count of T-states. -/
def Cpu.retime (s : Cpu) (ticks : Ticks) : Cpu := { s with ticks }

/-- A change that neither depends on the count of T-states nor moves it. -/
def Cpu.IgnoresTicks (f : Cpu → Cpu) : Prop :=
  ∀ (s : Cpu) (ticks : Ticks), f (s.retime ticks) = (f s).retime ticks

/-- What only some parts of instructions may do. -/
inductive Exec.Right
  /-- Hold interrupts off for one more instruction. -/
  | holdOff
  /-- Take the non-maskable interrupt that is waiting. -/
  | takeNMI
  /-- Ask who interrupts. -/
  | acknowledge
  /-- Move R: an opcode is fetched, an interrupt is accepted, or R is loaded. -/
  | moveR
  deriving DecidableEq

/-- What a step may do. -/
def Action.rights : Action → Exec.Right → Prop
  | .acceptNMI, r => r = .takeNMI ∨ r = .moveR
  | .acceptInt, r => r = .holdOff ∨ r = .acknowledge ∨ r = .moveR
  | .wait, r => r = .moveR
  | .execute, r => r = .holdOff ∨ r = .moveR

/-- From `s` to `t` nothing becomes of the interrupt line, and nothing of the latches and of R for
which there is no right. -/
structure Cpu.Unchanged (rights : Exec.Right → Prop) (s t : Cpu) : Prop where
  line : t.intLine = s.intLine
  afterEI : ¬rights .holdOff → t.afterEI = s.afterEI
  nmiPending : ¬rights .takeNMI → t.nmiPending = s.nmiPending
  r : ¬rights .moveR → t.regs.r = s.regs.r

/-- A change that ignores the count of T-states, and what it has no right to. -/
structure Cpu.Modest (rights : Exec.Right → Prop) (f : Cpu → Cpu) : Prop where
  ignoresTicks : IgnoresTicks f
  unchanged : ∀ s, Unchanged rights s (f s)

/-- The calls for which a part of an instruction needs no reason. A run is ended at once or not at
all. -/
def Bus.Call.ordinary : Bus.Call → Bool
  | .sync _ | .acknowledge => false
  | .stop clocks => clocks == 0
  | _ => true

/-- A part of an instruction that is put together from building blocks, with some rights. -/
inductive Exec.Built (rights : Exec.Right → Prop) : {α : Type} → Exec α → Prop
  | pure {α : Type} (a : α) : Built rights (Pure.pure a)
  | bind {α β : Type} {m : Exec α} {f : α → Exec β} (h : Built rights m)
      (hf : ∀ a, Built rights (f a)) : Built rights (m >>= f)
  /-- Registers are only looked at. -/
  | regs {α : Type} {f : Registers → Exec α} (hf : ∀ r, Built rights (f r)) :
      Built rights (Exec.regs >>= f)
  /-- Of the rest of the processor only the window is looked at. -/
  | window {α : Type} {f : Option Window → Exec α} (hf : ∀ w, Built rights (f w)) :
      Built rights (Exec.state >>= fun s => f s.window)
  | modify {f : Cpu → Cpu} (hf : Cpu.Modest rights f) : Built rights (Exec.modify f)
  /-- Registers are replaced, and the rest depends on what has come of it. -/
  | replace {α β : Type} (f : Registers → β × Registers) (g : β → Exec α)
      (hf : Registers.KeepsR fun r => (f r).2) (hg : ∀ w, Built rights (g w)) :
      Built rights (Exec.regs >>= fun r => Exec.update (fun _ => (f r).2) >>= fun _ => g (f r).1)
  | call {q : Bus.Call} (hq : q.ordinary = true) : Built rights (Exec.call q)
  | acknowledge (h : rights .acknowledge) : Built rights (Exec.call .acknowledge)
  /-- A port is asked for only if it is shared. -/
  | rendezvous (elapsed : ℕ) (port : UInt16) : Built rights (Exec.rendezvous elapsed port)
  | overflow {α : Type} : Built rights (Exec.fault (α := α) .overflow)

variable {rights : Exec.Right → Prop}

theorem Bus.Call.asks_of_ordinary {q : Bus.Call} (h : q.ordinary = true) : q.asks = false := by
  cases q <;> first | rfl | cases h

open Exec

/-- A port is asked for after it has turned out to be shared, and only that can be refused. -/
theorem Exec.rendezvous_eq (elapsed : ℕ) (port : UInt16) (s : Cpu) :
    Exec.rendezvous elapsed port s = .ask (.isShared port) fun shared =>
      if shared = true then
        if elapsed < UInt32.size then
          .ask (.sync elapsed) fun granted => .done (if granted = true then some () else none, s)
        else .fail .overflow
      else .done (some (), s) := by
  refine congrArg (Dialogue.ask _) (funext fun shared => ?_)
  cases shared with
  | false => rfl
  | true =>
    show (if elapsed < UInt32.size then _ else _ : Exec Unit) s = _
    split
    · refine congrArg (Dialogue.ask _) (funext fun granted => ?_)
      cases granted with
      | false => rfl
      | true => rfl
    · rfl

/-- The byte at `a`, through the window `w` if that is possible. -/
def Exec.fetchFrom (a : UInt16) : Option Window → Exec UInt8
  | none => lookUp a
  | some w =>
    if w.contains a then do
      match ← call (.readWindow w a) with
      | some v => return v
      | none => lookUp a
    else lookUp a

namespace Exec.Built

variable {m : Exec α}

theorem update {f : Registers → Registers} (hf : Registers.KeepsR f) :
    Built rights (Exec.update f) :=
  .modify ⟨fun _ _ => rfl, fun s => ⟨rfl, fun _ => rfl, fun _ => rfl, fun _ => hf s.regs⟩⟩

/-- Registers are changed, and R may be among them. -/
theorem updateR (h : rights .moveR) (f : Registers → Registers) : Built rights (Exec.update f) :=
  .modify ⟨fun _ _ => rfl, fun _ => ⟨rfl, fun _ => rfl, fun _ => rfl, fun hnone => absurd h hnone⟩⟩

theorem takeWindow (w : Option Window) :
    Built rights (Exec.modify fun s => { s with window := w }) :=
  .modify ⟨fun _ _ => rfl, fun _ => ⟨rfl, fun _ => rfl, fun _ => rfl, fun _ => rfl⟩⟩

/-- Registers that are looked at twice are the same. -/
theorem regs_regs {f : Registers → Registers → Exec α}
    (h : Built rights (Exec.regs >>= fun r => f r r)) :
    Built rights (Exec.regs >>= fun r => Exec.regs >>= fun r' => f r r') := h

theorem ite {c : Prop} [Decidable c] {m' : Exec α} (h : Built rights m) (h' : Built rights m') :
    Built rights (if c then m else m') := by
  split
  · exact h
  · exact h'

/-- Registers are looked at and replaced, in whatever form the two are written. -/
theorem regs_replace {k : Registers → Exec α} (f : Registers → β × Registers) (g : β → Exec α)
    (hk : ∀ r, k r = Exec.update (fun _ => (f r).2) >>= fun _ => g (f r).1)
    (hf : Registers.KeepsR fun r => (f r).2) (hg : ∀ w, Built rights (g w)) :
    Built rights (Exec.regs >>= k) := by
  rw [funext hk]
  exact .replace f g hf hg

theorem read (a : UInt16) : Built rights (Exec.read a) := .call rfl

theorem write (a : UInt16) (v : UInt8) : Built rights (Exec.write a v) := .call rfl

theorem lookUp (a : UInt16) : Built rights (Exec.lookUp a) :=
  .bind (.call rfl) fun _ => .bind (.takeWindow _) fun _ => .read a

theorem fetchFrom (a : UInt16) (w : Option Window) : Built rights (Exec.fetchFrom a w) := by
  cases w with
  | none => exact .lookUp a
  | some w =>
    refine .ite (.bind (.call rfl) fun v => ?_) (.lookUp a)
    cases v with
    | none => exact .lookUp a
    | some v => exact .pure v

theorem fetchAt (a : UInt16) : Built rights (Exec.fetchAt a) := .window (fetchFrom a)

theorem peekOpcode : Built rights Exec.peekOpcode := .regs fun _ => .fetchAt _

theorem fetchByte : Built rights Exec.fetchByte :=
  .regs fun _ => .bind (.fetchAt _) fun _ => .bind (.update fun _ => rfl) fun _ => .pure _

/-- An opcode is fetched in an M1 cycle, which R counts. -/
theorem fetchOpcode (h : rights .moveR) : Built rights Exec.fetchOpcode :=
  .bind (.updateR h _) fun _ => .fetchByte

theorem fetchWord : Built rights Exec.fetchWord :=
  .bind .fetchByte fun _ => .bind .fetchByte fun _ => .pure _

theorem readWord (a : UInt16) : Built rights (Exec.readWord a) :=
  .bind (.read _) fun _ => .bind (.read _) fun _ => .pure _

theorem writeWord (a v : UInt16) : Built rights (Exec.writeWord a v) :=
  .bind (.write _ _) fun _ => .write _ _

theorem push (v : UInt16) : Built rights (Exec.push v) :=
  .bind (.update fun _ => rfl) fun _ => .regs fun _ => .bind (.write _ _) fun _ =>
    .bind (.update fun _ => rfl) fun _ => .regs fun _ => .write _ _

theorem pop : Built rights Exec.pop :=
  .regs fun _ => .bind (.readWord _) fun v => .bind (.update fun _ => rfl) fun _ => .pure v

theorem jump (a : UInt16) : Built rights (Exec.jump a) := .update fun _ => rfl

theorem jumpBy (d : UInt8) : Built rights (Exec.jumpBy d) := .regs fun _ => .jump _

/-- Work on registers, and then a cost. -/
theorem work {f : Registers → Registers} (hf : Registers.KeepsR f) (cost : ℕ) :
    Built rights (do Exec.update f; return cost) :=
  .bind (.update hf) fun _ => .pure _

theorem operandAddress (x : Index) (internal : ℕ) : Built rights (Exec.operandAddress x internal) :=
  .ite (.regs fun _ => .pure _) (.bind .fetchByte fun _ => .regs fun _ =>
    .bind (.update fun _ => rfl) fun _ => .pure _)

theorem changeOperand (x : Index) (o : Operand8) (f : Flags.Lazy → UInt8 → UInt8 × Flags.Lazy) :
    Built rights (Exec.changeOperand x o f) := by
  cases o with
  | reg q =>
    refine .work (fun s => ?_) 4
    exact Registers.KeepsR.set8 x q (fun _ => (f s.f (s.get8 x q)).1)
      { s with f := (f s.f (s.get8 x q)).2 }
  | mem =>
    exact .bind (.operandAddress x 5) fun _ => .regs fun _ => .bind (.read _) fun _ =>
      .bind (.update fun _ => rfl) fun _ => .bind (.write _ _) fun _ => .pure _

theorem pointer (via : Pointer) : Built rights (Exec.pointer via) := by
  cases via with
  | literal => exact .bind .fetchWord fun _ => .pure _
  | _ => exact .regs fun _ => .pure _

theorem taken (cond : Option Condition) : Built rights (Exec.taken cond) := by
  cases cond with
  | none => exact .pure true
  | some cond => exact .regs fun _ => .pure _

end Exec.Built

/-! ### Unprefixed instructions -/

namespace Instruction

theorem transferA_built (store : Bool) (via : Pointer) : Built rights (transferA store via) := by
  refine .bind (.pointer via) fun a => ?_
  cases store with
  | true => exact .regs fun _ => .bind (.write _ _) fun _ => .work (fun _ => by rfl) _
  | false => exact .bind (.read _) fun _ => .work (fun _ => by rfl) _

theorem transferPort_built (output : Bool) (elapsed : ℕ) :
    Built rights (transferPort output elapsed) := by
  refine .bind .fetchByte fun _ => .regs fun _ => .bind (.rendezvous _ _) fun _ => ?_
  cases output with
  | true => exact .bind (.call rfl) fun _ => .work (fun _ => by rfl) _
  | false => exact .bind (.call rfl) fun _ => .work (fun _ => by rfl) _

/-- Every instruction without a prefix. EI needs the right to hold interrupts off. -/
theorem execute_built (i : Instruction) (hi : i = .ei → rights .holdOff) (x : Index) (elapsed : ℕ) :
    Built rights (i.execute x elapsed) := by
  cases i with
  | nop => exact .pure 4
  | halt =>
    exact .bind (.update fun _ => rfl) fun _ => .regs fun _ =>
      .ite (.bind (.call rfl) fun _ => .pure 4) (.pure 4)
  | di => exact .work (fun _ => by rfl) 4
  | ei =>
    refine .bind (.update fun _ => rfl) fun _ => .bind (.modify ?_) fun _ => .pure 4
    exact ⟨fun _ _ => rfl, fun _ =>
      ⟨rfl, fun hnone => absurd (hi rfl) hnone, fun _ => rfl, fun _ => rfl⟩⟩
  | ldPair p => exact .bind .fetchWord fun v => .work (.setPair x p fun _ => v) 10
  | storeA via => exact transferA_built true via
  | loadA via => exact transferA_built false via
  | storeIndex =>
    exact .bind .fetchWord fun _ => .regs fun _ => .bind (.writeWord _ _) fun _ =>
      .work (fun _ => by rfl) 16
  | loadIndex =>
    refine .bind .fetchWord fun a => .bind (.readWord _) fun v => .work (fun s => ?_) 16
    exact Registers.KeepsR.setIndex x (fun _ => v) { s with wz := a + 1 }
  | incPair p => exact .work (.setPair x p fun s => s.getPair x p + 1) 6
  | decPair p => exact .work (.setPair x p fun s => s.getPair x p - 1) 6
  | addPair p => exact .work (.addPair x p) 11
  | inc o => exact .changeOperand x o Flags.Lazy.inc8
  | dec o => exact .changeOperand x o Flags.Lazy.dec8
  | ldByte o =>
    cases o with
    | reg q => exact .bind .fetchByte fun v => .work (.set8 x q fun _ => v) 7
    | mem =>
      exact .bind (.operandAddress x 2) fun _ => .bind .fetchByte fun _ =>
        .bind (.write _ _) fun _ => .pure _
  | ld dst src => exact .work (.set8 x dst fun s => s.get8 x src) 4
  | ldFromMem dst =>
    exact .bind (.operandAddress x 5) fun _ => .bind (.read _) fun v =>
      .work (.set8 .hl dst fun _ => v) _
  | ldToMem src =>
    exact .bind (.operandAddress x 5) fun _ => .regs fun _ => .bind (.write _ _) fun _ => .pure _
  | alu op o =>
    cases o with
    | reg q => exact .work (.alu op fun s => s.get8 x q) 4
    | mem =>
      exact .bind (.operandAddress x 5) fun _ => .bind (.read _) fun v =>
        .work (.alu op fun _ => v) _
  | aluByte op => exact .bind .fetchByte fun v => .work (.alu op fun _ => v) 7
  | rotateA s => exact .work (fun _ => by rfl) 4
  | daa => exact .work (fun _ => by rfl) 4
  | cpl => exact .work (fun _ => by rfl) 4
  | scf => exact .work (fun _ => by rfl) 4
  | ccf => exact .work (fun _ => by rfl) 4
  | djnz =>
    exact .bind .fetchByte fun _ => .bind (.update fun _ => rfl) fun _ => .regs fun _ =>
      .ite (.pure 8) (.bind (.jumpBy _) fun _ => .pure 13)
  | jr cond =>
    exact .bind .fetchByte fun _ => .bind (.taken cond) fun _ =>
      .ite (.bind (.jumpBy _) fun _ => .pure 12) (.pure 7)
  | jp cond =>
    exact .bind .fetchWord fun _ => .bind (.update fun _ => rfl) fun _ =>
      .bind (.taken cond) fun _ => .ite (.bind (.jump _) fun _ => .pure 10) (.pure 10)
  | call cond =>
    exact .bind .fetchWord fun _ => .bind (.update fun _ => rfl) fun _ =>
      .bind (.taken cond) fun _ =>
      .ite (.regs fun _ => .bind (.push _) fun _ => .bind (.jump _) fun _ => .pure 17) (.pure 10)
  | ret cond =>
    cases cond with
    | none => exact .bind .pop fun _ => .bind (.jump _) fun _ => .pure 10
    | some cond =>
      exact .regs fun _ => .ite (.bind .pop fun _ => .bind (.jump _) fun _ => .pure 11) (.pure 5)
  | rst target => exact .regs fun _ => .bind (.push _) fun _ => .bind (.jump _) fun _ => .pure 11
  | jpIndex => exact .work (fun _ => by rfl) 4
  | push p => exact .regs fun _ => .bind (.push _) fun _ => .pure 11
  | pop p => exact .bind .pop fun v => .work (.setStackPair x p v) 10
  | exStack =>
    refine .regs fun _ => .bind (.readWord _) fun v => .regs fun _ =>
      .bind (.writeWord _ _) fun _ => .work (fun s => ?_) 19
    exact Registers.KeepsR.setIndex x (fun _ => v) { s with wz := v }
  | ldSP => exact .work (fun _ => by rfl) 6
  | exAF => exact .work (fun _ => by rfl) 4
  | exx => exact .work (fun _ => by rfl) 4
  | exDE => exact .work (fun _ => by rfl) 4
  | outByte => exact transferPort_built true elapsed
  | inByte => exact transferPort_built false elapsed

end Instruction

/-! ### Bit instructions -/

namespace BitInstruction

theorem execute_built (i : BitInstruction) : Built rights i.execute := by
  unfold execute
  cases i.operand with
  | reg q =>
    refine .work (fun s => ?_) 8
    have hr := s.bitOp_r i.op (s.get8 .hl q) (s.get8 .hl q)
    dsimp only
    split
    · next w s' heq =>
      rw [heq] at hr
      exact (Registers.KeepsR.set8 .hl q (fun _ => w) s').trans hr
    · next s' heq =>
      rw [heq] at hr
      exact hr
  | mem =>
    refine .regs fun r => .bind (.read _) fun v => .regs_regs ?_
    refine .regs_replace (fun r' => r'.bitOp i.op v (high r'.wz))
      (fun w => w.elim (pure 12) fun w => write r.hl w >>= fun _ => pure 15)
      (fun r' => ?_) (fun r' => r'.bitOp_r i.op v _) fun w => ?_
    · generalize r'.bitOp i.op v (high r'.wz) = p
      obtain ⟨_ | w, s⟩ := p <;> rfl
    · cases w with
      | none => exact .pure 12
      | some w => exact .bind (.write _ _) fun _ => .pure 15

theorem executeIndexed_built (i : BitInstruction) (x : Index) (d : UInt8) :
    Built rights (i.executeIndexed x d) := by
  refine .regs fun r => .bind (.update fun _ => rfl) fun _ => .bind (.read _) fun v => ?_
  generalize displace (r.index x) d = a
  have hr : Registers.KeepsR fun r' => (r'.bitOp i.op v (high a)).2 := fun r' => r'.bitOp_r i.op v _
  cases i.operand with
  | reg q =>
    refine .regs_replace (fun r' => r'.bitOp i.op v (high a)) (fun w => w.elim (pure 16) fun w =>
      write a w >>= fun _ => update (·.set8 .hl q w) >>= fun _ => pure 19)
      (fun r' => ?_) hr fun w => ?_
    · generalize r'.bitOp i.op v (high a) = p
      obtain ⟨_ | w, s⟩ := p <;> rfl
    · cases w with
      | none => exact .pure 16
      | some w => exact .bind (.write _ _) fun _ => .work (.set8 .hl q fun _ => w) 19
  | mem =>
    refine .regs_replace (fun r' => r'.bitOp i.op v (high a)) (fun w => w.elim (pure 16) fun w =>
      write a w >>= fun _ => pure 19) (fun r' => ?_) hr fun w => ?_
    · generalize r'.bitOp i.op v (high a) = p
      obtain ⟨_ | w, s⟩ := p <;> rfl
    · cases w with
      | none => exact .pure 16
      | some w => exact .bind (.write _ _) fun _ => .pure 19

end BitInstruction

/-! ### Extended instructions -/

namespace Exec

theorem endBlock_built (goesOn : Bool) : Built rights (endBlock goesOn) :=
  .ite (.work (fun _ => by rfl) 21) (.pure 16)

theorem block_built (op : BlockOp) (walk : Walk) (repeats : Bool) (elapsed : ℕ) :
    Built rights (block op walk repeats elapsed) := by
  cases op with
  | load =>
    exact .regs fun _ => .bind (.read _) fun _ => .bind (.write _ _) fun _ =>
      .bind (.update fun _ => by rfl) fun _ => endBlock_built _
  | compare =>
    exact .regs fun _ => .bind (.read _) fun _ => .bind (.update fun _ => by rfl) fun _ =>
      endBlock_built _
  | input =>
    exact .regs fun _ => .bind (.rendezvous _ _) fun _ => .bind (.call rfl) fun _ => .regs fun _ =>
      .bind (.write _ _) fun _ => .bind (.update fun _ => by rfl) fun _ => .regs fun _ =>
        endBlock_built _
  | output =>
    exact .regs fun _ => .bind (.rendezvous _ _) fun _ => .bind (.read _) fun _ =>
      .bind (.call rfl) fun _ => .bind (.update fun _ => by rfl) fun _ => .regs fun _ =>
        endBlock_built _

end Exec

namespace ExtendedInstruction

theorem rotateNibbles_built (toRight : Bool) : Built rights (rotateNibbles toRight) := by
  refine .regs fun r => .bind (.read _) fun v => .regs fun r' => ?_
  cases toRight with
  | true => exact .bind (.write _ _) fun _ => .work (fun _ => by rfl) 18
  | false => exact .bind (.write _ _) fun _ => .work (fun _ => by rfl) 18

/-- Every instruction behind ED. `LD R,A` needs the right to move R. -/
theorem execute_built (i : ExtendedInstruction) (hi : i = .ldRA → rights .moveR) (elapsed : ℕ) :
    Built rights (i.execute elapsed) := by
  cases i with
  | nop => exact .pure 8
  | inC o =>
    refine .regs fun _ => .bind (.rendezvous _ _) fun _ => .bind (.call rfl) fun v =>
      .work (fun s => ?_) 12
    cases o with
    | reg q => exact Registers.KeepsR.set8 .hl q (fun _ => v) s
    | mem => rfl
  | outC o =>
    exact .regs fun _ => .bind (.rendezvous _ _) fun _ => .regs fun _ => .bind (.call rfl) fun _ =>
      .work (fun _ => by rfl) 12
  | sbcPair p => exact .work (fun _ => by rfl) 15
  | adcPair p => exact .work (fun _ => by rfl) 15
  | storePair p =>
    exact .bind .fetchWord fun _ => .regs fun _ => .bind (.writeWord _ _) fun _ =>
      .work (fun _ => by rfl) 20
  | loadPair p =>
    refine .bind .fetchWord fun a => .bind (.readWord _) fun v => .work (fun s => ?_) 20
    exact Registers.KeepsR.setPair .hl p (fun _ => v) { s with wz := a + 1 }
  | neg => exact .work (fun _ => by rfl) 8
  | retn =>
    exact .bind (.update fun _ => rfl) fun _ => .bind .pop fun _ => .bind (.jump _) fun _ =>
      .pure 14
  | setMode m => exact .work (fun _ => by rfl) 8
  | ldIA => exact .work (fun _ => by rfl) 9
  | ldRA => exact .bind (.updateR (hi rfl) _) fun _ => .pure 9
  | ldAI => exact .work (fun _ => by rfl) 9
  | ldAR => exact .work (fun _ => by rfl) 9
  | rrd => exact rotateNibbles_built true
  | rld => exact rotateNibbles_built false
  | block op walk repeats => exact block_built op walk repeats elapsed

end ExtendedInstruction

/-! ### Steps -/

namespace Exec

theorem opcode_built (hei : rights .holdOff) (hr : rights .moveR) (n : ℕ) (x : Index) (elapsed : ℕ)
    (op : UInt8) : Built rights (opcode n x elapsed op) := by
  induction n generalizing x elapsed op with
  | zero => exact .overflow
  | succ n ih =>
    unfold opcode
    cases Opcode.decode op with
    | plain i => exact i.execute_built (fun _ => hei) x elapsed
    | bits =>
      refine .ite (.bind (.fetchOpcode hr) fun b => BitInstruction.execute_built _) ?_
      exact .bind .fetchByte fun d => .bind .fetchByte fun b =>
        BitInstruction.executeIndexed_built _ x d
    | extended =>
      exact .bind (.fetchOpcode hr) fun b =>
        ExtendedInstruction.execute_built _ (fun _ => hr) elapsed
    | index y =>
      -- A prefix: what follows it has one prefix less to go.
      refine .bind .peekOpcode fun b => .ite (.pure 4) ?_
      exact .bind (.fetchOpcode hr) fun b => .bind (ih _ _ b) fun rest => .pure _

/-- The acceptance of an interrupt. Mode 0 executes what is on the bus, which may be EI. -/
theorem serve_built (m : InterruptMode) (hmode : m = .mode0 → rights .holdOff ∧ rights .moveR)
    (hack : rights .acknowledge) : Built rights (serve m) := by
  cases m with
  | mode0 =>
    obtain ⟨hei, hr⟩ := hmode rfl
    exact .bind (.acknowledge hack) fun op => .bind (opcode_built hei hr _ _ _ op) fun _ => .pure _
  | mode1 => exact .regs fun _ => .bind (.push _) fun _ => .bind (.jump _) fun _ => .pure 13
  | mode2 =>
    exact .regs fun _ => .bind (.acknowledge hack) fun _ => .regs fun _ => .bind (.push _) fun _ =>
      .bind (.readWord _) fun _ => .bind (.jump _) fun _ => .pure 19

end Exec

namespace Cpu

/-- The body of every step is built so. -/
theorem perform_built (a : Action) : Built a.rights (perform a) := by
  cases a with
  | acceptNMI =>
    refine .bind (.modify ?_) fun _ => .bind (.updateR (.inr rfl) _) fun _ => .regs fun _ =>
      .bind (.push _) fun _ => .bind (.jump _) fun _ => .pure 11
    exact ⟨fun _ _ => rfl, fun _ =>
      ⟨rfl, fun _ => rfl, fun hnone => absurd (.inl rfl) hnone, fun _ => rfl⟩⟩
  | acceptInt =>
    exact .bind (.updateR (.inr (.inr rfl)) _) fun _ => .regs fun r =>
      serve_built r.im (fun _ => ⟨.inl rfl, .inr (.inr rfl)⟩) (.inr (.inl rfl))
  | wait =>
    have hr : Action.wait.rights .moveR := rfl
    exact .bind (.updateR hr _) fun _ => .pure 4
  | execute =>
    exact .bind (.fetchOpcode (.inr rfl)) fun op => opcode_built (.inl rfl) (.inr rfl) _ _ _ op

end Cpu
end TandemZ80
