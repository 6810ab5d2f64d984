import TandemZ80.Cpu.Step
import TandemZ80.Proofs.Cpu.Parts

/-!
# The time that an instruction takes

Without its prefixes an instruction takes between 4 and 21 T-states, and those that touch a port do
so before their end. Only instructions for input and output can be refused, and they ask before they
do anything else.

* `Timely`, a cost within its bounds, with the time at which a port was asked for;
* one lemma for each instruction that uses ports, and `Instruction.execute_sure` and
  `ExtendedInstruction.execute_sure` for all others;
* `Instruction.execute_tentative`, `ExtendedInstruction.execute_tentative`, and
  `Exec.opcode_tentative`, which adds the prefixes.
-/

namespace TandemZ80

open Exec

/-- A cost between 4 and `most`, for a part that began `elapsed` T-states into the step; a port is
touched before the end of it. -/
structure Timely (most elapsed cost : ℕ) (asked : Option ℕ) : Prop where
  least : 4 ≤ cost
  most : cost ≤ most
  before : ∀ e ∈ asked, e < elapsed + cost

theorem Timely.of_none {most elapsed cost : ℕ} (h : 4 ≤ cost ∧ cost ≤ most) :
    Timely most elapsed cost none :=
  ⟨h.1, h.2, fun e he => by cases he⟩

theorem Timely.le {most most' elapsed cost : ℕ} {asked : Option ℕ}
    (h : Timely most elapsed cost asked) (hmost : most ≤ most') : Timely most' elapsed cost asked :=
  ⟨h.least, h.most.trans hmost, h.before⟩

/-- No instruction asks for a port later than 12 T-states after it began. If it began so late, that
time may not fit its counter. -/
def Late (elapsed : ℕ) : Prop := UInt32.size ≤ elapsed + 12

/-- The costs of a part that asks for no port. -/
def Costs (most cost : ℕ) : Prop := 4 ≤ cost ∧ cost ≤ most

instance (most cost : ℕ) : Decidable (Costs most cost) := inferInstanceAs (Decidable (_ ∧ _))

/-! ### Parts that ask for no port -/

namespace Exec

/-- Work on registers only. -/
theorem Sure.work {f : Registers → Registers} {cost : ℕ} {P : ℕ → Prop} (h : P cost) :
    Sure (do Exec.update f; return cost) P :=
  .bind (.update (.pure h))

theorem Sure.operandAddress {x : Index} {internal : ℕ} {P : UInt16 × ℕ → Prop}
    (h : ∀ a extra, extra ≤ 3 + internal → P (a, extra)) : Sure (operandAddress x internal) P := by
  unfold Exec.operandAddress
  refine .ite ?_ ?_
  · exact .bind (.regs fun r => .pure (h _ 0 (Nat.zero_le _)))
  · exact .bind (.fetchByte fun d => .bind (.regs fun r => .bind (.update
      (.pure (h _ _ (le_refl _))))))

theorem Sure.changeOperand (x : Index) (o : Operand8)
    (f : Flags.Lazy → UInt8 → UInt8 × Flags.Lazy) : Sure (changeOperand x o f) (Costs 21) := by
  cases o with
  | reg r => exact .work (by decide)
  | mem =>
    refine .bind (.operandAddress fun a extra hextra => .bind (.regs fun r => .bind (.read fun v =>
      .bind (.update (.bind (.write (.pure ⟨?_, ?_⟩)))))))
    · omega
    · omega

theorem Sure.pointer {via : Pointer} {P : UInt16 × ℕ → Prop}
    (h : ∀ a cost, 7 ≤ cost ∧ cost ≤ 13 → P (a, cost)) : Sure (pointer via) P := by
  cases via with
  | bc => exact .bind (.regs fun r => .pure (h _ 7 (by omega)))
  | de => exact .bind (.regs fun r => .pure (h _ 7 (by omega)))
  | literal => exact .bind (.fetchWord fun v => .pure (h _ 13 (by omega)))

/-- Work that goes on once a port has been granted, `delay` T-states into the instruction. -/
theorem Tentative.asking {m : Unit → Exec ℕ} {elapsed delay : ℕ} {port : UInt16}
    (hdelay : delay ≤ 12) (h : Sure (m ()) fun cost => delay < cost ∧ Costs 21 cost) :
    Tentative (Exec.rendezvous (elapsed + delay) port >>= m) (Late elapsed)
      (Timely 21 elapsed) := by
  have hasked : Tentative (Exec.rendezvous (elapsed + delay) port) (Late elapsed)
      fun a r => Sure (m a) (Timely 21 elapsed · r) := by
    refine .mono (.rendezvous (h.mono fun cost hc => .of_none hc.2) (h.mono fun cost hc => ?_))
      (fun hlate => hlate.trans (by omega)) fun _ _ hm => hm
    refine ⟨hc.2.1, hc.2.2, fun e he => ?_⟩
    cases he
    exact Nat.add_lt_add_left hc.1 elapsed
  exact .bind hasked

theorem Sure.taken {cond : Option Condition} {P : Bool → Prop} (h : ∀ b, P b) :
    Sure (taken cond) P := by
  cases cond with
  | none => exact .pure (h true)
  | some cond => exact .bind (.regs fun r => .pure (h _))

end Exec

namespace Instruction

theorem transferA_sure (store : Bool) (via : Pointer) : Sure (transferA store via) (Costs 21) := by
  refine .bind (.pointer fun a cost hcost => ?_)
  have hend : Sure (return cost) (Costs 21) := .pure ⟨by omega, by omega⟩
  cases store with
  | true => exact .bind (.regs fun r => .bind (.write (.bind (.update hend))))
  | false => exact .bind (.read fun v => .bind (.update hend))

/-- Whether an instruction is input or output. -/
def usesPort : Instruction → Bool
  | outByte | inByte => true
  | _ => false

/-- All other instructions ask for nothing. -/
theorem execute_sure {i : Instruction} (hi : i.usesPort = false) (x : Index) (elapsed : ℕ) :
    Sure (i.execute x elapsed) (Costs 21) := by
  cases i with
  | outByte => cases hi
  | inByte => cases hi
  | nop => exact .pure (by decide)
  | halt =>
    refine .bind (.update (.bind (.regs fun r => .ite ?_ ?_)))
    · exact .bind (.call rfl fun _ => .pure (by decide))
    · exact .pure (by decide)
  | di => exact .work (by decide)
  | ei => exact .bind (.update (.bind (.modify (.pure (by decide)))))
  | ldPair p => exact .bind (.fetchWord fun v => .work (by decide))
  | storeA via => exact transferA_sure true via
  | loadA via => exact transferA_sure false via
  | storeIndex =>
    exact .bind (.fetchWord fun a => .bind (.regs fun r => .bind (.writeWord
      (.work (by decide)))))
  | loadIndex =>
    exact .bind (.fetchWord fun a => .bind (.readWord fun v => .work (by decide)))
  | incPair p => exact .work (by decide)
  | decPair p => exact .work (by decide)
  | addPair p => exact .work (by decide)
  | inc o => exact .changeOperand x o Flags.Lazy.inc8
  | dec o => exact .changeOperand x o Flags.Lazy.dec8
  | ldByte o =>
    cases o with
    | reg r => exact .bind (.fetchByte fun v => .work (by decide))
    | mem =>
      refine .bind (.operandAddress fun a extra hextra => .bind (.fetchByte fun v => .bind (.write
        (.pure ⟨?_, ?_⟩)))) <;> omega
  | ld dst src => exact .work (by decide)
  | ldFromMem dst =>
    refine .bind (.operandAddress fun a extra hextra => .bind (.read fun v =>
      .work ⟨?_, ?_⟩)) <;> omega
  | ldToMem src =>
    refine .bind (.operandAddress fun a extra hextra => .bind (.regs fun r => .bind (.write
      (.pure ⟨?_, ?_⟩)))) <;> omega
  | alu op o =>
    cases o with
    | reg r => exact .work (by decide)
    | mem =>
      refine .bind (.operandAddress fun a extra hextra => .bind (.read fun v =>
        .work ⟨?_, ?_⟩)) <;> omega
  | aluByte op => exact .bind (.fetchByte fun v => .work (by decide))
  | rotateA r => exact .work (by decide)
  | daa => exact .work (by decide)
  | cpl => exact .work (by decide)
  | scf => exact .work (by decide)
  | ccf => exact .work (by decide)
  | djnz =>
    refine .bind (.fetchByte fun d => .bind (.update (.bind (.regs fun r => .ite ?_ ?_))))
    · exact .pure (by decide)
    · exact .bind (.jumpBy (.pure (by decide)))
  | jr cond =>
    refine .bind (.fetchByte fun d => .bind (.taken fun b => .ite ?_ ?_))
    · exact .bind (.jumpBy (.pure (by decide)))
    · exact .pure (by decide)
  | jp cond =>
    refine .bind (.fetchWord fun a => .bind (.update (.bind (.taken fun b => .ite ?_ ?_))))
    · exact .bind (.jump (.pure (by decide)))
    · exact .pure (by decide)
  | call cond =>
    refine .bind (.fetchWord fun a => .bind (.update (.bind (.taken fun b => .ite ?_ ?_))))
    · exact .bind (.regs fun r => .bind (.push (.bind (.jump (.pure (by decide))))))
    · exact .pure (by decide)
  | ret cond =>
    cases cond with
    | none => exact .bind (.pop fun a => .bind (.jump (.pure (by decide))))
    | some cond =>
      refine .bind (.regs fun r => .ite ?_ ?_)
      · exact .bind (.pop fun a => .bind (.jump (.pure (by decide))))
      · exact .pure (by decide)
  | rst target =>
    exact .bind (.regs fun r => .bind (.push (.bind (.jump (.pure (by decide))))))
  | jpIndex => exact .work (by decide)
  | push p => exact .bind (.regs fun r => .bind (.push (.pure (by decide))))
  | pop p => exact .bind (.pop fun v => .work (by decide))
  | exStack =>
    exact .bind (.regs fun r => .bind (.readWord fun v => .bind (.regs fun r' => .bind (.writeWord
      (.work (by decide))))))
  | ldSP => exact .work (by decide)
  | exAF => exact .work (by decide)
  | exx => exact .work (by decide)
  | exDE => exact .work (by decide)

theorem transferPort_tentative (output : Bool) (elapsed : ℕ) :
    Tentative (transferPort output elapsed) (Late elapsed) (Timely 21 elapsed) := by
  refine .quiet_bind
    (.fetchByte fun n => .quiet_bind (.regs fun r => .asking (by decide) (.ite ?_ ?_)))
  · exact .bind (.call rfl fun _ => .work (by decide))
  · exact .bind (.call rfl fun v => .work (by decide))

/-- Every instruction without a prefix. -/
theorem execute_tentative (i : Instruction) (x : Index) (elapsed : ℕ) :
    Tentative (i.execute x elapsed) (Late elapsed) (Timely 21 elapsed) := by
  by_cases hi : i.usesPort = true
  · cases i with
    | outByte => exact transferPort_tentative true elapsed
    | inByte => exact transferPort_tentative false elapsed
    | _ => cases hi
  · exact .of_sure ((execute_sure (eq_false_of_ne_true hi) x elapsed).mono fun _ => .of_none)

end Instruction

/-! ### Bit instructions -/

namespace BitInstruction

theorem execute_sure (i : BitInstruction) : Sure i.execute (Costs 21) := by
  unfold execute
  cases i.operand with
  | reg r => exact .work (by decide)
  | mem =>
    refine .bind
      (.regs fun r => .bind (.read fun v => .bind (.regs fun r' => .bind (.regs fun r'' =>
      ?_))))
    rcases r'.bitOp i.op v (high r''.wz) with ⟨w, s⟩
    refine .bind (.update ?_)
    cases w with
    | some w => exact .bind (.write (.pure (by decide)))
    | none => exact .pure (by decide)

theorem executeIndexed_sure (i : BitInstruction) (x : Index) (d : UInt8) :
    Sure (i.executeIndexed x d) (Costs 21) := by
  refine .bind (.regs fun r => .bind (.update (.bind (.read fun v => .bind (.regs fun r' => ?_)))))
  rcases r'.bitOp i.op v (high (displace (r.index x) d)) with ⟨w, s⟩
  refine .bind (.update ?_)
  cases w with
  | none => exact .pure (by decide)
  | some w =>
    refine .bind (.write ?_)
    cases i.operand with
    | reg r => exact .work (by decide)
    | mem => exact .pure (by decide)

end BitInstruction

/-! ### Extended instructions -/

namespace Exec

theorem endBlock_sure (goesOn : Bool) {P : ℕ → Prop} (h : P 16) (h' : P 21) :
    Sure (endBlock goesOn) P := .ite (.work h') (.pure h)

theorem blockLoad_sure (walk : Walk) (repeats : Bool) : Sure (blockLoad walk repeats) (Costs 21) :=
  .bind (.regs fun s => .bind (.read fun v => .bind (.write (.bind (.update
    (endBlock_sure _ (by decide) (by decide)))))))

theorem blockCompare_sure (walk : Walk) (repeats : Bool) :
    Sure (blockCompare walk repeats) (Costs 21) :=
  .bind (.regs fun s => .bind (.read fun v => .bind (.update
    (endBlock_sure _ (by decide) (by decide)))))

theorem blockInput_tentative (walk : Walk) (repeats : Bool) (elapsed : ℕ) :
    Tentative (blockInput walk repeats elapsed) (Late elapsed) (Timely 21 elapsed) :=
  .quiet_bind (.regs fun r => .asking (by decide)
    (.bind (.call rfl fun v => .bind (.regs fun r' => .bind (.write
    (.bind (.update (.bind (.regs fun r'' => endBlock_sure _ (by decide) (by decide))))))))))

theorem blockOutput_tentative (walk : Walk) (repeats : Bool) (elapsed : ℕ) :
    Tentative (blockOutput walk repeats elapsed) (Late elapsed) (Timely 21 elapsed) :=
  .quiet_bind (.regs fun r => .asking (by decide)
    (.bind (.read fun v => .bind (.call rfl fun _ => .bind (.update
    (.bind (.regs fun r' => endBlock_sure _ (by decide) (by decide))))))))

theorem block_tentative (op : BlockOp) (walk : Walk) (repeats : Bool) (elapsed : ℕ) :
    Tentative (block op walk repeats elapsed) (Late elapsed) (Timely 21 elapsed) := by
  cases op with
  | load => exact .of_sure ((blockLoad_sure walk repeats).mono fun _ => .of_none)
  | compare => exact .of_sure ((blockCompare_sure walk repeats).mono fun _ => .of_none)
  | input => exact blockInput_tentative walk repeats elapsed
  | output => exact blockOutput_tentative walk repeats elapsed

end Exec

namespace ExtendedInstruction

theorem inputC_tentative (o : Operand8) (elapsed : ℕ) :
    Tentative (inputC o elapsed) (Late elapsed) (Timely 21 elapsed) :=
  .quiet_bind (.regs fun r => .asking (by decide) (.bind (.call rfl fun v => .work (by decide))))

theorem outputC_tentative (o : Operand8) (elapsed : ℕ) :
    Tentative (outputC o elapsed) (Late elapsed) (Timely 21 elapsed) :=
  .quiet_bind (.regs fun r => .asking (by decide) (.bind (.regs fun r' => .bind (.call rfl fun _ =>
    .work (by decide)))))

theorem rotateNibbles_sure (toRight : Bool) : Sure (rotateNibbles toRight) (Costs 21) := by
  refine .bind (.regs fun r => .bind (.read fun v => .bind (.regs fun r' => ?_)))
  cases toRight with
  | true => exact .bind (.write (.work (by decide)))
  | false => exact .bind (.write (.work (by decide)))

/-- Whether an extended instruction is input or output. -/
def usesPort : ExtendedInstruction → Bool
  | inC _ | outC _ | block .input .. | block .output .. => true
  | _ => false

/-- All other extended instructions ask for nothing. -/
theorem execute_sure {i : ExtendedInstruction} (hi : i.usesPort = false) (elapsed : ℕ) :
    Sure (i.execute elapsed) (Costs 21) := by
  cases i with
  | inC o => cases hi
  | outC o => cases hi
  | nop => exact .pure (by decide)
  | sbcPair p => exact .work (by decide)
  | adcPair p => exact .work (by decide)
  | storePair p =>
    exact .bind (.fetchWord fun a => .bind (.regs fun r => .bind (.writeWord (.work (by decide)))))
  | loadPair p => exact .bind (.fetchWord fun a => .bind (.readWord fun v => .work (by decide)))
  | neg => exact .work (by decide)
  | retn => exact .bind (.update (.bind (.pop fun a => .bind (.jump (.pure (by decide))))))
  | setMode m => exact .work (by decide)
  | ldIA => exact .work (by decide)
  | ldRA => exact .work (by decide)
  | ldAI => exact .work (by decide)
  | ldAR => exact .work (by decide)
  | rrd => exact rotateNibbles_sure true
  | rld => exact rotateNibbles_sure false
  | block op walk repeats =>
    cases op with
    | load => exact blockLoad_sure walk repeats
    | compare => exact blockCompare_sure walk repeats
    | input => cases hi
    | output => cases hi

/-- Every instruction after ED. -/
theorem execute_tentative (i : ExtendedInstruction) (elapsed : ℕ) :
    Tentative (i.execute elapsed) (Late elapsed) (Timely 21 elapsed) := by
  by_cases hi : i.usesPort = true
  · cases i with
    | inC o => exact inputC_tentative o elapsed
    | outC o => exact outputC_tentative o elapsed
    | block op walk repeats => exact block_tentative op walk repeats elapsed
    | _ => cases hi
  · exact .of_sure ((execute_sure (eq_false_of_ne_true hi) elapsed).mono fun _ => .of_none)

end ExtendedInstruction

/-! ### Opcodes -/

namespace Exec

theorem Tentative.ite {α : Type} {c : Prop} [Decidable c] {m m' : Exec α} {F : Prop}
    {P : α → Option ℕ → Prop} (h : Tentative m F P) (h' : Tentative m' F P) :
    Tentative (if c then m else m') F P := by
  split
  · exact h
  · exact h'

/-- Every opcode but the index prefixes. -/
theorem unindexed_tentative {op : UInt8} (hop : ∀ y, Opcode.decode op ≠ .index y) (n : ℕ)
    (x : Index) (elapsed : ℕ) :
    Tentative (opcode (n + 1) x elapsed op) (Late elapsed) (Timely 21 elapsed) := by
  unfold opcode
  cases hdecode : Opcode.decode op with
  | plain i => exact i.execute_tentative x elapsed
  | bits =>
    refine .of_sure (.mono (.ite ?_ ?_) fun _ => .of_none)
    · exact .bind (.fetchOpcode fun b => (BitInstruction.decode b).execute_sure)
    · exact .bind (.fetchByte fun d => .bind (.fetchByte fun b =>
        (BitInstruction.decode b).executeIndexed_sure x d))
  | extended =>
    exact .quiet_bind (.fetchOpcode fun b =>
      (ExtendedInstruction.decode b).execute_tentative elapsed)
  | index y => exact absurd hdecode (hop y)

/-- Every opcode, with at most `n` prefixes in one step. The prefixes are fetched quietly, so an
instruction that is refused under any number of them is refused before it has changed anything. -/
theorem opcode_tentative (n : ℕ) (x : Index) (elapsed : ℕ) (op : UInt8) :
    Tentative (opcode n x elapsed op) True (Timely (21 + 4 * n) elapsed) := by
  induction n generalizing x elapsed op with
  | zero => exact fun s => .fail _ trivial
  | succ n ih =>
    by_cases hop : ∃ y, Opcode.decode op = .index y
    · obtain ⟨y, hy⟩ := hop
      rw [opcode, hy]
      refine .quiet_bind (.peekOpcode fun b => .ite ?_ ?_)
      · exact .of_sure (.pure (.of_none ⟨by omega, by omega⟩))
      · -- The prefix counts for the time at which the rest asks, and then for the cost.
        refine .quiet_bind (.fetchOpcode fun b' => .bind ((ih y (elapsed + 4) b').mono id ?_))
        intro rest r hrest
        refine .pure ⟨by omega, ?_, fun e he => ?_⟩
        · have := hrest.most
          omega
        · have := hrest.before e he
          omega
    · exact (unindexed_tentative (not_exists.1 hop) n x elapsed).mono (fun _ => trivial)
        fun cost r hc => hc.le (by omega)

theorem instruction_tentative (elapsed : ℕ) (op : UInt8) :
    Tentative (instruction elapsed op) True (Timely (21 + 4 * prefixLimit) elapsed) :=
  opcode_tentative prefixLimit .hl elapsed op

end Exec

end TandemZ80
