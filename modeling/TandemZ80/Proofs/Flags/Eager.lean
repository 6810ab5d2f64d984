import TandemZ80.Proofs.Flags.Reference

/-!
# Deferred flags behave like a plain byte

The interface of the flag register is a set of calls. A plain byte answers each of them at once,
with the flags that `Alu` gives for the operation of the same name; the deferred register answers
them by remembering operations. Neither a caller that reads the register nor one that only looks at
it can tell the two apart, in whatever order the calls come.

* `Call`, the calls, and `Answer`, what they return;
* `Lazy.perform` and `Call.eager`, the two registers;
* `perform_eq_eager`, one call, and `deferred_flags_behave_as_byte`, any number of them.
-/

namespace TandemZ80.Flags

/-- A call of the flag register. -/
inductive Call
  | set (f : UInt8)
  | value
  | peek
  | get (mask : UInt8)
  | test (mask : UInt8)
  | assign (mask f : UInt8)
  | add8 (a b : UInt8) (carry : Bool)
  | sub8 (a b : UInt8) (carry : Bool)
  | cp8 (a b : UInt8)
  | and8 (a b : UInt8)
  | or8 (a b : UInt8)
  | xor8 (a b : UInt8)
  | inc8 (a : UInt8)
  | dec8 (a : UInt8)
  | add16 (a b : UInt16)
  | adc16 (a b : UInt16) (carry : Bool)
  | sbc16 (a b : UInt16) (carry : Bool)
  deriving DecidableEq

/-- What a call returns. -/
inductive Answer
  | nothing
  | byte (v : UInt8)
  | word (v : UInt16)
  | flag (b : Bool)
  deriving DecidableEq

/-- Whether a call only reads. -/
def Call.reads : Call → Bool
  | value | peek | get _ | test _ => true
  | _ => false

/-! ### The two registers -/

/-- A call of the deferred register. -/
def Lazy.perform (l : Lazy) : Call → Answer × Lazy
  | .set f => (.nothing, l.set f)
  | .value => (.byte l.value.1, l.value.2)
  | .peek => (.byte l.peek, l)
  | .get mask => (.byte (l.get mask).1, (l.get mask).2)
  | .test mask => (.flag (l.test mask).1, (l.test mask).2)
  | .assign mask f => (.nothing, l.assign mask f)
  | .add8 a b carry => (.byte (l.add8 a b carry).1, (l.add8 a b carry).2)
  | .sub8 a b carry => (.byte (l.sub8 a b carry).1, (l.sub8 a b carry).2)
  | .cp8 a b => (.nothing, l.cp8 a b)
  | .and8 a b => (.byte (l.and8 a b).1, (l.and8 a b).2)
  | .or8 a b => (.byte (l.or8 a b).1, (l.or8 a b).2)
  | .xor8 a b => (.byte (l.xor8 a b).1, (l.xor8 a b).2)
  | .inc8 a => (.byte (l.inc8 a).1, (l.inc8 a).2)
  | .dec8 a => (.byte (l.dec8 a).1, (l.dec8 a).2)
  | .add16 a b => (.word (l.add16 a b).1, (l.add16 a b).2)
  | .adc16 a b carry => (.word (l.adc16 a b carry).1, (l.adc16 a b carry).2)
  | .sbc16 a b carry => (.word (l.sbc16 a b carry).1, (l.sbc16 a b carry).2)

/-- A call of a register that is the plain byte `F`. Most operations replace the byte; increments
and decrements keep carry, and the sum of two words keeps sign, zero and overflow. -/
def Call.eager (F : UInt8) : Call → Answer × UInt8
  | set f => (.nothing, f)
  | value => (.byte F, F)
  | peek => (.byte F, F)
  | get mask => (.byte (F &&& mask), F)
  | test mask => (.flag (F &&& mask != 0), F)
  | assign mask f => (.nothing, F &&& ~~~mask ||| f &&& mask)
  | add8 a b carry => (.byte (Alu.add8 a b carry).value, (Alu.add8 a b carry).flags)
  | sub8 a b carry => (.byte (Alu.sub8 a b carry).value, (Alu.sub8 a b carry).flags)
  | cp8 a b => (.nothing, (Alu.cp8 a b).flags)
  | and8 a b => (.byte (Alu.and8 a b).value, (Alu.and8 a b).flags)
  | or8 a b => (.byte (Alu.or8 a b).value, (Alu.or8 a b).flags)
  | xor8 a b => (.byte (Alu.xor8 a b).value, (Alu.xor8 a b).flags)
  | inc8 a => (.byte (Alu.inc8 a).value, F &&& CF ||| (Alu.inc8 a).flags)
  | dec8 a => (.byte (Alu.dec8 a).value, F &&& CF ||| (Alu.dec8 a).flags)
  | add16 a b => (.word (Alu.add16 a b).value, F &&& (SF ||| ZF ||| PF) ||| (Alu.add16 a b).flags)
  | adc16 a b carry => (.word (Alu.adc16 a b carry).value, (Alu.adc16 a b carry).flags)
  | sbc16 a b carry => (.word (Alu.sbc16 a b carry).value, (Alu.sbc16 a b carry).flags)

/-! ### What the deferred byte stands for -/

namespace Lazy

/-- Two bytes are the same if their bits are. -/
theorem byte_ext {f g : UInt8} (h : ∀ i (hi : i < 8), f.toBitVec[i] = g.toBitVec[i]) : f = g :=
  UInt8.toBitVec_inj.1 (BitVec.eq_of_getElem_eq h)

@[simp] theorem peek_ofByte (f : UInt8) : (ofByte f).peek = f := by
  simp [peek, ofByte]

@[simp] theorem peek_set (l : Lazy) (f : UInt8) : (l.set f).peek = f := by
  simp [peek, set]

@[simp] theorem peek_settle (l : Lazy) (mask : UInt8) : (l.settle mask).peek = l.peek := by
  refine byte_ext fun i hi => ?_
  simp only [peek, settle, UInt8.toBitVec_or, UInt8.toBitVec_and, UInt8.toBitVec_not,
    BitVec.getElem_or, BitVec.getElem_and, BitVec.getElem_not]
  grind

/-- A bit that has just been settled shows what the deferred byte stands for. -/
theorem settled_settle (l : Lazy) (mask : UInt8) :
    (l.settle mask).settled &&& mask = l.peek &&& mask := by
  refine byte_ext fun i hi => ?_
  simp only [peek, settle, UInt8.toBitVec_or, UInt8.toBitVec_and, UInt8.toBitVec_not,
    BitVec.getElem_or, BitVec.getElem_and, BitVec.getElem_not]
  grind

@[simp] theorem peek_assign (l : Lazy) (mask f : UInt8) :
    (l.assign mask f).peek = l.peek &&& ~~~mask ||| f &&& mask := by
  refine byte_ext fun i hi => ?_
  simp only [peek, assign, UInt8.toBitVec_or, UInt8.toBitVec_and, UInt8.toBitVec_not,
    BitVec.getElem_or, BitVec.getElem_and, BitVec.getElem_not]
  grind

/-- The byte after an operation has been remembered. A bit that is neither owed nor fixed stays what
it was, even where the operation before still owed it. -/
theorem peek_record (l : Lazy) (o : Operation) (pending fixed f : UInt8) :
    (l.record o pending fixed f).peek =
      l.peek &&& ~~~(pending ||| fixed) ||| f &&& (fixed &&& ~~~pending) |||
        o.flags &&& pending := by
  refine byte_ext fun i hi => ?_
  simp only [peek, record, settle, UInt8.toBitVec_or, UInt8.toBitVec_and, UInt8.toBitVec_not,
    BitVec.getElem_or, BitVec.getElem_and, BitVec.getElem_not]
  grind

/-- Where every flag is owed or fixed, nothing is left of the byte before. -/
theorem peek_record_allButN (l : Lazy) (o : Operation) (f : UInt8) :
    (l.record o allButN NF f).peek = f &&& NF ||| o.flags := by
  rw [peek_record, flags_and_allButN, show ~~~(allButN ||| NF) = 0 from rfl,
    show NF &&& ~~~allButN = NF from rfl, UInt8.and_zero, UInt8.zero_or]

@[simp] theorem value_fst (l : Lazy) : l.value.1 = l.peek := by
  have h := l.settled_settle 0xFF
  rwa [show (0xFF : UInt8) = -1 from rfl, UInt8.and_neg_one, UInt8.and_neg_one] at h

@[simp] theorem get_fst (l : Lazy) (mask : UInt8) : (l.get mask).1 = l.peek &&& mask :=
  l.settled_settle mask

@[simp] theorem test_fst (l : Lazy) (mask : UInt8) : (l.test mask).1 = (l.peek &&& mask != 0) := by
  rw [← get_fst]
  rfl

@[simp] theorem peek_logic (l : Lazy) (r h : UInt8) :
    (l.logic r h).2.peek = h &&& (HF ||| NF ||| CF) ||| sz53p r := by
  show (l.record _ (SF ||| ZF ||| YF ||| XF ||| PF) (HF ||| NF ||| CF) h).peek = _
  rw [peek_record, flags_logic,
    show ~~~(SF ||| ZF ||| YF ||| XF ||| PF ||| (HF ||| NF ||| CF)) = 0 from rfl,
    UInt8.and_zero, UInt8.zero_or]
  rfl

@[simp] theorem peek_add8 (l : Lazy) (a b : UInt8) (carry : Bool) :
    (l.add8 a b carry).2.peek = (Alu.add8 a b carry).flags := by
  show (l.record _ allButN NF 0).peek = _
  rw [peek_record_allButN, flags_add8, UInt8.zero_and, UInt8.zero_or]

@[simp] theorem peek_sub8 (l : Lazy) (a b : UInt8) (carry : Bool) :
    (l.sub8 a b carry).2.peek = (Alu.sub8 a b carry).flags := by
  show (l.record _ allButN NF NF).peek = _
  rw [peek_record_allButN, UInt8.and_self, flags_sub8]

@[simp] theorem peek_cp8 (l : Lazy) (a b : UInt8) : (l.cp8 a b).peek = (Alu.cp8 a b).flags := by
  rw [cp8, peek_record_allButN, UInt8.and_self, flags_cp8]

@[simp] theorem peek_and8 (l : Lazy) (a b : UInt8) :
    (l.and8 a b).2.peek = (Alu.and8 a b).flags := by
  rw [and8, peek_logic, UInt8.or_comm]
  rfl

@[simp] theorem peek_or8 (l : Lazy) (a b : UInt8) : (l.or8 a b).2.peek = (Alu.or8 a b).flags := by
  rw [or8, peek_logic, UInt8.zero_and, UInt8.zero_or]
  rfl

@[simp] theorem peek_xor8 (l : Lazy) (a b : UInt8) :
    (l.xor8 a b).2.peek = (Alu.xor8 a b).flags := by
  rw [xor8, peek_logic, UInt8.zero_and, UInt8.zero_or]
  rfl

@[simp] theorem peek_inc8 (l : Lazy) (a : UInt8) :
    (l.inc8 a).2.peek = l.peek &&& CF ||| (Alu.inc8 a).flags := by
  show (l.record _ (~~~(NF ||| CF)) NF 0).peek = _
  rw [peek_record, flags_inc8, UInt8.zero_and, UInt8.or_zero]
  rfl

@[simp] theorem peek_dec8 (l : Lazy) (a : UInt8) :
    (l.dec8 a).2.peek = l.peek &&& CF ||| (Alu.dec8 a).flags := by
  show (l.record _ (~~~(NF ||| CF)) NF NF).peek = _
  rw [peek_record, ← flags_dec8, UInt8.or_assoc]
  rfl

@[simp] theorem peek_add16 (l : Lazy) (a b : UInt16) :
    (l.add16 a b).2.peek = l.peek &&& (SF ||| ZF ||| PF) ||| (Alu.add16 a b).flags := by
  show (l.record _ (YF ||| HF ||| XF ||| CF) NF 0).peek = _
  rw [peek_record, flags_add16, UInt8.zero_and, UInt8.or_zero]
  rfl

@[simp] theorem peek_adc16 (l : Lazy) (a b : UInt16) (carry : Bool) :
    (l.adc16 a b carry).2.peek = (Alu.adc16 a b carry).flags := by
  show (l.record _ allButN NF 0).peek = _
  rw [peek_record_allButN, flags_adc16, UInt8.zero_and, UInt8.zero_or]

@[simp] theorem peek_sbc16 (l : Lazy) (a b : UInt16) (carry : Bool) :
    (l.sbc16 a b carry).2.peek = (Alu.sbc16 a b carry).flags := by
  show (l.record _ allButN NF NF).peek = _
  rw [peek_record_allButN, UInt8.and_self, flags_sbc16]

end Lazy

/-! ### One call -/

/-- One call of the deferred register, seen through `peek`, is that call of a plain byte. -/
theorem perform_eq_eager (l : Lazy) (c : Call) :
    ((l.perform c).1, (l.perform c).2.peek) = c.eager l.peek := by
  cases c with
  | set f => exact Prod.ext rfl (l.peek_set f)
  | value => exact Prod.ext (congrArg Answer.byte l.value_fst) (l.peek_settle _)
  | peek => rfl
  | get mask => exact Prod.ext (congrArg Answer.byte (l.get_fst mask)) (l.peek_settle mask)
  | test mask => exact Prod.ext (congrArg Answer.flag (l.test_fst mask)) (l.peek_settle mask)
  | assign mask f => exact Prod.ext rfl (l.peek_assign mask f)
  | add8 a b carry => exact Prod.ext rfl (l.peek_add8 a b carry)
  | sub8 a b carry => exact Prod.ext rfl (l.peek_sub8 a b carry)
  | cp8 a b => exact Prod.ext rfl (l.peek_cp8 a b)
  | and8 a b => exact Prod.ext rfl (l.peek_and8 a b)
  | or8 a b => exact Prod.ext rfl (l.peek_or8 a b)
  | xor8 a b => exact Prod.ext rfl (l.peek_xor8 a b)
  | inc8 a => exact Prod.ext rfl (l.peek_inc8 a)
  | dec8 a => exact Prod.ext rfl (l.peek_dec8 a)
  | add16 a b => exact Prod.ext rfl (l.peek_add16 a b)
  | adc16 a b carry => exact Prod.ext rfl (l.peek_adc16 a b carry)
  | sbc16 a b carry => exact Prod.ext rfl (l.peek_sbc16 a b carry)

theorem peek_perform (l : Lazy) (c : Call) : (l.perform c).2.peek = (c.eager l.peek).2 :=
  congrArg Prod.snd (perform_eq_eager l c)

/-- A plain byte is not changed by reading it. -/
theorem eager_of_reads {c : Call} (hc : c.reads = true) (F : UInt8) : (c.eager F).2 = F := by
  cases c with
  | value => rfl
  | peek => rfl
  | get mask => rfl
  | test mask => rfl
  | _ => cases hc

/-! ### Any number of calls -/

/-- The deferred register after some calls. -/
def Lazy.after (l : Lazy) (cs : List Call) : Lazy := cs.foldl (fun l c => (l.perform c).2) l

/-- What the calls return, each with the byte that `peek` shows after it. -/
def Lazy.trace (l : Lazy) : List Call → List (Answer × UInt8)
  | [] => []
  | c :: cs => ((l.perform c).1, (l.perform c).2.peek) :: (l.perform c).2.trace cs

/-- What the calls of a plain byte return, each with the byte after it. -/
def Call.trace (F : UInt8) : List Call → List (Answer × UInt8)
  | [] => []
  | c :: cs => c.eager F :: trace (c.eager F).2 cs

theorem trace_eq (l : Lazy) (cs : List Call) : l.trace cs = Call.trace l.peek cs := by
  induction cs generalizing l with
  | nil => rfl
  | cons c cs ih => rw [Lazy.trace, Call.trace, perform_eq_eager, ih, peek_perform]

/-- Started with the same byte, the deferred register and a plain byte go through the same calls
with the same answers and the same byte after each of them, and a call that only reads leaves the
byte as it is. -/
theorem deferred_flags_behave_as_byte (f : UInt8) (cs : List Call) :
    (Lazy.ofByte f).trace cs = Call.trace f cs ∧
      ∀ c : Call, c.reads = true →
        ((Lazy.ofByte f).after (cs ++ [c])).peek = ((Lazy.ofByte f).after cs).peek := by
  refine ⟨by rw [trace_eq, Lazy.peek_ofByte], fun c hc => ?_⟩
  rw [Lazy.after, List.foldl_append]
  show (((Lazy.ofByte f).after cs).perform c).2.peek = _
  rw [peek_perform, eager_of_reads hc]

end TandemZ80.Flags
