import TandemZ80.Cpu.Exec
import TandemZ80.Cpu.Instruction

/-!
# Executing an unprefixed instruction

Each instruction returns the T-states it takes. `x` is the register that stands in for HL, and
`elapsed` the T-states that went by in this step before the instruction.

* `operandAddress`, where the `mem` operand lies;
* `Registers.alu` and the other instructions that only work on registers;
* `Instruction.execute`.
-/

namespace TandemZ80

open Flags (Lazy)

/-! ### Work on registers -/

namespace Registers

/-- An operation between A and `v`. -/
def alu (s : Registers) (op : AluOp) (v : UInt8) : Registers :=
  let store (p : UInt8 × Lazy) : Registers := { s with a := p.1, f := p.2 }
  match op with
  | .add => store (s.f.add8 s.a v false)
  | .adc => store (s.f.add8 s.a v (s.f.isSet CF))
  | .sub => store (s.f.sub8 s.a v false)
  | .sbc => store (s.f.sub8 s.a v (s.f.isSet CF))
  | .and => store (s.f.and8 s.a v)
  | .xor => store (s.f.xor8 s.a v)
  | .or => store (s.f.or8 s.a v)
  | .cp => { s with f := s.f.cp8 s.a v }

/-- The flags that rotations of A and changes of carry determine. -/
def carryGroup : UInt8 := HF ||| NF ||| CF ||| YF ||| XF

/-- Rotate A. -/
def rotateA (s : Registers) (r : Alu.Shift) : Registers :=
  let v := r.apply s.a (s.f.isSet CF)
  { s with a := v.value, f := s.f.assign carryGroup v.flags }

/-- Adjust A after decimal arithmetic. -/
def daa (s : Registers) : Registers :=
  let v := Alu.daa s.a s.f.peek
  { s with a := v.value, f := s.f.set v.flags }

/-- Complement A. -/
def complement (s : Registers) : Registers :=
  let v := ~~~s.a
  { s with
    a := v
    f := s.f.assign (HF ||| NF ||| YF ||| XF) (HF ||| NF ||| v &&& (YF ||| XF)) }

/-- Set carry. -/
def setCarry (s : Registers) : Registers :=
  { s with f := s.f.assign carryGroup (CF ||| s.a &&& (YF ||| XF)) }

/-- Complement carry; half carry takes its old value. -/
def flipCarry (s : Registers) : Registers :=
  let old := if s.f.isSet CF then HF else CF
  { s with f := s.f.assign carryGroup (old ||| s.a &&& (YF ||| XF)) }

/-- Add a pair to the index register. -/
def addPair (s : Registers) (x : Index) (p : Pair) : Registers :=
  let hl := s.index x
  let (v, f) := s.f.add16 hl (s.getPair x p)
  { s with wz := hl + 1, f := f }.setIndex x v

/-- Exchange DE and HL. -/
def exchangeDE (s : Registers) : Registers := (s.setDE s.hl).setHL s.de

/-- Set both interrupt flip-flops. -/
def setIFF (s : Registers) (enabled : Bool) : Registers :=
  { s with iff1 := enabled, iff2 := enabled }

end Registers

/-! ### Operands -/

namespace Exec

/-- Where the `mem` operand lies, and the T-states it takes to find out. An index register is
followed by a displacement byte; `internal` T-states go into the sum. -/
def operandAddress (x : Index) (internal : Nat) : Exec (UInt16 × Nat) := do
  if x = .hl then return ((← regs).hl, 0)
  let d ← fetchByte
  let a := displace ((← regs).index x) d
  update fun r => { r with wz := a }
  return (a, 3 + internal)

/-- Replace an operand by the value of `f` on it. -/
def changeOperand (x : Index) (o : Operand8) (f : Lazy → UInt8 → UInt8 × Lazy) : Exec Nat := do
  match o with
  | .reg r =>
    update fun s =>
      let (v, f) := f s.f (s.get8 x r)
      { s with f := f }.set8 x r v
    return 4
  | .mem =>
    let (a, extra) ← operandAddress x 5
    let (v, f) := f (← regs).f (← read a)
    update fun s => { s with f := f }
    write a v
    return 11 + extra

/-- The address that a pointer gives, and the T-states of a transfer to or from it. -/
def pointer : Pointer → Exec (UInt16 × Nat)
  | .bc => do return ((← regs).bc, 7)
  | .de => do return ((← regs).de, 7)
  | .literal => do return (← fetchWord, 13)

/-- Whether a transfer of control takes place. -/
def taken : Option Condition → Exec Bool
  | none => return true
  | some cond => do return (← regs).holds cond

end Exec

/-! ### The instructions -/

open Exec

namespace Instruction

/-- Stores of A, and loads of A from memory. -/
def transferA (store : Bool) (via : Pointer) : Exec Nat := do
  let (a, cost) ← pointer via
  if store then
    let v := (← regs).a
    write a v
    update fun r => { r with wz := word v (low (a + 1)) }
  else
    let v ← read a
    update fun r => { r with a := v, wz := a + 1 }
  return cost

/-- Input and output between A and the port with a literal low byte. -/
def transferPort (output : Bool) (elapsed : Nat) : Exec Nat := do
  let n ← fetchByte
  let a := (← regs).a
  let port := word a n
  rendezvous (elapsed + 7) port
  if output then
    Exec.call (.output port a)
    update fun r => { r with wz := word a (n + 1) }
  else
    let v ← Exec.call (.input port)
    update fun r => { r with a := v, wz := port + 1 }
  return 11

/-- Execute an instruction; the result is its cost. -/
def execute (x : Index) (elapsed : Nat) : Instruction → Exec Nat
  | nop => return 4
  | halt => do
    update fun r => { r with halted := true }
    if !(← regs).iff1 then Exec.call (.stop 0)
    return 4
  | di => do update (·.setIFF false); return 4
  | ei => do
    update (·.setIFF true)
    modify fun s => { s with afterEI := true }
    return 4
  | ldPair p => do
    let v ← fetchWord
    update (·.setPair x p v)
    return 10
  | storeA via => transferA true via
  | loadA via => transferA false via
  | storeIndex => do
    let a ← fetchWord
    writeWord a ((← regs).index x)
    update fun r => { r with wz := a + 1 }
    return 16
  | loadIndex => do
    let a ← fetchWord
    let v ← readWord a
    update fun r => { r with wz := a + 1 }.setIndex x v
    return 16
  | incPair p => do update (fun r => r.setPair x p (r.getPair x p + 1)); return 6
  | decPair p => do update (fun r => r.setPair x p (r.getPair x p - 1)); return 6
  | addPair p => do update (·.addPair x p); return 11
  | inc o => changeOperand x o Lazy.inc8
  | dec o => changeOperand x o Lazy.dec8
  | ldByte (.reg r) => do
    let v ← fetchByte
    update (·.set8 x r v)
    return 7
  | ldByte .mem => do
    let (a, extra) ← operandAddress x 2
    write a (← fetchByte)
    return 10 + extra
  | ld dst src => do update (fun r => r.set8 x dst (r.get8 x src)); return 4
  | ldFromMem dst => do
    let (a, extra) ← operandAddress x 5
    let v ← read a
    update (·.set8 .hl dst v)
    return 7 + extra
  | ldToMem src => do
    let (a, extra) ← operandAddress x 5
    write a ((← regs).get8 .hl src)
    return 7 + extra
  | alu op (.reg r) => do update (fun s => s.alu op (s.get8 x r)); return 4
  | alu op .mem => do
    let (a, extra) ← operandAddress x 5
    let v ← read a
    update (·.alu op v)
    return 7 + extra
  | aluByte op => do
    let v ← fetchByte
    update (·.alu op v)
    return 7
  | rotateA s => do update (·.rotateA s); return 4
  | daa => do update (·.daa); return 4
  | cpl => do update (·.complement); return 4
  | scf => do update (·.setCarry); return 4
  | ccf => do update (·.flipCarry); return 4
  | djnz => do
    let d ← fetchByte
    update fun r => { r with main := { r.main with b := r.main.b - 1 } }
    if (← regs).main.b = 0 then return 8
    jumpBy d
    return 13
  | jr cond => do
    let d ← fetchByte
    if ← taken cond then
      jumpBy d
      return 12
    return 7
  | jp cond => do
    let a ← fetchWord
    update fun r => { r with wz := a }
    if ← taken cond then jump a
    return 10
  | call cond => do
    let a ← fetchWord
    update fun r => { r with wz := a }
    if ← taken cond then
      Exec.push (← regs).pc
      jump a
      return 17
    return 10
  | ret none => do jump (← Exec.pop); return 10
  | ret (some cond) => do
    if (← regs).holds cond then
      jump (← Exec.pop)
      return 11
    return 5
  | rst target => do
    Exec.push (← regs).pc
    jump target
    return 11
  | jpIndex => do update (fun r => { r with pc := r.index x }); return 4
  | .push p => do
    Exec.push ((← regs).getStackPair x p)
    return 11
  | .pop p => do
    let v ← Exec.pop
    update (·.setStackPair x p v)
    return 10
  | exStack => do
    let sp := (← regs).sp
    let v ← readWord sp
    writeWord sp ((← regs).index x)
    update fun r => { r with wz := v }.setIndex x v
    return 19
  | ldSP => do update (fun r => { r with sp := r.index x }); return 6
  | exAF => do update (·.exchangeAF); return 4
  | exx => do update (·.exchange); return 4
  | exDE => do update (·.exchangeDE); return 4
  | outByte => transferPort true elapsed
  | inByte => transferPort false elapsed

end Instruction
end TandemZ80
