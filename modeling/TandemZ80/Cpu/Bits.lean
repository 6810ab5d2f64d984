import TandemZ80.Cpu.Execute

/-!
# Bit instructions

Rotations, shifts, and the test, reset and set of single bits.

* `Registers.bitOp`, the operation on a byte;
* `BitInstruction.execute`, after CB;
* `BitInstruction.executeIndexed`, after DD CB or FD CB.
-/

namespace TandemZ80

namespace Registers

/-- A bit operation on `v`. A test has no result; its bits 5 and 3 come from `xy`. -/
def bitOp (s : Registers) (op : BitOp) (v xy : UInt8) : Option UInt8 × Registers :=
  match op with
  | .shift sh =>
    let r := sh.apply v (s.f.isSet CF)
    (some r.value, { s with f := s.f.set r.flags })
  | .test bit => (none, { s with f := s.f.assign (~~~CF) (Alu.bit bit v xy) })
  | .reset bit => (some (v &&& ~~~(1 <<< bit)), s)
  | .set bit => (some (v ||| 1 <<< bit), s)

end Registers

namespace BitInstruction

open Exec

/-- Execute a bit instruction after CB. In memory, the tested byte gives bits 5 and 3 no value; they
leak from the address latch. -/
def execute (i : BitInstruction) : Exec Nat := do
  match i.operand with
  | .reg r =>
    update fun s =>
      let v := s.get8 .hl r
      match s.bitOp i.op v v with
      | (some w, s) => s.set8 .hl r w
      | (none, s) => s
    return 8
  | .mem =>
    let a := (← regs).hl
    let v ← read a
    let (w, s) := (← regs).bitOp i.op v (high (← regs).wz)
    update fun _ => s
    match w with
    | some w => write a w; return 15
    | none => return 12

/-- Execute a bit instruction on the byte `d` away from an index register. The result is also copied
into the register that the operand names. -/
def executeIndexed (i : BitInstruction) (x : Index) (d : UInt8) : Exec Nat := do
  let a := displace ((← regs).index x) d
  update fun s => { s with wz := a }
  let v ← read a
  let (w, s) := (← regs).bitOp i.op v (high a)
  update fun _ => s
  match w with
  | none => return 16
  | some w =>
    write a w
    match i.operand with
    | .reg r => update (·.set8 .hl r w)
    | .mem => pure ()
    return 19

end BitInstruction
end TandemZ80
