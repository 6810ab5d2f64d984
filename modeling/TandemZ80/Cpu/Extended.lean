import TandemZ80.Cpu.Execute

/-!
# Extended instructions

The instructions after ED. They never work on an index register.

* arithmetic on HL, loads of I and R, and the nibble rotations, as work on registers;
* one iteration of a block instruction: `Exec.block`;
* `ExtendedInstruction.execute`.
-/

namespace TandemZ80

open Flags (bitIf sz53 sz53p evenParity)

/-! ### Work on registers -/

namespace Registers

/-- Subtract a pair and carry from HL. -/
def sbcPair (s : Registers) (p : Pair) : Registers :=
  let (v, f) := s.f.sbc16 s.hl (s.getPair .hl p) (s.f.isSet CF)
  { s with wz := s.hl + 1, f := f }.setHL v

/-- Add a pair and carry to HL. -/
def adcPair (s : Registers) (p : Pair) : Registers :=
  let (v, f) := s.f.adc16 s.hl (s.getPair .hl p) (s.f.isSet CF)
  { s with wz := s.hl + 1, f := f }.setHL v

/-- Negate A. -/
def negate (s : Registers) : Registers :=
  let (v, f) := s.f.sub8 0 s.a false
  { s with a := v, f := f }

/-- Load A with I or R. Parity shows the second interrupt flip-flop. -/
def loadSystem (s : Registers) (v : UInt8) : Registers :=
  { s with a := v, f := s.f.assign (~~~CF) (sz53 v ||| bitIf s.iff2 PF) }

/-- Load A with a byte whose flags, parity among them, are shown. -/
def loadShown (s : Registers) (v : UInt8) : Registers :=
  { s with a := v, f := s.f.assign (~~~CF) (sz53p v) }

/-- Bits 5 and 3 of F as block loads and comparisons set them: bits 1 and 3 of a sum. -/
def blockXY (n : UInt8) : UInt8 := n <<< 4 &&& YF ||| n &&& XF

/-- The flags of a block load that moved `v`. -/
def blockLoadFlags (s : Registers) (v : UInt8) : Registers :=
  { s with
    f := s.f.assign (HF ||| NF ||| PF ||| XF ||| YF)
      (blockXY (v + s.a) ||| bitIf (s.bc ≠ 0) PF) }

/-- The flags of a block comparison of A with `v`. -/
def blockCompareFlags (s : Registers) (v : UInt8) : Registers :=
  let d := s.a - v
  let half := (s.a ^^^ v ^^^ d) &&& HF
  { s with
    f := s.f.assign (~~~CF)
      (NF ||| d &&& SF ||| bitIf (d = 0) ZF ||| half ||| blockXY (d - half >>> 4) |||
        bitIf (s.bc ≠ 0) PF) }

/-- The flags of a block input or output that moved `v`; `k` is `v` plus the low byte that belongs
to the transfer. -/
def blockPortFlags (s : Registers) (v : UInt8) (k : Nat) : Registers :=
  let b := s.main.b
  { s with
    f := s.f.set (sz53 b ||| bitIf (v ≥ 0x80) NF ||| bitIf (k > 0xFF) (HF ||| CF) |||
      bitIf (evenParity (UInt8.ofNat k &&& 7 ^^^ b)) PF) }

end Registers

/-! ### Block instructions -/

namespace Exec

/-- End one iteration of a block instruction. While it goes on, PC returns to its opcode. -/
def endBlock (goesOn : Bool) : Exec Nat := do
  if goesOn then
    update fun s => { s with pc := s.pc - 2, wz := s.pc - 1 }
    return 21
  return 16

/-- Copy one byte from HL to DE. -/
def blockLoad (walk : Walk) (repeats : Bool) : Exec Nat := do
  let s ← regs
  let v ← read s.hl
  write s.de v
  update fun r =>
    (((r.setHL (walk.next s.hl)).setDE (walk.next s.de)).setBC (s.bc - 1)).blockLoadFlags v
  endBlock (repeats && s.bc - 1 != 0)

/-- Compare one byte at HL with A. -/
def blockCompare (walk : Walk) (repeats : Bool) : Exec Nat := do
  let s ← regs
  let v ← read s.hl
  update fun r =>
    { (r.setHL (walk.next s.hl)).setBC (s.bc - 1) with wz := walk.next s.wz }.blockCompareFlags v
  endBlock (repeats && s.bc - 1 != 0 && s.a - v != 0)

/-- Count one transfer in B, move HL on, and latch the address beside the port. -/
def transferred (walk : Walk) (port : UInt16) (s : Registers) : Registers :=
  let s := s.setHL (walk.next s.hl)
  { s with wz := walk.next port, main := { s.main with b := s.main.b - 1 } }

/-- Input one byte from port BC to HL. -/
def blockInput (walk : Walk) (repeats : Bool) (elapsed : Nat) : Exec Nat := do
  let port := (← regs).bc
  rendezvous (elapsed + 9) port
  let v ← call (.input port)
  write (← regs).hl v
  update fun s =>
    let beside := low (walk.next s.main.c.toUInt16)
    (transferred walk port s).blockPortFlags v (v.toNat + beside.toNat)
  endBlock (repeats && (← regs).main.b != 0)

/-- Output one byte from HL to port BC, B being counted down first. -/
def blockOutput (walk : Walk) (repeats : Bool) (elapsed : Nat) : Exec Nat := do
  let s ← regs
  let port := word (s.main.b - 1) s.main.c
  rendezvous (elapsed + 12) port
  let v ← read s.hl
  call (.output port v)
  update fun s =>
    let s := transferred walk port s
    s.blockPortFlags v (v.toNat + s.main.l.toNat)
  endBlock (repeats && (← regs).main.b != 0)

/-- One iteration of a block instruction. -/
def block (op : BlockOp) (walk : Walk) (repeats : Bool) (elapsed : Nat) : Exec Nat :=
  match op with
  | .load => blockLoad walk repeats
  | .compare => blockCompare walk repeats
  | .input => blockInput walk repeats elapsed
  | .output => blockOutput walk repeats elapsed

end Exec

/-! ### The instructions -/

open Exec

namespace ExtendedInstruction

/-- Input from port BC. -/
def inputC (o : Operand8) (elapsed : Nat) : Exec Nat := do
  let port := (← regs).bc
  rendezvous (elapsed + 8) port
  let v ← Exec.call (.input port)
  update fun s =>
    let s := match o with
      | .reg r => s.set8 .hl r v
      | .mem => s
    { s with wz := port + 1, f := s.f.assign (~~~CF) (sz53p v) }
  return 12

/-- Output to port BC. -/
def outputC (o : Operand8) (elapsed : Nat) : Exec Nat := do
  let port := (← regs).bc
  rendezvous (elapsed + 8) port
  let s ← regs
  let v := match o with
    | .reg r => s.get8 .hl r
    | .mem => 0
  Exec.call (.output port v)
  update fun s => { s with wz := port + 1 }
  return 12

/-- The byte with the low nibbles of `hi` and `lo`. -/
def nibbles (hi lo : UInt8) : UInt8 := hi <<< 4 ||| lo &&& 0x0F

/-- Rotate three nibbles, the low one of A and both of the byte at HL. -/
def rotateNibbles (toRight : Bool) : Exec Nat := do
  let hl := (← regs).hl
  let v ← read hl
  let a := (← regs).a
  let (w, a) :=
    if toRight then (nibbles a (v >>> 4), nibbles (a >>> 4) v)
    else (nibbles v a, nibbles (a >>> 4) (v >>> 4))
  write hl w
  update fun s => { s.loadShown a with wz := hl + 1 }
  return 18

/-- Execute an instruction after ED; `elapsed` T-states went by before it. -/
def execute (elapsed : Nat) : ExtendedInstruction → Exec Nat
  | nop => return 8
  | inC o => inputC o elapsed
  | outC o => outputC o elapsed
  | sbcPair p => do update (·.sbcPair p); return 15
  | adcPair p => do update (·.adcPair p); return 15
  | storePair p => do
    let a ← fetchWord
    writeWord a ((← regs).getPair .hl p)
    update fun s => { s with wz := a + 1 }
    return 20
  | loadPair p => do
    let a ← fetchWord
    let v ← readWord a
    update fun s => { s with wz := a + 1 }.setPair .hl p v
    return 20
  | neg => do update (·.negate); return 8
  | retn => do
    update fun s => { s with iff1 := s.iff2 }
    jump (← Exec.pop)
    return 14
  | setMode m => do update (fun s => { s with im := m }); return 8
  | ldIA => do update (fun s => { s with i := s.a }); return 9
  | ldRA => do update (fun s => { s with r := s.a }); return 9
  | ldAI => do update (fun s => s.loadSystem s.i); return 9
  | ldAR => do update (fun s => s.loadSystem s.r); return 9
  | rrd => rotateNibbles true
  | rld => rotateNibbles false
  | block op walk repeats => Exec.block op walk repeats elapsed

end ExtendedInstruction
end TandemZ80
