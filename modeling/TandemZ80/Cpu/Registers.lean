import TandemZ80.Flags.Lazy
import TandemZ80.Word

/-!
# Registers

The registers of the processor, and the names by which instructions select them.

* `Registers`, with F in deferred form; `Registers.powerOn`, the pattern every reset leaves;
* `Reg8`, `Pair`, `StackPair`, `Condition`: the operands that an opcode can name;
* `Index`, which of HL, IX and IY an instruction works on. Under an index register the halves H and
  L are those of that register;
* reading and writing a register by its name.
-/

namespace TandemZ80

open Flags (Lazy)

/-- The general registers that come twice. -/
structure Bank where
  b : UInt8
  c : UInt8
  d : UInt8
  e : UInt8
  h : UInt8
  l : UInt8
  deriving DecidableEq

/-- All general registers clear. -/
def Bank.zero : Bank := ⟨0, 0, 0, 0, 0, 0⟩

/-- How a maskable interrupt is taken. -/
inductive InterruptMode
  /-- The device supplies an instruction. -/
  | mode0
  /-- A restart at address 38. -/
  | mode1
  /-- The device supplies the low byte of a vector. -/
  | mode2
  deriving DecidableEq

namespace InterruptMode

/-- The number of a mode. -/
def toByte : InterruptMode → UInt8
  | mode0 => 0
  | mode1 => 1
  | mode2 => 2

/-- The mode with a number. -/
def ofByte? (n : UInt8) : Option InterruptMode :=
  if n = 0 then some mode0 else if n = 1 then some mode1 else if n = 2 then some mode2 else none

@[simp] theorem ofByte?_toByte (m : InterruptMode) : ofByte? m.toByte = some m := by
  cases m <;> rfl

theorem ofByte?_eq_some {n : UInt8} {m : InterruptMode} : ofByte? n = some m ↔ n = m.toByte := by
  constructor
  · unfold ofByte?
    intro h
    split at h
    · next h0 => cases h; exact h0
    · split at h
      · next h1 => cases h; exact h1
      · split at h
        · next h2 => cases h; exact h2
        · cases h
  · rintro rfl
    exact ofByte?_toByte m

end InterruptMode

/-- The register file. -/
structure Registers where
  a : UInt8
  /-- F, with the bits that nobody has asked for still owed. -/
  f : Lazy
  main : Bank
  aAlt : UInt8
  fAlt : UInt8
  alt : Bank
  ix : UInt16
  iy : UInt16
  sp : UInt16
  pc : UInt16
  i : UInt8
  r : UInt8
  /-- The internal address latch. It shows in bits 5 and 3 of F after some bit tests. -/
  wz : UInt16
  iff1 : Bool
  iff2 : Bool
  im : InterruptMode
  halted : Bool
  deriving DecidableEq

namespace Registers

/-- All registers clear. -/
def zero : Registers :=
  { a := 0, f := .ofByte 0, main := .zero, aAlt := 0, fAlt := 0, alt := .zero
    ix := 0, iy := 0, sp := 0, pc := 0, i := 0, r := 0, wz := 0
    iff1 := false, iff2 := false, im := .mode0, halted := false }

instance : Inhabited Registers := ⟨zero⟩

/-- The pattern that every reset leaves. -/
def powerOn : Registers := { zero with a := 0xFF, f := .ofByte 0xFF, sp := 0xFFFF }

/-- The register file with nothing owed in F. -/
def settled (s : Registers) : Registers := { s with f := .ofByte s.f.peek }

/-! ### Pairs -/

/-- The pair AF. -/
def af (s : Registers) : UInt16 := word s.a s.f.peek

/-- The pair BC. -/
def bc (s : Registers) : UInt16 := word s.main.b s.main.c

/-- The pair DE. -/
def de (s : Registers) : UInt16 := word s.main.d s.main.e

/-- The pair HL. -/
def hl (s : Registers) : UInt16 := word s.main.h s.main.l

/-- The alternate AF. -/
def afAlt (s : Registers) : UInt16 := word s.aAlt s.fAlt

/-- The alternate BC. -/
def bcAlt (s : Registers) : UInt16 := word s.alt.b s.alt.c

/-- The alternate DE. -/
def deAlt (s : Registers) : UInt16 := word s.alt.d s.alt.e

/-- The alternate HL. -/
def hlAlt (s : Registers) : UInt16 := word s.alt.h s.alt.l

/-- Set AF. -/
def setAF (s : Registers) (v : UInt16) : Registers := { s with a := high v, f := s.f.set (low v) }

/-- Set BC. -/
def setBC (s : Registers) (v : UInt16) : Registers :=
  { s with main := { s.main with b := high v, c := low v } }

/-- Set DE. -/
def setDE (s : Registers) (v : UInt16) : Registers :=
  { s with main := { s.main with d := high v, e := low v } }

/-- Set HL. -/
def setHL (s : Registers) (v : UInt16) : Registers :=
  { s with main := { s.main with h := high v, l := low v } }

/-- Exchange BC, DE and HL with their alternates. -/
def exchange (s : Registers) : Registers := { s with main := s.alt, alt := s.main }

/-- Exchange AF with its alternate. -/
def exchangeAF (s : Registers) : Registers :=
  { s with a := s.aAlt, f := s.f.set s.fAlt, aAlt := s.a, fAlt := s.f.peek }

/-- Count one opcode fetch in the low seven bits of R. -/
def refresh (s : Registers) : Registers := { s with r := s.r &&& 0x80 ||| (s.r + 1) &&& 0x7F }

end Registers

/-! ### Operands -/

/-- The register that HL, H and L stand for in an instruction. -/
inductive Index
  | hl | ix | iy
  deriving DecidableEq

/-- A register of one byte. -/
inductive Reg8
  | b | c | d | e | h | l | a
  deriving DecidableEq

/-- An operand of one byte: a register, or the byte that the index register points to. -/
inductive Operand8
  | reg (r : Reg8)
  | mem
  deriving DecidableEq

/-- A pair as an operand of arithmetic and loads. -/
inductive Pair
  | bc | de | hl | sp
  deriving DecidableEq

/-- A pair as an operand of push and pop. -/
inductive StackPair
  | bc | de | hl | af
  deriving DecidableEq

/-- A condition of a jump, call or return. -/
inductive Condition
  | nz | z | nc | c | po | pe | p | m
  deriving DecidableEq

namespace Registers

/-- The index register. -/
def index (s : Registers) : Index → UInt16
  | .hl => s.hl
  | .ix => s.ix
  | .iy => s.iy

/-- Set the index register. -/
def setIndex (s : Registers) : Index → UInt16 → Registers
  | .hl, v => s.setHL v
  | .ix, v => { s with ix := v }
  | .iy, v => { s with iy := v }

/-- A register of one byte. -/
def get8 (s : Registers) (x : Index) : Reg8 → UInt8
  | .b => s.main.b
  | .c => s.main.c
  | .d => s.main.d
  | .e => s.main.e
  | .h => high (s.index x)
  | .l => low (s.index x)
  | .a => s.a

/-- Set a register of one byte. -/
def set8 (s : Registers) (x : Index) (r : Reg8) (v : UInt8) : Registers :=
  match r with
  | .b => { s with main := { s.main with b := v } }
  | .c => { s with main := { s.main with c := v } }
  | .d => { s with main := { s.main with d := v } }
  | .e => { s with main := { s.main with e := v } }
  | .h => s.setIndex x (word v (low (s.index x)))
  | .l => s.setIndex x (word (high (s.index x)) v)
  | .a => { s with a := v }

/-- A pair. -/
def getPair (s : Registers) (x : Index) : Pair → UInt16
  | .bc => s.bc
  | .de => s.de
  | .hl => s.index x
  | .sp => s.sp

/-- Set a pair. -/
def setPair (s : Registers) (x : Index) (p : Pair) (v : UInt16) : Registers :=
  match p with
  | .bc => s.setBC v
  | .de => s.setDE v
  | .hl => s.setIndex x v
  | .sp => { s with sp := v }

/-- A pair for push. -/
def getStackPair (s : Registers) (x : Index) : StackPair → UInt16
  | .bc => s.bc
  | .de => s.de
  | .hl => s.index x
  | .af => s.af

/-- Set a pair from pop. -/
def setStackPair (s : Registers) (x : Index) (p : StackPair) (v : UInt16) : Registers :=
  match p with
  | .bc => s.setBC v
  | .de => s.setDE v
  | .hl => s.setIndex x v
  | .af => s.setAF v

/-- Whether a condition holds. -/
def holds (s : Registers) : Condition → Bool
  | .nz => !s.f.isSet ZF
  | .z => s.f.isSet ZF
  | .nc => !s.f.isSet CF
  | .c => s.f.isSet CF
  | .po => !s.f.isSet PF
  | .pe => s.f.isSet PF
  | .p => !s.f.isSet SF
  | .m => s.f.isSet SF

end Registers
end TandemZ80
