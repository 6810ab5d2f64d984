import TandemZ80.Flags.Basic

/-!
# Arithmetic and logic

The operations of the processor's arithmetic unit, each with its result and all the flags it
determines. Flags that an instruction leaves alone come out clear here; the instruction keeps
them.

* `Result`, a value with its flags;
* bytes: `add8`, `sub8`, `cp8`, `and8`, `or8`, `xor8`, `inc8`, `dec8`;
* rotations and shifts of a byte, and `Shift`, which names the eight of them;
* `bit`, the test of one bit, and `daa`, the decimal adjustment;
* words: `add16`, `adc16`, `sbc16`.
-/

namespace TandemZ80.Alu

open Flags

/-- A value and the flags it comes with. -/
structure Result (α : Type) where
  value : α
  flags : UInt8
  deriving DecidableEq

/-! ### Bytes -/

/-- The sum of two bytes and a carry. -/
def add8 (a b : UInt8) (carry : Bool) : Result UInt8 :=
  let c := carry.toNat
  let v := a + b + carry.toUInt8
  { value := v
    flags := sz53 v ||| bitIf (a.toNat % 16 + b.toNat % 16 + c > 15) HF |||
      bitIf ((a ≥ 0x80 ↔ b ≥ 0x80) ∧ ¬(a ≥ 0x80 ↔ v ≥ 0x80)) PF |||
      bitIf (a.toNat + b.toNat + c > 255) CF }

/-- The difference of two bytes, less a borrow. -/
def sub8 (a b : UInt8) (carry : Bool) : Result UInt8 :=
  let c := carry.toNat
  let v := a - b - carry.toUInt8
  { value := v
    flags := NF ||| sz53 v ||| bitIf (a.toNat % 16 < b.toNat % 16 + c) HF |||
      bitIf (¬(a ≥ 0x80 ↔ b ≥ 0x80) ∧ (b ≥ 0x80 ↔ v ≥ 0x80)) PF |||
      bitIf (a.toNat < b.toNat + c) CF }

/-- A comparison is a subtraction whose bits 5 and 3 come from the operand. -/
def cp8 (a b : UInt8) : Result UInt8 :=
  let d := sub8 a b false
  { d with flags := d.flags &&& ~~~(YF ||| XF) ||| b &&& (YF ||| XF) }

/-- Bitwise and; half carry is always set. -/
def and8 (a b : UInt8) : Result UInt8 := ⟨a &&& b, sz53p (a &&& b) ||| HF⟩

/-- Bitwise or. -/
def or8 (a b : UInt8) : Result UInt8 := ⟨a ||| b, sz53p (a ||| b)⟩

/-- Bitwise exclusive or. -/
def xor8 (a b : UInt8) : Result UInt8 := ⟨a ^^^ b, sz53p (a ^^^ b)⟩

/-- The next byte. An increment leaves carry alone. -/
def inc8 (a : UInt8) : Result UInt8 :=
  ⟨a + 1, sz53 (a + 1) ||| bitIf (a.toNat % 16 = 15) HF ||| bitIf (a = 0x7F) PF⟩

/-- The previous byte. A decrement leaves carry alone. -/
def dec8 (a : UInt8) : Result UInt8 :=
  ⟨a - 1, NF ||| sz53 (a - 1) ||| bitIf (a.toNat % 16 = 0) HF ||| bitIf (a = 0x80) PF⟩

/-! ### Rotations and shifts -/

/-- A shifted byte: carry is the bit that fell out, half carry and subtract are clear. -/
def shifted (v out : UInt8) : Result UInt8 := ⟨v, sz53p v ||| bitIf (out ≠ 0) CF⟩

/-- Rotate left. -/
def rlc8 (a : UInt8) : Result UInt8 := shifted (a <<< 1 ||| a >>> 7) (a &&& 0x80)

/-- Rotate right. -/
def rrc8 (a : UInt8) : Result UInt8 := shifted (a >>> 1 ||| a <<< 7) (a &&& 0x01)

/-- Rotate left through carry. -/
def rl8 (a : UInt8) (carry : Bool) : Result UInt8 :=
  shifted (a <<< 1 ||| carry.toUInt8) (a &&& 0x80)

/-- Rotate right through carry. -/
def rr8 (a : UInt8) (carry : Bool) : Result UInt8 :=
  shifted (a >>> 1 ||| carry.toUInt8 <<< 7) (a &&& 0x01)

/-- Shift left. -/
def sla8 (a : UInt8) : Result UInt8 := shifted (a <<< 1) (a &&& 0x80)

/-- Shift right, keeping the sign. -/
def sra8 (a : UInt8) : Result UInt8 := shifted (a >>> 1 ||| a &&& 0x80) (a &&& 0x01)

/-- Shift left, bringing in a one. -/
def sll8 (a : UInt8) : Result UInt8 := shifted (a <<< 1 ||| 1) (a &&& 0x80)

/-- Shift right, bringing in a zero. -/
def srl8 (a : UInt8) : Result UInt8 := shifted (a >>> 1) (a &&& 0x01)

/-- The eight rotations and shifts. -/
inductive Shift
  | rlc | rrc | rl | rr | sla | sra | sll | srl
  deriving DecidableEq

/-- The shift with a given code; only the low three bits of the code count. -/
def Shift.ofCode (code : UInt8) : Shift :=
  match (code &&& 7).toNat with
  | 0 => rlc
  | 1 => rrc
  | 2 => rl
  | 3 => rr
  | 4 => sla
  | 5 => sra
  | 6 => sll
  | _ => srl

/-- Rotate or shift a byte. -/
def Shift.apply (s : Shift) (a : UInt8) (carry : Bool) : Result UInt8 :=
  match s with
  | rlc => rlc8 a
  | rrc => rrc8 a
  | rl => rl8 a carry
  | rr => rr8 a carry
  | sla => sla8 a
  | sra => sra8 a
  | sll => sll8 a
  | srl => srl8 a

/-! ### Bit test and decimal adjustment -/

/-- The flags of a test of bit `b` of `v`. Bits 5 and 3 come from `xy`: the value itself for a
register, the high byte of the address for an indexed operand. The test leaves carry alone. -/
def bit (b v xy : UInt8) : UInt8 :=
  let tested := v &&& 1 <<< (b &&& 7)
  HF ||| bitIf (tested = 0) (ZF ||| PF) ||| bitIf (tested ≥ 0x80) SF ||| xy &&& (YF ||| XF)

/-- Decimal adjustment of `a` after an addition or subtraction that left the flags `f`. -/
def daa (a f : UInt8) : Result UInt8 :=
  let subtract := f &&& NF ≠ 0
  let half := f &&& HF ≠ 0
  let carry := f &&& CF ≠ 0 ∨ a > 0x99
  let correction := bitIf (half ∨ a &&& 0x0F > 9) 0x06 ||| bitIf carry 0x60
  let v := if subtract then a - correction else a + correction
  { value := v
    flags := sz53p v ||| f &&& NF ||| bitIf carry CF |||
      bitIf (if subtract then half ∧ a &&& 0x0F < 6 else a &&& 0x0F > 9) HF }

/-! ### Words -/

/-- Bits 5 and 3 of the high byte of a word. -/
def xy16 (v : UInt16) : UInt8 := (v >>> 8).toUInt8 &&& (YF ||| XF)

/-- The sum of two words. Only half carry, carry and bits 5 and 3 have a meaning. -/
def add16 (a b : UInt16) : Result UInt16 :=
  { value := a + b
    flags := xy16 (a + b) ||| bitIf (a.toNat % 4096 + b.toNat % 4096 > 4095) HF |||
      bitIf (a.toNat + b.toNat > 65535) CF }

/-- The sum of two words and a carry. -/
def adc16 (a b : UInt16) (carry : Bool) : Result UInt16 :=
  let c := carry.toNat
  let v := a + b + carry.toUInt16
  { value := v
    flags := bitIf (v ≥ 0x8000) SF ||| bitIf (v = 0) ZF ||| xy16 v |||
      bitIf (a.toNat % 4096 + b.toNat % 4096 + c > 4095) HF |||
      bitIf ((a ≥ 0x8000 ↔ b ≥ 0x8000) ∧ ¬(a ≥ 0x8000 ↔ v ≥ 0x8000)) PF |||
      bitIf (a.toNat + b.toNat + c > 65535) CF }

/-- The difference of two words, less a borrow. -/
def sbc16 (a b : UInt16) (carry : Bool) : Result UInt16 :=
  let c := carry.toNat
  let v := a - b - carry.toUInt16
  { value := v
    flags := NF ||| bitIf (v ≥ 0x8000) SF ||| bitIf (v = 0) ZF ||| xy16 v |||
      bitIf (a.toNat % 4096 < b.toNat % 4096 + c) HF |||
      bitIf (¬(a ≥ 0x8000 ↔ b ≥ 0x8000) ∧ (b ≥ 0x8000 ↔ v ≥ 0x8000)) PF |||
      bitIf (a.toNat < b.toNat + c) CF }

end TandemZ80.Alu
