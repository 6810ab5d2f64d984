/-!
# The flag byte

The eight flags of the processor are the bits of one byte, F. Bits 5 and 3 have no official
meaning; they mostly copy the same bits of a result.

* the masks `SF ZF YF HF XF PF NF CF`, from bit 7 down to bit 0;
* `bitIf`, a mask under a condition;
* `evenParity`, `sz53` and `sz53p`, the flags that depend on a result alone.
-/

namespace TandemZ80

/-- Sign: the result is negative. -/
def SF : UInt8 := 0x80

/-- Zero: the result is zero. -/
def ZF : UInt8 := 0x40

/-- Bit 5, a copy of bit 5 of the result. -/
def YF : UInt8 := 0x20

/-- Half carry: a carry out of the low nibble. -/
def HF : UInt8 := 0x10

/-- Bit 3, a copy of bit 3 of the result. -/
def XF : UInt8 := 0x08

/-- Parity or overflow. -/
def PF : UInt8 := 0x04

/-- Subtract: the last operation was a subtraction. -/
def NF : UInt8 := 0x02

/-- Carry. -/
def CF : UInt8 := 0x01

namespace Flags

/-- The bits of `mask` if `p` holds, no bits otherwise. -/
def bitIf (p : Prop) [Decidable p] (mask : UInt8) : UInt8 := if p then mask else 0

/-- How many bits of `v` are set. -/
def ones (v : UInt8) : Nat := (List.range 8).countP fun i => v.toNat.testBit i

/-- Whether an even number of bits is set. -/
def evenParity (v : UInt8) : Bool := ones v % 2 == 0

/-- Sign, zero and bits 5 and 3 of a result. -/
def sz53 (v : UInt8) : UInt8 := bitIf (v ≥ 0x80) SF ||| bitIf (v = 0) ZF ||| v &&& (YF ||| XF)

/-- Sign, zero, parity and bits 5 and 3 of a result. -/
def sz53p (v : UInt8) : UInt8 := sz53 v ||| bitIf (evenParity v) PF

end Flags
end TandemZ80
