import TandemZ80.Flags.Basic

/-!
# Deferred flags

Most flag results are overwritten before anything reads them. `Lazy` holds F with some of its bits
still owed: it remembers the last operation, and works a bit out when somebody asks for it.

* `Operation`, what is remembered, and `Operation.flags`, the flags it gives;
* `Lazy`, the deferred byte, and `Lazy.peek`, the byte it stands for;
* readers, which settle the bits they read: `value`, `get`, `test`;
* writers: `set`, `assign`, and one recorder for each arithmetic operation.
-/

namespace TandemZ80.Flags

/-- The kinds of operation that flags are worked out from. -/
inductive Kind
  /-- A sum of two operands and a carry. -/
  | add
  /-- A difference of two operands, less a borrow. -/
  | sub
  /-- A difference whose bits 5 and 3 come from the second operand. -/
  | compare
  /-- A result that is already known; parity replaces overflow. -/
  | logic
  deriving DecidableEq

/-- A remembered operation. Operands are widened to 32 bits, so that the carry out of a byte stands
at bit 8 and the carry out of a word at bit 16. -/
structure Operation where
  kind : Kind
  wide : Bool
  x : UInt32
  y : UInt32
  carry : UInt32
  deriving DecidableEq

namespace Operation

/-- The result, with what was carried out of it above its width. -/
def result (o : Operation) : UInt32 :=
  match o.kind with
  | .add => o.x + o.y + o.carry
  | .sub | .compare => o.x - o.y - o.carry
  | .logic => o.x

/-- The highest bit of an operand. -/
def sign (o : Operation) : UInt32 := if o.wide then 0x8000 else 0x80

/-- All bits of an operand. -/
def mask (o : Operation) : UInt32 := if o.wide then 0xFFFF else 0xFF

/-- The bit that a half carry goes into. -/
def half (o : Operation) : UInt32 := if o.wide then 0x1000 else 0x10

/-- Where bits 5 and 3 come from. -/
def undocumented (o : Operation) : UInt32 :=
  match o.kind, o.wide with
  | .compare, _ => o.y
  | _, true => o.result >>> 8
  | _, false => o.result

/-- Overflow of an arithmetic operation, parity of a logical one. -/
def overflowOrParity (o : Operation) : Bool :=
  match o.kind with
  | .add => ~~~(o.x ^^^ o.y) &&& (o.x ^^^ o.result) &&& o.sign != 0
  | .sub | .compare => (o.x ^^^ o.y) &&& (o.x ^^^ o.result) &&& o.sign != 0
  | .logic => evenParity o.result.toUInt8

/-- The flags that the operation gives. Subtract is never owed, so it does not appear. -/
def flags (o : Operation) : UInt8 :=
  let r := o.result
  bitIf (r &&& o.sign ≠ 0) SF ||| bitIf (r &&& o.mask = 0) ZF |||
    o.undocumented.toUInt8 &&& (YF ||| XF) ||| bitIf ((o.x ^^^ o.y ^^^ r) &&& o.half ≠ 0) HF |||
    bitIf o.overflowOrParity PF ||| bitIf (r &&& (o.mask + 1) ≠ 0) CF

end Operation

/-- The flag byte with some bits owed. -/
structure Lazy where
  /-- The bits that are settled; the owed ones are stale. -/
  settled : UInt8
  /-- The operation that the owed bits come from. -/
  operation : Operation
  /-- The owed bits. -/
  pending : UInt8
  deriving DecidableEq

namespace Lazy

/-- The byte `f` with nothing owed. -/
def ofByte (f : UInt8) : Lazy := ⟨f, ⟨.logic, false, 0, 0, 0⟩, 0⟩

instance : Inhabited Lazy := ⟨ofByte 0⟩

/-! ### Reading -/

/-- The byte that the deferred flags stand for. -/
def peek (l : Lazy) : UInt8 := l.settled &&& ~~~l.pending ||| l.operation.flags &&& l.pending

/-- Whether any flag in `mask` is set. -/
def isSet (l : Lazy) (mask : UInt8) : Bool := l.peek &&& mask != 0

/-- Work out the owed bits in `mask`. -/
def settle (l : Lazy) (mask : UInt8) : Lazy :=
  let due := l.pending &&& mask
  { l with
    settled := l.settled &&& ~~~due ||| l.operation.flags &&& due
    pending := l.pending &&& ~~~mask }

/-- Settle everything and read the byte. -/
def value (l : Lazy) : UInt8 × Lazy :=
  let l := l.settle 0xFF
  (l.settled, l)

/-- Settle the bits in `mask` and read them. -/
def get (l : Lazy) (mask : UInt8) : UInt8 × Lazy :=
  let l := l.settle mask
  (l.settled &&& mask, l)

/-- Settle the bits in `mask` and tell whether any is set. -/
def test (l : Lazy) (mask : UInt8) : Bool × Lazy :=
  let (f, l) := l.get mask
  (f != 0, l)

/-! ### Writing -/

/-- Overwrite the byte; nothing is owed afterwards. -/
def set (l : Lazy) (f : UInt8) : Lazy := { l with settled := f, pending := 0 }

/-- Overwrite the bits in `mask` by those of `f`; the others, owed or not, stay as they are. -/
def assign (l : Lazy) (mask f : UInt8) : Lazy :=
  { l with settled := l.settled &&& ~~~mask ||| f &&& mask, pending := l.pending &&& ~~~mask }

/-- Remember an operation that gives the bits in `pending`, and fix the bits in `fixed` to those of
`f`. All other bits keep their value; where it is still owed, it is settled first, because the
operation that it comes from is forgotten now. -/
def record (l : Lazy) (o : Operation) (pending fixed f : UInt8) : Lazy :=
  let l := l.settle (~~~(pending ||| fixed))
  { settled := l.settled &&& ~~~fixed ||| f &&& fixed, operation := o, pending := pending }

/-! ### Arithmetic on bytes -/

/-- All flags but subtract. -/
def allButN : UInt8 := ~~~NF

/-- Addition with carry. -/
def add8 (l : Lazy) (a b : UInt8) (carry : Bool) : UInt8 × Lazy :=
  (a + b + carry.toUInt8,
    l.record ⟨.add, false, a.toUInt32, b.toUInt32, carry.toUInt32⟩ allButN NF 0)

/-- Subtraction with borrow. -/
def sub8 (l : Lazy) (a b : UInt8) (carry : Bool) : UInt8 × Lazy :=
  (a - b - carry.toUInt8,
    l.record ⟨.sub, false, a.toUInt32, b.toUInt32, carry.toUInt32⟩ allButN NF NF)

/-- Comparison. -/
def cp8 (l : Lazy) (a b : UInt8) : Lazy :=
  l.record ⟨.compare, false, a.toUInt32, b.toUInt32, 0⟩ allButN NF NF

/-- Increment; carry stays. -/
def inc8 (l : Lazy) (a : UInt8) : UInt8 × Lazy :=
  (a + 1, l.record ⟨.add, false, a.toUInt32, 1, 0⟩ (~~~(NF ||| CF)) NF 0)

/-- Decrement; carry stays. -/
def dec8 (l : Lazy) (a : UInt8) : UInt8 × Lazy :=
  (a - 1, l.record ⟨.sub, false, a.toUInt32, 1, 0⟩ (~~~(NF ||| CF)) NF NF)

/-- A logical operation with result `r`; half carry takes the bit of `h`, carry goes. -/
def logic (l : Lazy) (r h : UInt8) : UInt8 × Lazy :=
  (r, l.record ⟨.logic, false, r.toUInt32, 0, 0⟩ (SF ||| ZF ||| YF ||| XF ||| PF)
    (HF ||| NF ||| CF) h)

/-- Bitwise and; half carry is set. -/
def and8 (l : Lazy) (a b : UInt8) : UInt8 × Lazy := l.logic (a &&& b) HF

/-- Bitwise or. -/
def or8 (l : Lazy) (a b : UInt8) : UInt8 × Lazy := l.logic (a ||| b) 0

/-- Bitwise exclusive or. -/
def xor8 (l : Lazy) (a b : UInt8) : UInt8 × Lazy := l.logic (a ^^^ b) 0

/-! ### Arithmetic on words -/

/-- Addition; sign, zero and overflow stay. -/
def add16 (l : Lazy) (a b : UInt16) : UInt16 × Lazy :=
  (a + b, l.record ⟨.add, true, a.toUInt32, b.toUInt32, 0⟩ (YF ||| HF ||| XF ||| CF) NF 0)

/-- Addition with carry. -/
def adc16 (l : Lazy) (a b : UInt16) (carry : Bool) : UInt16 × Lazy :=
  (a + b + carry.toUInt16,
    l.record ⟨.add, true, a.toUInt32, b.toUInt32, carry.toUInt32⟩ allButN NF 0)

/-- Subtraction with borrow. -/
def sbc16 (l : Lazy) (a b : UInt16) (carry : Bool) : UInt16 × Lazy :=
  (a - b - carry.toUInt16,
    l.record ⟨.sub, true, a.toUInt32, b.toUInt32, carry.toUInt32⟩ allButN NF NF)

end Lazy
end TandemZ80.Flags
