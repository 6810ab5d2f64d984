import TandemZ80.Alu
import TandemZ80.Cpu.Registers

/-!
# Instructions

An opcode is read as three fields: `x`, its top two bits, `y`, the next three, and `z`, the low
three. Registers, pairs, conditions and operations are coded in `y` and `z`.

* `Instruction`, the unprefixed instructions, with `Opcode`, which adds the prefixes;
* `BitInstruction`, the instructions after CB;
* `ExtendedInstruction`, the instructions after ED;
* `decode` for each of the three. Every byte decodes; after ED a byte without a meaning is a `nop`.
-/

namespace TandemZ80

open Alu (Shift)

/-! ### Fields -/

/-- The three fields of an opcode. -/
structure Fields where
  x : Nat
  y : Nat
  z : Nat

/-- Split an opcode. -/
def Fields.ofByte (op : UInt8) : Fields := ⟨op.toNat / 64, op.toNat / 8 % 8, op.toNat % 8⟩

/-- An operand of one byte, by its code. -/
def Operand8.ofCode : Nat → Operand8
  | 0 => .reg .b
  | 1 => .reg .c
  | 2 => .reg .d
  | 3 => .reg .e
  | 4 => .reg .h
  | 5 => .reg .l
  | 6 => .mem
  | _ => .reg .a

/-- A pair, by its code. -/
def Pair.ofCode : Nat → Pair
  | 0 => .bc
  | 1 => .de
  | 2 => .hl
  | _ => .sp

/-- A pair for push and pop, by its code. -/
def StackPair.ofCode : Nat → StackPair
  | 0 => .bc
  | 1 => .de
  | 2 => .hl
  | _ => .af

/-- A condition, by its code. -/
def Condition.ofCode : Nat → Condition
  | 0 => .nz
  | 1 => .z
  | 2 => .nc
  | 3 => .c
  | 4 => .po
  | 5 => .pe
  | 6 => .p
  | _ => .m

/-- The operations between A and an operand. -/
inductive AluOp
  | add | adc | sub | sbc | and | xor | or | cp
  deriving DecidableEq

/-- An operation, by its code. -/
def AluOp.ofCode : Nat → AluOp
  | 0 => .add
  | 1 => .adc
  | 2 => .sub
  | 3 => .sbc
  | 4 => .and
  | 5 => .xor
  | 6 => .or
  | _ => .cp

/-- Where a load of A from memory, or a store, finds its address. -/
inductive Pointer
  | bc
  | de
  /-- The word after the opcode. -/
  | literal
  deriving DecidableEq

/-! ### Unprefixed instructions -/

/-- The instructions without a prefix. HL, H and L stand for the index register, and `mem` for the
byte it points to. -/
inductive Instruction
  | nop
  | halt
  | di
  | ei
  /-- Load a pair with a literal word. -/
  | ldPair (p : Pair)
  /-- Store A. -/
  | storeA (via : Pointer)
  /-- Load A from memory. -/
  | loadA (via : Pointer)
  /-- Store HL at a literal address. -/
  | storeIndex
  /-- Load HL from a literal address. -/
  | loadIndex
  | incPair (p : Pair)
  | decPair (p : Pair)
  /-- Add a pair to HL. -/
  | addPair (p : Pair)
  | inc (o : Operand8)
  | dec (o : Operand8)
  /-- Load an operand with a literal byte. -/
  | ldByte (o : Operand8)
  /-- Load a register from a register. -/
  | ld (dst src : Reg8)
  /-- Load a register from memory. -/
  | ldFromMem (dst : Reg8)
  /-- Store a register in memory. -/
  | ldToMem (src : Reg8)
  | alu (op : AluOp) (o : Operand8)
  /-- An operation between A and a literal byte. -/
  | aluByte (op : AluOp)
  /-- A rotation of A, which leaves sign, zero and parity alone. -/
  | rotateA (s : Shift)
  | daa
  | cpl
  | scf
  | ccf
  | djnz
  | jr (c : Option Condition)
  | jp (c : Option Condition)
  | call (c : Option Condition)
  | ret (c : Option Condition)
  | rst (target : UInt16)
  /-- Jump to the address in HL. -/
  | jpIndex
  | push (p : StackPair)
  | pop (p : StackPair)
  /-- Exchange HL with the word on the stack. -/
  | exStack
  /-- Load SP from HL. -/
  | ldSP
  /-- Exchange AF with its alternate. -/
  | exAF
  /-- Exchange BC, DE and HL with their alternates. -/
  | exx
  /-- Exchange DE and HL; never an index register. -/
  | exDE
  /-- Output A to the port with a literal low byte. -/
  | outByte
  /-- Input A from the port with a literal low byte. -/
  | inByte
  deriving DecidableEq

/-- What a byte means where an opcode is expected. -/
inductive Opcode
  | plain (i : Instruction)
  /-- CB: a bit instruction follows. -/
  | bits
  /-- ED: an extended instruction follows. -/
  | extended
  /-- DD or FD: an index register stands in for HL in what follows. -/
  | index (x : Index)
  deriving DecidableEq

namespace Opcode

/-- Opcodes with `x = 0`. -/
def decode0 (y : Nat) : Nat → Instruction
  | 0 =>
    match y with
    | 0 => .nop
    | 1 => .exAF
    | 2 => .djnz
    | 3 => .jr none
    | _ => .jr (some (.ofCode (y - 4)))
  | 1 => if y % 2 = 0 then .ldPair (.ofCode (y / 2)) else .addPair (.ofCode (y / 2))
  | 2 =>
    match y with
    | 0 => .storeA .bc
    | 1 => .loadA .bc
    | 2 => .storeA .de
    | 3 => .loadA .de
    | 4 => .storeIndex
    | 5 => .loadIndex
    | 6 => .storeA .literal
    | _ => .loadA .literal
  | 3 => if y % 2 = 0 then .incPair (.ofCode (y / 2)) else .decPair (.ofCode (y / 2))
  | 4 => .inc (.ofCode y)
  | 5 => .dec (.ofCode y)
  | 6 => .ldByte (.ofCode y)
  | _ =>
    match y with
    | 0 => .rotateA .rlc
    | 1 => .rotateA .rrc
    | 2 => .rotateA .rl
    | 3 => .rotateA .rr
    | 4 => .daa
    | 5 => .cpl
    | 6 => .scf
    | _ => .ccf

/-- Opcodes with `x = 1`: loads between operands, and a halt where both would be memory. -/
def decode1 (y z : Nat) : Instruction :=
  match Operand8.ofCode y, Operand8.ofCode z with
  | .reg dst, .reg src => .ld dst src
  | .reg dst, .mem => .ldFromMem dst
  | .mem, .reg src => .ldToMem src
  | .mem, .mem => .halt

/-- Opcodes with `x = 3`. -/
def decode3 (y : Nat) : Nat → Opcode
  | 0 => .plain (.ret (some (.ofCode y)))
  | 1 =>
    if y % 2 = 0 then .plain (.pop (.ofCode (y / 2)))
    else match y with
      | 1 => .plain (.ret none)
      | 3 => .plain .exx
      | 5 => .plain .jpIndex
      | _ => .plain .ldSP
  | 2 => .plain (.jp (some (.ofCode y)))
  | 3 =>
    match y with
    | 0 => .plain (.jp none)
    | 1 => .bits
    | 2 => .plain .outByte
    | 3 => .plain .inByte
    | 4 => .plain .exStack
    | 5 => .plain .exDE
    | 6 => .plain .di
    | _ => .plain .ei
  | 4 => .plain (.call (some (.ofCode y)))
  | 5 =>
    if y % 2 = 0 then .plain (.push (.ofCode (y / 2)))
    else match y with
      | 1 => .plain (.call none)
      | 3 => .index .ix
      | 5 => .extended
      | _ => .index .iy
  | 6 => .plain (.aluByte (.ofCode y))
  | _ => .plain (.rst (UInt16.ofNat (8 * y)))

/-- The meaning of an opcode. -/
def decode (op : UInt8) : Opcode :=
  let f := Fields.ofByte op
  match f.x with
  | 0 => .plain (decode0 f.y f.z)
  | 1 => .plain (decode1 f.y f.z)
  | 2 => .plain (.alu (.ofCode f.y) (.ofCode f.z))
  | _ => decode3 f.y f.z

/-- Whether a byte is one of the two index prefixes. -/
def isIndex (op : UInt8) : Bool := op == 0xDD || op == 0xFD

end Opcode

/-! ### Bit instructions -/

/-- What a bit instruction does to its operand. -/
inductive BitOp
  | shift (s : Shift)
  | test (bit : UInt8)
  | reset (bit : UInt8)
  | set (bit : UInt8)
  deriving DecidableEq

/-- An instruction after CB. Under an index register the operand names where the result is copied;
the byte worked on is always the one in memory. -/
structure BitInstruction where
  op : BitOp
  operand : Operand8
  deriving DecidableEq

/-- The meaning of a byte after CB. -/
def BitInstruction.decode (op : UInt8) : BitInstruction :=
  let f := Fields.ofByte op
  let y := UInt8.ofNat f.y
  { op := match f.x with
      | 0 => .shift (.ofCode y)
      | 1 => .test y
      | 2 => .reset y
      | _ => .set y
    operand := .ofCode f.z }

/-! ### Extended instructions -/

/-- Which way a block instruction walks through memory. -/
inductive Walk
  | up
  | down
  deriving DecidableEq

/-- The next address of a walk. -/
def Walk.next : Walk → UInt16 → UInt16
  | .up, a => a + 1
  | .down, a => a - 1

/-- What a block instruction does with each byte. -/
inductive BlockOp
  /-- Copy it from HL to DE. -/
  | load
  /-- Compare it with A. -/
  | compare
  /-- Input it from port BC. -/
  | input
  /-- Output it to port BC. -/
  | output
  deriving DecidableEq

/-- An instruction after ED. -/
inductive ExtendedInstruction
  | nop
  /-- Input from port BC; `mem` stands for no register, only the flags are set. -/
  | inC (o : Operand8)
  /-- Output to port BC; `mem` stands for zero. -/
  | outC (o : Operand8)
  | sbcPair (p : Pair)
  | adcPair (p : Pair)
  | storePair (p : Pair)
  | loadPair (p : Pair)
  | neg
  | retn
  | setMode (m : InterruptMode)
  | ldIA
  | ldRA
  | ldAI
  | ldAR
  | rrd
  | rld
  | block (op : BlockOp) (walk : Walk) (repeats : Bool)
  deriving DecidableEq

/-- The meaning of a byte after ED. -/
def ExtendedInstruction.decode (op : UInt8) : ExtendedInstruction :=
  let f := Fields.ofByte op
  match f.x with
  | 1 =>
    match f.z with
    | 0 => .inC (.ofCode f.y)
    | 1 => .outC (.ofCode f.y)
    | 2 => if f.y % 2 = 0 then .sbcPair (.ofCode (f.y / 2)) else .adcPair (.ofCode (f.y / 2))
    | 3 => if f.y % 2 = 0 then .storePair (.ofCode (f.y / 2)) else .loadPair (.ofCode (f.y / 2))
    | 4 => .neg
    | 5 => .retn
    | 6 =>
      match f.y % 4 with
      | 0 | 1 => .setMode .mode0
      | 2 => .setMode .mode1
      | _ => .setMode .mode2
    | _ =>
      match f.y with
      | 0 => .ldIA
      | 1 => .ldRA
      | 2 => .ldAI
      | 3 => .ldAR
      | 4 => .rrd
      | 5 => .rld
      | _ => .nop
  | 2 =>
    if f.y < 4 then .nop
    else
      let walk := if f.y % 2 = 0 then .up else .down
      let repeats := f.y ≥ 6
      match f.z with
      | 0 => .block .load walk repeats
      | 1 => .block .compare walk repeats
      | 2 => .block .input walk repeats
      | 3 => .block .output walk repeats
      | _ => .nop
  | _ => .nop

end TandemZ80
