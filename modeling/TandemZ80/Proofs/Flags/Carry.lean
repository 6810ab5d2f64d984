import Mathlib.Data.Nat.Bitwise
import Mathlib.Tactic
import TandemZ80.Flags.Lazy

/-!
# Carries of a remembered operation

The flags of an `Operation` are read off single bits of its operands and its result, all held in 32
bits. Here these bits are told in terms of the numbers that the operands stand for.

* `bit`, one bit of a word; `bit_add` and `bit_sub`: the operands and the result differ at a bit by
  the carry, or the borrow, that comes into it;
* `Operation.width` and `Operation.flags_eq`, the flags of either width by their bits;
* `Operation.flags_add` and `Operation.flags_sub`, the flags of sums and differences by comparisons
  of numbers.
-/

namespace TandemZ80.Flags

/-! ### Bits -/

/-- Bit `i` of a word of 32 bits. -/
def bit (v : UInt32) (i : ℕ) : Bool := v.toNat.testBit i

@[simp] theorem bit_xor (v w : UInt32) (i : ℕ) : bit (v ^^^ w) i = (bit v i ^^ bit w i) := by
  rw [bit, UInt32.toNat_xor, Nat.testBit_xor]; rfl

@[simp] theorem bit_and (v w : UInt32) (i : ℕ) : bit (v &&& w) i = (bit v i && bit w i) := by
  rw [bit, UInt32.toNat_and, Nat.testBit_and]; rfl

theorem bit_not (v : UInt32) {i : ℕ} (hi : i < 32) : bit (~~~v) i = !bit v i := by
  show (~~~v).toBitVec.getLsbD i = !v.toBitVec.getLsbD i
  rw [UInt32.toBitVec_not, BitVec.getLsbD_not, decide_eq_true hi, Bool.true_and]

theorem bit_of_lt {v : UInt32} {i : ℕ} (h : v.toNat < 2 ^ i) : bit v i = false :=
  Nat.testBit_lt_two_pow h

/-- The highest of `n` bits tells whether the number they make up is in the upper half. -/
theorem bit_top (v : UInt32) {n : ℕ} (hn : 0 < n) :
    bit v (n - 1) = decide (2 ^ (n - 1) ≤ v.toNat % 2 ^ n) := by
  obtain ⟨k, rfl⟩ : ∃ k, n = k + 1 := ⟨n - 1, by omega⟩
  have hlt := Nat.mod_lt v.toNat (Nat.two_pow_pos k)
  rw [bit, Nat.add_sub_cancel, Nat.mod_pow_succ, Nat.testBit_eq_decide_div_mod_eq]
  rcases Nat.mod_two_eq_zero_or_one (v.toNat / 2 ^ k) with h | h <;> simp [h, hlt]

theorem and_ne_zero_iff {m : UInt32} {i : ℕ} (hm : m.toNat = 2 ^ i) (v : UInt32) :
    v &&& m ≠ 0 ↔ bit v i = true := by
  rw [ne_eq, ← UInt32.toNat_inj, UInt32.toNat_and, hm, Nat.and_two_pow, bit]
  cases v.toNat.testBit i <;> simp

theorem and_eq_zero_iff {m : UInt32} {n : ℕ} (hm : m.toNat = 2 ^ n - 1) (v : UInt32) :
    v &&& m = 0 ↔ v.toNat % 2 ^ n = 0 := by
  rw [← UInt32.toNat_inj, UInt32.toNat_and, hm, Nat.and_two_pow_sub_one_eq_mod, UInt32.toNat_zero]

/-! ### Carries and borrows -/

theorem toBitVec_carry (c : Bool) : c.toUInt32.toBitVec = (BitVec.ofBool c).setWidth 32 := by
  cases c <;> rfl

/-- What comes into bit `i` of a sum is the carry out of the bits below. -/
theorem bit_add (x y : UInt32) (c : Bool) {i : ℕ} (hi : i < 32) :
    (bit x i ^^ bit y i ^^ bit (x + y + c.toUInt32) i) =
      decide (2 ^ i ≤ x.toNat % 2 ^ i + y.toNat % 2 ^ i + c.toNat) := by
  show (x.toBitVec.getLsbD i ^^ y.toBitVec.getLsbD i ^^
    (x.toBitVec + y.toBitVec + c.toUInt32.toBitVec).getLsbD i) = _
  rw [toBitVec_carry, BitVec.getLsbD_add_add_bool hi, BitVec.carry]
  cases x.toBitVec.getLsbD i <;> cases y.toBitVec.getLsbD i <;> simp

/-- A difference less a borrow is a sum with the complement. -/
theorem sub_sub_eq_add_not (x y : BitVec 32) (c : Bool) :
    x - y - (BitVec.ofBool c).setWidth 32 = x + ~~~y + (BitVec.ofBool !c).setWidth 32 := by
  rw [BitVec.sub_eq_add_neg x y, BitVec.neg_eq_not_add]
  cases c
  · simp [BitVec.add_assoc]
  · simp [BitVec.add_assoc, BitVec.sub_eq_add_neg]

/-- What comes into bit `i` of a difference is the borrow from the bits below. -/
theorem bit_sub (x y : UInt32) (c : Bool) {i : ℕ} (hi : i < 32) :
    (bit x i ^^ bit y i ^^ bit (x - y - c.toUInt32) i) =
      decide (x.toNat % 2 ^ i < y.toNat % 2 ^ i + c.toNat) := by
  have hy : (~~~y.toBitVec).toNat % 2 ^ i = 2 ^ i - 1 - y.toNat % 2 ^ i := by
    have h := congrArg BitVec.toNat (BitVec.setWidth_not (x := y.toBitVec) hi.le)
    simpa using h
  -- The sum with the complement carries where the difference does not borrow.
  have hc : BitVec.carry i x.toBitVec (~~~y.toBitVec) (!c) =
      !decide (x.toNat % 2 ^ i < y.toNat % 2 ^ i + c.toNat) := by
    have hlt := Nat.mod_lt y.toNat (Nat.two_pow_pos i)
    rw [BitVec.carry, ← decide_not, decide_eq_decide, hy, UInt32.toNat_toBitVec]
    cases c <;> simp <;> omega
  show (x.toBitVec.getLsbD i ^^ y.toBitVec.getLsbD i ^^
    (x.toBitVec - y.toBitVec - c.toUInt32.toBitVec).getLsbD i) = _
  rw [toBitVec_carry, sub_sub_eq_add_not, BitVec.getLsbD_add_add_bool hi, hc, BitVec.getLsbD_not,
    decide_eq_true hi]
  cases x.toBitVec.getLsbD i <;> cases y.toBitVec.getLsbD i <;> simp

/-! ### The flags of an operation -/

theorem bitIf_congr {p q : Prop} [Decidable p] [Decidable q] (h : p ↔ q) (m : UInt8) :
    bitIf p m = bitIf q m := by
  simp only [bitIf, h]

namespace Operation

/-- The number of bits of an operand. -/
def width (o : Operation) : ℕ := if o.wide then 16 else 8

theorem width_bounds (o : Operation) : 8 ≤ o.width ∧ o.width ≤ 16 := by
  unfold width; split <;> decide

theorem toNat_sign (o : Operation) : o.sign.toNat = 2 ^ (o.width - 1) := by
  unfold sign width; split <;> rfl

/-- The flags of an operation, by the bits of its operands and its result. -/
theorem flags_eq (o : Operation) :
    o.flags =
      bitIf (bit o.result (o.width - 1)) SF ||| bitIf (o.result.toNat % 2 ^ o.width = 0) ZF |||
      o.undocumented.toUInt8 &&& (YF ||| XF) |||
      bitIf (bit o.x (o.width - 4) ^^ bit o.y (o.width - 4) ^^ bit o.result (o.width - 4)) HF |||
      bitIf o.overflowOrParity PF ||| bitIf (bit o.result o.width) CF := by
  have hm : o.mask.toNat = 2 ^ o.width - 1 := by unfold mask width; split <;> rfl
  have hc : (o.mask + 1).toNat = 2 ^ o.width := by unfold mask width; split <;> rfl
  have hh : o.half.toNat = 2 ^ (o.width - 4) := by unfold half width; split <;> rfl
  unfold flags
  simp only [bitIf_congr (and_ne_zero_iff o.toNat_sign _), bitIf_congr (and_eq_zero_iff hm _),
    bitIf_congr (and_ne_zero_iff hh _), bitIf_congr (and_ne_zero_iff hc _), bit_xor]

theorem bit_top_of_lt {v : UInt32} {o : Operation} (hv : v.toNat < 2 ^ o.width) :
    bit v (o.width - 1) = decide (2 ^ (o.width - 1) ≤ v.toNat) := by
  have := o.width_bounds
  rw [bit_top _ (by omega), Nat.mod_eq_of_lt hv]

theorem bit_top_result (o : Operation) :
    bit o.result (o.width - 1) = true ↔ 2 ^ (o.width - 1) ≤ o.result.toNat % 2 ^ o.width := by
  have := o.width_bounds
  rw [bit_top _ (by omega), decide_eq_true_iff]

section Operands

variable {o : Operation} {c : Bool} {n : ℕ} (hn : o.width = n) (hc : o.carry = c.toUInt32)
  (hx : o.x.toNat < 2 ^ n) (hy : o.y.toNat < 2 ^ n)

include hn hc hx hy

/-- The flags of a sum of two operands of `n` bits. -/
theorem flags_add (hk : o.kind = .add) :
    o.flags =
      bitIf (2 ^ (n - 1) ≤ o.result.toNat % 2 ^ n) SF ||| bitIf (o.result.toNat % 2 ^ n = 0) ZF |||
      o.undocumented.toUInt8 &&& (YF ||| XF) |||
      bitIf (2 ^ (n - 4) ≤ o.x.toNat % 2 ^ (n - 4) + o.y.toNat % 2 ^ (n - 4) + c.toNat) HF |||
      bitIf ((2 ^ (n - 1) ≤ o.x.toNat ↔ 2 ^ (n - 1) ≤ o.y.toNat) ∧
        ¬(2 ^ (n - 1) ≤ o.x.toNat ↔ 2 ^ (n - 1) ≤ o.result.toNat % 2 ^ n)) PF |||
      bitIf (2 ^ n ≤ o.x.toNat + o.y.toNat + c.toNat) CF := by
  subst hn
  have hw := o.width_bounds
  have hr : o.result = o.x + o.y + c.toUInt32 := by simp only [result, hk, hc]
  have half :
      (bit o.x (o.width - 4) ^^ bit o.y (o.width - 4) ^^ bit o.result (o.width - 4)) = true ↔
        2 ^ (o.width - 4) ≤
          o.x.toNat % 2 ^ (o.width - 4) + o.y.toNat % 2 ^ (o.width - 4) + c.toNat := by
    rw [hr, bit_add _ _ _ (by omega), decide_eq_true_iff]
  have overflow : o.overflowOrParity = true ↔
      (2 ^ (o.width - 1) ≤ o.x.toNat ↔ 2 ^ (o.width - 1) ≤ o.y.toNat) ∧
        ¬(2 ^ (o.width - 1) ≤ o.x.toNat ↔
          2 ^ (o.width - 1) ≤ o.result.toNat % 2 ^ o.width) := by
    simp only [overflowOrParity, hk, bne_iff_ne, and_ne_zero_iff o.toNat_sign, bit_and, bit_xor,
      bit_not _ (show o.width - 1 < 32 by omega), bit_top_of_lt hx, bit_top_of_lt hy,
      ← bit_top_result]
    by_cases h : 2 ^ (o.width - 1) ≤ o.x.toNat <;> by_cases h' : 2 ^ (o.width - 1) ≤ o.y.toNat <;>
      simp [h, h']
  have carry : bit o.result o.width = true ↔ 2 ^ o.width ≤ o.x.toNat + o.y.toNat + c.toNat := by
    have h := bit_add o.x o.y c (show o.width < 32 by omega)
    rw [bit_of_lt hx, bit_of_lt hy, Nat.mod_eq_of_lt hx, Nat.mod_eq_of_lt hy, ← hr, Bool.false_xor,
      Bool.false_xor] at h
    rw [h, decide_eq_true_iff]
  rw [flags_eq, bitIf_congr o.bit_top_result, bitIf_congr half, bitIf_congr overflow,
    bitIf_congr carry]

/-- The flags of a difference, or of a comparison, of two operands of `n` bits. -/
theorem flags_sub (hk : o.kind = .sub ∨ o.kind = .compare) :
    o.flags =
      bitIf (2 ^ (n - 1) ≤ o.result.toNat % 2 ^ n) SF ||| bitIf (o.result.toNat % 2 ^ n = 0) ZF |||
      o.undocumented.toUInt8 &&& (YF ||| XF) |||
      bitIf (o.x.toNat % 2 ^ (n - 4) < o.y.toNat % 2 ^ (n - 4) + c.toNat) HF |||
      bitIf (¬(2 ^ (n - 1) ≤ o.x.toNat ↔ 2 ^ (n - 1) ≤ o.y.toNat) ∧
        (2 ^ (n - 1) ≤ o.y.toNat ↔ 2 ^ (n - 1) ≤ o.result.toNat % 2 ^ n)) PF |||
      bitIf (o.x.toNat < o.y.toNat + c.toNat) CF := by
  subst hn
  have hw := o.width_bounds
  have hr : o.result = o.x - o.y - c.toUInt32 := by
    rcases hk with hk | hk <;> simp only [result, hk, hc]
  have half :
      (bit o.x (o.width - 4) ^^ bit o.y (o.width - 4) ^^ bit o.result (o.width - 4)) = true ↔
        o.x.toNat % 2 ^ (o.width - 4) < o.y.toNat % 2 ^ (o.width - 4) + c.toNat := by
    rw [hr, bit_sub _ _ _ (by omega), decide_eq_true_iff]
  have overflow : o.overflowOrParity = true ↔
      ¬(2 ^ (o.width - 1) ≤ o.x.toNat ↔ 2 ^ (o.width - 1) ≤ o.y.toNat) ∧
        (2 ^ (o.width - 1) ≤ o.y.toNat ↔
          2 ^ (o.width - 1) ≤ o.result.toNat % 2 ^ o.width) := by
    have ho : o.overflowOrParity =
        ((o.x ^^^ o.y) &&& (o.x ^^^ o.result) &&& o.sign != 0) := by
      rcases hk with hk | hk <;> simp only [overflowOrParity, hk]
    simp only [ho, bne_iff_ne, and_ne_zero_iff o.toNat_sign, bit_and, bit_xor, bit_top_of_lt hx,
      bit_top_of_lt hy, ← bit_top_result]
    by_cases h : 2 ^ (o.width - 1) ≤ o.x.toNat <;> by_cases h' : 2 ^ (o.width - 1) ≤ o.y.toNat <;>
      simp [h, h']
  have borrow : bit o.result o.width = true ↔ o.x.toNat < o.y.toNat + c.toNat := by
    have h := bit_sub o.x o.y c (show o.width < 32 by omega)
    rw [bit_of_lt hx, bit_of_lt hy, Nat.mod_eq_of_lt hx, Nat.mod_eq_of_lt hy, ← hr, Bool.false_xor,
      Bool.false_xor] at h
    rw [h, decide_eq_true_iff]
  rw [flags_eq, bitIf_congr o.bit_top_result, bitIf_congr half, bitIf_congr overflow,
    bitIf_congr borrow]

end Operands

end Operation
end TandemZ80.Flags
