import TandemZ80.Alu
import TandemZ80.Proofs.Flags.Carry

/-!
# Deferred flags and the arithmetic unit

What a remembered operation gives for its owed bits, together with the bits that are fixed when it
is recorded, are the flags of the operation of the same name in `Alu`.

* `or_and`, `bitIf_and`: a mask goes through a byte of flags;
* `flags_add8` to `flags_sbc16`, one statement for each recorder.
-/

namespace TandemZ80.Flags

/-! ### Masks -/

theorem or_and (a b m : UInt8) : (a ||| b) &&& m = a &&& m ||| b &&& m := by
  rw [← UInt8.toBitVec_inj]
  ext i hi
  simp [Bool.and_or_distrib_right]

theorem bitIf_and (p : Prop) [Decidable p] (k m : UInt8) : bitIf p k &&& m = bitIf p (k &&& m) := by
  unfold bitIf
  split <;> simp

@[simp] theorem bitIf_zero (p : Prop) [Decidable p] : bitIf p 0 = 0 := by
  unfold bitIf
  split <;> rfl

/-- No operation owes the subtract flag. -/
theorem flags_and_allButN (o : Operation) : o.flags &&& Lazy.allButN = o.flags := by
  unfold Operation.flags
  simp only [or_and, bitIf_and, UInt8.and_assoc]
  rfl

/-! ### Operands and results as bytes -/

@[simp] theorem toUInt8_carry (c : Bool) : c.toUInt32.toUInt8 = c.toUInt8 := by cases c <;> rfl

theorem toNat_byte_lt (a : UInt8) : a.toUInt32.toNat < 2 ^ 8 := by
  rw [UInt8.toNat_toUInt32]
  exact a.toNat_lt

theorem negative_operand8 (a : UInt8) : 2 ^ (8 - 1) ≤ a.toUInt32.toNat ↔ a ≥ 0x80 := by
  rw [ge_iff_le, UInt8.le_iff_toNat_le, UInt8.toNat_toUInt32]
  rfl

theorem negative_result8 (v : UInt32) : 2 ^ (8 - 1) ≤ v.toNat % 2 ^ 8 ↔ v.toUInt8 ≥ 0x80 := by
  rw [ge_iff_le, UInt8.le_iff_toNat_le, UInt32.toNat_toUInt8]
  rfl

theorem zero_result8 (v : UInt32) : v.toNat % 2 ^ 8 = 0 ↔ v.toUInt8 = 0 := by
  rw [← UInt8.toNat_inj, UInt32.toNat_toUInt8]
  rfl

/-! ### Bytes -/

section Bytes

variable (a b : UInt8) (c : Bool)

theorem flags_add8 :
    (⟨.add, false, a.toUInt32, b.toUInt32, c.toUInt32⟩ : Operation).flags =
      (Alu.add8 a b c).flags := by
  set o : Operation := ⟨.add, false, a.toUInt32, b.toUInt32, c.toUInt32⟩ with ho
  have hv : o.result.toUInt8 = a + b + c.toUInt8 := by simp [ho, Operation.result]
  have overflow : ((2 ^ (8 - 1) ≤ o.x.toNat ↔ 2 ^ (8 - 1) ≤ o.y.toNat) ∧
      ¬(2 ^ (8 - 1) ≤ o.x.toNat ↔ 2 ^ (8 - 1) ≤ o.result.toNat % 2 ^ 8)) ↔
      (a ≥ 0x80 ↔ b ≥ 0x80) ∧ ¬(a ≥ 0x80 ↔ a + b + c.toUInt8 ≥ 0x80) := by
    rw [negative_operand8, negative_operand8, negative_result8, hv]
  rw [o.flags_add (n := 8) rfl rfl (toNat_byte_lt a) (toNat_byte_lt b) rfl,
    bitIf_congr (negative_result8 _), bitIf_congr (zero_result8 _), bitIf_congr overflow,
    show o.undocumented = o.result from rfl, hv]
  simp only [ho, UInt8.toNat_toUInt32]
  rfl

theorem flags_sub8 :
    NF ||| (⟨.sub, false, a.toUInt32, b.toUInt32, c.toUInt32⟩ : Operation).flags =
      (Alu.sub8 a b c).flags := by
  set o : Operation := ⟨.sub, false, a.toUInt32, b.toUInt32, c.toUInt32⟩ with ho
  have hv : o.result.toUInt8 = a - b - c.toUInt8 := by simp [ho, Operation.result]
  have overflow : (¬(2 ^ (8 - 1) ≤ o.x.toNat ↔ 2 ^ (8 - 1) ≤ o.y.toNat) ∧
      (2 ^ (8 - 1) ≤ o.y.toNat ↔ 2 ^ (8 - 1) ≤ o.result.toNat % 2 ^ 8)) ↔
      ¬(a ≥ 0x80 ↔ b ≥ 0x80) ∧ (b ≥ 0x80 ↔ a - b - c.toUInt8 ≥ 0x80) := by
    rw [negative_operand8, negative_operand8, negative_result8, hv]
  rw [o.flags_sub (n := 8) rfl rfl (toNat_byte_lt a) (toNat_byte_lt b) (.inl rfl),
    bitIf_congr (negative_result8 _), bitIf_congr (zero_result8 _), bitIf_congr overflow,
    show o.undocumented = o.result from rfl, hv]
  simp only [ho, UInt8.toNat_toUInt32, Alu.sub8, sz53, UInt8.or_assoc]
  rfl

/-- A comparison gives the flags of the difference, but for bits 5 and 3. -/
theorem flags_compare (x y : UInt32) :
    (⟨.compare, false, x, y, 0⟩ : Operation).flags =
      (⟨.sub, false, x, y, 0⟩ : Operation).flags &&& ~~~(YF ||| XF) |||
        y.toUInt8 &&& (YF ||| XF) := by
  simp only [Operation.flags_eq, or_and, bitIf_and, UInt8.and_assoc,
    show SF &&& ~~~(YF ||| XF) = SF from rfl, show ZF &&& ~~~(YF ||| XF) = ZF from rfl,
    show (YF ||| XF) &&& ~~~(YF ||| XF) = 0 from rfl, show HF &&& ~~~(YF ||| XF) = HF from rfl,
    show PF &&& ~~~(YF ||| XF) = PF from rfl, show CF &&& ~~~(YF ||| XF) = CF from rfl,
    UInt8.and_zero, UInt8.or_zero]
  show _ ||| _ ||| y.toUInt8 &&& (YF ||| XF) ||| _ ||| _ ||| _ = _
  ac_rfl

theorem flags_cp8 :
    NF ||| (⟨.compare, false, a.toUInt32, b.toUInt32, 0⟩ : Operation).flags =
      (Alu.cp8 a b).flags := by
  have h := flags_sub8 a b false
  rw [flags_compare, UInt8.toUInt8_toUInt32]
  show _ = (Alu.sub8 a b false).flags &&& ~~~(YF ||| XF) ||| b &&& (YF ||| XF)
  rw [← h, or_and, show NF &&& ~~~(YF ||| XF) = NF from rfl]
  ac_rfl

theorem flags_inc8 :
    (⟨.add, false, a.toUInt32, 1, 0⟩ : Operation).flags &&& ~~~(NF ||| CF) =
      (Alu.inc8 a).flags := by
  have hv : a + 1 + false.toUInt8 = a + 1 := UInt8.add_zero _
  have half : a.toNat % 16 + (1 : UInt8).toNat % 16 + false.toNat > 15 ↔ a.toNat % 16 = 15 := by
    simp
    omega
  have overflow : ((a ≥ 0x80 ↔ (1 : UInt8) ≥ 0x80) ∧ ¬(a ≥ 0x80 ↔ a + 1 ≥ 0x80)) ↔ a = 0x7F := by
    have := a.toNat_lt
    simp only [← UInt8.toNat_inj, ge_iff_le, UInt8.le_iff_toNat_le, UInt8.toNat_add]
    simp
    omega
  show (⟨.add, false, a.toUInt32, (1 : UInt8).toUInt32, false.toUInt32⟩ : Operation).flags &&& _ = _
  rw [flags_add8]
  simp only [Alu.add8, hv, sz53, bitIf_congr half, bitIf_congr overflow, or_and, bitIf_and,
    UInt8.and_assoc]
  rw [show CF &&& ~~~(NF ||| CF) = 0 from rfl, bitIf_zero, UInt8.or_zero]
  rfl

theorem flags_dec8 :
    NF ||| (⟨.sub, false, a.toUInt32, 1, 0⟩ : Operation).flags &&& ~~~(NF ||| CF) =
      (Alu.dec8 a).flags := by
  have hv : a - 1 - false.toUInt8 = a - 1 := UInt8.sub_zero _
  have half : a.toNat % 16 < (1 : UInt8).toNat % 16 + false.toNat ↔ a.toNat % 16 = 0 := by simp
  have overflow : (¬(a ≥ 0x80 ↔ (1 : UInt8) ≥ 0x80) ∧ ((1 : UInt8) ≥ 0x80 ↔ a - 1 ≥ 0x80)) ↔
      a = 0x80 := by
    have := a.toNat_lt
    simp only [← UInt8.toNat_inj, ge_iff_le, UInt8.le_iff_toNat_le, UInt8.toNat_sub]
    simp
    omega
  have h := congrArg (· &&& ~~~(NF ||| CF)) (flags_sub8 a 1 false)
  simp only [Alu.sub8, hv, sz53, bitIf_congr half, bitIf_congr overflow, or_and, bitIf_and,
    UInt8.and_assoc] at h
  rw [show NF &&& ~~~(NF ||| CF) = 0 from rfl, show CF &&& ~~~(NF ||| CF) = 0 from rfl, bitIf_zero,
    UInt8.or_zero, UInt8.zero_or, UInt8.zero_or] at h
  show NF |||
    (⟨.sub, false, a.toUInt32, (1 : UInt8).toUInt32, false.toUInt32⟩ : Operation).flags &&& _ = _
  rw [h]
  simp only [Alu.dec8, sz53, UInt8.or_assoc]
  rfl

theorem flags_logic :
    (⟨.logic, false, a.toUInt32, 0, 0⟩ : Operation).flags &&& (SF ||| ZF ||| YF ||| XF ||| PF) =
      sz53p a := by
  set o : Operation := ⟨.logic, false, a.toUInt32, 0, 0⟩ with ho
  have hv : o.result.toUInt8 = a := by simp [ho, Operation.result]
  have sign : bit o.result (o.width - 1) = true ↔ a ≥ 0x80 := by
    rw [o.bit_top_result, show o.width = 8 from rfl, negative_result8, hv]
  have zero : o.result.toNat % 2 ^ o.width = 0 ↔ a = 0 := by
    rw [show o.width = 8 from rfl, zero_result8, hv]
  have parity : o.overflowOrParity = true ↔ evenParity a = true := by
    rw [← hv]
    rfl
  rw [o.flags_eq, bitIf_congr sign, bitIf_congr zero, bitIf_congr parity,
    show o.undocumented = o.result from rfl, hv]
  simp only [or_and, bitIf_and, UInt8.and_assoc]
  rw [show HF &&& (SF ||| ZF ||| YF ||| XF ||| PF) = 0 from rfl,
    show CF &&& (SF ||| ZF ||| YF ||| XF ||| PF) = 0 from rfl, bitIf_zero, bitIf_zero,
    UInt8.or_zero, UInt8.or_zero]
  rfl

end Bytes

/-! ### Operands and results as words -/

@[simp] theorem toUInt16_carry (c : Bool) : c.toUInt32.toUInt16 = c.toUInt16 := by cases c <;> rfl

theorem toNat_word_lt (a : UInt16) : a.toUInt32.toNat < 2 ^ 16 := by
  rw [UInt16.toNat_toUInt32]
  exact a.toNat_lt

theorem negative_operand16 (a : UInt16) : 2 ^ (16 - 1) ≤ a.toUInt32.toNat ↔ a ≥ 0x8000 := by
  rw [ge_iff_le, UInt16.le_iff_toNat_le, UInt16.toNat_toUInt32]
  rfl

theorem negative_result16 (v : UInt32) : 2 ^ (16 - 1) ≤ v.toNat % 2 ^ 16 ↔ v.toUInt16 ≥ 0x8000 := by
  rw [ge_iff_le, UInt16.le_iff_toNat_le, UInt32.toNat_toUInt16]
  rfl

theorem zero_result16 (v : UInt32) : v.toNat % 2 ^ 16 = 0 ↔ v.toUInt16 = 0 := by
  rw [← UInt16.toNat_inj, UInt32.toNat_toUInt16]
  rfl

/-- The high byte of a word is found under the bits that were carried out of the word. -/
theorem toUInt8_shiftRight (v : UInt32) : (v >>> 8).toUInt8 = (v.toUInt16 >>> 8).toUInt8 := by
  rw [← UInt8.toNat_inj]
  simp [Nat.shiftRight_eq_div_pow]
  omega

/-! ### Words -/

section Words

variable (a b : UInt16) (c : Bool)

theorem flags_adc16 :
    (⟨.add, true, a.toUInt32, b.toUInt32, c.toUInt32⟩ : Operation).flags =
      (Alu.adc16 a b c).flags := by
  set o : Operation := ⟨.add, true, a.toUInt32, b.toUInt32, c.toUInt32⟩ with ho
  have hv : o.result.toUInt16 = a + b + c.toUInt16 := by simp [ho, Operation.result]
  have overflow : ((2 ^ (16 - 1) ≤ o.x.toNat ↔ 2 ^ (16 - 1) ≤ o.y.toNat) ∧
      ¬(2 ^ (16 - 1) ≤ o.x.toNat ↔ 2 ^ (16 - 1) ≤ o.result.toNat % 2 ^ 16)) ↔
      (a ≥ 0x8000 ↔ b ≥ 0x8000) ∧ ¬(a ≥ 0x8000 ↔ a + b + c.toUInt16 ≥ 0x8000) := by
    rw [negative_operand16, negative_operand16, negative_result16, hv]
  rw [o.flags_add (n := 16) rfl rfl (toNat_word_lt a) (toNat_word_lt b) rfl,
    bitIf_congr (negative_result16 _), bitIf_congr (zero_result16 _), bitIf_congr overflow,
    show o.undocumented = o.result >>> 8 from rfl, toUInt8_shiftRight, hv]
  simp only [ho, UInt16.toNat_toUInt32]
  rfl

theorem flags_sbc16 :
    NF ||| (⟨.sub, true, a.toUInt32, b.toUInt32, c.toUInt32⟩ : Operation).flags =
      (Alu.sbc16 a b c).flags := by
  set o : Operation := ⟨.sub, true, a.toUInt32, b.toUInt32, c.toUInt32⟩ with ho
  have hv : o.result.toUInt16 = a - b - c.toUInt16 := by simp [ho, Operation.result]
  have overflow : (¬(2 ^ (16 - 1) ≤ o.x.toNat ↔ 2 ^ (16 - 1) ≤ o.y.toNat) ∧
      (2 ^ (16 - 1) ≤ o.y.toNat ↔ 2 ^ (16 - 1) ≤ o.result.toNat % 2 ^ 16)) ↔
      ¬(a ≥ 0x8000 ↔ b ≥ 0x8000) ∧ (b ≥ 0x8000 ↔ a - b - c.toUInt16 ≥ 0x8000) := by
    rw [negative_operand16, negative_operand16, negative_result16, hv]
  rw [o.flags_sub (n := 16) rfl rfl (toNat_word_lt a) (toNat_word_lt b) (.inl rfl),
    bitIf_congr (negative_result16 _), bitIf_congr (zero_result16 _), bitIf_congr overflow,
    show o.undocumented = o.result >>> 8 from rfl, toUInt8_shiftRight, hv]
  simp only [ho, UInt16.toNat_toUInt32, Alu.sbc16, UInt8.or_assoc]
  rfl

theorem flags_add16 :
    (⟨.add, true, a.toUInt32, b.toUInt32, 0⟩ : Operation).flags &&& (YF ||| HF ||| XF ||| CF) =
      (Alu.add16 a b).flags := by
  have hv : a + b + false.toUInt16 = a + b := UInt16.add_zero _
  show (⟨.add, true, a.toUInt32, b.toUInt32, false.toUInt32⟩ : Operation).flags &&& _ = _
  rw [flags_adc16]
  simp only [Alu.adc16, hv, Alu.xy16, or_and, bitIf_and, UInt8.and_assoc]
  rw [show SF &&& (YF ||| HF ||| XF ||| CF) = 0 from rfl,
    show ZF &&& (YF ||| HF ||| XF ||| CF) = 0 from rfl,
    show PF &&& (YF ||| HF ||| XF ||| CF) = 0 from rfl, bitIf_zero, bitIf_zero, bitIf_zero,
    UInt8.zero_or, UInt8.zero_or, UInt8.or_zero]
  rfl

end Words

end TandemZ80.Flags
