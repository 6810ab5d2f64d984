import Mathlib.Data.Nat.Digits.Defs
import Mathlib.Tactic
import TandemZ80.Alu
import TandemZ80.Proofs.Flags.Reference

/-!
# Packed decimal arithmetic

A byte holds two decimal digits, and a list of bytes holds a number, lowest byte first. Such numbers
are added byte by byte: the binary sum is adjusted, and the carry that the adjustment leaves goes
into the next byte. Differences are taken in the same way, with a borrow.

* `IsPacked`, `ofPacked` and `toPacked`, two digits in a byte; `number` and `packed`, digits in
  bytes, and `number_packed`;
* `add8_flags`, `sub8_flags`, `daa_carry`, `daa_of_add` and `daa_of_sub`, what the adjustment is
  told and what it does with it;
* `adjusted`, one byte of such an operation, and `Decimal`, that it is right for one byte:
  `add8_decimal` and `sub8_decimal`;
* `adjustedAll`, all bytes, with `Decimal.adjustedAll` and `decimal_arithmetic`.
-/

namespace TandemZ80.Alu

open Flags

/-! ### Digits -/

/-- Both halves of a byte are decimal digits. -/
def IsPacked (v : UInt8) : Prop := v.toNat / 16 < 10 ∧ v.toNat % 16 < 10

instance (v : UInt8) : Decidable (IsPacked v) := inferInstanceAs (Decidable (_ ∧ _))

/-- The number that the two digits of a byte make up. -/
def ofPacked (v : UInt8) : ℕ := 10 * (v.toNat / 16) + v.toNat % 16

/-- The last two digits of a number, in a byte. -/
def toPacked (k : ℤ) : UInt8 := UInt8.ofNat (16 * (k / 10 % 10).toNat + (k % 10).toNat)

/-- The number that the digits of some bytes make up, the lowest byte first. -/
def number (vs : List UInt8) : ℤ := Nat.ofDigits 100 (vs.map ofPacked)

/-- The last `2 * n` digits of a number, in `n` bytes. -/
def packed : ℕ → ℤ → List UInt8
  | 0, _ => []
  | n + 1, k => toPacked k :: packed n (k / 100)

theorem toNat_toPacked (k : ℤ) : ((toPacked k).toNat : ℤ) = 16 * (k / 10 % 10) + k % 10 := by
  rw [toPacked, UInt8.toNat_ofNat']
  omega

theorem number_cons (v : UInt8) (vs : List UInt8) :
    number (v :: vs) = ofPacked v + 100 * number vs :=
  rfl

theorem toPacked_congr {k l : ℤ} (h : k % 100 = l % 100) : toPacked k = toPacked l := by
  rw [← UInt8.toNat_inj, ← Int.ofNat_inj, toNat_toPacked, toNat_toPacked]
  omega

theorem isPacked_toPacked (k : ℤ) : IsPacked (toPacked k) := by
  have hvalue := toNat_toPacked k
  unfold IsPacked
  omega

theorem ofPacked_toPacked (k : ℤ) : (ofPacked (toPacked k) : ℤ) = k % 100 := by
  have hvalue := toNat_toPacked k
  unfold ofPacked
  omega

theorem emod_hundred_pow_succ (k : ℤ) (n : ℕ) :
    k % 100 ^ (n + 1) = k % 100 + 100 * (k / 100 % 100 ^ n) := by
  rw [pow_succ', Int.emod_def, Int.emod_def k 100, Int.emod_def (k / 100),
    Int.ediv_ediv_of_nonneg (by norm_num)]
  ring

/-- The digits in `n` bytes are those of the number modulo `100 ^ n`. -/
theorem packed_emod (n : ℕ) (k : ℤ) : packed n (k % 100 ^ n) = packed n k := by
  induction n generalizing k with
  | zero => rfl
  | succ n ih =>
    have hsplit := emod_hundred_pow_succ k n
    have hlow : k % 100 ^ (n + 1) % 100 = k % 100 := by omega
    have hhigh : k % 100 ^ (n + 1) / 100 = k / 100 % 100 ^ n := by omega
    rw [packed, packed, toPacked_congr hlow, hhigh, ih]

/-- They are decimal digits, and make up that number. -/
theorem number_packed (n : ℕ) (k : ℤ) :
    (∀ v ∈ packed n k, IsPacked v) ∧ number (packed n k) = k % 100 ^ n := by
  induction n generalizing k with
  | zero => exact ⟨List.forall_mem_nil _, (Int.emod_one k).symm⟩
  | succ n ih =>
    obtain ⟨hdigits, hnumber⟩ := ih (k / 100)
    refine ⟨List.forall_mem_cons.2 ⟨isPacked_toPacked k, hdigits⟩, ?_⟩
    rw [packed, number_cons, ofPacked_toPacked, hnumber, emod_hundred_pow_succ]

/-! ### Flags -/

theorem sz53_and (v : UInt8) {m : UInt8} (hm : (SF ||| ZF ||| (YF ||| XF)) &&& m = 0) :
    sz53 v &&& m = 0 := by
  rw [or_and, or_and, UInt8.or_eq_zero_iff, UInt8.or_eq_zero_iff] at hm
  rw [sz53, or_and, or_and, bitIf_and, bitIf_and, UInt8.and_assoc, hm.1.1, hm.1.2, hm.2]
  simp

theorem bitIf_ne_zero {p : Prop} [Decidable p] {m : UInt8} (hm : m ≠ 0) : bitIf p m ≠ 0 ↔ p := by
  unfold bitIf
  split <;> simp [*]

/-- No two of these flags are the same. -/
theorem flags_disjoint :
    NF &&& HF = 0 ∧ NF &&& CF = 0 ∧ HF &&& NF = 0 ∧ HF &&& CF = 0 ∧ PF &&& NF = 0 ∧ PF &&& HF = 0 ∧
      PF &&& CF = 0 ∧ CF &&& NF = 0 ∧ CF &&& HF = 0 := by
  decide

section Bytes

variable (a b : UInt8) (c : Bool)

theorem add8_flags :
    (add8 a b c).flags &&& NF = 0 ∧
      ((add8 a b c).flags &&& HF ≠ 0 ↔ 15 < a.toNat % 16 + b.toNat % 16 + c.toNat) ∧
      ((add8 a b c).flags &&& CF ≠ 0 ↔ 255 < a.toNat + b.toNat + c.toNat) := by
  simp only [add8, or_and, bitIf_and, sz53_and _ (show _ &&& NF = 0 from rfl),
    sz53_and _ (show _ &&& HF = 0 from rfl), sz53_and _ (show _ &&& CF = 0 from rfl),
    UInt8.and_self, flags_disjoint, bitIf_zero, UInt8.zero_or, UInt8.or_zero]
  exact ⟨trivial, bitIf_ne_zero (by decide), bitIf_ne_zero (by decide)⟩

theorem sub8_flags :
    (sub8 a b c).flags &&& NF ≠ 0 ∧
      ((sub8 a b c).flags &&& HF ≠ 0 ↔ a.toNat % 16 < b.toNat % 16 + c.toNat) ∧
      ((sub8 a b c).flags &&& CF ≠ 0 ↔ a.toNat < b.toNat + c.toNat) := by
  simp only [sub8, or_and, bitIf_and, sz53_and _ (show _ &&& NF = 0 from rfl),
    sz53_and _ (show _ &&& HF = 0 from rfl), sz53_and _ (show _ &&& CF = 0 from rfl),
    UInt8.and_self, flags_disjoint, bitIf_zero, UInt8.zero_or, UInt8.or_zero]
  exact ⟨by decide, bitIf_ne_zero (by decide), bitIf_ne_zero (by decide)⟩

theorem gt_99_iff : a > 0x99 ↔ 0x99 < a.toNat := UInt8.lt_iff_toNat_lt

theorem and_0F_gt_9_iff : a &&& 0x0F > 9 ↔ 9 < a.toNat % 16 := by
  rw [gt_iff_lt, UInt8.lt_iff_toNat_lt, UInt8.toNat_and,
    show (0x0F : UInt8).toNat = 2 ^ 4 - 1 from rfl, Nat.and_two_pow_sub_one_eq_mod]
  rfl

/-- The adjustment keeps a carry, and finds one in a value beyond 99. -/
theorem daa_carry (f : UInt8) : (daa a f).flags &&& CF ≠ 0 ↔ f &&& CF ≠ 0 ∨ 0x99 < a.toNat := by
  simp only [daa, sz53p, or_and, bitIf_and, sz53_and _ (show _ &&& CF = 0 from rfl),
    UInt8.and_assoc, UInt8.and_self, flags_disjoint, bitIf_zero, UInt8.zero_or, UInt8.or_zero,
    UInt8.and_zero, gt_99_iff]
  exact bitIf_ne_zero (by decide)

theorem toNat_correction (p q : Prop) [Decidable p] [Decidable q] :
    (bitIf p 0x06 ||| bitIf q 0x60).toNat = (if p then 6 else 0) + if q then 96 else 0 := by
  unfold bitIf
  split_ifs <;> rfl

/-- After an addition, 6 is added for the low digit and 60h for the high one, each if it needs
it. -/
theorem daa_of_add {f : UInt8} (hf : f &&& NF = 0) :
    (daa a f).value.toNat =
      (a.toNat + ((if f &&& HF ≠ 0 ∨ 9 < a.toNat % 16 then 6 else 0) +
        if f &&& CF ≠ 0 ∨ 0x99 < a.toNat then 96 else 0)) % 256 := by
  simp only [daa, hf, ne_eq, not_true, if_false, UInt8.toNat_add, toNat_correction, and_0F_gt_9_iff,
    gt_99_iff]

/-- After a subtraction, they are taken away. -/
theorem daa_of_sub {f : UInt8} (hf : f &&& NF ≠ 0) :
    (daa a f).value.toNat =
      (256 + a.toNat - ((if f &&& HF ≠ 0 ∨ 9 < a.toNat % 16 then 6 else 0) +
        if f &&& CF ≠ 0 ∨ 0x99 < a.toNat then 96 else 0)) % 256 := by
  simp only [daa, hf, ne_eq, not_false_eq_true, if_true, UInt8.toNat_sub, toNat_correction,
    and_0F_gt_9_iff, gt_99_iff]
  split_ifs <;> omega

theorem toNat_carry : c.toUInt8.toNat = c.toNat := by cases c <;> rfl

theorem toNat_add8 : (add8 a b c).value.toNat = (a.toNat + b.toNat + c.toNat) % 256 := by
  show (a + b + c.toUInt8).toNat = _
  rw [UInt8.toNat_add, UInt8.toNat_add, toNat_carry]
  omega

theorem toNat_sub8 : (sub8 a b c).value.toNat = (512 + a.toNat - b.toNat - c.toNat) % 256 := by
  have hb := b.toNat_lt
  have hc := c.toNat_le
  show (a - b - c.toUInt8).toNat = _
  rw [UInt8.toNat_sub, UInt8.toNat_sub, toNat_carry]
  omega

end Bytes

/-! ### One byte -/

/-- An operation on two bytes, adjusted; and the carry after it. -/
def adjusted (op : UInt8 → UInt8 → Bool → Result UInt8) (a b : UInt8) (c : Bool) : UInt8 × Bool :=
  let r := op a b c
  let d := daa r.value r.flags
  (d.value, d.flags &&& CF != 0)

/-- Adjusted, an operation adds two digits and a carry to two digits, where the sign is 1, or takes
them away, where it is -1. The carry is what goes beyond two digits, with the sign. -/
def Decimal (op : UInt8 → UInt8 → Bool → Result UInt8) (sign : ℤ) : Prop :=
  ∀ {a b : UInt8}, IsPacked a → IsPacked b → ∀ c : Bool,
    (adjusted op a b c).1 = toPacked (ofPacked a + sign * (ofPacked b + c.toNat)) ∧
      sign * (adjusted op a b c).2.toNat = (ofPacked a + sign * (ofPacked b + c.toNat)) / 100

theorem toNat_bne_zero {v : UInt8} {p : Prop} [Decidable p] (h : v ≠ 0 ↔ p) :
    ((v != 0).toNat : ℤ) = if p then 1 else 0 := by
  split_ifs with hp
  · rw [bne_iff_ne.2 (h.2 hp)]
    rfl
  · rw [bne_eq_false_iff_eq.2 (not_not.1 (mt h.1 hp))]
    rfl

theorem add8_decimal : Decimal add8 1 := by
  intro a b ⟨ha₁, ha₀⟩ ⟨hb₁, hb₀⟩ c
  obtain ⟨hn, hh, hc⟩ := add8_flags a b c
  have hcarry := c.toNat_le
  have hvalue := toNat_add8 a b c
  -- The low digits are adjusted if they make more than 9, and the high ones if all make more than
  -- 99.
  have hlow : ((add8 a b c).flags &&& HF ≠ 0 ∨ 9 < (add8 a b c).value.toNat % 16) ↔
      9 < a.toNat % 16 + b.toNat % 16 + c.toNat := by
    rw [hh, hvalue]
    omega
  have htop : ((add8 a b c).flags &&& CF ≠ 0 ∨ 0x99 < (add8 a b c).value.toNat) ↔
      99 < ofPacked a + ofPacked b + c.toNat := by
    rw [hc, hvalue, ofPacked, ofPacked]
    omega
  constructor
  · rw [← UInt8.toNat_inj, ← Int.ofNat_inj, toNat_toPacked, adjusted, daa_of_add _ hn]
    rw [if_congr hlow rfl rfl, if_congr htop rfl rfl, hvalue]
    unfold ofPacked at htop ⊢
    split_ifs <;> omega
  · rw [adjusted, toNat_bne_zero ((daa_carry _ _).trans htop)]
    unfold ofPacked
    split_ifs <;> omega

theorem sub8_decimal : Decimal sub8 (-1) := by
  intro a b ⟨ha₁, ha₀⟩ ⟨hb₁, hb₀⟩ c
  obtain ⟨hn, hh, hc⟩ := sub8_flags a b c
  have hcarry := c.toNat_le
  have hvalue := toNat_sub8 a b c
  -- Each digit is adjusted if there is a borrow out of it; without one it is a decimal digit
  -- already.
  have hlow : ((sub8 a b c).flags &&& HF ≠ 0 ∨ 9 < (sub8 a b c).value.toNat % 16) ↔
      a.toNat % 16 < b.toNat % 16 + c.toNat := by
    rw [hh, hvalue]
    omega
  have htop : ((sub8 a b c).flags &&& CF ≠ 0 ∨ 0x99 < (sub8 a b c).value.toNat) ↔
      ofPacked a < ofPacked b + c.toNat := by
    rw [hc, hvalue, ofPacked, ofPacked]
    omega
  constructor
  · rw [← UInt8.toNat_inj, ← Int.ofNat_inj, toNat_toPacked, adjusted, daa_of_sub _ hn]
    rw [if_congr hlow rfl rfl, if_congr htop rfl rfl, hvalue]
    unfold ofPacked at htop ⊢
    split_ifs <;> omega
  · rw [adjusted, toNat_bne_zero ((daa_carry _ _).trans htop)]
    unfold ofPacked
    split_ifs <;> omega

/-! ### All bytes -/

/-- An operation on numbers, byte by byte from the lowest on, each adjusted. The carry after a byte
goes into the next one; the last one is given with the bytes. -/
def adjustedAll (op : UInt8 → UInt8 → Bool → Result UInt8) :
    List UInt8 → List UInt8 → Bool → List UInt8 × Bool
  | a :: as, b :: bs, c =>
    let (v, c) := adjusted op a b c
    let (vs, c) := adjustedAll op as bs c
    (v :: vs, c)
  | _, _, c => ([], c)

/-- What is right for one byte is right for any number of them. -/
theorem Decimal.adjustedAll {op : UInt8 → UInt8 → Bool → Result UInt8} {sign : ℤ}
    (hop : Decimal op sign) {n : ℕ} {xs ys : List UInt8} (hxn : xs.length = n) (hyn : ys.length = n)
    (hx : ∀ v ∈ xs, IsPacked v) (hy : ∀ v ∈ ys, IsPacked v) (c : Bool) :
    (Alu.adjustedAll op xs ys c).1 = packed n (number xs + sign * (number ys + c.toNat)) ∧
      sign * (Alu.adjustedAll op xs ys c).2.toNat =
        (number xs + sign * (number ys + c.toNat)) / 100 ^ n := by
  induction n generalizing xs ys c with
  | zero =>
    obtain rfl := List.length_eq_zero_iff.1 hxn
    obtain rfl := List.length_eq_zero_iff.1 hyn
    refine ⟨rfl, ?_⟩
    simp [Alu.adjustedAll, number, Nat.ofDigits]
  | succ n ih =>
    obtain ⟨a, xs, rfl⟩ := List.exists_cons_of_length_eq_add_one hxn
    obtain ⟨b, ys, rfl⟩ := List.exists_cons_of_length_eq_add_one hyn
    obtain ⟨hbyte, hcarry⟩ := hop (hx a (.head _)) (hy b (.head _)) c
    obtain ⟨hrest, hlast⟩ :=
      ih (Nat.succ.inj hxn) (Nat.succ.inj hyn) (fun v hv => hx v (.tail _ hv))
      (fun v hv => hy v (.tail _ hv)) (adjusted op a b c).2
    -- The lowest byte takes two digits off the number, and hands on the rest.
    have hsplit : number (a :: xs) + sign * (number (b :: ys) + c.toNat) =
        ofPacked a + sign * (ofPacked b + c.toNat) + 100 * (number xs + sign * number ys) := by
      rw [number_cons, number_cons]
      ring
    have hquot : (number (a :: xs) + sign * (number (b :: ys) + c.toNat)) / 100 =
        number xs + sign * (number ys + (adjusted op a b c).2.toNat) := by
      rw [hsplit, Int.add_mul_ediv_left _ _ (by norm_num), ← hcarry]
      ring
    constructor
    · show (adjusted op a b c).1 :: (Alu.adjustedAll op xs ys (adjusted op a b c).2).1 = _
      rw [packed, hquot, ← hrest, hbyte]
      refine congrArg (· :: _) (toPacked_congr ?_)
      rw [hsplit, Int.add_mul_emod_self_left]
    · show sign * (Alu.adjustedAll op xs ys (adjusted op a b c).2).2.toNat = _
      rw [hlast, pow_succ', ← Int.ediv_ediv_of_nonneg (by norm_num), hquot]

/-- Decimal arithmetic of any length: adjusted byte by byte, two numbers of `n` bytes of digits give
the digits of their sum, and of their difference, modulo `100 ^ n`, and the last carry is that of
the sum or the borrow of the difference. -/
theorem decimal_arithmetic {n : ℕ} {xs ys : List UInt8} (hxn : xs.length = n) (hyn : ys.length = n)
    (hx : ∀ v ∈ xs, IsPacked v) (hy : ∀ v ∈ ys, IsPacked v) (c : Bool) :
    adjustedAll add8 xs ys c =
        (packed n ((number xs + number ys + c.toNat) % 100 ^ n),
          decide (100 ^ n ≤ number xs + number ys + c.toNat)) ∧
      adjustedAll sub8 xs ys c =
        (packed n ((number xs - number ys - c.toNat) % 100 ^ n),
          decide (number xs - number ys - c.toNat < 0)) := by
  have hpos : (0 : ℤ) < 100 ^ n := by positivity
  obtain ⟨hsum, hcarry⟩ := add8_decimal.adjustedAll hxn hyn hx hy c
  obtain ⟨hdiff, hborrow⟩ := sub8_decimal.adjustedAll hxn hyn hx hy c
  rw [one_mul] at hsum
  rw [one_mul, one_mul] at hcarry
  have hover : (adjustedAll add8 xs ys c).2 = true ↔
      100 ^ n ≤ number xs + (number ys + c.toNat) := by
    rw [← one_mul (100 ^ n), ← Int.le_ediv_iff_mul_le hpos, ← hcarry]
    cases (adjustedAll add8 xs ys c).2 <;> decide
  have hbelow : (adjustedAll sub8 xs ys c).2 = true ↔
      number xs + -1 * (number ys + c.toNat) < 0 := by
    rw [← zero_mul (100 ^ n), ← Int.ediv_lt_iff_lt_mul hpos, ← hborrow]
    cases (adjustedAll sub8 xs ys c).2 <;> decide
  have heq : number xs - number ys - c.toNat = number xs + -1 * (number ys + c.toNat) := by ring
  rw [packed_emod, packed_emod, heq, add_assoc]
  exact ⟨Prod.ext hsum (Bool.eq_iff_iff.2 (hover.trans decide_eq_true_iff.symm)),
    Prod.ext hdiff (Bool.eq_iff_iff.2 (hbelow.trans decide_eq_true_iff.symm))⟩

/-- 9999 and 1 with a carry come to 1 and carry again; 1000 less 9999 comes to 1001 and borrows. -/
theorem decimal_arithmetic_two_bytes :
    adjustedAll add8 [0x99, 0x99] [0x01, 0x00] true = ([0x01, 0x00], true) ∧
      adjustedAll sub8 [0x00, 0x10] [0x99, 0x99] false = ([0x01, 0x10], true) := by
  have hsum := @decimal_arithmetic 2 [0x99, 0x99] [0x01, 0x00] rfl rfl (by simp [IsPacked])
    (by simp [IsPacked]) true
  have hdiff := @decimal_arithmetic 2 [0x00, 0x10] [0x99, 0x99] rfl rfl (by simp [IsPacked])
    (by simp [IsPacked]) false
  exact ⟨hsum.1.trans (by decide), hdiff.2.trans (by decide)⟩

end TandemZ80.Alu
