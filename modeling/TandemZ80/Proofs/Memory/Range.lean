import Mathlib.Tactic
import TandemZ80.Memory.Map

/-!
# The pages of a range of addresses

A range of addresses meets the pages from that of its first address to that of its last one, or to
the end of the address space.

* `Page.Holds`, a page that holds an address of a range, and `Page.meets_iff_holds`;
* `Page.lastMeeting`, the last page of a range; `Page.meets_iff`, `Page.countMeeting_eq`;
* `Page.forall_holds_place_le_iff`, how far the mappings of a range reach into a buffer.
-/

namespace TandemZ80.Page

variable {addr : UInt16} {len : ℕ} {p : Page}

/-- A page holds one of the `len` addresses from `addr` on. Addresses beyond the last one are in no
page. -/
def Holds (addr : UInt16) (len : ℕ) (p : Page) : Prop := ∃ i < len, (addr.toNat + i) / pageSize = p

instance (addr : UInt16) (len : ℕ) : DecidablePred (Holds addr len) :=
  fun _ => inferInstanceAs (Decidable (∃ i < len, _))

theorem meets_iff_holds : meets addr len p = true ↔ Holds addr len p := by
  simp only [meets, Holds, Bool.and_eq_true, decide_eq_true_eq]
  simp only [pageSize]
  constructor
  · rintro ⟨⟨hlen, hfirst⟩, hlast⟩
    refine ⟨max addr.toNat (p * 1024) - addr.toNat, ?_, ?_⟩
    · omega
    · omega
  · rintro ⟨i, hi, hp⟩
    omega

theorem val_of (addr : UInt16) : (of addr).val = addr.toNat / pageSize := rfl

/-- The last page of a range that is not empty. -/
def lastMeeting (addr : UInt16) (len : ℕ) : Page :=
  ⟨min ((addr.toNat + len - 1) / pageSize) (pageCount - 1), by simp only [pageCount]; omega⟩

theorem meets_iff (hlen : 0 < len) :
    meets addr len p = true ↔ of addr ≤ p ∧ p ≤ lastMeeting addr len := by
  have hp := p.isLt
  simp only [meets, lastMeeting, Bool.and_eq_true, decide_eq_true_eq, Fin.le_def, val_of]
  simp only [pageSize, pageCount] at hp ⊢
  omega

theorem of_le_lastMeeting (hlen : 0 < len) : of addr ≤ lastMeeting addr len := by
  have := addr.toNat_lt
  show addr.toNat / pageSize ≤ min ((addr.toNat + len - 1) / pageSize) (pageCount - 1)
  simp only [pageSize, pageCount]
  omega

theorem countP_finRange (n : ℕ) (f : Fin n → Bool) :
    (List.finRange n).countP f = (Finset.univ.filter fun i => f i = true).card := by
  simp [Finset.card, Finset.filter, Fin.univ_def, List.countP_eq_length_filter]

theorem countMeeting_eq (hlen : 0 < len) :
    countMeeting addr len = lastMeeting addr len + 1 - of addr := by
  rw [countMeeting, countP_finRange, ← Fin.card_Icc]
  congr 1
  ext p
  rw [Finset.mem_filter, Finset.mem_Icc, meets_iff hlen]
  simp

/-- Pages laid out from an offset on, one stride apart, end before `size` if the last one does. -/
theorem forall_holds_place_le_iff (hlen : 0 < len) (offset stride size : ℕ) :
    (∀ p, Holds addr len p → offset + (p - (of addr).val) * stride + pageSize ≤ size) ↔
      offset + (countMeeting addr len - 1) * stride + pageSize ≤ size := by
  have hle : (of addr).val ≤ (lastMeeting addr len).val := of_le_lastMeeting hlen
  have hcount : countMeeting addr len - 1 = lastMeeting addr len - (of addr).val := by
    rw [countMeeting_eq hlen]
    omega
  rw [hcount]
  constructor
  · intro h
    exact h _ (meets_iff_holds.1 ((meets_iff hlen).2 ⟨hle, le_rfl⟩))
  · intro h p hp
    have hlast : p.val ≤ (lastMeeting addr len).val := ((meets_iff hlen).1 (meets_iff_holds.2 hp)).2
    have hstride := Nat.mul_le_mul_right stride (Nat.sub_le_sub_right hlast (of addr).val)
    omega

end TandemZ80.Page
