import TandemZ80.Proofs.Memory.Held
import TandemZ80.Proofs.Memory.Range

/-!
# What an allocation checks

A client is granted all pages of a range or none of them. Pages of a buffer are granted if each of
them lies with its whole length inside the buffer, and that is just what is checked, as long as the
numbers of the check fit 64 bits. A client that asks for a range or a place beyond that gets no
answer at all, be it one to refuse or one to grant.

* `MemoryMap.Covers`, a buffer that has all bytes of a range of pages;
* `MemoryMap.Countable`, a range whose check can be computed, and `MemoryMap.countable_iff`;
* `MemoryMap.alloc_exact`, what comes of an allocation, whatever is asked for.
-/

namespace TandemZ80.MemoryMap

open Page (Holds)

variable {m : MemoryMap} {s : Slot} {addr : UInt16} {len offset stride : ℕ} {b : BufferId}
  {access : Access}

/-- Where a page of a range is laid out: the first one at the offset, and each further one a stride
on. -/
def place (addr : UInt16) (offset stride : ℕ) (p : Page) : ℕ :=
  offset + (p - (Page.of addr).val) * stride

/-- The buffer is there, and has all bytes of every page of the range. -/
def Covers (m : MemoryMap) (b : BufferId) (addr : UInt16) (len offset stride : ℕ) : Prop :=
  ∃ bytes, m.bytes? b = some bytes ∧
    ∀ p, Holds addr len p → place addr offset stride p + pageSize ≤ bytes.size

/-- The end of the range and the ends of all its pages fit 64 bits. An empty range counts as one
page. -/
structure Countable (addr : UInt16) (len offset stride : ℕ) : Prop where
  range : addr.toNat + len < UInt64.size
  first : offset + pageSize < UInt64.size
  pages : ∀ p, Holds addr len p → place addr offset stride p + pageSize < UInt64.size

/-- The last page decides whether a range can be computed. -/
theorem countable_iff :
    Countable addr len offset stride ↔ addr.toNat + len < UInt64.size ∧
      offset + (Page.countMeeting addr len - 1) * stride + pageSize < UInt64.size := by
  rcases len.eq_zero_or_pos with rfl | hlen
  · have hnone : ∀ p, ¬Holds addr 0 p := fun p ⟨i, hi, _⟩ => absurd hi (Nat.not_lt_zero i)
    have hcount : Page.countMeeting addr 0 = 0 :=
      List.countP_eq_zero.2 fun p _ hp => hnone p (Page.meets_iff_holds.1 hp)
    rw [hcount, Nat.zero_sub, Nat.zero_mul, Nat.add_zero offset]
    exact ⟨fun h => ⟨h.range, h.first⟩, fun h => ⟨h.1, h.2, fun p hp => absurd hp (hnone p)⟩⟩
  · have hlast : (∀ p, Holds addr len p → place addr offset stride p + pageSize ≤ UInt64.size - 1) ↔
        offset + (Page.countMeeting addr len - 1) * stride + pageSize ≤ UInt64.size - 1 :=
      Page.forall_holds_place_le_iff hlen ..
    have hbound : ∀ n, n ≤ UInt64.size - 1 ↔ n < UInt64.size := fun n => by
      simp only [UInt64.size]
      omega
    simp only [hbound] at hlast
    refine ⟨fun h => ⟨h.range, hlast.1 h.pages⟩, fun h => ⟨h.1, ?_, hlast.2 h.2⟩⟩
    exact lt_of_le_of_lt (Nat.add_le_add_right (Nat.le_add_right offset _) _) h.2

/-- The last page decides whether a buffer covers a range. -/
theorem covers_iff (hlen : 0 < len) :
    m.Covers b addr len offset stride ↔
      offset + (Page.countMeeting addr len - 1) * stride + pageSize ≤ m.bufferSize b := by
  rw [← Page.forall_holds_place_le_iff hlen]
  unfold Covers bufferSize
  cases m.bytes? b with
  | some bytes => simp only [Option.some.injEq, exists_eq_left', place]
  | none =>
    -- The first page of the range would have to end at 0.
    simp only [reduceCtorEq, false_and, exists_false, false_iff, not_forall]
    have hfirst : Holds addr len (Page.of addr) := ⟨0, hlen, rfl⟩
    exact ⟨_, hfirst, by simp [pageSize]⟩

theorem alloc_of_free (h : m.clients.get s = none) (target : Target) :
    m.alloc s addr len target access = .ok (false, m) := by
  unfold alloc
  rw [h]

/-- What is asked for stays within 64 bits. -/
theorem alloc_of_countable (hs : m.clients.get s ≠ none) (h : Countable addr len offset stride) :
    m.alloc s addr len (.buffer b offset stride) access =
      if len = 0 ∨
          m.bufferSize b < offset + (Page.countMeeting addr len - 1) * stride + pageSize then
        .ok (false, m)
      else .ok (true,
        m.grant s (Page.meets addr len) (fun p => .direct b (place addr offset stride p))
        access) := by
  obtain ⟨device, hdevice⟩ := Option.ne_none_iff_exists'.1 hs
  obtain ⟨hrange, hlast⟩ := countable_iff.1 h
  unfold alloc checkRange
  rw [hdevice, Fault.require_of hrange]
  dsimp only [bind, Except.bind]
  rw [Fault.require_of hlast]
  dsimp only
  split_ifs <;> rfl

/-- What is asked for does not. -/
theorem alloc_of_not_countable (hs : m.clients.get s ≠ none)
    (h : ¬Countable addr len offset stride) :
    m.alloc s addr len (.buffer b offset stride) access = .error .overflow := by
  obtain ⟨device, hdevice⟩ := Option.ne_none_iff_exists'.1 hs
  unfold alloc checkRange
  rw [hdevice]
  dsimp only
  by_cases hrange : addr.toNat + len < UInt64.size
  · rw [countable_iff, not_and] at h
    rw [Fault.require_of hrange]
    dsimp only [bind, Except.bind]
    rw [Fault.require_of_not (h hrange)]
  · rw [Fault.require_of_not hrange]
    rfl

/-- What comes of an allocation of pages of a buffer, in any memory map and for any numbers. Either
the client is there and asks for numbers beyond 64 bits, and then there is no answer. Or there is
one, which is yes exactly if the client is there, the range is not empty and the buffer covers it.
After a yes the client holds just the pages of the range besides what it held, and after a no
nothing has changed. -/
theorem alloc_exact (m : MemoryMap) (s : Slot) (addr : UInt16) (len : ℕ) (b : BufferId)
    (offset stride : ℕ) (access : Access) :
    (m.clients.get s ≠ none ∧ ¬Countable addr len offset stride ∧
        m.alloc s addr len (.buffer b offset stride) access = .error .overflow) ∨
      (m.clients.get s ≠ none → Countable addr len offset stride) ∧ ∃ granted m',
        m.alloc s addr len (.buffer b offset stride) access = .ok (granted, m') ∧
        (granted = true ↔
          m.clients.get s ≠ none ∧ 0 < len ∧ m.Covers b addr len offset stride) ∧
        (granted = true → ∀ q p t, m'.held q p t =
          if access.covers q ∧ Holds addr len p ∧ t = s then
            some (.direct b (place addr offset stride p))
          else m.held q p t) ∧
        (granted = false → m' = m) := by
  by_cases hs : m.clients.get s = none
  · refine .inr ⟨fun hne => absurd hs hne, false, m, alloc_of_free hs _, ?_, ?_, fun _ => rfl⟩
    · exact iff_of_false Bool.false_ne_true fun h => h.1 hs
    · exact fun h => absurd h Bool.false_ne_true
  by_cases hcount : Countable addr len offset stride
  swap
  · exact .inl ⟨hs, hcount, alloc_of_not_countable hs hcount⟩
  refine .inr ⟨fun _ => hcount, ?_⟩
  rw [alloc_of_countable hs hcount]
  split_ifs with hrefused
  · refine ⟨false, m, rfl, iff_of_false Bool.false_ne_true ?_, fun h => absurd h Bool.false_ne_true,
      fun _ => rfl⟩
    rintro ⟨-, hlen, hcovers⟩
    rcases hrefused with hempty | hshort
    · exact hlen.ne' hempty
    · exact not_le.2 hshort ((covers_iff hlen).1 hcovers)
  · rw [not_or, not_lt] at hrefused
    have hlen : 0 < len := Nat.pos_of_ne_zero hrefused.1
    refine ⟨true, _, rfl, iff_of_true rfl ⟨hs, hlen, (covers_iff hlen).2 hrefused.2⟩,
      fun _ q p t => ?_, fun h => absurd h.symm Bool.false_ne_true⟩
    rw [held_grant]
    simp only [Page.meets_iff_holds]

/-- A client with a buffer of one page. -/
def onePage : MemoryMap := ((empty.addBuffer (Array.replicate pageSize 0)).2.connect ⟨0⟩ true).2

/-- There is no answer for a page far beyond the buffer, which it does not cover, and none for a
page that is repeated to the end of the address space and beyond, which it does. -/
theorem onePage_overflows :
    (¬onePage.Covers ⟨0⟩ 0 pageSize (UInt64.size - 1) 0 ∧
        onePage.alloc ⟨0, by decide⟩ 0 pageSize (.buffer ⟨0⟩ (UInt64.size - 1) 0) .read =
          .error .overflow) ∧
      onePage.Covers ⟨0⟩ 1 (UInt64.size - 1) 0 0 ∧
        onePage.alloc ⟨0, by decide⟩ 1 (UInt64.size - 1) (.buffer ⟨0⟩ 0 0) .read =
          .error .overflow := by
  have hclient : onePage.clients.get ⟨0, by decide⟩ ≠ none := by decide +kernel
  have hsize : onePage.bufferSize ⟨0⟩ = pageSize := by decide +kernel
  have hlarge : 0 < UInt64.size - 1 := by decide
  refine ⟨⟨?_, ?_⟩, ?_, ?_⟩
  · rw [covers_iff (by decide), hsize]
    simp only [UInt64.size, pageSize]
    omega
  · rcases alloc_exact onePage ⟨0, by decide⟩ 0 pageSize ⟨0⟩ (UInt64.size - 1) 0 .read with h | h
    · exact h.2.2
    · exact absurd (h.1 hclient).first (by decide)
  · rw [covers_iff hlarge, hsize, Nat.mul_zero]
    exact (Nat.zero_add pageSize).le
  · rcases alloc_exact onePage ⟨0, by decide⟩ 1 (UInt64.size - 1) ⟨0⟩ 0 0 .read with h | h
    · exact h.2.2
    · exact absurd (h.1 hclient).range (by decide)

end TandemZ80.MemoryMap
