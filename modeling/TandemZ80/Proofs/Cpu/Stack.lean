import Mathlib.Tactic
import TandemZ80.Bus.Flat
import TandemZ80.Cpu.Exec

/-!
# The stack

The stack grows towards lower addresses and wraps around the end of memory. Words are pushed byte by
byte, the high one first, while SP counts down, and popped as words, after which SP moves on. On
flat memory both fit together: what was pushed last is popped first, as long as the words fit into
memory at all.

* `Flat.Stacked`, the words that lie on the stack, and `Flat.ChangedBelow`, memory that has changed
  only below an address;
* `Exec.pushAll` and `Exec.popMany`, with their runs in `Exec.run_pushAll` and `Exec.run_popMany`;
* `Exec.pops_reverse_pushes`.
-/

namespace TandemZ80

/-! ### Distances -/

/-- Addresses from `a` up do not come back to the two addresses below `a` before memory is full. -/
theorem add_ofNat_ne_sub {k j : ℕ} (h : k + j < 65536) (hj : 0 < j) (a : UInt16) :
    a + UInt16.ofNat k ≠ a - UInt16.ofNat j := by
  intro heq
  have hnat := congrArg UInt16.toNat heq
  have ha := a.toNat_lt
  simp only [UInt16.toNat_add, UInt16.toNat_sub, UInt16.toNat_ofNat'] at hnat
  omega

theorem sub_sub_ofNat (a : UInt16) (j k : ℕ) :
    a - UInt16.ofNat j - UInt16.ofNat k = a - UInt16.ofNat (j + k) := by
  rw [UInt16.ofNat_add]
  grind

namespace Flat

variable {m m' m'' : Flat} {sp : UInt16} {ws : List UInt16} {n k : ℕ}

/-- The words lie on the stack, the first one on top, at `sp`. -/
def Stacked (m : Flat) : UInt16 → List UInt16 → Prop
  | _, [] => True
  | sp, w :: ws => m.peek sp = low w ∧ m.peek (sp + 1) = high w ∧ m.Stacked (sp + 2) ws

/-- What lies on the stack is seen in its own bytes. -/
theorem Stacked.congr (h : m.Stacked sp ws)
    (hsame : ∀ k < 2 * ws.length, m'.peek (sp + UInt16.ofNat k) = m.peek (sp + UInt16.ofNat k)) :
    m'.Stacked sp ws := by
  induction ws generalizing sp with
  | nil => trivial
  | cons w ws ih =>
    obtain ⟨hlow, hhigh, hrest⟩ := h
    rw [List.length_cons] at hsame
    have htop := hsame 0 (by omega)
    have hnext := hsame 1 (by omega)
    have hzero : sp + UInt16.ofNat 0 = sp := UInt16.add_zero sp
    rw [hzero] at htop
    refine ⟨htop.trans hlow, hnext.trans hhigh, ih hrest fun k hk => ?_⟩
    have hmove : sp + 2 + UInt16.ofNat k = sp + UInt16.ofNat (2 + k) := by
      rw [UInt16.ofNat_add, ← UInt16.add_assoc]
      rfl
    rw [hmove]
    exact hsame (2 + k) (by omega)

/-- From `m` to `m'` nothing has changed but some of the `n` bytes below `sp`. -/
structure ChangedBelow (sp : UInt16) (n : ℕ) (m m' : Flat) : Prop where
  peek : ∀ a, (∀ k, 1 ≤ k → k ≤ n → a ≠ sp - UInt16.ofNat k) → m'.peek a = m.peek a
  rest : m' = { m with memory := m'.memory }

theorem ChangedBelow.refl (sp : UInt16) (n : ℕ) (m : Flat) : ChangedBelow sp n m m :=
  ⟨fun _ _ => rfl, rfl⟩

theorem ChangedBelow.trans (h : ChangedBelow sp k m m')
    (h' : ChangedBelow (sp - UInt16.ofNat k) n m' m'') : ChangedBelow sp (k + n) m m'' where
  peek a ha := by
    refine (h'.peek a fun j hj hjn => ?_).trans (h.peek a fun j hj hjk => ha j hj (by omega))
    rw [sub_sub_ofNat]
    exact ha (k + j) (by omega) (by omega)
  rest := by rw [h'.rest, h.rest]

/-- Memory with a word on the stack, the high byte above the low one. -/
def pushed (m : Flat) (sp w : UInt16) : Flat :=
  (m.poke (sp - UInt16.ofNat 1) (high w)).poke (sp - UInt16.ofNat 2) (low w)

theorem pushed_changedBelow (m : Flat) (sp w : UInt16) : ChangedBelow sp 2 m (m.pushed sp w) where
  peek a ha := by
    have hhigh := (ha 1 le_rfl (by decide)).symm
    have hlow := (ha 2 (by decide) le_rfl).symm
    rw [pushed, peek_poke_of_ne _ _ hlow, peek_poke_of_ne _ _ hhigh]
  rest := rfl

/-- A word that is pushed lies on top of what was there, if there is room for it. -/
theorem Stacked.push (h : m.Stacked sp ws) (hroom : ws.length < 32768) (w : UInt16) :
    (m.pushed sp w).Stacked (sp - UInt16.ofNat 2) (w :: ws) := by
  have hnext : sp - UInt16.ofNat 2 + 1 = sp - UInt16.ofNat 1 := by
    show sp - 2 + 1 = sp - 1
    grind
  have hbase : sp - UInt16.ofNat 2 + 2 = sp := UInt16.sub_add_cancel sp 2
  have hapart : sp - UInt16.ofNat 2 ≠ sp - UInt16.ofNat 1 := by
    intro heq
    rw [← hnext] at heq
    simp at heq
  refine ⟨peek_poke_self _ _ _, ?_, ?_⟩
  · rw [hnext, pushed, peek_poke_of_ne _ _ hapart, peek_poke_self]
  · rw [hbase]
    refine h.congr fun k hk => (pushed_changedBelow m sp w).peek _ fun j hj hj2 => ?_
    exact add_ofNat_ne_sub (by omega) hj sp

end Flat

/-! ### Runs -/

namespace Exec

open Flat

variable {m : Flat} {ws below : List UInt16}

/-- Push words, the first one first. -/
def pushAll : List UInt16 → Exec Unit
  | [] => return ()
  | w :: ws => do
    push w
    pushAll ws

/-- Pop so many words. -/
def popMany : ℕ → Exec (List UInt16)
  | 0 => return []
  | n + 1 => do
    let w ← pop
    let ws ← popMany n
    return w :: ws

theorem run_push (w : UInt16) (s : Cpu) (m : Flat) :
    (push w s).run Flat.bus m =
      .ok ((some (), s.setSP (s.regs.sp - UInt16.ofNat 2)), m.pushed s.regs.sp w) := by
  have hsp : s.regs.sp - UInt16.ofNat 1 - UInt16.ofNat 1 = s.regs.sp - UInt16.ofNat 2 :=
    sub_sub_ofNat _ 1 1
  rw [Cpu.setSP, pushed, ← hsp]
  rfl

theorem run_pop (s : Cpu) (m : Flat) :
    (pop s).run Flat.bus m =
      .ok ((some (word (m.peek (s.regs.sp + 1)) (m.peek s.regs.sp)), s.setSP (s.regs.sp + 2)), m) :=
        rfl

/-- Words that are pushed come to lie on what was there, if there is room for them. SP moves by two
bytes for each, and no byte has changed that it did not pass. -/
theorem run_pushAll (ws : List UInt16) (s : Cpu) (hbelow : m.Stacked s.regs.sp below)
    (hroom : ws.length + below.length ≤ 32768) :
    ∃ m', (pushAll ws s).run Flat.bus m =
        .ok ((some (), s.setSP (s.regs.sp - UInt16.ofNat (2 * ws.length))), m') ∧
      m'.Stacked (s.regs.sp - UInt16.ofNat (2 * ws.length)) (ws.reverse ++ below) ∧
      ChangedBelow s.regs.sp (2 * ws.length) m m' := by
  induction ws generalizing s m below with
  | nil =>
    have hzero : s.regs.sp - UInt16.ofNat 0 = s.regs.sp := UInt16.sub_zero _
    rw [List.length_nil, Nat.mul_zero, hzero]
    exact ⟨m, rfl, hbelow, .refl _ _ m⟩
  | cons w ws ih =>
    rw [List.length_cons] at hroom ⊢
    have hpushed := hbelow.push (by omega) w
    obtain ⟨m', hrun, hstacked, hchanged⟩ := ih (s.setSP (s.regs.sp - UInt16.ofNat 2)) hpushed
      (by rw [List.length_cons]; omega)
    have hlen : 2 * (ws.length + 1) = 2 + 2 * ws.length := by omega
    simp only [Cpu.setSP, sub_sub_ofNat] at hrun hstacked hchanged
    rw [hlen]
    refine ⟨m', ?_, ?_, (pushed_changedBelow m s.regs.sp w).trans hchanged⟩
    · rw [pushAll, bind_apply, Dialogue.run_bind, run_push]
      exact hrun
    · rw [List.reverse_cons, List.append_assoc]
      exact hstacked

/-- Words that lie on the stack are popped from the top. -/
theorem run_popMany (s : Cpu) (h : m.Stacked s.regs.sp ws) :
    (popMany ws.length s).run Flat.bus m =
      .ok ((some ws, s.setSP (s.regs.sp + UInt16.ofNat (2 * ws.length))), m) := by
  induction ws generalizing s with
  | nil =>
    have hzero : s.regs.sp + UInt16.ofNat 0 = s.regs.sp := UInt16.add_zero _
    rw [List.length_nil, Nat.mul_zero, hzero]
    rfl
  | cons w ws ih =>
    obtain ⟨hlow, hhigh, hrest⟩ := h
    have hsp : s.regs.sp + 2 + UInt16.ofNat (2 * ws.length) =
        s.regs.sp + UInt16.ofNat (2 * (ws.length + 1)) := by
      rw [Nat.mul_add, Nat.add_comm, UInt16.ofNat_add, ← UInt16.add_assoc]
      rfl
    have hmore := ih (s.setSP (s.regs.sp + 2)) hrest
    rw [List.length_cons, popMany, bind_apply, Dialogue.run_bind, run_pop, hlow, hhigh,
      word_high_low]
    show ((popMany ws.length >>= fun ws => Pure.pure (w :: ws)) _).run Flat.bus m = _
    rw [bind_apply, Dialogue.run_bind, hmore, ← hsp]
    rfl

/-- The stack is last in, first out, wherever it begins and even if it fills all of memory. If words
are pushed on flat memory and as many are popped, then they come back in reverse order and the
processor is as before, SP included. Nothing has changed but bytes below SP, two for each word. -/
theorem pops_reverse_pushes (s : Cpu) (m : Flat) (ws : List UInt16) (hroom : ws.length ≤ 32768) :
    ∃ m', ((do pushAll ws; popMany ws.length) s).run Flat.bus m = .ok ((some ws.reverse, s), m') ∧
      ChangedBelow s.regs.sp (2 * ws.length) m m' := by
  have hempty : m.Stacked s.regs.sp [] := trivial
  obtain ⟨m', hpush, hstacked, hchanged⟩ := run_pushAll ws s hempty hroom
  rw [List.append_nil] at hstacked
  have hpop := run_popMany (s.setSP (s.regs.sp - UInt16.ofNat (2 * ws.length))) hstacked
  have hback : s.regs.sp - UInt16.ofNat (2 * ws.length) + UInt16.ofNat (2 * ws.length) =
      s.regs.sp :=
    UInt16.sub_add_cancel _ _
  rw [List.length_reverse] at hpop
  simp only [Cpu.setSP, hback] at hpush hpop
  refine ⟨m', ?_, hchanged⟩
  rw [bind_apply, Dialogue.run_bind, hpush]
  exact hpop

/-- The numbers below 32768 fill all of memory, from an SP in its middle. -/
theorem pops_reverse_pushes_full :
    ((List.range 32768).map UInt16.ofNat).length ≤ 32768 ∧
      ∃ m', ((do pushAll ((List.range 32768).map UInt16.ofNat); popMany 32768)
          (Cpu.initial.setSP 0x8001)).run Flat.bus Flat.empty =
        .ok ((some ((List.range 32768).map UInt16.ofNat).reverse, Cpu.initial.setSP 0x8001),
          m') := by
  have hlength : ((List.range 32768).map UInt16.ofNat).length = 32768 := by
    rw [List.length_map, List.length_range]
  obtain ⟨m', hrun, -⟩ := pops_reverse_pushes (Cpu.initial.setSP 0x8001) Flat.empty
    ((List.range 32768).map UInt16.ofNat) hlength.le
  rw [hlength] at hrun
  exact ⟨hlength.le, m', hrun⟩

end Exec
end TandemZ80
