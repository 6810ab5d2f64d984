import TandemZ80.Proofs.Cpu.Blocks
import TandemZ80.Proofs.Cpu.Renaming

/-!
# Time that a halted processor is credited with

A halted processor waits in slots of four T-states and moves R on by one in each of them. It can be
credited with any time instead of being stepped for it. Time in whole slots is the same either way;
of other time the part of a slot that is left over at the end of each credit never moves R.

* `Registers.repeat_refresh` and `Registers.fetched_eq_iff`, R after any number of slots;
* `Cpu.idled`, a processor that has waited, and `Cpu.advanceIdle_eq`, what a credit comes to;
* `Cpu.steps_of_waits` and `Cpu.skipped_eq_stepped`, credit and steps;
* `Cpu.lostSlots` and `Cpu.advanceIdle_sliced`, credit in slices and credit as a whole.
-/

namespace TandemZ80

/-! ### R -/

namespace Registers

/-- R counts the slots that a processor has waited for. -/
theorem repeat_refresh (n : ℕ) (g : Registers) :
    Nat.repeat refresh n g = { g with r := fetched n g.r } := by
  induction n with
  | zero =>
    rw [fetched_zero]
    rfl
  | succ n ih =>
    rw [Nat.repeat, ih]
    show { g with r := fetched 1 (fetched n g.r) } = _
    rw [fetched_fetched]

/-- R has seven bits that count. -/
theorem fetched_eq_iff {j k : ℕ} {r : UInt8} : fetched j r = fetched k r ↔ j % 128 = k % 128 := by
  have hlow : ∀ n, (fetched n r &&& 0x7F).toNat = (r.toNat + n) % 128 := by
    intro n
    have hmask : (0x7F : UInt8).toNat = 2 ^ 7 - 1 := rfl
    rw [fetched_low, UInt8.toNat_and, UInt8.toNat_add, UInt8.toNat_ofNat', hmask,
      Nat.and_two_pow_sub_one_eq_mod]
    omega
  constructor
  · intro h
    have hsum := hlow j
    rw [h, hlow k] at hsum
    omega
  · intro h
    have hsame : fetched j r &&& 0x7F = fetched k r &&& 0x7F := by
      rw [← UInt8.toNat_inj, hlow, hlow]
      omega
    rw [fetched_low, fetched_low] at hsame
    rw [fetched, fetched, hsame]

theorem fetched_mod (k : ℕ) (r : UInt8) : fetched (k % 128) r = fetched k r :=
  fetched_eq_iff.2 (Nat.mod_mod k 128)

end Registers

namespace Cpu

variable {s t : Cpu} {k : ℕ}

/-! ### Credit -/

/-- A processor that has waited for so many slots and T-states. -/
def idled (slots clocks : ℕ) (s : Cpu) : Cpu :=
  { s with
    regs := { s.regs with r := Registers.fetched slots s.regs.r }
    ticks := ⟨UInt64.ofNat (s.ticks.count.toNat + clocks)⟩ }

theorem idled_zero (s : Cpu) : s.idled 0 0 = s := by
  unfold idled
  rw [Registers.fetched_zero, Nat.add_zero, UInt64.ofNat_toNat]

theorem idled_idled (j k a b : ℕ) (s : Cpu) :
    (s.idled j a).idled k b = s.idled (j + k) (a + b) := by
  have hticks : UInt64.ofNat ((UInt64.ofNat (s.ticks.count.toNat + a)).toNat + b) =
      UInt64.ofNat (s.ticks.count.toNat + (a + b)) := by
    rw [UInt64.ofNat_add, UInt64.ofNat_toNat, ← UInt64.ofNat_add, Nat.add_assoc]
  unfold idled
  dsimp only
  rw [Registers.fetched_fetched, hticks]

theorem ticks_idled {slots clocks : ℕ} (h : s.ticks.count.toNat + clocks < UInt64.size) :
    (s.idled slots clocks).ticks.count.toNat = s.ticks.count.toNat + clocks :=
  UInt64.toNat_ofNat_of_lt' h

/-- The save of a processor shows for how many slots it has waited, but for whole rounds of R. -/
theorem save_idled_eq_iff {i j a : ℕ} :
    (s.idled i a).save = (s.idled j a).save ↔ i % 128 = j % 128 := by
  rw [← Registers.fetched_eq_iff (r := s.regs.r)]
  constructor
  · intro h
    exact congrArg Snapshot.r h
  · intro h
    unfold idled
    rw [h]

/-- A processor counts the time that it is credited with. -/
theorem advanceIdle_ticks {n : Ticks} (h : s.advanceIdle n = .ok t) :
    t.ticks.count.toNat = s.ticks.count.toNat + n.count.toNat := by
  obtain ⟨-, -, h⟩ := Fault.bind_eq_ok h
  obtain ⟨ticks, hadd, h⟩ := Fault.bind_eq_ok h
  cases h
  exact Ticks.add_eq_ok.1 hadd

/-- A halted processor that is credited with time has waited for the whole slots in it. -/
theorem advanceIdle_eq (hs : s.regs.halted = true) {n : Ticks}
    (hroom : s.ticks.count.toNat + n.count.toNat < UInt64.size) :
    s.advanceIdle n = .ok (s.idled (n.count.toNat / 4) n.count.toNat) := by
  have hadd : s.ticks.add n = .ok ⟨UInt64.ofNat (s.ticks.count.toNat + n.count.toNat)⟩ :=
    Ticks.add_eq_ok.2 (UInt64.toNat_ofNat_of_lt' hroom)
  unfold advanceIdle
  rw [Fault.require_of hs, hadd]
  show Except.ok { s with regs := Nat.repeat Registers.refresh _ s.regs, ticks := _ } = _
  rw [Registers.repeat_refresh, Registers.fetched_mod]
  rfl

/-! ### Credit and steps -/

/-- A step of a processor that waits asks its bus for nothing. -/
theorem step_of_waits (hs : s.action = .wait) (hei : s.afterEI = false)
    (hroom : s.ticks.count.toNat + 4 < UInt64.size) : s.step = .done (4, s.idled 1 4) := by
  have hstep : s.step = finish s (some 4, { s with regs := s.regs.refresh }) := by
    unfold step
    rw [hs, ← hei]
    rfl
  have hadd : s.ticks.add (.ofCost (UInt32.ofNat 4)) =
      .ok ⟨UInt64.ofNat (s.ticks.count.toNat + 4)⟩ :=
    Ticks.add_eq_ok.2 (UInt64.toNat_ofNat_of_lt' hroom)
  rw [hstep, finish, if_pos (by decide)]
  dsimp only
  rw [hadd]
  rfl

/-- Steps of a processor that waits, one after the other. -/
theorem steps_of_waits (hs : s.action = .wait) (hei : s.afterEI = false)
    (hroom : s.ticks.count.toNat + 4 * k < UInt64.size) :
    steps k s = .done (List.replicate k 4, s.idled k (4 * k)) := by
  induction k with
  | zero =>
    rw [Nat.mul_zero, idled_zero]
    rfl
  | succ k ih =>
    have hticks : (s.idled k (4 * k)).ticks.count.toNat = s.ticks.count.toNat + 4 * k :=
      ticks_idled (by omega)
    have hstep : (s.idled k (4 * k)).step = .done (4, (s.idled k (4 * k)).idled 1 4) :=
      step_of_waits hs hei (by omega)
    rw [steps, ih (by omega), Dialogue.done_bind]
    dsimp only
    rw [hstep, Dialogue.done_bind, idled_idled, List.replicate_succ']
    rfl

/-- A halted processor that no interrupt is about to wake is credited with time in whole slots: that
is all the same as stepping it, on whatever bus. Each of the steps takes four T-states, and none of
them calls the bus. -/
theorem skipped_eq_stepped (hhalted : s.regs.halted = true) (hnmi : s.nmiPending = false)
    (hei : s.afterEI = false) (hline : ¬(s.intLine = true ∧ s.regs.iff1 = true))
    (hroom : s.ticks.count.toNat + 4 * k < UInt64.size) :
    ∃ t, s.advanceIdle ⟨UInt64.ofNat (4 * k)⟩ = .ok t ∧
      steps k s = .done (List.replicate k 4, t) ∧
      ∀ {σ : Type} (h : Bus σ) (b : σ), (steps k s).run h b = .ok ((List.replicate k 4, t), b) := by
  have hwaits : s.action = .wait := by
    have hnone : (s.intLine && s.regs.iff1) = false := by
      rw [Bool.eq_false_iff, ne_eq, Bool.and_eq_true]
      exact hline
    unfold action
    rw [hnmi, hnone, hhalted]
    rfl
  have hcount : (UInt64.ofNat (4 * k)).toNat = 4 * k := UInt64.toNat_ofNat_of_lt' (by omega)
  have hsteps := steps_of_waits hwaits hei hroom
  refine ⟨s.idled k (4 * k), ?_, hsteps, fun h b => ?_⟩
  · have hslots : 4 * k / 4 = k := Nat.mul_div_cancel_left k (by decide)
    rw [advanceIdle_eq hhalted (by rw [hcount]; exact hroom)]
    dsimp only
    rw [hcount, hslots]
  · rw [hsteps]
    rfl

/-- A halted processor that waits for longer than R can count. -/
theorem skipped_eq_stepped_beyond_r :
    ∃ s t : Cpu, s.regs.r = 0 ∧ s.advanceIdle ⟨UInt64.ofNat (4 * 300)⟩ = .ok t ∧
      steps 300 s = .done (List.replicate 300 4, t) ∧ t.regs.r = 44 := by
  let s : Cpu := { initial with regs := { Registers.powerOn with halted := true } }
  have hline : ¬(s.intLine = true ∧ s.regs.iff1 = true) := fun h => Bool.false_ne_true h.1
  have hroom : s.ticks.count.toNat + 4 * 300 < UInt64.size := by decide
  obtain ⟨t, hcredit, hsteps, -⟩ := skipped_eq_stepped (s := s) rfl rfl rfl hline hroom
  have hidled := advanceIdle_eq (s := s) (n := ⟨UInt64.ofNat (4 * 300)⟩) rfl (by decide)
  obtain rfl := Except.ok.inj (hidled.symm.trans hcredit)
  exact ⟨s, _, rfl, hcredit, hsteps, by decide⟩

/-! ### Credit in slices -/

/-- What is left over of the slots of a halt at the end of each slice, in slots. -/
def lostSlots (slices : List ℕ) : ℕ := (slices.map (· % 4)).sum / 4

/-- The slots of each slice, and those that are lost, are the slots of the whole. -/
theorem sum_slots (slices : List ℕ) :
    (slices.map (· / 4)).sum + lostSlots slices = slices.sum / 4 := by
  have hsum : 4 * (slices.map (· / 4)).sum + (slices.map (· % 4)).sum = slices.sum := by
    induction slices with
    | nil => rfl
    | cons n slices ih =>
      rw [List.map_cons, List.map_cons, List.sum_cons, List.sum_cons, List.sum_cons]
      omega
  unfold lostSlots
  omega

/-- A halted processor that is credited with one slice of time after the other. -/
theorem foldlM_advanceIdle (hs : s.regs.halted = true) {slices : List Ticks}
    (hroom : s.ticks.count.toNat + (slices.map (·.count.toNat)).sum < UInt64.size) :
    slices.foldlM advanceIdle s = .ok (s.idled ((slices.map (·.count.toNat)).map (· / 4)).sum
      (slices.map (·.count.toNat)).sum) := by
  induction slices generalizing s with
  | nil =>
    show Except.ok s = _
    rw [List.map_nil, List.map_nil, List.sum_nil, idled_zero]
  | cons n slices ih =>
    rw [List.map_cons, List.sum_cons] at hroom
    have hticks : (s.idled (n.count.toNat / 4) n.count.toNat).ticks.count.toNat =
        s.ticks.count.toNat + n.count.toNat := ticks_idled (by omega)
    rw [List.foldlM_cons, advanceIdle_eq hs (by omega)]
    show slices.foldlM advanceIdle (s.idled (n.count.toNat / 4) n.count.toNat) = _
    rw [ih (s := s.idled _ _) hs (by rw [hticks]; omega), idled_idled, List.map_cons, List.map_cons,
      List.sum_cons, List.sum_cons]

/-- Credit in slices is credit as a whole, except that R has not counted the slots that are lost. -/
theorem advanceIdle_sliced (hs : s.regs.halted = true) {slices : List Ticks}
    (hroom : s.ticks.count.toNat + (slices.map (·.count.toNat)).sum < UInt64.size) :
    ∃ t, slices.foldlM advanceIdle s = .ok t ∧
      s.advanceIdle ⟨UInt64.ofNat (slices.map (·.count.toNat)).sum⟩ =
        .ok (t.idled (lostSlots (slices.map (·.count.toNat))) 0) := by
  have hcount : (UInt64.ofNat (slices.map (·.count.toNat)).sum).toNat =
      (slices.map (·.count.toNat)).sum := UInt64.toNat_ofNat_of_lt' (by omega)
  refine ⟨_, foldlM_advanceIdle hs hroom, ?_⟩
  rw [advanceIdle_eq hs (by rw [hcount]; exact hroom), idled_idled, sum_slots]
  dsimp only
  rw [hcount, Nat.add_zero]

end Cpu
end TandemZ80
