import TandemZ80.Proofs.Cpu.Contract
import TandemZ80.Proofs.Flags.Reference

/-!
# Block instructions on flat memory

A block instruction that repeats itself is a loop of one instruction: each step is one iteration,
and as long as the loop goes on, PC returns to the opcode. What such a loop comes to is proved by an
invariant of the number of iterations, on flat memory, where a fetch gives the byte at PC through
any window.

* `Walk.nth` and `blockLength`, the addresses and the length of a block, and `rounds`, how often a
  counter is counted down;
* `Flat.Issues`, windows of flat memory, and `Flat.Behind`, a bus that fetches from it;
  `Cpu.step_extended`, a step that executes an extended instruction;
* `Cpu.steps`, steps in a row, and `Cpu.Takes`, the T-states that they take, with `Cpu.takes_append`
  and `Cpu.takes_steps`, the rule for invariants;
* `Cpu.Undisturbed`, `Cpu.Along`, a processor in the middle of its loop, and `Cpu.Repeats`, what a
  loop comes to.
-/

namespace TandemZ80

variable {σ : Type}

/-! ### Blocks -/

/-- The address after so many steps of a walk. -/
def Walk.nth (walk : Walk) (a : UInt16) (k : ℕ) : UInt16 :=
  match walk with
  | .up => a + UInt16.ofNat k
  | .down => a - UInt16.ofNat k

@[simp] theorem Walk.nth_zero (walk : Walk) (a : UInt16) : walk.nth a 0 = a := by
  cases walk with
  | up => exact UInt16.add_zero a
  | down => exact UInt16.sub_zero a

theorem Walk.nth_succ (walk : Walk) (a : UInt16) (k : ℕ) :
    walk.nth a (k + 1) = walk.next (walk.nth a k) := by
  have hk : UInt16.ofNat (k + 1) = UInt16.ofNat k + 1 := UInt16.ofNat_add k 1
  cases walk with
  | up => rw [nth, nth, next, hk, UInt16.add_assoc]
  | down =>
    rw [nth, nth, next, hk]
    grind

/-- How often a counter with `size` values goes round before it is at zero again. -/
def rounds (size v : ℕ) : ℕ := if v = 0 then size else v

theorem rounds_pos {size : ℕ} (hsize : 0 < size) (v : ℕ) : 0 < rounds size v := by
  unfold rounds
  split
  · exact hsize
  · next hv => exact Nat.pos_of_ne_zero hv

theorem eq_mod_iff_rounds {size v k : ℕ} (hv : v < size) (hpos : 0 < k) (hk : k ≤ rounds size v) :
    v = k % size ↔ k = rounds size v := by
  unfold rounds at hk ⊢
  split at hk
  · next hzero =>
    rw [if_pos hzero, hzero, eq_comm, ← Nat.dvd_iff_mod_eq_zero]
    exact ⟨fun hdvd => le_antisymm hk (Nat.le_of_dvd hpos hdvd), fun heq => heq ▸ dvd_rfl⟩
  · next hne =>
    rw [if_neg hne, Nat.mod_eq_of_lt (hk.trans_lt hv)]
    exact eq_comm

/-- A counter that is zero at the end alone shows whether there is more to come. -/
theorem bne_eq_decide_lt {α : Type} [DecidableEq α] {v zero : α} {k n : ℕ} (hk : k < n)
    (hzero : v = zero ↔ k + 1 = n) : (v != zero) = decide (k + 1 < n) := by
  by_cases hend : k + 1 = n
  · rw [hzero.2 hend, decide_eq_false (by omega), bne_self_eq_false]
  · rw [bne_iff_ne.2 fun h => hend (hzero.1 h), decide_eq_true (by omega)]

/-- The length of the block that BC counts. -/
def blockLength (bc : UInt16) : ℕ := if bc = 0 then 65536 else bc.toNat

theorem blockLength_eq (bc : UInt16) : blockLength bc = rounds 65536 bc.toNat := by
  have hzero : bc = 0 ↔ bc.toNat = 0 := UInt16.toNat_inj.symm
  simp only [blockLength, rounds, hzero]

theorem blockLength_pos (bc : UInt16) : 0 < blockLength bc := by
  rw [blockLength_eq]
  exact rounds_pos (by decide) _

theorem sub_ofNat_succ (bc : UInt16) (k : ℕ) :
    bc - UInt16.ofNat (k + 1) = bc - UInt16.ofNat k - 1 := by
  rw [UInt16.ofNat_add k 1]
  grind

/-- BC shows whether there is more of the block. -/
theorem sub_ofNat_eq_zero_iff {bc : UInt16} {k : ℕ} (hpos : 0 < k) (hk : k ≤ blockLength bc) :
    bc - UInt16.ofNat k = 0 ↔ k = blockLength bc := by
  rw [blockLength_eq] at hk ⊢
  rw [UInt16.sub_eq_iff_eq_add, UInt16.zero_add, ← UInt16.toNat_inj, UInt16.toNat_ofNat']
  exact eq_mod_iff_rounds bc.toNat_lt hpos hk

/-- The test by which a block instruction goes on. -/
theorem goesOn_eq {bc : UInt16} {k : ℕ} (hk : k < blockLength bc) :
    (bc - UInt16.ofNat (k + 1) != 0) = decide (k + 1 < blockLength bc) :=
  bne_eq_decide_lt hk (sub_ofNat_eq_zero_iff (Nat.succ_pos k) hk)

/-- Bits 5 and 3 do not show where they are masked. -/
theorem Registers.blockXY_and {mask : UInt8} (hy : YF &&& mask = 0) (hx : XF &&& mask = 0)
    (n : UInt8) : blockXY n &&& mask = 0 := by
  simp only [blockXY, Flags.or_and, UInt8.and_assoc, hy, hx, UInt8.and_zero, UInt8.or_self]

/-- The registers with another PC, and with others of those that a loop changes on the way. -/
def Registers.placed (g : Registers) (pc : UInt16) (r : UInt8) (wz : UInt16) (f : Flags.Lazy) :
    Registers :=
  { g with pc, r, wz, f }

/-! ### Fetching from flat memory -/

/-- A window of flat memory, or none. -/
def Flat.Issues (w : Option Window) : Prop := ∀ v, w = some v → ∃ a, v = window a

/-- Flat memory lies behind a bus: the calls of a fetch are answered as flat memory answers them,
and change nothing. -/
structure Flat.Behind (h : Bus σ) (b : σ) (m : Flat) : Prop where
  read : ∀ a, h (.read a) b = .ok (m.peek a, b)
  window : ∀ a, h (.window a) b = .ok (some (Flat.window a), b)
  readWindow : ∀ w a, h (.readWindow w a) b = .ok (m.readWindow w a, b)

theorem Flat.behind (m : Flat) : Behind bus m m := ⟨fun _ => rfl, fun _ => rfl, fun _ _ => rfl⟩

/-- Through any of its windows flat memory shows the byte at an address. -/
theorem Flat.Behind.fetch {h : Bus σ} {b : σ} {m : Flat} (hm : Behind h b m) {w : Option Window}
    (hw : Issues w) (a : UInt16) :
    ∃ w', Issues w' ∧ (Bus.fetch w a).run h b = .ok ((m.peek a, w'), b) := by
  have hissued : Issues (some (Flat.window a)) := fun v hv => ⟨a, (Option.some.inj hv).symm⟩
  have hlookUp : (Bus.lookUp a).run h b = .ok ((m.peek a, some (Flat.window a)), b) := by
    have hread := hm.read a
    rw [Bus.lookUp, Dialogue.run_ask, hm.window]
    show (h (.read a) b >>= fun r => .ok ((r.1, some (Flat.window a)), r.2)) = _
    rw [hread]
    rfl
  cases w with
  | none => exact ⟨_, hissued, hlookUp⟩
  | some v =>
    obtain ⟨a', rfl⟩ := hw v rfl
    by_cases ha : (Flat.window a').contains a = true
    · refine ⟨some (Flat.window a'), hw, ?_⟩
      unfold Bus.fetch
      dsimp only
      rw [if_pos ha, Dialogue.run_ask, hm.readWindow, readWindow_window m ha]
      rfl
    · rw [Bus.fetch_past ha]
      exact ⟨_, hissued, hlookUp⟩

namespace Exec

theorem instruction_extended (elapsed : ℕ) :
    instruction elapsed 0xED =
      fetchOpcode >>= fun op => (ExtendedInstruction.decode op).execute elapsed := by
  have hopcode : ∀ n, opcode (n + 1) .hl elapsed 0xED =
      fetchOpcode >>= fun op => (ExtendedInstruction.decode op).execute elapsed := fun _ => rfl
  have hlimit : prefixLimit = prefixLimit - 1 + 1 := rfl
  rw [instruction, hlimit]
  exact hopcode _

end Exec

namespace Cpu

open Exec

variable {s t u : Cpu} {m m' : Flat} {h : Bus σ} {b b' : σ}

/-- The processor when both bytes of an extended instruction have been fetched. -/
def opened (s : Cpu) (w : Option Window) : Cpu :=
  { s with
    regs := { s.regs.refresh.refresh with pc := s.regs.pc + 2 }
    window := w
    afterEI := false }

/-- An extended instruction is about to be executed in flat memory. -/
structure Ready (op : UInt8) (s : Cpu) (m : Flat) : Prop where
  action : s.action = .execute
  first : m.peek s.regs.pc = 0xED
  second : m.peek (s.regs.pc + 1) = op
  issues : Flat.Issues s.window

/-- A step that executes an extended instruction, once it has been fetched. -/
theorem step_extended {op : UInt8} (hm : Flat.Behind h b m) (hs : s.Ready op m) :
    ∃ w, Flat.Issues w ∧ s.step.run h b =
      ((ExtendedInstruction.decode op).execute 0 (s.opened w)).run h b >>= fun r =>
        (finish s r.1).run h r.2 := by
  obtain ⟨w, hw, hfirst⟩ := hm.fetch hs.issues s.regs.pc
  obtain ⟨w', hw', hsecond⟩ := hm.fetch hw (s.regs.pc + 1)
  refine ⟨w', hw', ?_⟩
  rw [hs.first] at hfirst
  rw [hs.second] at hsecond
  have hbody : (perform s.action { s with afterEI := false }).run h b =
      ((ExtendedInstruction.decode op).execute 0 (s.opened w')).run h b := by
    rw [hs.action]
    show ((fetchOpcode >>= instruction 0) _).run h b = _
    rw [fetchOpcode_bind, Dialogue.run_bind, hfirst]
    show (instruction 0 0xED _).run h b = _
    rw [instruction_extended, fetchOpcode_bind, Dialogue.run_bind]
    show ((Bus.fetch w (s.regs.pc + 1)).run h b >>= _) = _
    have hpc : s.regs.pc + 2 = s.regs.pc + 1 + 1 := (UInt16.add_assoc _ 1 1).symm
    rw [hsecond, opened, hpc]
    rfl
  unfold step
  rw [Dialogue.run_bind, hbody]

/-! ### Steps in a row -/

/-- So many steps, with what each of them returns. -/
def steps : ℕ → Cpu → Bus.Program (List ℕ × Cpu)
  | 0, s => .done ([], s)
  | n + 1, s => do
    let (costs, t) ← steps n s
    let (cost, u) ← t.step
    return (costs ++ [cost], u)

/-- What becomes of steps that take the T-states `costs`: `P` holds at their end, unless the count
of T-states is too small for them. -/
def Takes (ticks : Ticks) (costs : List ℕ) (P : Cpu → σ → Prop) :
    Except Fault ((List ℕ × Cpu) × σ) → Prop
  | .ok ((taken, t), b) =>
    taken = costs ∧ t.ticks.count.toNat = ticks.count.toNat + costs.sum ∧ P t b
  | .error f => f = .overflow ∧ UInt64.size ≤ ticks.count.toNat + costs.sum

theorem Takes.mono {ticks : Ticks} {costs : List ℕ} {P Q : Cpu → σ → Prop}
    {r : Except Fault ((List ℕ × Cpu) × σ)} (hr : Takes ticks costs P r)
    (hPQ : ∀ t b, t.ticks.count.toNat = ticks.count.toNat + costs.sum → P t b → Q t b) :
    Takes ticks costs Q r := by
  cases r with
  | error f => exact hr
  | ok r =>
    obtain ⟨htaken, hticks, hP⟩ := hr
    exact ⟨htaken, hticks, hPQ _ _ hticks hP⟩

/-- The step executes to its end, at a cost, and `P` holds then, whatever the count of T-states. -/
def Executes (h : Bus σ) (s : Cpu) (b : σ) (cost : ℕ) (P : Cpu → σ → Prop) : Prop :=
  ∃ t b', s.step.run h b = (finish s (some cost, t)).run h b' ∧ t.ticks = s.ticks ∧
    ∀ ticks, P { t with ticks } b'

theorem Executes.mono {cost : ℕ} {P Q : Cpu → σ → Prop} (hs : Executes h s b cost P)
    (hPQ : ∀ t b', P t b' → Q t b') : Executes h s b cost Q := by
  obtain ⟨t, b', hstep, hticks, hP⟩ := hs
  exact ⟨t, b', hstep, hticks, fun ticks => hPQ _ _ (hP ticks)⟩

/-! Steps in a row are put together from single ones. -/

theorem steps_add (i j : ℕ) (s : Cpu) :
    steps (i + j) s = steps i s >>= fun r => steps j r.2 >>= fun r' =>
      .done (r.1 ++ r'.1, r'.2) := by
  induction j with
  | zero =>
    simp only [Nat.add_zero, steps, Dialogue.done_bind, List.append_nil]
    exact (Dialogue.bind_done _).symm
  | succ j ih =>
    rw [← Nat.add_assoc, steps, ih]
    simp only [steps, Dialogue.bind_assoc, Dialogue.done_bind, Dialogue.pure_eq, List.append_assoc]

theorem run_steps_one (h : Bus σ) (s : Cpu) (b : σ) :
    (steps 1 s).run h b = s.step.run h b >>= fun r => .ok (([r.1.1], r.1.2), r.2) := by
  rw [steps, steps, Dialogue.done_bind, Dialogue.run_bind]
  rfl

/-- Steps, and then more of them, from wherever the first ones end. -/
theorem takes_append {i j : ℕ} {costs costs' : List ℕ} {P Q : Cpu → σ → Prop}
    (hs : Takes s.ticks costs P ((steps i s).run h b))
    (ht : ∀ t b', P t b' → Takes t.ticks costs' Q ((steps j t).run h b')) :
    Takes s.ticks (costs ++ costs') Q ((steps (i + j) s).run h b) := by
  have hsum : (costs ++ costs').sum = costs.sum + costs'.sum := List.sum_append
  rw [steps_add, Dialogue.run_bind]
  generalize (steps i s).run h b = r at hs ⊢
  cases r with
  | error f =>
    obtain ⟨rfl, hsize⟩ := hs
    exact ⟨rfl, by omega⟩
  | ok r =>
    obtain ⟨⟨taken, t⟩, b'⟩ := r
    obtain ⟨rfl, hticks, hP⟩ := hs
    have hnext := ht t b' hP
    show Takes _ _ _ ((steps j t >>= _).run h b')
    rw [Dialogue.run_bind]
    generalize (steps j t).run h b' = r' at hnext ⊢
    cases r' with
    | error f =>
      obtain ⟨rfl, hsize⟩ := hnext
      exact ⟨rfl, by omega⟩
    | ok r' =>
      obtain ⟨⟨taken', u⟩, b''⟩ := r'
      obtain ⟨rfl, hticks', hQ⟩ := hnext
      refine ⟨rfl, ?_, hQ⟩
      rw [hticks', hticks, hsum, Nat.add_assoc]

theorem Executes.takes {cost : ℕ} {P : Cpu → σ → Prop} (hs : Executes h s b cost P)
    (hcost : cost < UInt32.size) : Takes s.ticks [cost] P ((steps 1 s).run h b) := by
  obtain ⟨t, b', hstep, hsame, hP⟩ := hs
  have hsum : [cost].sum = cost := List.sum_singleton
  rw [run_steps_one, hstep]
  rcases finish_cases s t cost with ⟨ticks, hfinish, hcount⟩ | ⟨hfinish, hlate⟩
  · rw [hfinish]
    refine ⟨rfl, ?_, hP ticks⟩
    rw [hsame] at hcount
    rw [hsum]
    exact hcount
  · have hsize := hlate.resolve_left (Nat.not_le_of_lt hcost)
    rw [hsame] at hsize
    rw [hfinish]
    exact ⟨rfl, by omega⟩

/-- The rule for invariants: what holds after `k` steps, and is kept by the next one, holds at the
end. -/
theorem takes_steps {n : ℕ} {cost : ℕ → ℕ} {I : ℕ → Cpu → σ → Prop}
    (hcost : ∀ k, cost k < UInt32.size) (hzero : I 0 s b)
    (hstep : ∀ k < n, ∀ t b', I k t b' → Executes h t b' (cost k) (I (k + 1))) :
    ∀ k ≤ n, Takes s.ticks ((List.range k).map cost) (I k) ((steps k s).run h b) := by
  intro k hk
  induction k with
  | zero => exact ⟨rfl, rfl, hzero⟩
  | succ k ih =>
    have hcosts : (List.range (k + 1)).map cost = (List.range k).map cost ++ [cost k] := by
      rw [List.range_succ, List.map_append]
      rfl
    rw [hcosts]
    refine takes_append (ih (Nat.le_of_succ_le hk)) fun t b' ht => ?_
    exact (hstep k hk t b' ht).takes (hcost k)

/-! ### Loops -/

/-- What iteration `k` of a loop of `n` costs. -/
def iterationCost (n k : ℕ) : ℕ := if k + 1 < n then 21 else 16

theorem iterationCost_lt (n k : ℕ) : iterationCost n k < UInt32.size := by
  unfold iterationCost
  split <;> decide

theorem map_iterationCost_of_lt {n k : ℕ} (hk : k < n) :
    (List.range k).map (iterationCost n) = List.replicate k 21 := by
  rw [List.map_eq_replicate_iff.2, List.length_range]
  intro j hj
  rw [List.mem_range] at hj
  exact if_pos (by omega)

theorem map_iterationCost {n : ℕ} (hn : 0 < n) :
    (List.range n).map (iterationCost n) = List.replicate (n - 1) 21 ++ [16] := by
  obtain ⟨k, rfl⟩ := Nat.exists_eq_add_of_lt hn
  rw [Nat.zero_add, List.range_succ, List.map_append, map_iterationCost_of_lt (Nat.lt_succ_self k)]
  simp [iterationCost]

theorem sum_iterationCost (n : ℕ) :
    (List.replicate (n - 1) 21 ++ [16]).sum = 21 * (n - 1) + 16 := by
  rw [List.sum_append, List.sum_replicate, List.sum_singleton, smul_eq_mul, Nat.mul_comm]

theorem action_eq_execute : s.action = .execute ↔
    s.nmiPending = false ∧ (s.intLine && s.regs.iff1 && !s.afterEI) = false ∧
      s.regs.halted = false := by
  unfold action
  split_ifs <;> simp_all

/-- Nothing but instructions is executed in the next `n` steps, if these leave the interrupts alone:
not in the first one, and not in the others, where EI holds no interrupt off any more. -/
structure Undisturbed (n : ℕ) (s : Cpu) : Prop where
  first : s.action = .execute
  others : 1 < n → { s with afterEI := false }.action = .execute

/-- An instruction is executed after `k` of the steps, if only EI held interrupts off in the first
one. -/
theorem Undisturbed.action_eq {n k : ℕ} (hs : s.Undisturbed n) (hk : k < n)
    (hiff : t.regs.iff1 = s.regs.iff1) (hhalted : t.regs.halted = s.regs.halted)
    (ht : t = { s with
      regs := t.regs, window := t.window, afterEI := k = 0 && s.afterEI, ticks := t.ticks }) :
    t.action = .execute := by
  obtain ⟨hnmi, hint, hawake⟩ := action_eq_execute.1 hs.first
  rw [action_eq_execute, hiff, hhalted, ht]
  refine ⟨hnmi, ?_, hawake⟩
  cases k with
  | zero => simpa using hint
  | succ k =>
    have hothers := (action_eq_execute.1 (hs.others (by omega))).2.1
    simpa using hothers

/-- After `k` of the `n` iterations of a loop that began in `s`, the registers are `g`, except that
PC stays until the last one, and that nothing is said of R, WZ and F. -/
structure Along (s : Cpu) (n k : ℕ) (g : Registers) (t : Cpu) : Prop where
  regs : t.regs =
    g.placed (if k < n then s.regs.pc else s.regs.pc + 2) t.regs.r t.regs.wz t.regs.f
  rest : t = { s with
    regs := t.regs, window := t.window, afterEI := k = 0 && s.afterEI, ticks := t.ticks }
  issues : Flat.Issues t.window

namespace Along

variable {n k : ℕ} {g X : Registers} {op : UInt8}

theorem zero (hn : 0 < n) (hw : Flat.Issues s.window) : Along s n 0 s.regs s where
  regs := by rw [if_pos hn]; rfl
  rest := by simp
  issues := hw

/-- The registers when both bytes of the instruction have been fetched. -/
theorem opened_regs (ht : Along s n k g t) (hk : k < n) :
    ∃ r wz, ∀ w, (t.opened w).regs = g.placed (s.regs.pc + 2) r wz t.regs.f := by
  have hregs := ht.regs
  rw [if_pos hk] at hregs
  refine ⟨t.regs.refresh.refresh.r, t.regs.wz, fun w => ?_⟩
  exact congrArg (fun x : Registers => { x.refresh.refresh with pc := x.pc + 2 }) hregs

theorem pc_eq (ht : Along s n k g t) :
    t.regs.pc = if k < n then s.regs.pc else s.regs.pc + 2 := by
  rw [ht.regs]
  rfl

/-- The loop is about to execute its instruction again. -/
theorem ready (ht : Along s n k g t) (hk : k < n) (hs : s.Undisturbed n)
    (hiff : g.iff1 = s.regs.iff1) (hhalted : g.halted = s.regs.halted)
    (hfirst : m.peek s.regs.pc = 0xED) (hsecond : m.peek (s.regs.pc + 1) = op) : t.Ready op m where
  action := by
    refine hs.action_eq hk ?_ ?_ ht.rest
    · rw [ht.regs, ← hiff]
      rfl
    · rw [ht.regs, ← hhalted]
      rfl
  first := by rw [ht.pc_eq, if_pos hk, hfirst]
  second := by rw [ht.pc_eq, if_pos hk, hsecond]
  issues := ht.issues

/-- One iteration: what it does to registers and memory until it ends, it has done when it has
ended. -/
theorem executes (ht : Along s n k g t) (g' : Registers) (hm : Flat.Behind h b m)
    (hready : t.Ready op m)
    (hrun : ∀ w, ((ExtendedInstruction.decode op).execute 0 (t.opened w)).run h b =
      (endBlock (decide (k + 1 < n)) { t.opened w with regs := X }).run h b')
    (hX : X = g'.placed (s.regs.pc + 2) X.r X.wz X.f) :
    Executes h t b (iterationCost n k) fun t' b'' =>
      Along s n (k + 1) g' t' ∧ t'.regs.f = X.f ∧ b'' = b' := by
  obtain ⟨w, hw, hstep⟩ := step_extended hm hready
  rw [hrun w] at hstep
  have hpc : X.pc = s.regs.pc + 2 := congrArg Registers.pc hX
  have hrest : ∀ regs ticks, { t.opened w with regs, ticks } =
      { s with regs, window := w, afterEI := k + 1 = 0 && s.afterEI, ticks } := fun regs ticks => by
    unfold opened
    rw [ht.rest]
    simp
  by_cases hmore : k + 1 < n
  · rw [decide_eq_true hmore] at hstep
    rw [iterationCost, if_pos hmore]
    refine ⟨_, _, hstep, rfl, fun ticks => ⟨⟨?_, hrest _ _, hw⟩, rfl, rfl⟩⟩
    have hback : X.pc - 2 = s.regs.pc := by rw [hpc, UInt16.add_sub_cancel]
    show { X with pc := X.pc - 2, wz := X.pc - 1 } = _
    rw [if_pos hmore, hback]
    exact congrArg (fun x : Registers => { x with pc := s.regs.pc, wz := X.pc - 1 }) hX
  · rw [decide_eq_false hmore] at hstep
    rw [iterationCost, if_neg hmore]
    refine ⟨_, _, hstep, rfl, fun ticks => ⟨⟨?_, hrest _ _, hw⟩, rfl, rfl⟩⟩
    rw [if_neg hmore]
    exact hX

end Along

/-- The loop of a block instruction is executed `n` times, and PC stays until the last time. The
T-states of each iteration are 21, of the last one 16. -/
structure Repeats (n : ℕ) (s : Cpu) (m : Flat) (P : Cpu → Flat → Prop) : Prop where
  before : ∀ k < n, Takes s.ticks (List.replicate k 21) (fun t _ => t.regs.pc = s.regs.pc)
    ((steps k s).run Flat.bus m)
  after : Takes s.ticks (List.replicate (n - 1) 21 ++ [16])
    (fun t m' => t.regs.pc = s.regs.pc + 2 ∧
      t.ticks.count.toNat = s.ticks.count.toNat + (21 * (n - 1) + 16) ∧ P t m')
    ((steps n s).run Flat.bus m)

theorem Repeats.mono {n : ℕ} {P Q : Cpu → Flat → Prop} (hs : Repeats n s m P)
    (hPQ : ∀ t m', P t m' → Q t m') : Repeats n s m Q where
  before := hs.before
  after := hs.after.mono fun t m' _ ⟨hpc, hticks, hP⟩ => ⟨hpc, hticks, hPQ t m' hP⟩

/-- The rule for loops: what holds after `k` iterations, and is kept by the next one, holds at the
end. -/
theorem repeats_of_invariant {n : ℕ} (hn : 0 < n) {I : ℕ → Cpu → Flat → Prop} (hzero : I 0 s m)
    (hpc : ∀ {k t m'}, I k t m' → t.regs.pc = if k < n then s.regs.pc else s.regs.pc + 2)
    (hstep : ∀ k < n, ∀ t m', I k t m' → Executes Flat.bus t m' (iterationCost n k) (I (k + 1))) :
    Repeats n s m (I n) := by
  have htakes := takes_steps (h := Flat.bus) (iterationCost_lt n) hzero hstep
  constructor
  · intro k hk
    have hbefore := htakes k hk.le
    rw [map_iterationCost_of_lt hk] at hbefore
    exact hbefore.mono fun t m' _ hI => by rw [hpc hI, if_pos hk]
  · have hafter := htakes n le_rfl
    rw [map_iterationCost hn] at hafter
    refine hafter.mono fun t m' hticks hI => ⟨by rw [hpc hI, if_neg (lt_irrefl n)], ?_, hI⟩
    rw [hticks, sum_iterationCost]

end Cpu
end TandemZ80
