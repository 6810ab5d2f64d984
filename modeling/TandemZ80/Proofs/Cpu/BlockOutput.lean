import TandemZ80.Proofs.Cpu.Blocks

/-!
# OTIR and OTDR

A block output sends one byte in each iteration, from HL to port BC, where B is counted down before
the port is addressed. A partner may refuse the port, in any iteration and more than once. Such a
step leaves nothing behind, so that the iteration is made again from its beginning: no byte is lost,
and none is sent twice.

* `Flat.sharing`, flat memory on a bus with shared ports, and `Flat.refuses`, when a port is
  refused;
* `outputLength`, the length of a block, `Flat.sent`, what is sent of it, and `Registers.sent`, the
  registers after so many bytes;
* `Cpu.Lasts`, steps in a row before whose end PC stays, with `Cpu.Lasts.append`;
* `Cpu.Along.refused`, a step that is refused, `Cpu.lasts_sent`, an iteration with the refusals
  before it, and `Cpu.blockOutput_sends`.
-/

namespace TandemZ80

variable {σ : Type}

/-! ### Shared ports -/

namespace Flat

/-- Flat memory on a bus with shared ports. The requests for these are answered by `granted`, one
after another; the state counts them. -/
def sharing (shared : UInt16 → Bool) (granted : ℕ → Bool) : Bus (ℕ × Flat)
  | .isShared p, (j, m) => .ok (shared p, (j, m))
  | .sync _, (j, m) => .ok (granted j, (j + 1, m))
  | q, (j, m) => (fun r => (r.1, (j, r.2))) <$> bus q m

/-- Whether a port is refused after `j` requests. -/
def refuses (shared : UInt16 → Bool) (granted : ℕ → Bool) (p : UInt16) (j : ℕ) : Bool :=
  shared p && !granted j

variable (shared : UInt16 → Bool) (granted : ℕ → Bool)

theorem sharing_behind (j : ℕ) (m : Flat) : m.Behind (sharing shared granted) (j, m) :=
  ⟨fun _ => rfl, fun _ => rfl, fun _ _ => rfl⟩

variable {granted} in
/-- If only finitely many requests are refused, a port is free after some refusals. -/
theorem exists_refuses (hfinite : {j | granted j = false}.Finite) (p : UInt16) (j : ℕ) :
    ∃ z, (∀ i < z, refuses shared granted p (j + i) = true) ∧
      refuses shared granted p (j + z) = false := by
  have hfree : ∃ z, refuses shared granted p (j + z) = false := by
    obtain ⟨last, hlast⟩ := hfinite.bddAbove
    have hgranted : granted (j + (last + 1)) = true := by
      by_contra hrefused
      have hle : j + (last + 1) ≤ last := hlast (Bool.eq_false_iff.2 hrefused)
      omega
    refine ⟨last + 1, ?_⟩
    rw [refuses, hgranted, Bool.not_true, Bool.and_false]
  refine ⟨Nat.find hfree, fun i hi => ?_, Nat.find_spec hfree⟩
  exact Bool.eq_true_of_not_eq_false (Nat.find_min hfree hi)

end Flat

open Exec

/-- A request for a port, with the number of requests then. -/
theorem Exec.run_rendezvous {shared : UInt16 → Bool} {granted : ℕ → Bool} {elapsed : ℕ}
    (he : elapsed < UInt32.size) (p : UInt16) (u : Cpu) (j : ℕ) (m : Flat) :
    (rendezvous elapsed p u).run (Flat.sharing shared granted) (j, m) =
      .ok ((if Flat.refuses shared granted p j then none else some (), u),
        (if shared p then j + 1 else j, m)) := by
  have hshared : Flat.sharing shared granted (.isShared p) (j, m) = .ok (shared p, (j, m)) := rfl
  rw [rendezvous_eq, if_pos he, Dialogue.run_ask, hshared, Flat.refuses]
  cases hp : shared p with
  | false => rfl
  | true =>
    show Except.ok _ = _
    cases hgranted : granted j with
    | false => simp
    | true => simp

/-! ### Blocks -/

/-- The second byte of OTIR and OTDR. -/
def Walk.outputOpcode : Walk → UInt8
  | .up => 0xB3
  | .down => 0xBB

theorem Walk.decode_outputOpcode (walk : Walk) :
    ExtendedInstruction.decode walk.outputOpcode = .block .output walk true := by
  cases walk <;> rfl

/-- The length of the block that B counts. -/
def outputLength (b : UInt8) : ℕ := if b = 0 then 256 else b.toNat

theorem outputLength_eq (b : UInt8) : outputLength b = rounds 256 b.toNat := by
  have hzero : b = 0 ↔ b.toNat = 0 := UInt8.toNat_inj.symm
  simp only [outputLength, rounds, hzero]

theorem outputLength_pos (b : UInt8) : 0 < outputLength b := by
  rw [outputLength_eq]
  exact rounds_pos (by decide) _

/-- B shows whether there is more of the block. -/
theorem countdown_eq_zero_iff {b : UInt8} {k : ℕ} (hpos : 0 < k) (hk : k ≤ outputLength b) :
    b - UInt8.ofNat k = 0 ↔ k = outputLength b := by
  rw [outputLength_eq] at hk ⊢
  rw [UInt8.sub_eq_iff_eq_add, UInt8.zero_add, ← UInt8.toNat_inj, UInt8.toNat_ofNat']
  exact eq_mod_iff_rounds b.toNat_lt hpos hk

theorem countdown_succ (b : UInt8) (k : ℕ) : b - UInt8.ofNat (k + 1) = b - UInt8.ofNat k - 1 := by
  rw [UInt8.ofNat_add k 1]
  grind

/-- The test by which a block output goes on. -/
theorem countdown_goesOn {b : UInt8} {k : ℕ} (hk : k < outputLength b) :
    (b - UInt8.ofNat (k + 1) != 0) = decide (k + 1 < outputLength b) :=
  bne_eq_decide_lt hk (countdown_eq_zero_iff (Nat.succ_pos k) hk)

/-- Output `k` of a block, with its port. B has been counted down for the port already. -/
def Flat.output (m : Flat) (walk : Walk) (r : Registers) (k : ℕ) : UInt16 × UInt8 :=
  (word (r.main.b - 1 - UInt8.ofNat k) r.main.c, m.peek (walk.nth r.hl k))

/-- The flat bus when `k` bytes of a block have been sent. -/
def Flat.sent (m : Flat) (walk : Walk) (r : Registers) (k : ℕ) : Flat :=
  { m with outputs := m.outputs ++ ((List.range k).map (m.output walk r)).toArray }

theorem Flat.sent_zero (m : Flat) (walk : Walk) (r : Registers) : m.sent walk r 0 = m := by
  simp [sent]

theorem Flat.sent_succ (m : Flat) (walk : Walk) (r : Registers) (k : ℕ) :
    m.sent walk r (k + 1) =
      { m.sent walk r k with outputs := (m.sent walk r k).outputs.push (m.output walk r k) } := by
  simp [sent, List.range_succ]

namespace Registers

/-- The registers when `k` bytes have been sent, but for PC, R, WZ and F. -/
def sent (r : Registers) (walk : Walk) (k : ℕ) : Registers :=
  { r with main := { r.main with
      b := r.main.b - UInt8.ofNat k, h := high (walk.nth r.hl k), l := low (walk.nth r.hl k) } }

/-- What an iteration does to registers when it has sent `v`. -/
def sentByte (r : Registers) (walk : Walk) (v : UInt8) : Registers :=
  let r := transferred walk (word (r.main.b - 1) r.main.c) r
  r.blockPortFlags v (v.toNat + r.main.l.toNat)

variable (r : Registers) (walk : Walk) (k : ℕ)

theorem sent_hl : (r.sent walk k).hl = walk.nth r.hl k := word_high_low _

theorem sent_zero : r.sent walk 0 = r := by
  simp [sent, hl]

/-- One byte more has been sent. -/
theorem sentByte_placed (pc : UInt16) (q : UInt8) (wz : UInt16) (f : Flags.Lazy) (v : UInt8)
    {X : Registers} (hX : X = ((r.sent walk k).placed pc q wz f).sentByte walk v) :
    X = (r.sent walk (k + 1)).placed pc X.r X.wz X.f := by
  have hhl : walk.next ((r.sent walk k).placed pc q wz f).hl = walk.nth r.hl (k + 1) := by
    rw [Walk.nth_succ]
    exact congrArg walk.next (r.sent_hl walk k)
  have hb : ((r.sent walk k).placed pc q wz f).main.b - 1 = r.main.b - UInt8.ofNat (k + 1) :=
    (countdown_succ r.main.b k).symm
  have hmain : X.main = (r.sent walk (k + 1)).main := by
    rw [hX]
    show { r.main with
      b := ((r.sent walk k).placed pc q wz f).main.b - 1
      h := high (walk.next ((r.sent walk k).placed pc q wz f).hl)
      l := low (walk.next ((r.sent walk k).placed pc q wz f).hl) } = _
    rw [hhl, hb]
    rfl
  have hrest : X = { r with main := X.main, pc, r := X.r, wz := X.wz, f := X.f } := by
    rw [hX]
    rfl
  rw [hmain] at hrest
  exact hrest

end Registers

namespace Cpu

variable {s t : Cpu} {h : Bus σ} {b : σ} {costs costs' : List ℕ} {P Q : Cpu → σ → Prop}

/-! ### Steps before whose end PC stays -/

/-- Steps that take the T-states `costs`. PC stays where it is until all of them have been made, and
`P` holds then. -/
structure Lasts (h : Bus σ) (s : Cpu) (b : σ) (costs : List ℕ) (P : Cpu → σ → Prop) : Prop where
  before : ∀ k < costs.length, Takes s.ticks (costs.take k) (fun t _ => t.regs.pc = s.regs.pc)
    ((steps k s).run h b)
  after : Takes s.ticks costs P ((steps costs.length s).run h b)

theorem Lasts.nil (hP : P s b) : Lasts h s b [] P where
  before _ hk := absurd hk (Nat.not_lt_zero _)
  after := ⟨rfl, rfl, hP⟩

theorem Lasts.single {cost : ℕ} (hs : Takes s.ticks [cost] P ((steps 1 s).run h b)) :
    Lasts h s b [cost] P where
  before k hk := by
    obtain rfl : k = 0 := Nat.lt_one_iff.1 hk
    exact ⟨rfl, rfl, rfl⟩
  after := hs

theorem Lasts.mono (hs : Lasts h s b costs P) (hPQ : ∀ t b', P t b' → Q t b') :
    Lasts h s b costs Q where
  before := hs.before
  after := hs.after.mono fun t b' _ hP => hPQ t b' hP

/-- Steps, and then more of them, while PC stays. -/
theorem Lasts.append (hs : Lasts h s b costs P) (hpc : ∀ t b', P t b' → t.regs.pc = s.regs.pc)
    (ht : ∀ t b', P t b' → Lasts h t b' costs' Q) : Lasts h s b (costs ++ costs') Q where
  before k hk := by
    by_cases hfirst : k < costs.length
    · rw [List.take_append_of_le_length hfirst.le]
      exact hs.before k hfirst
    · obtain ⟨i, rfl⟩ := Nat.exists_eq_add_of_le (Nat.not_lt.1 hfirst)
      rw [List.length_append, Nat.add_lt_add_iff_left] at hk
      rw [List.take_length_add_append]
      refine takes_append hs.after fun t b' hP =>
        ((ht t b' hP).before i hk).mono fun u b'' _ hu => ?_
      rw [hu, hpc t b' hP]
  after := by
    rw [List.length_append]
    exact takes_append hs.after fun t b' hP => (ht t b' hP).after

/-! ### Iterations -/

/-- A refused step leaves the loop where it is. -/
theorem Along.refused {n k : ℕ} {g : Registers} {op : UInt8} {m : Flat} (ht : Along s n k g t)
    (b' : σ) (hm : m.Behind h b) (hready : t.Ready op m)
    (hrun : ∀ w, ((ExtendedInstruction.decode op).execute 0 (t.opened w)).run h b =
      .ok ((none, t.opened w), b')) :
    Takes t.ticks [0] (fun t' b'' => Along s n k g t' ∧ b'' = b') ((steps 1 t).run h b) := by
  obtain ⟨w, hw, hstep⟩ := step_extended hm hready
  have hback : retract t (t.opened w) = { t with window := w } := rfl
  have hsame : t.step.run h b = .ok ((0, { t with window := w }), b') := by
    rw [hstep, hrun w, ← hback]
    rfl
  rw [run_steps_one, hsame]
  refine ⟨rfl, rfl, ⟨ht.regs, ?_, hw⟩, rfl⟩
  exact congrArg (fun u : Cpu => { u with window := w }) ht.rest

section Iteration

variable {shared : UInt16 → Bool} {granted : ℕ → Bool} {walk : Walk} {m : Flat} {n k j : ℕ}

/-- An iteration asks for its port before it touches anything. -/
theorem run_blockOutput (walk : Walk) (u : Cpu) (j : ℕ) (m : Flat) {p : UInt16}
    (hp : p = word (u.regs.main.b - 1) u.regs.main.c) :
    (blockOutput walk true 0 u).run (Flat.sharing shared granted) (j, m) =
      if Flat.refuses shared granted p j then .ok ((none, u), (if shared p then j + 1 else j, m))
      else (endBlock (u.regs.main.b - 1 != 0)
          { u with regs := u.regs.sentByte walk (m.peek u.regs.hl) }).run
            (Flat.sharing shared granted)
        (if shared p then j + 1 else j,
          { m with outputs := m.outputs.push (p, m.peek u.regs.hl) }) := by
  have hasks : (rendezvous (0 + 12) p u).run (Flat.sharing shared granted) (j, m) = _ :=
    run_rendezvous (by decide) p u j m
  subst hp
  show ((rendezvous (0 + 12) _ >>= _) u).run _ _ = _
  rw [bind_apply, Dialogue.run_bind, hasks]
  cases Flat.refuses shared granted (word (u.regs.main.b - 1) u.regs.main.c) j with
  | false => rfl
  | true => rfl

/-- One iteration, up to its end: it is refused with nothing done, or one more byte is sent. -/
theorem run_blockOutput_sent (hn : n = outputLength s.regs.main.b) (hk : k < n) {u : Cpu}
    {pc wz : UInt16} {q : UInt8} {f : Flags.Lazy}
    (hu : u.regs = (s.regs.sent walk k).placed pc q wz f) :
    (blockOutput walk true 0 u).run (Flat.sharing shared granted) (j, m.sent walk s.regs k) =
      if Flat.refuses shared granted (m.output walk s.regs k).1 j then
        .ok ((none, u),
          (if shared (m.output walk s.regs k).1 then j + 1 else j, m.sent walk s.regs k))
      else (endBlock (decide (k + 1 < n)) { u with
          regs := ((s.regs.sent walk k).placed pc q wz f).sentByte walk
            (m.output walk s.regs k).2 }).run (Flat.sharing shared granted)
        (if shared (m.output walk s.regs k).1 then j + 1 else j, m.sent walk s.regs (k + 1)) := by
  have hb : u.regs.main.b - 1 = s.regs.main.b - UInt8.ofNat (k + 1) := by
    rw [hu, countdown_succ]
    rfl
  have hport : (m.output walk s.regs k).1 = word (u.regs.main.b - 1) u.regs.main.c := by
    have hafter : s.regs.main.b - 1 - UInt8.ofNat k = s.regs.main.b - UInt8.ofNat (k + 1) := by
      rw [countdown_succ]
      grind
    rw [hb, hu, ← hafter]
    rfl
  have hvalue : (m.sent walk s.regs k).peek u.regs.hl = (m.output walk s.regs k).2 := by
    have hhl : u.regs.hl = walk.nth s.regs.hl k := by rw [hu]; exact s.regs.sent_hl walk k
    rw [hhl]
    rfl
  have hgoesOn : (s.regs.main.b - UInt8.ofNat (k + 1) != 0) = decide (k + 1 < n) := by
    rw [hn] at hk ⊢
    exact countdown_goesOn hk
  rw [run_blockOutput walk u j _ hport, hvalue, hb, hgoesOn, ← hu, Flat.sent_succ]

/-- The request for the port of an iteration is granted after some refusals, and then one more byte
has been sent. -/
theorem lasts_sent (hn : n = outputLength s.regs.main.b) (hs : s.Undisturbed n)
    (hfirst : m.peek s.regs.pc = 0xED) (hsecond : m.peek (s.regs.pc + 1) = walk.outputOpcode)
    (hk : k < n) {z : ℕ}
    (hrefused : ∀ i < z, Flat.refuses shared granted (m.output walk s.regs k).1 (j + i) = true)
    (hfree : Flat.refuses shared granted (m.output walk s.regs k).1 (j + z) = false) :
    ∃ j', ∀ t, Along s n k (s.regs.sent walk k) t →
      Lasts (Flat.sharing shared granted) t (j, m.sent walk s.regs k)
        (List.replicate z 0 ++ [iterationCost n k]) fun t' b' =>
          Along s n (k + 1) (s.regs.sent walk (k + 1)) t' ∧
          b' = (j', m.sent walk s.regs (k + 1)) := by
  have hbehind := fun j => Flat.sharing_behind shared granted j (m.sent walk s.regs k)
  have hready : ∀ t, Along s n k (s.regs.sent walk k) t →
      t.Ready walk.outputOpcode (m.sent walk s.regs k) :=
    fun t ht => ht.ready hk hs rfl rfl hfirst hsecond
  -- The refusals come first. Each of them leaves the loop where it is, with one request less to
  -- refuse.
  induction z generalizing j with
  | zero =>
    refine ⟨if shared (m.output walk s.regs k).1 then j + 1 else j, fun t ht => .single ?_⟩
    obtain ⟨q, wz, hregs⟩ := ht.opened_regs hk
    refine Executes.takes ?_ (iterationCost_lt n k)
    refine (ht.executes (s.regs.sent walk (k + 1)) (hbehind j) (hready t ht) (fun w => ?_)
      (s.regs.sentByte_placed walk k (s.regs.pc + 2) q wz t.regs.f (m.output walk s.regs k).2
        rfl)).mono
      fun t' b' ht' => ⟨ht'.1, ht'.2.2⟩
    rw [Walk.decode_outputOpcode]
    exact (run_blockOutput_sent hn hk (hregs w)).trans
      (if_neg (by rw [← Nat.add_zero j, hfree]; decide))
  | succ z ih =>
    have hnow := hrefused 0 (Nat.succ_pos z)
    have hshared : shared (m.output walk s.regs k).1 = true := (Bool.and_eq_true_iff.1 hnow).1
    have hlater : ∀ i, j + 1 + i = j + (i + 1) := fun i => by omega
    obtain ⟨j', hrest⟩ :=
      ih (j := j + 1) (fun i hi => by rw [hlater]; exact hrefused (i + 1) (by omega))
      (by rw [hlater]; exact hfree)
    refine ⟨j', fun t ht => ?_⟩
    obtain ⟨q, wz, hregs⟩ := ht.opened_regs hk
    have hstep := ht.refused (j + 1, m.sent walk s.regs k) (hbehind j) (hready t ht) fun w => by
      rw [Walk.decode_outputOpcode]
      refine (run_blockOutput_sent hn hk (hregs w)).trans ((if_pos hnow).trans ?_)
      rw [if_pos hshared]
    refine (Lasts.single hstep).append (fun t' b' ht' => ?_) fun t' b' ht' => ?_
    · rw [ht'.1.pc_eq, ht.pc_eq]
    · rw [ht'.2]
      exact hrest t' ht'.1

variable (shared) (j) in
/-- The run: so many iterations, each of them with the refusals before it. -/
theorem lasts_sent_all (hn : n = outputLength s.regs.main.b) (hs : s.Undisturbed n)
    (hw : Flat.Issues s.window) (hfirst : m.peek s.regs.pc = 0xED)
    (hsecond : m.peek (s.regs.pc + 1) = walk.outputOpcode)
    (hfinite : {i | granted i = false}.Finite) (hk : k ≤ n) :
    ∃ costs j', costs.filter (· ≠ 0) = (List.range k).map (iterationCost n) ∧
      Lasts (Flat.sharing shared granted) s (j, m) costs fun t b =>
        Along s n k (s.regs.sent walk k) t ∧ b = (j', m.sent walk s.regs k) := by
  induction k with
  | zero =>
    refine ⟨[], j, rfl, .nil ⟨?_, ?_⟩⟩
    · rw [s.regs.sent_zero]
      exact .zero (hn ▸ outputLength_pos _) hw
    · rw [m.sent_zero]
  | succ k ih =>
    obtain ⟨costs, j₁, hcosts, hbefore⟩ := ih (Nat.le_of_succ_le hk)
    obtain ⟨z, hrefused, hfree⟩ :=
      Flat.exists_refuses shared hfinite (m.output walk s.regs k).1 j₁
    obtain ⟨j₂, hnext⟩ := lasts_sent hn hs hfirst hsecond hk hrefused hfree
    refine ⟨costs ++ (List.replicate z 0 ++ [iterationCost n k]), j₂, ?_, ?_⟩
    · have hcost : iterationCost n k ≠ 0 := by
        unfold iterationCost
        split <;> decide
      have hnone : (List.replicate z 0).filter (fun c : ℕ => decide (c ≠ 0)) = [] := by
        rw [List.filter_replicate_of_neg (by decide)]
      rw [List.filter_append, List.filter_append, hcosts, hnone, List.filter_singleton,
        decide_eq_true hcost, List.range_succ, List.map_append]
      rfl
    · refine hbefore.append (fun t b ht => ?_) fun t b ht => ?_
      · rw [ht.1.pc_eq, if_pos (Nat.lt_of_succ_le hk)]
      · rw [ht.2]
        exact hnext t ht.1

end Iteration

/-- OTIR and OTDR lose nothing under refusals, and send nothing twice. In flat memory, whatever
window of it the processor has, let any ports be shared, and let requests for these be refused in
any pattern, but finitely often. If no interrupt is accepted on the way, PC stays at the instruction
for so many steps, whose costs are zero where a request is refused, and sum up to those of an
undisturbed block. Then each byte of the block has been sent once, in order, to a port that counts
down with B. HL has moved on, B is zero, and the rest of the processor is as before, but for R, F
and the address latch; so is memory. -/
theorem blockOutput_sends (walk : Walk) (s : Cpu) (m : Flat) {n : ℕ}
    (hn : n = outputLength s.regs.main.b) (hs : s.Undisturbed n) (hw : Flat.Issues s.window)
    (hfirst : m.peek s.regs.pc = 0xED) (hsecond : m.peek (s.regs.pc + 1) = walk.outputOpcode)
    (shared : UInt16 → Bool) (granted : ℕ → Bool) (hfinite : {i | granted i = false}.Finite)
    (j : ℕ) :
    ∃ costs, costs.filter (· ≠ 0) = List.replicate (n - 1) 21 ++ [16] ∧
      (costs.filter (· ≠ 0)).sum = 21 * (n - 1) + 16 ∧
      Lasts (Flat.sharing shared granted) s (j, m) costs fun t b =>
        b.2 = { m with outputs := m.outputs ++ ((List.range n).map fun k =>
          (word (s.regs.main.b - 1 - UInt8.ofNat k) s.regs.main.c,
            m.peek (walk.nth s.regs.hl k))).toArray } ∧
        t.regs = { s.regs.setHL (walk.nth s.regs.hl n) with
          main.b := 0, pc := s.regs.pc + 2, r := t.regs.r, wz := t.regs.wz, f := t.regs.f } ∧
        t = { s with regs := t.regs, window := t.window, afterEI := false, ticks := t.ticks } := by
  have hpos : 0 < n := hn ▸ outputLength_pos _
  obtain ⟨costs, j', hcosts, hlasts⟩ :=
    lasts_sent_all shared j hn hs hw hfirst hsecond hfinite le_rfl
  rw [map_iterationCost hpos] at hcosts
  refine ⟨costs, hcosts, hcosts ▸ sum_iterationCost n, hlasts.mono fun t b ⟨ht, hb⟩ => ⟨?_, ?_, ?_⟩⟩
  · rw [hb]
    rfl
  · have hzero : s.regs.main.b - UInt8.ofNat n = 0 := (countdown_eq_zero_iff hpos hn.le).2 hn
    have hregs := ht.regs
    rw [if_neg (lt_irrefl n), Registers.sent, hzero] at hregs
    exact hregs
  · have hrest := ht.rest
    rw [decide_eq_false hpos.ne', Bool.false_and] at hrest
    exact hrest

/-- OTIR at 0, and two bytes from 10 on. -/
def sendProgram : Flat := (Flat.empty.load 0 [0xED, 0xB3]).load 0x10 [5, 6]

/-- A processor about to send two bytes from 10 on. -/
def sendingBlock : Cpu :=
  { initial with regs := { initial.regs.setHL 0x10 with main.b := 2, main.c := 7 } }

/-- Both bytes are sent, though the first request is refused for each of them. -/
theorem blockOutput_sends_refused : ∃ costs, costs.filter (· ≠ 0) = [21, 16] ∧
    Lasts (Flat.sharing (fun _ => true) fun i => i != 0 && i != 2) sendingBlock (0, sendProgram)
      costs fun t b => b.2.outputs = #[(0x0107, 5), (0x0007, 6)] ∧ t.regs.main.b = 0 := by
  have hbytes : ∀ a, sendProgram.peek a =
      if 0x11 = a then 6 else if 0x10 = a then 5 else if 1 = a then 0xB3 else if 0 = a then 0xED
      else Flat.empty.peek a := by
    intro a
    simp only [sendProgram, Flat.load, Flat.peek_poke]
    rfl
  have hfinite : {i : ℕ | (i != 0 && i != 2) = false}.Finite := by
    refine (Set.finite_le_nat 2).subset fun i hi => ?_
    by_contra hlarge
    have hlt : ¬i ≤ 2 := hlarge
    have hne : i ≠ 0 ∧ i ≠ 2 := by omega
    simp [hne.1, hne.2] at hi
  have hissues : Flat.Issues sendingBlock.window := nofun
  obtain ⟨costs, hcosts, -, hlasts⟩ := blockOutput_sends .up sendingBlock sendProgram (n := 2) rfl
    ⟨by decide, fun _ => by decide⟩ hissues (hbytes 0) (hbytes 1) (fun _ => true) _ hfinite 0
  refine ⟨costs, hcosts, hlasts.mono fun t b ⟨hb, hregs, _⟩ => ⟨?_, ?_⟩⟩
  · have hfive : sendProgram.peek (Walk.up.nth sendingBlock.regs.hl 0) = 5 := hbytes 0x10
    have hsix : sendProgram.peek (Walk.up.nth sendingBlock.regs.hl 1) = 6 := hbytes 0x11
    rw [hb]
    simp only [List.range_succ, List.range_zero, List.map_append, List.map_cons, List.map_nil,
      hfive, hsix]
    rfl
  · rw [hregs]

end Cpu
end TandemZ80
