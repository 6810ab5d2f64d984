import TandemZ80.Proofs.Cpu.Blocks
import TandemZ80.Proofs.Cpu.PrefixRenames

/-!
# Chains of prefixes

Of several index prefixes in a row only the last one counts. Each of the others is a step of its
own, which does nothing but pass it, and leaves nothing behind from which the next step could tell
that there was another prefix.

* `Bus.Chain`, a chain of prefixes in memory, and `Cpu.Passed`, a processor that has passed some of
  them;
* `Cpu.executes_passing`, the step at a prefix that is followed by another one, and
  `Cpu.Passed.succ`;
* `Cpu.prefix_chain`.
-/

namespace TandemZ80

variable {τ κ : Type}

/-- From an address on there are `n` prefixes and then a byte that is none. Reading them has no
effect. -/
structure Bus.Chain (g : Bus τ) (c : τ) (a : UInt16) (n : ℕ) (bytes : ℕ → UInt8) : Prop where
  read : ∀ k ≤ n, g (.read (a + UInt16.ofNat k)) c = .ok (bytes k, c)
  isIndex : ∀ k < n, Opcode.isIndex (bytes k) = true
  last : Opcode.isIndex (bytes n) = false

theorem add_ofNat_succ (a : UInt16) (k : ℕ) :
    a + UInt16.ofNat (k + 1) = a + UInt16.ofNat k + 1 := by
  rw [UInt16.ofNat_add k 1, ← UInt16.add_assoc]
  rfl

open Exec Bus

namespace Cpu

/-- The processor `t` is what `s` has become behind `k` prefixes: PC has passed them, R has counted
them, and EI does not hold interrupts off any more. -/
structure Passed (s : Cpu) (k : ℕ) (t : Cpu) : Prop where
  regs : t.regs = { s.regs with
    pc := s.regs.pc + UInt16.ofNat k,
    r := s.regs.r &&& 0x80 ||| (s.regs.r + UInt8.ofNat k) &&& 0x7F }
  rest : t = { s with
    regs := t.regs, window := t.window, afterEI := k = 0 && s.afterEI, ticks := t.ticks }

namespace Passed

variable {s t t' : Cpu} {k n : ℕ}

theorem zero (s : Cpu) : Passed s 0 s where
  regs := by
    have hpc : s.regs.pc + UInt16.ofNat 0 = s.regs.pc := UInt16.add_zero _
    have hr : s.regs.r &&& 0x80 ||| (s.regs.r + UInt8.ofNat 0) &&& 0x7F = s.regs.r :=
      Registers.fetched_zero _
    rw [hpc, hr]
  rest := by simp

theorem pc_eq (ht : Passed s k t) : t.regs.pc = s.regs.pc + UInt16.ofNat k := by
  rw [ht.regs]

theorem action_eq (ht : Passed s k t) (hs : s.Undisturbed n) (hk : k < n) :
    t.action = .execute := by
  refine hs.action_eq hk ?_ ?_ ht.rest
  · rw [ht.regs]
  · rw [ht.regs]

/-- One prefix more. -/
theorem succ (ht : Passed s k t) (hregs : t'.regs = { t.regs.refresh with pc := t.regs.pc + 1 })
    (hrest : t' = { t with
      regs := t'.regs, window := t'.window, afterEI := false, ticks := t'.ticks }) :
    Passed s (k + 1) t' where
  regs := by
    have hr : Registers.fetched 1 (Registers.fetched k s.regs.r) =
        Registers.fetched (k + 1) s.regs.r :=
      Registers.fetched_fetched 1 k _
    rw [hregs, ht.pc_eq, ← add_ofNat_succ, ht.regs]
    exact congrArg (fun r => { s.regs with pc := s.regs.pc + UInt16.ofNat (k + 1), r }) hr
  rest := by
    rw [hrest, ht.rest]
    simp

end Passed

section Chain

variable {g : Bus τ} {outside : κ → τ → τ} {c₀ c : τ} {s t : Cpu} {n k : ℕ} {bytes : ℕ → UInt8}

/-- The step at a prefix that is followed by another one. -/
theorem executes_passing (hsound : SoundWindows g outside c₀) (hc : Later g outside c₀ c)
    (hw : ∀ v, t.window = some v → Issued g outside c₀ v c) (haction : t.action = .execute)
    {p q : UInt8} (hp : Opcode.isIndex p = true) (hq : Opcode.isIndex q = true)
    (hfirst : g (.read t.regs.pc) c = .ok (p, c))
    (hnext : g (.read (t.regs.pc + 1)) c = .ok (q, c)) :
    Executes g t c 4 fun t' c' => c' = c ∧ (∀ v, t'.window = some v → Issued g outside c₀ v c) ∧
      t'.regs = { t.regs.refresh with pc := t.regs.pc + 1 } ∧
      t' = { t with
        regs := t'.regs, window := t'.window, afterEI := false, ticks := t'.ticks } := by
  obtain ⟨y, hy⟩ := Opcode.exists_decode_index hp
  obtain ⟨w₁, hw₁, hfetch⟩ :=
    fetchOpcode_comesTo hsound hc (s := { t with afterEI := false }) hw hfirst 0
  obtain ⟨w₂, hw₂, hpeek⟩ := fetch_comesTo hsound hc hw₁ hnext 0
  rw [delay_zero] at hfetch hpeek
  let u : Cpu := { Cpu.fetchedOpcode { t with afterEI := false } w₁ with window := w₂ }
  have hbody : (perform t.action { t with afterEI := false }).run g c = .ok ((some 4, u), c) := by
    rw [haction]
    refine (hfetch (instruction 0)).run.trans ?_
    rw [instruction_of_index hy, peekOpcode_bind]
    refine (hpeek _).run.trans ?_
    dsimp only
    rw [if_pos hq]
    rfl
  refine ⟨u, c, ?_, rfl, fun ticks => ⟨rfl, hw₂, rfl, rfl⟩⟩
  unfold step
  rw [Dialogue.run_bind, hbody]
  rfl

/-- The last prefix and the opcode behind it are executed in one step. -/
theorem step_prefixed (hsound : SoundWindows g outside c₀) (hc : Later g outside c₀ c)
    (hw : ∀ v, t.window = some v → Issued g outside c₀ v c) (haction : t.action = .execute)
    {p q : UInt8} {y : Index} (hp : Opcode.decode p = .index y) (hq : Opcode.isIndex q = false)
    (hfirst : g (.read t.regs.pc) c = .ok (p, c))
    (hnext : g (.read (t.regs.pc + 1)) c = .ok (q, c)) :
    ∃ w, ComesTo g c t.step (((Opcode.decode q).execute y 4 >>= fun rest => pure (4 + rest))
      ((Cpu.fetchedOpcode { t with afterEI := false } none).fetchedOpcode w) >>= finish t) := by
  obtain ⟨w, -, hbody⟩ :=
    prefixed_comesTo hsound hc (s := { t with afterEI := false }) hw hp hfirst hnext hq 0
  refine ⟨w, ?_⟩
  unfold step
  rw [haction]
  exact hbody.bind (finish t)

/-- Of a chain of prefixes only the last one counts. Let the windows of a bus show what reading
gives, and let a processor be about to execute `n` prefixes and a byte that is none, which are read
without effect, while no interrupt is accepted. Then each of the first `n - 1` steps takes 4
T-states and passes one prefix, and nothing else changes but R, the count of T-states and the
hold-off after EI. The next step is the one that the same processor makes without the window that it
may have come by on the way: it executes what follows on the register that the last prefix names. -/
theorem prefix_chain (hsound : SoundWindows g outside c₀) (hc : Later g outside c₀ c) (s : Cpu)
    (hw : ∀ v, s.window = some v → Issued g outside c₀ v c) (hn : 1 ≤ n)
    (hchain : Chain g c s.regs.pc n bytes) (hs : s.Undisturbed n) :
    (∀ k < n, Takes s.ticks (List.replicate k 4) (fun t c' => c' = c ∧ Passed s k t)
      ((steps k s).run g c)) ∧
    ∃ y, Opcode.decode (bytes (n - 1)) = .index y ∧
      Takes s.ticks (List.replicate (n - 1) 4) (fun t c' =>
        ShowsSame g c' t.step (step { t with window := s.window }) ∧
        ∃ w, ComesTo g c' t.step
          (((Opcode.decode (bytes n)).execute y 4 >>= fun rest => pure (4 + rest))
            ((Cpu.fetchedOpcode { t with afterEI := false } none).fetchedOpcode w) >>= finish t))
        ((steps (n - 1) s).run g c) := by
  have hcost : 4 < UInt32.size := by decide
  have hcosts : ∀ k, (List.range k).map (fun _ : ℕ => 4) = List.replicate k 4 := fun k => by
    rw [List.map_const', List.length_range]
  -- The invariant keeps an eye on the window too, which may be another one behind each prefix.
  let I : ℕ → Cpu → τ → Prop := fun k t c' =>
    c' = c ∧ Passed s k t ∧ ∀ v, t.window = some v → Issued g outside c₀ v c
  have hread : ∀ k < n, ∀ t, Passed s k t → g (.read t.regs.pc) c = .ok (bytes k, c) ∧
      g (.read (t.regs.pc + 1)) c = .ok (bytes (k + 1), c) := by
    intro k hk t ht
    rw [ht.pc_eq, ← add_ofNat_succ]
    exact ⟨hchain.read k hk.le, hchain.read (k + 1) hk⟩
  have hstep : ∀ k < n - 1, ∀ t c', I k t c' → Executes g t c' 4 (I (k + 1)) := by
    rintro k hk t c' ⟨rfl, ht, hissued⟩
    obtain ⟨hfirst, hnext⟩ := hread k (by omega) t ht
    refine (executes_passing hsound hc hissued (ht.action_eq hs (by omega))
      (hchain.isIndex k (by omega)) (hchain.isIndex (k + 1) (by omega)) hfirst hnext).mono
      fun t' c'' ht' => ?_
    obtain ⟨rfl, hissued', hregs, hrest⟩ := ht'
    exact ⟨rfl, ht.succ hregs hrest, hissued'⟩
  have htakes := takes_steps (fun _ => hcost) (⟨rfl, .zero s, hw⟩ : I 0 s c) hstep
  simp only [hcosts] at htakes
  refine ⟨fun k hk => (htakes k (by omega)).mono fun t c' _ ht => ⟨ht.1, ht.2.1⟩, ?_⟩
  obtain ⟨y, hy⟩ := Opcode.exists_decode_index (hchain.isIndex (n - 1) (by omega))
  refine ⟨y, hy, (htakes (n - 1) le_rfl).mono fun t c' _ ht => ?_⟩
  obtain ⟨rfl, ht, hissued⟩ := ht
  obtain ⟨hfirst, hnext⟩ := hread (n - 1) (by omega) t ht
  rw [Nat.sub_add_cancel hn] at hnext
  exact ⟨step_showsSame (s := t) hsound hc hissued hw,
    step_prefixed hsound hc hissued (ht.action_eq hs (by omega)) hy hchain.last hfirst hnext⟩

end Chain

/-- `DD FD DD INC HL` comes to two prefixes of 4 T-states each, and then to `DD INC HL`. -/
theorem prefix_chain_three :
    ∃ t, (steps 2 initial).run (Bus.rom [0xDD, 0xFD, 0xDD, 0x23]) [] = .ok (([4, 4], t), []) ∧
      Passed initial 2 t ∧
      ShowsSame (Bus.rom [0xDD, 0xFD, 0xDD, 0x23]) [] t.step (step { t with window := none }) := by
  have hsound := rom_soundWindows [0xDD, 0xFD, 0xDD, 0x23] (fun (_ : Unit) out => out) []
  have hchain : Chain (Bus.rom [0xDD, 0xFD, 0xDD, 0x23]) [] initial.regs.pc 3
      fun k => [0xDD, 0xFD, 0xDD, 0x23].getD k 0 := by
    refine ⟨fun k hk => ?_, fun k hk => ?_, rfl⟩
    · interval_cases k <;> rfl
    · interval_cases k <;> rfl
  obtain ⟨hpassed, y, -, hlast⟩ := prefix_chain hsound .refl initial nofun (by decide) hchain
    ⟨by decide, fun _ => by decide⟩
  have hrun : ∃ t, (steps 2 initial).run (Bus.rom [0xDD, 0xFD, 0xDD, 0x23]) [] =
      .ok (([4, 4], t), []) :=
    ⟨_, rfl⟩
  obtain ⟨t, ht⟩ := hrun
  have hbehind := hpassed 2 (by decide)
  rw [ht] at hbehind hlast
  exact ⟨t, ht, hbehind.2.2.2, hlast.2.2.1⟩

end Cpu
end TandemZ80
