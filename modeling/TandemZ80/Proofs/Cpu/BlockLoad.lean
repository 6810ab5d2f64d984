import TandemZ80.Proofs.Cpu.Blocks

/-!
# LDIR and LDDR

A block load copies one byte in each iteration, from HL to DE, and moves both pairs on. Source and
destination may overlap: a byte is read only after the bytes before it have been copied, so that a
block that is copied over itself repeats.

* `Flat.copy`, bytes copied one after another, and what it leaves alone;
* `Registers.peek_blockLoadFlags`, the flags of one iteration;
* `Cpu.Copied`, the invariant, with `Cpu.copied_step`, and `Cpu.blockLoad_copies`.
-/

namespace TandemZ80

open Flags (bitIf)

/-! ### Copies -/

/-- The first `n` bytes of a block, copied one after another. -/
def Flat.copy (m : Flat) (walk : Walk) (src dst : UInt16) : ℕ → Flat
  | 0 => m
  | k + 1 =>
    let m' := m.copy walk src dst k
    m'.poke (walk.nth dst k) (m'.peek (walk.nth src k))

theorem Flat.peek_copy_of_ne {walk : Walk} {src dst a : UInt16} {n : ℕ} (m : Flat)
    (h : ∀ k < n, walk.nth dst k ≠ a) : (m.copy walk src dst n).peek a = m.peek a := by
  induction n with
  | zero => rfl
  | succ n ih =>
    rw [copy, peek_poke_of_ne _ _ (h n (Nat.lt_succ_self n))]
    exact ih fun k hk => h k (Nat.lt_succ_of_lt hk)

/-- A block that is copied one address up, over itself, is filled with its first byte. -/
theorem Flat.peek_copy_over (m : Flat) (a : UInt16) (n : ℕ) :
    (m.copy .up a (a + 1) n).peek (Walk.up.nth a n) = m.peek a := by
  induction n with
  | zero => rw [copy, Walk.nth_zero]
  | succ n ih =>
    have hnext : Walk.up.nth a (n + 1) = Walk.up.nth (a + 1) n := by
      rw [Walk.nth_succ, Walk.nth, Walk.nth, Walk.next]
      grind
    rw [copy, hnext, peek_poke_self, ih]

/-- The second byte of LDIR and LDDR. -/
def Walk.loadOpcode : Walk → UInt8
  | .up => 0xB0
  | .down => 0xB8

theorem Walk.decode_loadOpcode (walk : Walk) :
    ExtendedInstruction.decode walk.loadOpcode = .block .load walk true := by
  cases walk <;> rfl

namespace Registers

/-- The flags with an official meaning. -/
def documented : UInt8 := SF ||| ZF ||| HF ||| PF ||| NF ||| CF

/-- A block load leaves sign, zero and carry alone, and parity shows whether there is more to
copy. -/
theorem peek_blockLoadFlags (r : Registers) (v : UInt8) :
    (r.blockLoadFlags v).f.peek &&& documented =
      r.f.peek &&& (SF ||| ZF ||| CF) ||| bitIf (r.bc ≠ 0) PF := by
  have hkept : ~~~(HF ||| NF ||| PF ||| XF ||| YF) &&& documented = SF ||| ZF ||| CF := by decide
  have hset : (HF ||| NF ||| PF ||| XF ||| YF) &&& documented = HF ||| NF ||| PF := by decide
  have hxy : ∀ n, blockXY n &&& (HF ||| NF ||| PF) = 0 := blockXY_and (by decide) (by decide)
  have hp : PF &&& (HF ||| NF ||| PF) = PF := by decide
  simp only [blockLoadFlags, Flags.Lazy.peek_assign, Flags.or_and, UInt8.and_assoc, hkept,
    hset, hxy, Flags.bitIf_and, hp, UInt8.zero_or]

theorem kept_blockLoadFlags (r : Registers) (v : UInt8) :
    (r.blockLoadFlags v).f.peek &&& (SF ||| ZF ||| CF) = r.f.peek &&& (SF ||| ZF ||| CF) := by
  have hdocumented : documented &&& (SF ||| ZF ||| CF) = SF ||| ZF ||| CF := by decide
  have hp : PF &&& (SF ||| ZF ||| CF) = 0 := by decide
  have hflags := congrArg (· &&& (SF ||| ZF ||| CF)) (r.peek_blockLoadFlags v)
  simpa only [UInt8.and_assoc, hdocumented, Flags.or_and, UInt8.and_self, Flags.bitIf_and, hp,
    Flags.bitIf_zero, UInt8.or_zero] using hflags

/-- The registers when `k` bytes have been copied, but for PC, R, WZ and F. -/
def copied (r : Registers) (walk : Walk) (k : ℕ) : Registers :=
  ((r.setHL (walk.nth r.hl k)).setDE (walk.nth r.de k)).setBC (r.bc - UInt16.ofNat k)

/-- What an iteration does to registers when it has moved `v`. -/
def copiedByte (r : Registers) (walk : Walk) (v : UInt8) : Registers :=
  (((r.setHL (walk.next r.hl)).setDE (walk.next r.de)).setBC (r.bc - 1)).blockLoadFlags v

variable (r : Registers) (walk : Walk) (k : ℕ)

theorem copied_hl : (r.copied walk k).hl = walk.nth r.hl k := word_high_low _

theorem copied_de : (r.copied walk k).de = walk.nth r.de k := word_high_low _

theorem copied_bc : (r.copied walk k).bc = r.bc - UInt16.ofNat k := word_high_low _

theorem copied_zero : r.copied walk 0 = r := by
  simp [copied, setHL, setDE, setBC, hl, de, bc]

/-- One byte more has been copied. -/
theorem copiedByte_placed (pc : UInt16) (q : UInt8) (wz : UInt16) (f : Flags.Lazy) (v : UInt8) :
    ((r.copied walk k).placed pc q wz f).copiedByte walk v =
      ((r.copied walk (k + 1)).placed pc q wz f).blockLoadFlags v := by
  unfold copiedByte
  show (((((r.copied walk k).setHL (walk.next (r.copied walk k).hl)).setDE
    (walk.next (r.copied walk k).de)).setBC ((r.copied walk k).bc - 1)).placed
      pc q wz f).blockLoadFlags v = _
  rw [copied_hl, copied_de, copied_bc, ← sub_ofNat_succ, ← Walk.nth_succ, ← Walk.nth_succ]
  rfl

end Registers

namespace Cpu

open Exec

variable {s t : Cpu} {m m' : Flat} {walk : Walk} {n k : ℕ}

theorem run_blockLoad (walk : Walk) (u : Cpu) (m : Flat) :
    (blockLoad walk true u).run Flat.bus m =
      (endBlock (u.regs.bc - 1 != 0)
          { u with regs := u.regs.copiedByte walk (m.peek u.regs.hl) }).run Flat.bus
        (m.poke u.regs.de (m.peek u.regs.hl)) := rfl

/-- One iteration, up to its end: one more byte is copied. -/
theorem run_blockLoad_copied {r₀ : Registers} (hk : k < blockLength r₀.bc) {u : Cpu}
    {pc wz : UInt16} {q : UInt8} {f : Flags.Lazy}
    (hu : u.regs = (r₀.copied walk k).placed pc q wz f) :
    (blockLoad walk true u).run Flat.bus m =
      (endBlock (decide (k + 1 < blockLength r₀.bc)) { u with
        regs := ((r₀.copied walk (k + 1)).placed pc q wz f).blockLoadFlags
          (m.peek (walk.nth r₀.hl k)) }).run Flat.bus
        (m.poke (walk.nth r₀.de k) (m.peek (walk.nth r₀.hl k))) := by
  have hhl : u.regs.hl = walk.nth r₀.hl k := by rw [hu]; exact r₀.copied_hl walk k
  have hde : u.regs.de = walk.nth r₀.de k := by rw [hu]; exact r₀.copied_de walk k
  have hbc : u.regs.bc - 1 = r₀.bc - UInt16.ofNat (k + 1) := by
    rw [hu, sub_ofNat_succ]
    exact congrArg (· - 1) (r₀.copied_bc walk k)
  rw [run_blockLoad, hhl, hde, hbc, hu, Registers.copiedByte_placed, goesOn_eq hk]

/-- The invariant of LDIR and LDDR: after `k` iterations so many bytes have been copied. -/
structure Copied (walk : Walk) (s : Cpu) (m : Flat) (n k : ℕ) (t : Cpu) (m' : Flat) : Prop where
  along : Along s n k (s.regs.copied walk k) t
  memory : m' = m.copy walk s.regs.hl s.regs.de k
  kept : t.regs.f.peek &&& (SF ||| ZF ||| CF) = s.regs.f.peek &&& (SF ||| ZF ||| CF)
  ended : k = n → t.regs.f.peek &&& Registers.documented = s.regs.f.peek &&& (SF ||| ZF ||| CF)

theorem copied_step (hn : n = blockLength s.regs.bc) (hs : s.Undisturbed n)
    (hfirst : m.peek s.regs.pc = 0xED) (hsecond : m.peek (s.regs.pc + 1) = walk.loadOpcode)
    (hclear : ∀ k < n, walk.nth s.regs.de k ≠ s.regs.pc ∧ walk.nth s.regs.de k ≠ s.regs.pc + 1)
    (hk : k < n) (ht : Copied walk s m n k t m') :
    Executes Flat.bus t m' (iterationCost n k) (Copied walk s m n (k + 1)) := by
  -- No byte of the instruction has been overwritten.
  have hready : t.Ready walk.loadOpcode m' := by
    have hbefore : ∀ j < k, walk.nth s.regs.de j ≠ s.regs.pc ∧
        walk.nth s.regs.de j ≠ s.regs.pc + 1 :=
      fun j hj => hclear j (hj.trans hk)
    refine ht.along.ready hk hs rfl rfl ?_ ?_
    · rw [ht.memory, Flat.peek_copy_of_ne _ fun j hj => (hbefore j hj).1, hfirst]
    · rw [ht.memory, Flat.peek_copy_of_ne _ fun j hj => (hbefore j hj).2, hsecond]
  obtain ⟨q, wz, hregs⟩ := ht.along.opened_regs hk
  have hrun : ∀ w,
      ((ExtendedInstruction.decode walk.loadOpcode).execute 0 (t.opened w)).run Flat.bus m' =
      (endBlock (decide (k + 1 < n)) { t.opened w with
        regs := ((s.regs.copied walk (k + 1)).placed (s.regs.pc + 2) q wz t.regs.f).blockLoadFlags
          (m'.peek (walk.nth s.regs.hl k)) }).run Flat.bus
        (m'.poke (walk.nth s.regs.de k) (m'.peek (walk.nth s.regs.hl k))) := fun w => by
    rw [Walk.decode_loadOpcode, hn]
    exact run_blockLoad_copied (hn ▸ hk) (hregs w)
  refine (ht.along.executes (s.regs.copied walk (k + 1)) m'.behind hready hrun rfl).mono
    fun t' m'' => ?_
  rintro ⟨halong, hf, rfl⟩
  refine ⟨halong, ?_, ?_, fun hend => ?_⟩
  · rw [ht.memory]
    rfl
  · rw [hf, Registers.kept_blockLoadFlags]
    exact ht.kept
  · have hzero : ((s.regs.copied walk (k + 1)).placed (s.regs.pc + 2) q wz t.regs.f).bc = 0 := by
      refine (s.regs.copied_bc walk (k + 1)).trans ?_
      exact (sub_ofNat_eq_zero_iff (Nat.succ_pos k) (by omega)).2 (hend.trans hn)
    rw [hf, Registers.peek_blockLoadFlags, hzero]
    show t.regs.f.peek &&& (SF ||| ZF ||| CF) ||| 0 = _
    rw [UInt8.or_zero, ht.kept]

/-- LDIR and LDDR copy a block of flat memory, whatever window of it the processor has. If no
interrupt is accepted on the way and the instruction does not overwrite itself, it is executed as
often as BC counts, and copies the bytes one after another. HL and DE have moved on then, BC is
zero, half carry, parity and subtract are reset, and the rest of the processor is as before, but for
R and the address latch. -/
theorem blockLoad_copies (walk : Walk) (s : Cpu) (m : Flat) {n : ℕ} (hn : n = blockLength s.regs.bc)
    (hs : s.Undisturbed n) (hw : Flat.Issues s.window) (hfirst : m.peek s.regs.pc = 0xED)
    (hsecond : m.peek (s.regs.pc + 1) = walk.loadOpcode)
    (hclear : ∀ k < n, walk.nth s.regs.de k ≠ s.regs.pc ∧ walk.nth s.regs.de k ≠ s.regs.pc + 1) :
    s.Repeats n m fun t m' =>
      m' = m.copy walk s.regs.hl s.regs.de n ∧
        t.regs = { ((s.regs.setHL (walk.nth s.regs.hl n)).setDE (walk.nth s.regs.de n)).setBC 0 with
          pc := s.regs.pc + 2, r := t.regs.r, wz := t.regs.wz, f := t.regs.f } ∧
        t.regs.f.peek &&& Registers.documented = s.regs.f.peek &&& (SF ||| ZF ||| CF) ∧
        t = { s with regs := t.regs, window := t.window, afterEI := false, ticks := t.ticks } := by
  have hpos : 0 < n := hn ▸ blockLength_pos _
  have hzero : Copied walk s m n 0 s m :=
    ⟨(s.regs.copied_zero walk).symm ▸ Along.zero hpos hw, rfl, rfl, fun h => absurd h hpos.ne⟩
  have hrepeats := repeats_of_invariant hpos hzero (fun ht => ht.along.pc_eq)
    fun k hk t m' => copied_step hn hs hfirst hsecond hclear hk
  refine hrepeats.mono fun t m' ht => ⟨ht.memory, ?_, ht.ended rfl, ?_⟩
  · have hbc : s.regs.bc - UInt16.ofNat n = 0 := (sub_ofNat_eq_zero_iff hpos hn.le).2 hn
    have hregs := ht.along.regs
    rw [if_neg (lt_irrefl n), Registers.copied, hbc] at hregs
    exact hregs
  · have hrest := ht.along.rest
    rw [decide_eq_false hpos.ne', Bool.false_and] at hrest
    exact hrest

/-- LDIR at 0, and a byte at 10. -/
def fillProgram : Flat := (Flat.empty.load 0 [0xED, 0xB0]).poke 0x10 7

/-- A processor about to copy three bytes from 10 to 11. -/
def filling : Cpu :=
  { initial with regs := ((initial.regs.setHL 0x10).setDE 0x11).setBC 3 }

/-- Three bytes are filled with the one before them. -/
theorem blockLoad_fills :
    filling.Repeats 3 fillProgram fun t m' => m'.peek 0x13 = 7 ∧ t.regs.bc = 0 := by
  have hbytes : ∀ a, fillProgram.peek a =
      if 0x10 = a then 7 else if 1 = a then 0xB0 else if 0 = a then 0xED
        else Flat.empty.peek a := by
    intro a
    simp only [fillProgram, Flat.load, Flat.peek_poke]
    rfl
  have hissues : Flat.Issues filling.window := nofun
  have hcopies := blockLoad_copies .up filling fillProgram (n := 3) rfl
    ⟨by decide, fun _ => by decide⟩ hissues (hbytes 0) (hbytes 1) (by decide)
  refine hcopies.mono fun t m' ⟨hm, hregs, _⟩ => ⟨?_, ?_⟩
  · rw [hm]
    exact (fillProgram.peek_copy_over 0x10 3).trans (hbytes 0x10)
  · exact (congrArg Registers.bc hregs).trans (word_high_low 0)

end Cpu
end TandemZ80
