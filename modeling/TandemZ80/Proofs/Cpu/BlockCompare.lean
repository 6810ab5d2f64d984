import TandemZ80.Proofs.Cpu.Blocks

/-!
# CPIR and CPDR

A block comparison looks at one byte in each iteration. It ends at a byte that equals A, or when BC
has counted out, and both may happen in one iteration. The flags tell which: zero shows a match,
parity that there was more to look at.

* `Registers.peek_blockCompareFlags`, the flags of one iteration;
* `Cpu.Searched`, the invariant, with `Cpu.searched_step`, and `Cpu.blockCompare_searches`, where
  the last iteration is given;
* `Cpu.blockCompare_finds`, where it is the first match or the end of the block.
-/

namespace TandemZ80

open Flags (bitIf)

/-- The second byte of CPIR and CPDR. -/
def Walk.compareOpcode : Walk → UInt8
  | .up => 0xB1
  | .down => 0xB9

theorem Walk.decode_compareOpcode (walk : Walk) :
    ExtendedInstruction.decode walk.compareOpcode = .block .compare walk true := by
  cases walk <;> rfl

namespace Registers

/-- A block comparison leaves carry alone. Zero shows a match, and parity whether there is more. -/
theorem peek_blockCompareFlags (r : Registers) (v : UInt8) :
    (r.blockCompareFlags v).f.peek &&& (ZF ||| PF ||| NF ||| CF) =
      r.f.peek &&& CF ||| NF ||| bitIf (v = r.a) ZF ||| bitIf (r.bc ≠ 0) PF := by
  have hkept : ~~~(~~~CF) &&& (ZF ||| PF ||| NF ||| CF) = CF := by decide
  have hset : ~~~CF &&& (ZF ||| PF ||| NF ||| CF) = ZF ||| PF ||| NF := by decide
  have hxy : ∀ n, blockXY n &&& (ZF ||| PF ||| NF) = 0 := blockXY_and (by decide) (by decide)
  have hs : SF &&& (ZF ||| PF ||| NF) = 0 := by decide
  have hh : HF &&& (ZF ||| PF ||| NF) = 0 := by decide
  have hn : NF &&& (ZF ||| PF ||| NF) = NF := by decide
  have hz : ZF &&& (ZF ||| PF ||| NF) = ZF := by decide
  have hp : PF &&& (ZF ||| PF ||| NF) = PF := by decide
  have hmatch : r.a - v = 0 ↔ v = r.a := by
    rw [UInt8.sub_eq_iff_eq_add, UInt8.zero_add]
    exact eq_comm
  simp only [blockCompareFlags, Flags.Lazy.peek_assign, Flags.or_and, UInt8.and_assoc, hkept,
    hset, hxy, hs, hh, hn, Flags.bitIf_and, hz, hp, UInt8.and_zero, UInt8.or_zero,
    Flags.bitIf_congr hmatch]
  simp only [UInt8.or_assoc]

theorem carry_blockCompareFlags (r : Registers) (v : UInt8) :
    (r.blockCompareFlags v).f.peek &&& CF = r.f.peek &&& CF := by
  have hmask : (ZF ||| PF ||| NF ||| CF) &&& CF = CF := by decide
  have hn : NF &&& CF = 0 := by decide
  have hz : ZF &&& CF = 0 := by decide
  have hp : PF &&& CF = 0 := by decide
  have hflags := congrArg (· &&& CF) (r.peek_blockCompareFlags v)
  simpa only [UInt8.and_assoc, hmask, Flags.or_and, UInt8.and_self, hn, Flags.bitIf_and, hz, hp,
    Flags.bitIf_zero, UInt8.or_zero] using hflags

/-- The registers when `k` bytes have been looked at, but for PC, R, WZ and F. -/
def searched (r : Registers) (walk : Walk) (k : ℕ) : Registers :=
  (r.setHL (walk.nth r.hl k)).setBC (r.bc - UInt16.ofNat k)

/-- What an iteration does to registers when it has looked at `v`. -/
def comparedByte (r : Registers) (walk : Walk) (v : UInt8) : Registers :=
  { (r.setHL (walk.next r.hl)).setBC (r.bc - 1) with wz := walk.next r.wz }.blockCompareFlags v

variable (r : Registers) (walk : Walk) (k : ℕ)

theorem searched_hl : (r.searched walk k).hl = walk.nth r.hl k := word_high_low _

theorem searched_bc : (r.searched walk k).bc = r.bc - UInt16.ofNat k := word_high_low _

theorem searched_zero : r.searched walk 0 = r := by
  simp [searched, setHL, setBC, hl, bc]

/-- One byte more has been looked at. -/
theorem comparedByte_placed (pc : UInt16) (q : UInt8) (wz : UInt16) (f : Flags.Lazy) (v : UInt8) :
    ((r.searched walk k).placed pc q wz f).comparedByte walk v =
      ((r.searched walk (k + 1)).placed pc q (walk.next wz) f).blockCompareFlags v := by
  unfold comparedByte
  show ((((r.searched walk k).setHL (walk.next (r.searched walk k).hl)).setBC
    ((r.searched walk k).bc - 1)).placed pc q (walk.next wz) f).blockCompareFlags v = _
  rw [searched_hl, searched_bc, ← sub_ofNat_succ, ← Walk.nth_succ]
  rfl

end Registers

namespace Cpu

open Exec

variable {s t : Cpu} {m m' : Flat} {walk : Walk} {n k : ℕ}

theorem run_blockCompare (walk : Walk) (u : Cpu) (m : Flat) :
    (blockCompare walk true u).run Flat.bus m =
      (endBlock (u.regs.bc - 1 != 0 && u.regs.a - m.peek u.regs.hl != 0)
        { u with regs := u.regs.comparedByte walk (m.peek u.regs.hl) }).run Flat.bus m := rfl

/-- The search ends with iteration `n`, and not before: there is a match, or BC has counted out. -/
structure Search (walk : Walk) (s : Cpu) (m : Flat) (n : ℕ) : Prop where
  pos : 0 < n
  le : n ≤ blockLength s.regs.bc
  missed : ∀ k, k + 1 < n → m.peek (walk.nth s.regs.hl k) ≠ s.regs.a
  ends : n = blockLength s.regs.bc ∨ m.peek (walk.nth s.regs.hl (n - 1)) = s.regs.a

/-- The test by which the search goes on. -/
theorem Search.goesOn (hn : Search walk s m n) (hk : k < n) :
    (s.regs.bc - UInt16.ofNat (k + 1) != 0 &&
      s.regs.a - m.peek (walk.nth s.regs.hl k) != 0) = decide (k + 1 < n) := by
  have hle := hn.le
  have hdiffers : (s.regs.a - m.peek (walk.nth s.regs.hl k) != 0) =
      decide (m.peek (walk.nth s.regs.hl k) ≠ s.regs.a) := by
    rw [Bool.eq_iff_iff, bne_iff_ne, decide_eq_true_iff, ne_eq, UInt8.sub_eq_iff_eq_add,
      UInt8.zero_add, eq_comm]
  rw [goesOn_eq (hk.trans_le hle), hdiffers, ← Bool.decide_and]
  refine decide_eq_decide.2 ⟨fun ⟨hmore, hne⟩ => ?_, fun hmore => ⟨by omega, hn.missed k hmore⟩⟩
  rcases hn.ends with hend | hmatch
  · omega
  · refine Nat.lt_of_le_of_ne hk fun heq => hne ?_
    rw [← heq] at hmatch
    exact hmatch

/-- One iteration, up to its end: one more byte is looked at. -/
theorem run_blockCompare_searched (hn : Search walk s m n) (hk : k < n) {u : Cpu} {pc wz : UInt16}
    {q : UInt8} {f : Flags.Lazy} (hu : u.regs = (s.regs.searched walk k).placed pc q wz f) :
    (blockCompare walk true u).run Flat.bus m =
      (endBlock (decide (k + 1 < n)) { u with
        regs := ((s.regs.searched walk (k + 1)).placed pc q (walk.next wz) f).blockCompareFlags
          (m.peek (walk.nth s.regs.hl k)) }).run Flat.bus m := by
  have hhl : u.regs.hl = walk.nth s.regs.hl k := by rw [hu]; exact s.regs.searched_hl walk k
  have ha : u.regs.a = s.regs.a := by rw [hu]; rfl
  have hbc : u.regs.bc - 1 = s.regs.bc - UInt16.ofNat (k + 1) := by
    rw [hu, sub_ofNat_succ]
    exact congrArg (· - 1) (s.regs.searched_bc walk k)
  rw [run_blockCompare, hhl, ha, hbc, hu, Registers.comparedByte_placed, hn.goesOn hk]

/-- The invariant of CPIR and CPDR: after `k` iterations so many bytes have been looked at. -/
structure Searched (walk : Walk) (s : Cpu) (m : Flat) (n k : ℕ) (t : Cpu) (m' : Flat) : Prop where
  along : Along s n k (s.regs.searched walk k) t
  memory : m' = m
  carry : t.regs.f.peek &&& CF = s.regs.f.peek &&& CF
  ended : k = n → t.regs.f.peek &&& (ZF ||| PF ||| NF ||| CF) =
    s.regs.f.peek &&& CF ||| NF ||| bitIf (m.peek (walk.nth s.regs.hl (n - 1)) = s.regs.a) ZF |||
      bitIf (s.regs.bc - UInt16.ofNat n ≠ 0) PF

theorem searched_step (hn : Search walk s m n) (hs : s.Undisturbed n)
    (hfirst : m.peek s.regs.pc = 0xED) (hsecond : m.peek (s.regs.pc + 1) = walk.compareOpcode)
    (hk : k < n) (ht : Searched walk s m n k t m') :
    Executes Flat.bus t m' (iterationCost n k) (Searched walk s m n (k + 1)) := by
  obtain rfl := ht.memory
  have hready := ht.along.ready hk hs rfl rfl hfirst hsecond
  obtain ⟨q, wz, hregs⟩ := ht.along.opened_regs hk
  have hrun : ∀ w,
      ((ExtendedInstruction.decode walk.compareOpcode).execute 0 (t.opened w)).run Flat.bus m' =
      (endBlock (decide (k + 1 < n)) { t.opened w with
        regs := ((s.regs.searched walk (k + 1)).placed (s.regs.pc + 2) q (walk.next wz)
          t.regs.f).blockCompareFlags (m'.peek (walk.nth s.regs.hl k)) }).run Flat.bus m' :=
    fun w => by
    rw [Walk.decode_compareOpcode]
    exact run_blockCompare_searched hn hk (hregs w)
  refine (ht.along.executes (s.regs.searched walk (k + 1)) m'.behind hready hrun rfl).mono
    fun t' m'' => ?_
  rintro ⟨halong, hf, rfl⟩
  refine ⟨halong, rfl, ?_, ?_⟩
  · rw [hf, Registers.carry_blockCompareFlags]
    exact ht.carry
  · rintro rfl
    have hbc :
        ((s.regs.searched walk (k + 1)).placed (s.regs.pc + 2) q (walk.next wz) t.regs.f).bc =
        s.regs.bc - UInt16.ofNat (k + 1) := s.regs.searched_bc walk (k + 1)
    rw [hf, Registers.peek_blockCompareFlags, hbc, ← ht.carry]
    rfl

/-- What a search comes to in `n` iterations, with a match in the last one or without. HL has moved
on and BC is counted down. Carry is as before, zero shows the match, parity that BC has not counted
out, and subtract is set. Memory and the rest of the processor are as before, but for R and the
address latch. -/
structure Ended (walk : Walk) (s : Cpu) (m : Flat) (n : ℕ) (found : Prop) [Decidable found]
    (t : Cpu) (m' : Flat) : Prop where
  memory : m' = m
  regs : t.regs = { (s.regs.setHL (walk.nth s.regs.hl n)).setBC (s.regs.bc - UInt16.ofNat n) with
    pc := s.regs.pc + 2, r := t.regs.r, wz := t.regs.wz, f := t.regs.f }
  flags : t.regs.f.peek &&& (ZF ||| PF ||| NF ||| CF) =
    s.regs.f.peek &&& CF ||| NF ||| bitIf found ZF ||| bitIf (t.regs.bc ≠ 0) PF
  rest : t = { s with regs := t.regs, window := t.window, afterEI := false, ticks := t.ticks }

theorem Ended.congr {found found' : Prop} [Decidable found] [Decidable found']
    (ht : Ended walk s m n found t m') (h : found ↔ found') : Ended walk s m n found' t m' :=
  ⟨ht.memory, ht.regs, Flags.bitIf_congr h ZF ▸ ht.flags, ht.rest⟩

theorem Ended.bc_eq {found : Prop} [Decidable found] (ht : Ended walk s m n found t m') :
    t.regs.bc = s.regs.bc - UInt16.ofNat n :=
  (congrArg Registers.bc ht.regs).trans (word_high_low _)

/-- A search that ends with iteration `n`. -/
theorem blockCompare_searches (hn : Search walk s m n) (hs : s.Undisturbed n)
    (hw : Flat.Issues s.window) (hfirst : m.peek s.regs.pc = 0xED)
    (hsecond : m.peek (s.regs.pc + 1) = walk.compareOpcode) :
    s.Repeats n m (Ended walk s m n (m.peek (walk.nth s.regs.hl (n - 1)) = s.regs.a)) := by
  have hzero : Searched walk s m n 0 s m :=
    ⟨(s.regs.searched_zero walk).symm ▸ Along.zero hn.pos hw, rfl, rfl, fun h => absurd h hn.pos.ne⟩
  have hrepeats := repeats_of_invariant hn.pos hzero (fun ht => ht.along.pc_eq)
    fun k hk t m' => searched_step hn hs hfirst hsecond hk
  refine hrepeats.mono fun t m' ht => ?_
  have hregs := ht.along.regs
  rw [if_neg (lt_irrefl n)] at hregs
  have hbc : t.regs.bc = s.regs.bc - UInt16.ofNat n :=
    (congrArg Registers.bc hregs).trans (s.regs.searched_bc walk n)
  have hrest := ht.along.rest
  rw [decide_eq_false hn.pos.ne', Bool.false_and] at hrest
  exact ⟨ht.memory, hregs, hbc ▸ ht.ended rfl, hrest⟩

/-- CPIR and CPDR find the first match in a block of flat memory as long as BC counts, whatever
window of it the processor has, if no interrupt is accepted on the way. If there is a match, the
instruction is executed up to the first one. If there is none, it is executed for the whole block,
and BC is zero then. -/
theorem blockCompare_finds (walk : Walk) (s : Cpu) (m : Flat) (hw : Flat.Issues s.window)
    (hfirst : m.peek s.regs.pc = 0xED) (hsecond : m.peek (s.regs.pc + 1) = walk.compareOpcode) :
    (∀ k < blockLength s.regs.bc, s.Undisturbed (k + 1) → m.peek (walk.nth s.regs.hl k) = s.regs.a →
        (∀ j < k, m.peek (walk.nth s.regs.hl j) ≠ s.regs.a) →
          s.Repeats (k + 1) m (Ended walk s m (k + 1) True)) ∧
      (s.Undisturbed (blockLength s.regs.bc) →
        (∀ k < blockLength s.regs.bc, m.peek (walk.nth s.regs.hl k) ≠ s.regs.a) →
          s.Repeats (blockLength s.regs.bc) m fun t m' =>
            Ended walk s m (blockLength s.regs.bc) False t m' ∧ t.regs.bc = 0) := by
  constructor
  · intro k hk hs hmatch hmissed
    have hsearch : Search walk s m (k + 1) :=
      ⟨Nat.succ_pos k, hk, fun j hj => hmissed j (by omega), .inr hmatch⟩
    refine (blockCompare_searches hsearch hs hw hfirst hsecond).mono fun t m' ht => ?_
    exact ht.congr (iff_true_intro hmatch)
  · intro hs hnone
    have hpos := blockLength_pos s.regs.bc
    have hsearch : Search walk s m (blockLength s.regs.bc) :=
      ⟨hpos, le_rfl, fun j hj => hnone j (by omega), .inl rfl⟩
    refine (blockCompare_searches hsearch hs hw hfirst hsecond).mono fun t m' ht => ⟨?_, ?_⟩
    · exact ht.congr (iff_false_intro (hnone _ (by omega)))
    · rw [ht.bc_eq]
      exact (sub_ofNat_eq_zero_iff hpos le_rfl).2 rfl

/-- CPIR at 0, and a byte at 11 that the byte at 10 differs from. -/
def searchProgram : Flat := (Flat.empty.load 0 [0xED, 0xB1]).load 0x10 [1, 7]

/-- A processor about to look for 7 in a block from 10 on. -/
def searching (bc : UInt16) : Cpu :=
  { initial with regs := { (initial.regs.setHL 0x10).setBC bc with a := 7 } }

/-- In a block of 65536 bytes the second one matches, in a block of one byte there is no match. -/
theorem blockCompare_finds_second :
    (searching 0).Repeats 2 searchProgram (Ended .up (searching 0) searchProgram 2 True) ∧
      (searching 1).Repeats 1 searchProgram fun t m' =>
        Ended .up (searching 1) searchProgram 1 False t m' ∧ t.regs.bc = 0 := by
  have hbytes : ∀ a, searchProgram.peek a =
      if 0x11 = a then 7 else if 0x10 = a then 1 else if 1 = a then 0xB1 else if 0 = a then 0xED
      else Flat.empty.peek a := by
    intro a
    simp only [searchProgram, Flat.load, Flat.peek_poke]
    rfl
  have hissues : Flat.Issues none := nofun
  have hmissed : ∀ j < 1, searchProgram.peek (Walk.up.nth 0x10 j) ≠ 7 := fun j hj => by
    obtain rfl : j = 0 := by omega
    exact fun hmatch => absurd ((hbytes 0x10).symm.trans hmatch) (by decide)
  have hfinds :=
    fun bc => blockCompare_finds .up (searching bc) searchProgram hissues (hbytes 0) (hbytes 1)
  constructor
  · exact (hfinds 0).1 1 (by decide) ⟨by decide, fun _ => by decide⟩ (hbytes 0x11) hmissed
  · exact (hfinds 1).2 ⟨by decide, fun _ => by decide⟩ hmissed

end Cpu
end TandemZ80
