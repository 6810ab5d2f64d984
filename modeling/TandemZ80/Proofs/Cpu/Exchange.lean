import TandemZ80.Proofs.Cpu.Renaming

/-!
# IX and IY exchanged

The two prefixes differ in nothing but the register that they name. So a processor that executes
what follows DD does what the processor with IX and IY exchanged does behind FD: it makes the same
calls, takes as long, and is refused a port where the other one is.

* `Cpu.exchanged`, and `Cpu.renamed_exchange`: it is a renaming;
* `Bus.SameCourse`, two programs that say the same on a bus and end in relation, under `bind`;
* `Opcode.execute_renames`, an opcode under new names, and `Exec.instruction_sameCourse`, the two
  prefixes;
* `Cpu.prefixes_exchange`, on every bus that shows no prefix where it has just shown none.
-/

namespace TandemZ80

variable {α β σ : Type}

open Exec

/-! ### Exchange -/

/-- The processor with IX and IY exchanged. -/
def Cpu.exchanged (s : Cpu) : Cpu :=
  { s with regs := { s.regs with ix := s.regs.iy, iy := s.regs.ix } }

/-- The renaming that exchanges IX and IY. -/
def Renaming.exchange : Renaming := ⟨Equiv.swap .ix .iy, 0⟩

theorem Renaming.exchange_hl : Renaming.exchange.perm .hl = .hl := by decide

theorem Renaming.exchange_ix : Renaming.exchange.perm .ix = .iy := by decide

theorem Cpu.renamed_exchange (s : Cpu) : s.renamed .exchange = s.exchanged := by
  have hix : Renaming.exchange.perm.symm .ix = .iy := by decide
  have hiy : Renaming.exchange.perm.symm .iy = .ix := by decide
  have hr : Registers.fetched Renaming.exchange.prefixes s.regs.r = s.regs.r :=
    Registers.fetched_zero _
  unfold renamed exchanged
  rw [Registers.renamed_eq _ Renaming.exchange_hl, hix, hiy, hr]
  rfl

/-- The processor is saved with IX and IY exchanged. -/
theorem Cpu.save_exchanged (s : Cpu) :
    s.exchanged.save = { s.save with ix := s.save.iy, iy := s.save.ix } :=
  rfl

/-! ### Programs on one bus -/

/-- On a bus in the state `b` two programs say the same, and stop on the same fault or end in the
same state of the bus with results in relation. -/
structure Bus.SameCourse (h : Bus σ) (b : σ) (R : α → β → Prop) (d : Program α)
    (d' : Program β) : Prop where
  said : d'.transcript h b = d.transcript h b
  ends : Fault.Alike (fun r r' => R r.1 r'.1 ∧ r.2 = r'.2) (d.run h b) (d'.run h b)

namespace Bus.SameCourse

variable {α' β' : Type} {h : Bus σ} {b : σ} {R : α → β → Prop} {R' : α' → β' → Prop} {d : Program α}
  {d' : Program β}

theorem done {a : α} {a' : β} (hR : R a a') : SameCourse h b R (.done a) (.done a') :=
  ⟨rfl, .ok ⟨hR, rfl⟩⟩

theorem refl (d : Program α) : SameCourse h b Eq d d := ⟨rfl, .refl (fun _ => ⟨rfl, rfl⟩) _⟩

/-- Without a delay. -/
theorem of_delayed (hd : Delayed 0 R d d') (h : Bus σ) (b : σ) : SameCourse h b R d d' where
  said := by
    have hsaid := hd.transcript h b
    rwa [delay_zero, List.map_congr_left fun said _ => saidLater_zero said, List.map_id'] at hsaid
  ends := by
    have hends := hd.run h b
    rwa [delay_zero] at hends

theorem bind {f : α → Program α'} {f' : β → Program β'} (hd : SameCourse h b R d d')
    (hf : ∀ a a' b', d.run h b = .ok (a, b') → R a a' → SameCourse h b' R' (f a) (f' a')) :
    SameCourse h b R' (d >>= f) (d' >>= f') := by
  have hends := hd.ends
  have hsaid := hd.said
  cases hrun : d.run h b with
  | error e =>
    rw [hrun] at hends
    generalize hrun' : d'.run h b = r' at hends
    cases hends with
    | error e =>
      constructor
      · rw [Dialogue.transcript_bind, Dialogue.transcript_bind, hrun, hrun', hsaid]
      · rw [Dialogue.run_bind, Dialogue.run_bind, hrun, hrun']
        exact .error e
  | ok r =>
    obtain ⟨a, b'⟩ := r
    obtain ⟨⟨a', b''⟩, hrun', hR, hsame⟩ := hends.exists_eq_ok hrun
    obtain rfl : b' = b'' := hsame
    have hnext := hf a a' b' hrun hR
    constructor
    · rw [Dialogue.transcript_bind, Dialogue.transcript_bind, hrun, hrun', hsaid]
      exact congrArg _ hnext.said
    · rw [Dialogue.run_bind, Dialogue.run_bind, hrun, hrun']
      exact hnext.ends

end Bus.SameCourse

/-! ### Opcodes -/

/-- If HL keeps its name and no prefix has been fetched before, every opcode does the same under new
names. -/
theorem Opcode.execute_renames {ρ : Renaming} (hhl : ρ.perm .hl = .hl) (hzero : ρ.prefixes = 0)
    (o : Opcode) (x : Index) (elapsed : ℕ) :
    Renames ρ (o.execute x elapsed) (o.execute (ρ.perm x) elapsed) := by
  have hnow : elapsed = elapsed + 4 * ρ.prefixes := by rw [hzero, Nat.mul_zero, Nat.add_zero]
  cases o with
  | plain i => exact i.execute_renames x (.inl hhl) hnow (.inl hzero)
  | bits =>
    unfold execute
    by_cases hx : x = .hl
    · rw [hx, if_pos rfl, if_pos hhl]
      exact .bind .fetchOpcode fun op => BitInstruction.execute_renames hhl _
    · have hx' : ρ.perm x ≠ .hl := fun h => hx (ρ.perm.injective (h.trans hhl.symm))
      rw [if_neg hx, if_neg hx']
      exact .bind .fetchByte fun d => .bind .fetchByte fun op =>
        BitInstruction.executeIndexed_renames hhl _ x d
  | extended =>
    exact .bind .fetchOpcode fun op =>
      ExtendedInstruction.execute_renames hhl _ (.inl hzero) hnow fun _ _ => .inl hzero
  | index y => exact .pure 0

namespace Exec

variable {h : Bus σ} {b : σ} {s : Cpu}

/-- Behind DD and behind FD the same is done, with IX and IY exchanged, if the byte that is fetched
there is no prefix where none has been seen. -/
theorem instruction_sameCourse (elapsed : ℕ)
    (hseen : ∀ {v w b₁}, (Bus.fetch s.window s.regs.pc).run h b = .ok ((v, w), b₁) →
      Opcode.isIndex v = false → ∀ {r b₂}, (Bus.fetch w s.regs.pc).run h b₁ = .ok (r, b₂) →
        Opcode.isIndex r.1 = false) :
    Bus.SameCourse h b (fun r r' => r'.1 = r.1 ∧ r'.2 = r.2.exchanged) (instruction elapsed 0xDD s)
      (instruction elapsed 0xFD s.exchanged) := by
  rw [instruction_of_index (y := .ix) rfl, instruction_of_index (y := .iy) rfl, peekOpcode_bind,
    peekOpcode_bind]
  -- Both look at the same address through the same window, and so see the same byte.
  refine (Bus.SameCourse.refl _).bind ?_
  rintro ⟨v, w⟩ _ b₁ hv rfl
  dsimp only
  by_cases hagain : Opcode.isIndex v = true
  · rw [if_pos hagain, if_pos hagain]
    exact .done ⟨rfl, rfl⟩
  · rw [if_neg hagain, if_neg hagain, fetchOpcode_bind, fetchOpcode_bind]
    refine (Bus.SameCourse.refl _).bind ?_
    rintro ⟨op, w'⟩ _ b₂ hop rfl
    have hplain := hseen hv (Bool.eq_false_iff.2 hagain) hop
    have hne := Opcode.decode_ne_index hplain
    have hlimit : prefixLimit - 1 = prefixLimit - 2 + 1 := rfl
    dsimp only
    rw [hlimit, opcode_of_ne_index hne, opcode_of_ne_index hne]
    have hrenames : Renames .exchange
        ((Opcode.decode op).execute .ix (elapsed + 4) >>= fun rest => pure (4 + rest))
        ((Opcode.decode op).execute .iy (elapsed + 4) >>= fun rest => pure (4 + rest)) := by
      have hopcode :=
        Opcode.execute_renames Renaming.exchange_hl rfl (Opcode.decode op) .ix (elapsed + 4)
      rw [Renaming.exchange_ix] at hopcode
      exact hopcode.bind fun rest => .pure _
    have hcourse := hrenames (Cpu.fetchedOpcode { s with window := w } w')
    rw [Cpu.renamed_exchange] at hcourse
    refine .of_delayed (hcourse.mono fun r r' hr => ?_) h b₂
    rw [Cpu.renamed_exchange] at hr
    exact hr

end Exec

namespace Cpu

/-- IX and IY are interchangeable. On every bus, what a processor does behind DD, the one with IX
and IY exchanged does behind FD, whatever follows: it makes the same calls with the same answers,
its cost is the same, or it is refused a port where the other one is, and it is saved as the other
one with IX and IY exchanged. The byte behind the prefix is looked at before it is fetched. Memory
that keeps its content shows no prefix the second time if there was none the first time; otherwise
that one would name the register. -/
theorem prefixes_exchange (h : Bus σ) (b : σ) (s : Cpu) (elapsed : ℕ)
    (hseen : ∀ {v w b₁}, (Bus.fetch s.window s.regs.pc).run h b = .ok ((v, w), b₁) →
      Opcode.isIndex v = false → ∀ {r b₂}, (Bus.fetch w s.regs.pc).run h b₁ = .ok (r, b₂) →
        Opcode.isIndex r.1 = false) :
    (instruction elapsed 0xFD s.exchanged).transcript h b =
      (instruction elapsed 0xDD s).transcript h b ∧
      Fault.Alike (fun r r' => r'.1.1 = r.1.1 ∧
          r'.1.2.save = { r.1.2.save with ix := r.1.2.save.iy, iy := r.1.2.save.ix } ∧ r'.2 = r.2)
        ((instruction elapsed 0xDD s).run h b)
        ((instruction elapsed 0xFD s.exchanged).run h b) := by
  have hcourse := instruction_sameCourse elapsed hseen
  refine ⟨hcourse.said, ?_⟩
  have hends := hcourse.ends
  generalize (instruction elapsed 0xDD s).run h b = r at hends ⊢
  generalize (instruction elapsed 0xFD s.exchanged).run h b = r' at hends ⊢
  cases hends with
  | error f => exact .error f
  | ok hr =>
    obtain ⟨⟨hcost, hstate⟩, hbus⟩ := hr
    refine .ok ⟨hcost, ?_, hbus.symm⟩
    rw [hstate, save_exchanged]

/-- A processor with 1 in IX and 9 in IY. -/
def indexing : Cpu := { initial with regs := { initial.regs with ix := 1, iy := 9 } }

/-- `LD A,(IX+2)`, without its prefix, and a 7 at 3. -/
def indexedLoad : List UInt8 := [0x7E, 0x02, 0, 7]

/-- The byte is loaded by way of either register. -/
theorem prefixes_exchange_load :
    ∃ t t', (instruction 0 0xDD indexing).run (Bus.rom indexedLoad) [] = .ok ((some 19, t), []) ∧
      t.regs.a = 7 ∧
      (instruction 0 0xFD indexing.exchanged).run (Bus.rom indexedLoad) [] =
        .ok ((some 19, t'), []) ∧
      t'.save = { t.save with ix := t.save.iy, iy := t.save.ix } := by
  have hfetch : ∀ w out, ∃ w', (Bus.fetch w 0).run (Bus.rom indexedLoad) out =
      .ok ((0x7E, w'), out) := by
    intro w out
    cases w with
    | none => exact ⟨_, rfl⟩
    | some v =>
      by_cases hv : v.contains 0 = true
      · unfold Bus.fetch
        dsimp only
        rw [if_pos hv]
        exact ⟨_, rfl⟩
      · rw [Bus.fetch_past hv]
        exact ⟨_, rfl⟩
  have hload :
      ∃ t, (instruction 0 0xDD indexing).run (Bus.rom indexedLoad) [] =
        .ok ((some 19, t), []) ∧ t.regs.a = 7 := ⟨_, rfl, rfl⟩
  obtain ⟨t, ht, ha⟩ := hload
  have hexchange := prefixes_exchange (Bus.rom indexedLoad) [] indexing 0
    (fun {v w b₁} _ _ {r b₂} hr => by
      obtain ⟨w', hw'⟩ := hfetch w b₁
      rw [show indexing.regs.pc = 0 from rfl, hw'] at hr
      cases hr
      rfl)
  obtain ⟨⟨⟨cost, t'⟩, out⟩, ht', rfl, hsave, rfl⟩ := hexchange.2.exists_eq_ok ht
  exact ⟨t, t', ht, ha, ht', hsave⟩

/-- If another prefix is fetched where `INC HL` was seen, it names IX behind FD as well, and IX and
IY have not been exchanged. -/
theorem flickering_prefix_names_ix :
    ∃ t t',
      (instruction 0 0xDD indexing).run Bus.tape [0x23, 0xDD, 0x23, 0x23] =
        .ok ((some 14, t), []) ∧
      (instruction 0 0xFD indexing.exchanged).run Bus.tape [0x23, 0xDD, 0x23, 0x23] =
        .ok ((some 14, t'), []) ∧
      (t.save.ix, t.save.iy) = (2, 9) ∧ (t'.save.ix, t'.save.iy) = (10, 1) ∧
      t'.save ≠ { t.save with ix := t.save.iy, iy := t.save.ix } :=
  ⟨_, _, rfl, rfl, rfl, rfl, by decide⟩

end Cpu
end TandemZ80
