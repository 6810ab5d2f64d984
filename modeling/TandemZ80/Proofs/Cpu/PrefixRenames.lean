import TandemZ80.Proofs.Cpu.Renaming

/-!
# A prefix renames HL

What a prefix does is nothing but a renaming. An opcode behind it is executed as without the prefix,
on a processor where HL and the index register have exchanged what they hold, and they are exchanged
back afterwards. There are four T-states more, ports are asked for so much later, and R has counted
one fetch more. Where the byte at HL is accessed this is not so, since a displacement follows;
opcodes that never work on an index register are executed as they are.

* `Bus.ComesTo`, a program that shows the same as another one and has the same run, and
  `Bus.fetch_comesTo`, a fetch that does not show; `Bus.prefixed_comesTo` and
  `Bus.unprefixed_comesTo`, what an opcode comes to behind a prefix and without one;
* `Opcode.prefixPerm`, what a prefix renames, with the opcodes that it does not rename for;
* `Bus.Prefixed`, the law, with `Bus.Prefixed.of_renames`, where all has been fetched, and
  `Bus.Prefixed.execute`, where the opcode has been fetched;
* `Cpu.prefix_renames`.
-/

namespace TandemZ80

variable {α β τ κ : Type}

/-! ### Fetches that do not show -/

namespace Bus

/-- On a bus in the state `b` two programs show the same calls and have the same run. -/
structure ComesTo (h : Bus τ) (b : τ) (d e : Program α) : Prop where
  run : d.run h b = e.run h b
  calls : (d.transcript h b).filter shown = (e.transcript h b).filter shown

theorem ComesTo.trans {h : Bus τ} {b : τ} {d e f : Program α} (hd : ComesTo h b d e)
    (he : ComesTo h b e f) : ComesTo h b d f := ⟨hd.run.trans he.run, hd.calls.trans he.calls⟩

theorem ComesTo.bind {h : Bus τ} {b : τ} {d e : Program α} (hd : ComesTo h b d e)
    (f : α → Program β) : ComesTo h b (d >>= f) (e >>= f) where
  run := by rw [Dialogue.run_bind, Dialogue.run_bind, hd.run]
  calls := by
    rw [Dialogue.transcript_bind, Dialogue.transcript_bind, List.filter_append,
      List.filter_append, hd.run, hd.calls]

section Fetch

variable {g : Bus τ} {outside : κ → τ → τ} {c₀ c : τ} {w : Option Window} {a : UInt16} {x : UInt8}

/-- A fetch does not show, nor does it make a difference when requests for ports are made. -/
theorem fetch_comesTo (hsound : SoundWindows g outside c₀) (hc : Later g outside c₀ c)
    (hw : ∀ v, w = some v → Issued g outside c₀ v c) (hread : g (.read a) c = .ok (x, c)) (δ : ℕ) :
    ∃ w', (∀ v, w' = some v → Issued g outside c₀ v c) ∧
      ∀ f : UInt8 × Option Window → Program α,
        ComesTo (delay δ g) c (fetch w a >>= f) (f (x, w')) := by
  obtain ⟨w', hw', hrun⟩ := run_fetch_of_read hsound hc hw hread
  rw [← run_delay_of_asks (δ := δ) (fetch_asks w a) g c] at hrun
  refine ⟨w', hw', fun f => ⟨?_, ?_⟩⟩
  · rw [Dialogue.run_bind, hrun]
    rfl
  · rw [Dialogue.transcript_bind, hrun, List.filter_append, (fetch_silent w a).filter_transcript]
    rfl

/-- An opcode fetch. -/
theorem fetchOpcode_comesTo (hsound : SoundWindows g outside c₀) (hc : Later g outside c₀ c)
    {s : Cpu} (hw : ∀ v, s.window = some v → Issued g outside c₀ v c)
    (hread : g (.read s.regs.pc) c = .ok (x, c)) (δ : ℕ) :
    ∃ w', (∀ v, w' = some v → Issued g outside c₀ v c) ∧ ∀ f : UInt8 → Exec α,
      ComesTo (delay δ g) c ((Exec.fetchOpcode >>= f) s) (f x (s.fetchedOpcode w')) := by
  obtain ⟨w', hw', hfetch⟩ := fetch_comesTo hsound hc hw hread δ
  refine ⟨w', hw', fun f => ?_⟩
  rw [Exec.fetchOpcode_bind]
  exact hfetch _

/-- An opcode that is no prefix is fetched and executed. -/
theorem unprefixed_comesTo (hsound : SoundWindows g outside c₀) (hc : Later g outside c₀ c)
    {s : Cpu} (hw : ∀ v, s.window = some v → Issued g outside c₀ v c)
    (hread : g (.read s.regs.pc) c = .ok (x, c)) (hx : Opcode.isIndex x = false) (elapsed δ : ℕ) :
    ∃ w', (∀ v, w' = some v → Issued g outside c₀ v c) ∧
      ComesTo (delay δ g) c ((Exec.fetchOpcode >>= Exec.instruction elapsed) s)
        ((Opcode.decode x).execute .hl elapsed (s.fetchedOpcode w')) := by
  obtain ⟨w', hw', hfetch⟩ := fetchOpcode_comesTo hsound hc hw hread δ
  have hexecute : Exec.instruction elapsed x = (Opcode.decode x).execute .hl elapsed :=
    Exec.opcode_of_ne_index (Opcode.decode_ne_index hx) (Exec.prefixLimit - 1) .hl elapsed
  refine ⟨w', hw', (hfetch _).trans ?_⟩
  rw [hexecute]
  exact ⟨rfl, rfl⟩

/-- A prefix and the opcode behind it are fetched, and the opcode is executed on the register that
the prefix names. -/
theorem prefixed_comesTo (hsound : SoundWindows g outside c₀) (hc : Later g outside c₀ c) {s : Cpu}
    (hw : ∀ v, s.window = some v → Issued g outside c₀ v c) {p : UInt8} {y : Index}
    (hp : Opcode.decode p = .index y) (hbyte : g (.read s.regs.pc) c = .ok (p, c))
    (hread : g (.read (s.regs.pc + 1)) c = .ok (x, c)) (hx : Opcode.isIndex x = false)
    (elapsed : ℕ) :
    ∃ w', (∀ v, w' = some v → Issued g outside c₀ v c) ∧
      ComesTo g c ((Exec.fetchOpcode >>= Exec.instruction elapsed) s)
        (((Opcode.decode x).execute y (elapsed + 4) >>= fun rest => pure (4 + rest))
          ((s.fetchedOpcode none).fetchedOpcode w')) := by
  obtain ⟨w₁, hw₁, hfirst⟩ := fetchOpcode_comesTo hsound hc hw hbyte 0
  obtain ⟨w₂, hw₂, hpeek⟩ := fetch_comesTo hsound hc hw₁ hread 0
  obtain ⟨w₃, hw₃, hfetch⟩ :=
    fetchOpcode_comesTo hsound hc (s := { s.fetchedOpcode w₁ with window := w₂ }) hw₂ hread 0
  have hlimit : Exec.prefixLimit - 1 = Exec.prefixLimit - 2 + 1 := rfl
  rw [delay_zero] at hfirst hpeek hfetch
  refine ⟨w₃, hw₃, (hfirst _).trans ?_⟩
  rw [Exec.instruction_of_index hp, Exec.peekOpcode_bind]
  refine (hpeek _).trans ?_
  dsimp only
  rw [hx, if_neg Bool.false_ne_true]
  refine (hfetch _).trans ?_
  rw [hlimit, Exec.opcode_of_ne_index (Opcode.decode_ne_index hx)]
  exact ⟨rfl, rfl⟩

end Fetch
end Bus

open Exec Bus

/-! ### Opcodes -/

namespace Opcode

/-- The renaming by a prefix. No opcode of the three takes an index register for HL. -/
def prefixPerm (y : Index) (op : UInt8) : Equiv.Perm Index :=
  if op = 0xD9 ∨ op = 0xEB ∨ op = 0xED then 1 else Equiv.swap .hl y

theorem prefixPerm_symm (y : Index) (op : UInt8) : (prefixPerm y op).symm = prefixPerm y op := by
  unfold prefixPerm
  split
  · rfl
  · exact Equiv.symm_swap _ _

/-- Bytes that alone have their meaning. -/
theorem decode_unique (op : UInt8) :
    (decode op = .bits → op = 0xCB) ∧ (decode op = .extended → op = 0xED) ∧
    (decode op = .plain .exx → op = 0xD9) ∧ (decode op = .plain .exDE → op = 0xEB) := by
  have hall : ∀ n : Fin 256, (decode (UInt8.ofFin n) = .bits → n = 0xCB) ∧
      (decode (UInt8.ofFin n) = .extended → n = 0xED) ∧
      (decode (UInt8.ofFin n) = .plain .exx → n = 0xD9) ∧
      (decode (UInt8.ofFin n) = .plain .exDE → n = 0xEB) := by
    decide +kernel
  obtain ⟨hbits, hextended, hexx, hexDE⟩ := hall op.toFin
  exact ⟨fun h => UInt8.toFin_inj.1 (hbits h), fun h => UInt8.toFin_inj.1 (hextended h),
    fun h => UInt8.toFin_inj.1 (hexx h), fun h => UInt8.toFin_inj.1 (hexDE h)⟩

/-- Behind a prefix an instruction does what it does without one, under new names. -/
theorem execute_renames_prefixed {op : UInt8} {i : Instruction} (hop : decode op = .plain i)
    (hi : i.pointed = false) (y : Index) {elapsed : ℕ} (he : elapsed + 16 < UInt32.size) :
    Renames ⟨prefixPerm y op, 1⟩ (i.execute .hl elapsed) (i.execute y (elapsed + 4)) := by
  have htime : Renaming.InTime ⟨prefixPerm y op, 1⟩ (elapsed + 7) := .inr (by
    show elapsed + 7 + 4 * 1 < UInt32.size
    omega)
  have hlate : elapsed + 4 = elapsed + 4 * Renaming.prefixes ⟨prefixPerm y op, 1⟩ := rfl
  have hrenames := fun hfree => i.execute_renames (ρ := ⟨prefixPerm y op, 1⟩) .hl hfree hlate htime
  by_cases hfixed : op = 0xD9 ∨ op = 0xEB ∨ op = 0xED
  · have hhl : prefixPerm y op .hl = .hl := by rw [prefixPerm, if_pos hfixed]; rfl
    have hexecute := hrenames (.inl hhl)
    rw [show Renaming.perm ⟨prefixPerm y op, 1⟩ .hl = .hl from hhl] at hexecute
    -- These opcodes do not look at the index register.
    rcases hfixed with rfl | rfl | rfl
    · cases hop
      exact hexecute
    · cases hop
      exact hexecute
    · cases hop
  · have hy : prefixPerm y op .hl = y := by rw [prefixPerm, if_neg hfixed, Equiv.swap_apply_left]
    have hexx : i ≠ .exx := fun h => hfixed (.inl ((decode_unique op).2.2.1 (h ▸ hop)))
    have hexDE : i ≠ .exDE := fun h => hfixed (.inr (.inl ((decode_unique op).2.2.2 (h ▸ hop))))
    have hexecute := hrenames (.inr ⟨hi, hexx, hexDE⟩)
    rwa [show Renaming.perm ⟨prefixPerm y op, 1⟩ .hl = y from hy] at hexecute

end Opcode

namespace ExtendedInstruction

theorem decode_ne_of_ne {v : UInt8} (hRA : v ≠ 0x4F) (hAR : v ≠ 0x5F) :
    decode v ≠ .ldRA ∧ decode v ≠ .ldAR := by
  have hall : ∀ n : Fin 256, (decode (UInt8.ofFin n) = .ldRA → n = 0x4F) ∧
      (decode (UInt8.ofFin n) = .ldAR → n = 0x5F) := by
    decide +kernel
  obtain ⟨hldRA, hldAR⟩ := hall v.toFin
  exact ⟨fun h => hRA (UInt8.toFin_inj.1 (hldRA h)), fun h => hAR (UInt8.toFin_inj.1 (hldAR h))⟩

end ExtendedInstruction

/-! ### The law -/

/-- On a bus in the state `c`, one program does as another one does under new names, on the bus
where requests for ports are made four T-states later. It takes four T-states more, and R has
counted one fetch more. -/
structure Bus.Prefixed (g : Bus τ) (c : τ) (perm : Equiv.Perm Index)
    (d d' : Program (Option ℕ × Cpu)) : Prop where
  calls : (d.transcript g c).filter shown =
    ((d'.transcript (delay 4 g) c).filter shown).map (saidLater 4)
  ends : Fault.Alike (fun r r' => r.1.1 = r'.1.1.map (4 + ·) ∧
      r.1.2.save = (r'.1.2.renamed ⟨perm, 1⟩).save ∧ r.2 = r'.2) (d.run g c) (d'.run (delay 4 g) c)

section Law

variable {g : Bus τ} {outside : κ → τ → τ} {c₀ c : τ} {w w' : Option Window} {y : Index}
  {op : UInt8}
  {perm : Equiv.Perm Index} {elapsed : ℕ}

namespace Bus.Prefixed

/-- Fetches do not show on either side. -/
theorem of_comesTo {d e d' e' : Program (Option ℕ × Cpu)} (he : Prefixed g c perm e e')
    (hd : ComesTo g c d e) (hd' : ComesTo (delay 4 g) c d' e') : Prefixed g c perm d d' := by
  constructor
  · rw [hd.calls, hd'.calls]
    exact he.calls
  · rw [hd.run, hd'.run]
    exact he.ends

/-- All has been fetched, perhaps through different windows. -/
theorem of_renames (hsound : SoundWindows g outside c₀) (hc : Later g outside c₀ c)
    (hw : ∀ v, w = some v → Issued g outside c₀ v c)
    (hw' : ∀ v, w' = some v → Issued g outside c₀ v c) {m m' : Exec ℕ}
    (hrenames : Renames ⟨perm, 1⟩ m m') (halike : Exec.Alike (windowless hsound) m' m') (t : Cpu) :
    Prefixed g c perm
      ((m' >>= fun rest => pure (4 + rest)) { t.renamed ⟨perm, 1⟩ with window := w })
      (m { t with window := w' }) := by
  have hcost : (m' >>= fun rest => pure (4 + rest)) { t.renamed ⟨perm, 1⟩ with window := w } =
      m' { t.renamed ⟨perm, 1⟩ with window := w } >>= fun r => .done (r.1.map (4 + ·), r.2) := by
    rw [bind_apply]
    congr 1
    funext r
    obtain ⟨o, u⟩ := r
    cases o <;> rfl
  -- What is done through the window `w` is done through `w'` too, and that is the renamed program.
  have hdelayed := hrenames { t with window := w' }
  have hshows := halike.showsSame (s := t.renamed ⟨perm, 1⟩) hc hw hw'
  constructor
  · rw [hcost, Dialogue.transcript_bind_done, hshows.calls]
    have htranscript := hdelayed.transcript g c
    show List.filter shown ((m' (Cpu.renamed { t with window := w' } ⟨perm, 1⟩)).transcript g c) = _
    rw [htranscript, List.filter_map]
    refine congrArg (List.map (saidLater 4)) (List.filter_congr fun said _ => ?_)
    exact shown_saidLater said
  · rw [hcost, Dialogue.run_bind_done]
    have hjoin : Fault.Alike (fun r r' : (Option ℕ × Cpu) × τ => r.1.1 = r'.1.1 ∧
        r.1.2.save = (r'.1.2.renamed ⟨perm, 1⟩).save ∧ r.2 = r'.2) _ _ :=
      hshows.ends.join (hdelayed.run g c) (by
        rintro r r' r'' ⟨hresult, hsave, hbus⟩ ⟨⟨hresult', hstate⟩, hbus'⟩
        exact ⟨hresult.trans hresult', by rw [hsave, hstate], hbus.trans hbus'.symm⟩)
    rw [← id_map ((m { t with window := w' }).run (delay 4 g) c)]
    refine hjoin.map fun r r' hr => ?_
    obtain ⟨hresult, hsave, hbus⟩ := hr
    exact ⟨congrArg (Option.map (4 + ·)) hresult, hsave, hbus⟩

/-- Both fetch an opcode. -/
theorem fetchOpcode (hsound : SoundWindows g outside c₀) (hc : Later g outside c₀ c)
    (hw : ∀ v, w = some v → Issued g outside c₀ v c) {u : Cpu}
    (hu : ∀ v, u.window = some v → Issued g outside c₀ v c) {x : UInt8}
    (hread : g (.read u.regs.pc) c = .ok (x, c)) {F F' : UInt8 → Exec ℕ}
    (hF : ∀ w₁ w₂, (∀ v, w₁ = some v → Issued g outside c₀ v c) →
      (∀ v, w₂ = some v → Issued g outside c₀ v c) →
      Prefixed g c perm (F x { (u.fetchedOpcode w₂).renamed ⟨perm, 1⟩ with window := w₁ })
        (F' x (u.fetchedOpcode w₂))) :
    Prefixed g c perm ((Exec.fetchOpcode >>= F) { u.renamed ⟨perm, 1⟩ with window := w })
      ((Exec.fetchOpcode >>= F') u) := by
  obtain ⟨w₁, hw₁, hleft⟩ :=
    fetchOpcode_comesTo hsound hc (s := { u.renamed ⟨perm, 1⟩ with window := w }) hw hread 0
  obtain ⟨w₂, hw₂, hright⟩ := fetchOpcode_comesTo hsound hc hu hread 4
  have hstate : Cpu.fetchedOpcode { u.renamed ⟨perm, 1⟩ with window := w } w₁ =
      { (u.fetchedOpcode w₂).renamed ⟨perm, 1⟩ with window := w₁ } := by
    show (u.renamed ⟨perm, 1⟩).fetchedOpcode w₁ = _
    rw [Cpu.fetchedOpcode_renamed]
    rfl
  have hnext := hF w₁ w₂ hw₁ hw₂
  rw [← hstate] at hnext
  have hleft := hleft F
  rw [delay_zero] at hleft
  exact hnext.of_comesTo hleft (hright F')

/-- The opcode behind a prefix is executed. -/
theorem execute (hsound : SoundWindows g outside c₀) (hc : Later g outside c₀ c)
    (hw : ∀ v, w = some v → Issued g outside c₀ v c) {u : Cpu}
    (hu : ∀ v, u.window = some v → Issued g outside c₀ v c) (he : elapsed + 16 < UInt32.size)
    (hop : op ≠ 0xCB) (hindex : Opcode.isIndex op = false)
    (hmem : ∀ i, Opcode.decode op = .plain i → i.pointed = false)
    (hED : op = 0xED → ∃ v, g (.read u.regs.pc) c = .ok (v, c) ∧ v ≠ 0x4F ∧ v ≠ 0x5F) :
    Prefixed g c (Opcode.prefixPerm y op)
      (((Opcode.decode op).execute y (elapsed + 4) >>= fun rest => pure (4 + rest))
        { u.renamed ⟨Opcode.prefixPerm y op, 1⟩ with window := w })
      ((Opcode.decode op).execute .hl elapsed u) := by
  cases hdecode : Opcode.decode op with
  | index z => exact absurd hdecode (Opcode.decode_ne_index hindex z)
  | bits => exact absurd ((Opcode.decode_unique op).1 hdecode) hop
  | plain i =>
    exact of_renames hsound hc hw hu
      (Opcode.execute_renames_prefixed hdecode (hmem i hdecode) y he) (i.execute_alike y _) u
  | extended =>
    -- One more byte is fetched on either side, before what it means is executed under new names.
    obtain rfl := (Opcode.decode_unique op).2.1 hdecode
    obtain ⟨v, hv, hRA, hAR⟩ := hED rfl
    have hassoc : ((Opcode.extended.execute y (elapsed + 4)) >>= fun rest => pure (4 + rest)) =
        Exec.fetchOpcode >>= fun b =>
          (ExtendedInstruction.decode b).execute (elapsed + 4) >>= fun rest => pure (4 + rest) :=
      bind_assoc _ _ _
    have hsecond := ExtendedInstruction.decode_ne_of_ne hRA hAR
    rw [hassoc]
    show Prefixed g c _ _
      ((Exec.fetchOpcode >>= fun b => (ExtendedInstruction.decode b).execute elapsed) u)
    refine fetchOpcode hsound hc hw hu hv fun w₁ w₂ hw₁ hw₂ => ?_
    refine of_renames hsound hc hw₁ hw₂ ?_ (ExtendedInstruction.execute_alike _ _)
      (u.fetchedOpcode w₂)
    refine ExtendedInstruction.execute_renames rfl _ (.inr hsecond) rfl fun e hle => .inr ?_
    show elapsed + e + 4 * 1 < UInt32.size
    omega

end Bus.Prefixed

namespace Registers

/-- The renaming by DD exchanges HL and IX, and by FD HL and IY. -/
theorem renamed_prefixPerm (r : Registers) (hop : op ≠ 0xD9 ∧ op ≠ 0xEB ∧ op ≠ 0xED) :
    r.renamed ⟨Opcode.prefixPerm .ix op, 0⟩ = { r.setHL r.ix with ix := r.hl } ∧
      r.renamed ⟨Opcode.prefixPerm .iy op, 0⟩ = { r.setHL r.iy with iy := r.hl } := by
  have hnone : ¬(op = 0xD9 ∨ op = 0xEB ∨ op = 0xED) := by
    rw [not_or, not_or]
    exact hop
  simp only [renamed, arranged, Opcode.prefixPerm, if_neg hnone, fetched_zero]
  exact ⟨rfl, rfl⟩

/-- The exchange is undone by itself, and then R has counted the prefix. -/
theorem renamed_renamed (r : Registers) (y : Index) (op : UInt8) :
    (r.renamed ⟨Opcode.prefixPerm y op, 0⟩).renamed ⟨Opcode.prefixPerm y op, 1⟩ = r.refresh := by
  have hindex :
      ∀ x, (r.renamed ⟨Opcode.prefixPerm y op, 0⟩).index ((Opcode.prefixPerm y op).symm x) =
        r.index x := fun x => by
    rw [Opcode.prefixPerm_symm]
    exact r.index_renamed ⟨Opcode.prefixPerm y op, 0⟩ x
  have hr : fetched 1 (r.renamed ⟨Opcode.prefixPerm y op, 0⟩).r = fetched 1 r.r :=
    congrArg (fetched 1) (fetched_zero r.r)
  have hself :
      r.arranged r.index (fetched 1 r.r) = { r.arranged r.index r.r with r := fetched 1 r.r } := rfl
  rw [renamed, hr, funext hindex, renamed, arranged_arranged, hself, arranged_self]
  rfl

end Registers

/-- A prefix is a renaming. Let the windows of a bus show what reading gives, and let the processor
be about to fetch a prefix from it and then an opcode that does not access the byte at HL, and is no
prefix and no CB, where these bytes are read without effect. Executing both comes to what executing
the opcode alone comes to, at the address behind the prefix, on a processor where HL and the index
register have been exchanged, if they are exchanged back afterwards; for EXX, EX DE,HL and an
instruction after ED, which must not be a load from or to R, nothing is exchanged. R has then
counted one fetch more, the cost is 4 higher, and requests for ports are made with 4 T-states
more. -/
theorem Cpu.prefix_renames (hsound : SoundWindows g outside c₀) (hc : Later g outside c₀ c)
    (s : Cpu) (hw : ∀ v, s.window = some v → Issued g outside c₀ v c) {p : UInt8}
    (hp : Opcode.decode p = .index y) (hbyte : g (.read s.regs.pc) c = .ok (p, c))
    (hread : g (.read (s.regs.pc + 1)) c = .ok (op, c)) (he : elapsed + 16 < UInt32.size)
    (hop : op ≠ 0xCB ∧ op ≠ 0xDD ∧ op ≠ 0xFD)
    (hmem : ∀ i, Opcode.decode op = .plain i → i.pointed = false)
    (hED : op = 0xED → ∃ v, g (.read (s.regs.pc + 1 + 1)) c = .ok (v, c) ∧ v ≠ 0x4F ∧ v ≠ 0x5F) :
    Bus.Prefixed g c (Opcode.prefixPerm y op) ((fetchOpcode >>= instruction elapsed) s)
      ((fetchOpcode >>= instruction elapsed) { s with
        regs := { s.regs.renamed ⟨Opcode.prefixPerm y op, 0⟩ with pc := s.regs.pc + 1 } }) := by
  have hindex : Opcode.isIndex op = false := by
    unfold Opcode.isIndex
    rw [beq_false_of_ne hop.2.1, beq_false_of_ne hop.2.2, Bool.or_false]
  let u : Cpu :=
    { s with regs := { s.regs.renamed ⟨Opcode.prefixPerm y op, 0⟩ with pc := s.regs.pc + 1 } }
  obtain ⟨w₁, hw₁, hleft⟩ := prefixed_comesTo hsound hc hw hp hbyte hread hindex elapsed
  obtain ⟨w₂, hw₂, hright⟩ := unprefixed_comesTo hsound hc (s := u) hw hread hindex elapsed 4
  have hbehind :
      u.renamed ⟨Opcode.prefixPerm y op, 1⟩ = { s.fetchedOpcode none with window := s.window } := by
    have haside : Registers.Aside fun r => { r with pc := s.regs.pc + 1 } := fun _ _ _ => rfl
    show { s with regs := ({ s.regs.renamed ⟨Opcode.prefixPerm y op, 0⟩ with
      pc := s.regs.pc + 1 }).renamed ⟨Opcode.prefixPerm y op, 1⟩ } = _
    rw [← haside.renamed, Registers.renamed_renamed]
    rfl
  have hstate : (s.fetchedOpcode none).fetchedOpcode w₁ =
      { (u.fetchedOpcode w₂).renamed ⟨Opcode.prefixPerm y op, 1⟩ with window := w₁ } := by
    rw [← Cpu.fetchedOpcode_renamed, hbehind]
    rfl
  rw [hstate] at hleft
  exact (Bus.Prefixed.execute hsound hc hw₁ hw₂ he hop.1 hindex hmem hED).of_comesTo hleft hright

end Law

/-- A processor with `1234h` in IX and 1 in BC. -/
def Cpu.adding : Cpu := { initial with regs := { initial.regs.setBC 1 with ix := 0x1234 } }

/-- `ADD IX,BC` comes to `ADD HL,BC`. -/
theorem Cpu.prefix_renames_add :
    ∃ t t', ((fetchOpcode >>= instruction 0) Cpu.adding).run (Bus.rom [0xDD, 0x09]) [] =
        .ok ((some 15, t), []) ∧
      ((fetchOpcode >>= instruction 0) { Cpu.adding with
        regs := { Cpu.adding.regs.setHL 0x1234 with ix := Cpu.adding.regs.hl, pc := 1 } }).run
          (delay 4 (Bus.rom [0xDD, 0x09])) [] = .ok ((some 11, t'), []) ∧
      t'.regs.hl = 0x1235 ∧ t.save = (t'.renamed ⟨Opcode.prefixPerm .ix 0x09, 1⟩).save := by
  have hsound := rom_soundWindows [0xDD, 0x09] (fun (_ : Unit) out => out) []
  have hbyte : Bus.rom [0xDD, 0x09] (.read 0) [] = .ok (0xDD, []) := rfl
  have hopcode : Bus.rom [0xDD, 0x09] (.read 1) [] = .ok (0x09, []) := rfl
  have hsize : 0 + 16 < UInt32.size := by decide
  have hprefixed :=
    Cpu.prefix_renames hsound .refl Cpu.adding nofun (y := .ix) rfl hbyte hopcode hsize
    (by decide) (fun i hi => by cases hi; rfl) fun h => absurd h (by decide)
  rw [(Registers.renamed_prefixPerm Cpu.adding.regs (by decide)).1] at hprefixed
  have hadd : ∃ t', ((fetchOpcode >>= instruction 0) { Cpu.adding with
        regs := { Cpu.adding.regs.setHL 0x1234 with ix := Cpu.adding.regs.hl, pc := 1 } }).run
          (delay 4 (Bus.rom [0xDD, 0x09])) [] = .ok ((some 11, t'), []) ∧ t'.regs.hl = 0x1235 :=
    ⟨_, rfl, rfl⟩
  obtain ⟨t', ht', hhl⟩ := hadd
  obtain ⟨⟨⟨cost, t⟩, out⟩, ht, hcost, hsave, rfl⟩ := hprefixed.ends.exists_ok_eq ht'
  cases hcost
  exact ⟨t, t', ht, ht', hhl, hsave⟩

end TandemZ80
