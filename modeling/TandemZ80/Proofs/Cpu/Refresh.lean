import TandemZ80.Proofs.Cpu.Contract
import TandemZ80.Proofs.Cpu.Idle
import TandemZ80.Proofs.Cpu.Interrupts
import TandemZ80.Proofs.Cpu.PrefixRenames
import TandemZ80.Proofs.Cpu.Retries

/-!
# What R counts

The low seven bits of R count the M1 cycles, in which opcodes are fetched. Which of the bytes that a
bus shows in a step are opcodes follows from the bytes themselves: what comes behind CB and ED is
one, and so is what comes behind an index prefix, though it is looked at first; but behind an index
prefix and CB neither the displacement nor the last byte is one. The top bit of R stays.

* `Bus.bytesShown`, the bytes shown in a transcript, and `Opcode.inM1`, the opcodes among them;
* `Registers.Counted`, what the opcodes make of R, and `Exec.opcode_counted`, by induction on the
  prefixes;
* `Cpu.m1Cycles` and `Cpu.LoadsR`, and a whole step in `Cpu.refreshed_of_step`;
* `Cpu.Influence`, all that changes a processor, `Cpu.Course`, a course in which nothing sets R, and
  `Cpu.r_counts_m1`.
-/

namespace TandemZ80

variable {α σ : Type}

/-! ### Opcodes among the bytes -/

namespace Bus

/-- The byte that an answer shows: one from memory, or the one that acknowledges an interrupt. -/
def byteShown : (q : Call) × Reply q → Option UInt8
  | ⟨.read _, v⟩ => some v
  | ⟨.readWindow .., v⟩ => v
  | ⟨.acknowledge, v⟩ => some v
  | _ => none

/-- The bytes that a bus has shown, in their order. -/
def bytesShown (said : List ((q : Call) × Reply q)) : List UInt8 := said.filterMap byteShown

theorem bytesShown_append (said said' : List ((q : Call) × Reply q)) :
    bytesShown (said ++ said') = bytesShown said ++ bytesShown said' := List.filterMap_append

section Fetch

variable {h : Bus σ} {b b' : σ} {a : UInt16} {v : UInt8} {w w' : Option Window}

/-- Through a window or past it, a fetch is shown the byte that it gets and no other. -/
theorem bytesShown_fetch (hr : (fetch w a).run h b = .ok ((v, w'), b')) :
    bytesShown ((fetch w a).transcript h b) = [v] := by
  rcases transcript_fetch hr with ⟨u, hsaid⟩ | ⟨o, hsaid⟩ | ⟨u, o, hsaid⟩ <;> rw [hsaid] <;> rfl

end Fetch
end Bus

namespace Opcode

/-- The opcodes that are fetched in M1 cycles, among the bytes from an opcode on. `indexed` tells
whether there was an index prefix before. -/
def inM1 (indexed : Bool) : List UInt8 → List UInt8
  | [] => []
  | op :: rest =>
    if op = 0xED ∨ op = 0xCB ∧ indexed = false then op :: rest.take 1
    else if isIndex op then
      -- The byte behind a prefix is shown twice, and is left to the next step if it is a prefix,
      -- too.
      match rest with
      | [] => [op]
      | seen :: rest => if isIndex seen then [op] else op :: inM1 true rest
    else [op]

theorem decode_eq_bits_iff {op : UInt8} : decode op = .bits ↔ op = 0xCB :=
  ⟨(decode_unique op).1, fun h => h ▸ rfl⟩

theorem decode_eq_extended_iff {op : UInt8} : decode op = .extended ↔ op = 0xED :=
  ⟨(decode_unique op).2.1, fun h => h ▸ rfl⟩

theorem ldRA_iff {op : UInt8} : ExtendedInstruction.decode op = .ldRA ↔ op = 0x4F := by
  refine ⟨fun h => ?_, fun h => h ▸ rfl⟩
  by_contra hRA
  by_cases hAR : op = 0x5F
  · subst hAR
    cases h
  · exact (ExtendedInstruction.decode_ne_of_ne hRA hAR).1 h

/-- No prefix stands for HL. -/
theorem decode_ne_hl (op : UInt8) : decode op ≠ .index .hl := by
  intro h
  have hindex := isIndex_of_decode h
  rw [isIndex, Bool.or_eq_true, beq_iff_eq, beq_iff_eq] at hindex
  rcases hindex with rfl | rfl
  · cases h
  · cases h

section InM1

variable {indexed : Bool} {op seen : UInt8} {rest : List UInt8}

theorem inM1_plain {i : Instruction} (hop : decode op = .plain i) :
    inM1 indexed (op :: rest) = [op] := by
  have hne : ∀ {o}, decode op = o → (∀ i, o ≠ .plain i) → False :=
    fun ho h => h i (ho.symm.trans hop)
  have hED : op ≠ 0xED := fun h => hne (decode_eq_extended_iff.2 h) nofun
  have hCB : op ≠ 0xCB := fun h => hne (decode_eq_bits_iff.2 h) nofun
  have hindex : ¬isIndex op = true := fun h => by
    obtain ⟨y, hy⟩ := exists_decode_index h
    exact hne hy nofun
  unfold inM1
  rw [if_neg (by simp [hED, hCB]), if_neg hindex]

theorem inM1_bits (v : UInt8) : inM1 false (0xCB :: v :: rest) = [0xCB, v] := rfl

theorem inM1_indexed_bits : inM1 true (0xCB :: rest) = [0xCB] := by
  unfold inM1
  rfl

theorem inM1_extended (v : UInt8) : inM1 indexed (0xED :: v :: rest) = [0xED, v] := rfl

theorem inM1_index (hop : isIndex op = true) :
    inM1 indexed (op :: seen :: rest) = if isIndex seen then [op] else op :: inM1 true rest := by
  have hED : op ≠ 0xED := by
    rintro rfl
    cases hop
  have hCB : op ≠ 0xCB := by
    rintro rfl
    cases hop
  rw [inM1, if_neg (by simp [hED, hCB]), if_pos hop]

theorem inM1_ne_nil : inM1 indexed (op :: rest) ≠ [] := by
  unfold inM1
  split_ifs
  · exact List.cons_ne_nil _ _
  · cases rest with
    | nil => exact List.cons_ne_nil _ _
    | cons seen rest =>
      dsimp only
      split_ifs <;> exact List.cons_ne_nil _ _
  · exact List.cons_ne_nil _ _

end InM1
end Opcode

/-! ### What opcodes make of R -/

namespace Registers

/-- The opcodes of `LD R,A`. -/
def ldRA : List UInt8 := [0xED, 0x4F]

/-- From `s` to `t` the opcodes have been executed, of which the first one was counted before: R has
counted the others, or A has been loaded into it. -/
def Counted (opcodes : List UInt8) (s t : Registers) : Prop :=
  t.r = if ldRA <:+ opcodes then s.a else fetched opcodes.tail.length s.r

theorem Counted.single {op : UInt8} {s t : Registers} (h : t.r = s.r) : Counted [op] s t := by
  have hlength : ¬ldRA <:+ [op] := fun hsuffix => by
    have hle := hsuffix.length_le
    simp [ldRA] at hle
  rw [Counted, if_neg hlength, h]
  exact (fetched_zero _).symm

/-- All of the opcodes are counted, if the first one was counted just before. -/
theorem Counted.all {opcodes : List UInt8} {s s' t : Registers} (h : Counted opcodes s' t)
    (hnil : opcodes ≠ []) (ha : s'.a = s.a) (hr : s'.r = fetched 1 s.r) :
    t.r = if ldRA <:+ opcodes then s.a else fetched opcodes.length s.r := by
  obtain ⟨op, opcodes, rfl⟩ := List.exists_cons_of_ne_nil hnil
  rw [h, ha, hr, fetched_fetched, List.tail_cons, List.length_cons, Nat.add_comm]

/-- A prefix is counted before the opcodes behind it. -/
theorem Counted.cons {op : UInt8} {opcodes : List UInt8} {s s' t : Registers}
    (h : Counted opcodes s' t) (hop : op ≠ 0xED) (hnil : opcodes ≠ []) (ha : s'.a = s.a)
    (hr : s'.r = fetched 1 s.r) : Counted (op :: opcodes) s t := by
  have hsuffix : ldRA <:+ op :: opcodes ↔ ldRA <:+ opcodes := by
    rw [List.suffix_cons_iff]
    exact or_iff_right fun heq => hop (List.cons.inj heq).1.symm
  unfold Counted
  simp only [hsuffix]
  exact h.all hnil ha hr

theorem fetched_high (k : ℕ) (r : UInt8) : fetched k r &&& 0x80 = r &&& 0x80 := by
  have htop : (0x80 : UInt8) &&& 0x80 = 0x80 := rfl
  have hnone : (0x7F : UInt8) &&& 0x80 = 0 := rfl
  rw [fetched, Flags.or_and, UInt8.and_assoc, UInt8.and_assoc, htop, hnone, UInt8.and_zero,
    UInt8.or_zero]

/-- R with so many M1 cycles counted: the top bit stays, and the others are a number that wraps. -/
theorem fetched_eq (k : ℕ) (r : UInt8) :
    fetched k r = r &&& 0x80 ||| UInt8.ofNat ((r.toNat + k) % 128) := by
  have hlow : (r + UInt8.ofNat k) &&& 0x7F = UInt8.ofNat ((r.toNat + k) % 128) := by
    have hmask : (0x7F : UInt8).toNat = 2 ^ 7 - 1 := rfl
    refine UInt8.toNat_inj.1 ?_
    simp only [UInt8.toNat_and, UInt8.toNat_add, UInt8.toNat_ofNat', hmask,
      Nat.and_two_pow_sub_one_eq_mod]
    omega
  rw [fetched, hlow]

end Registers

namespace Exec

open Bus Registers

variable {h : Bus σ} {b b' : σ} {s t : Cpu} {cost : ℕ}

/-- R stays as it is in all that has no right to move it. -/
theorem Built.keepsR {rights : Right → Prop} {m : Exec α} (hm : Built rights m)
    (hr : ¬rights .moveR) (s : Cpu) : (m s).Ends fun r => r.2.regs.r = s.regs.r :=
  (hm.unchanged s).mono fun _ ht => ht.r hr

/-- The run of a part that begins with an opcode fetch: that byte is shown, R counts it, and PC
moves on. -/
theorem run_fetchOpcode_bind {f : UInt8 → Exec α} {r : (Option α × Cpu) × σ}
    (hr : ((fetchOpcode >>= f) s).run h b = .ok r) :
    ∃ v t b₁, t.regs = { s.regs.refresh with pc := s.regs.pc + 1 } ∧ (f v t).run h b₁ = .ok r ∧
      bytesShown (((fetchOpcode >>= f) s).transcript h b) =
        v :: bytesShown ((f v t).transcript h b₁) := by
  rw [fetchOpcode_bind] at hr ⊢
  obtain ⟨⟨v, w⟩, b₁, hv, hr, hsaid⟩ := Dialogue.run_bind_eq_ok hr
  refine ⟨v, _, b₁, rfl, hr, ?_⟩
  rw [hsaid, bytesShown_append, bytesShown_fetch hv]
  rfl

/-- The run of a part that begins with a look at an opcode: that byte is shown, and nothing is
counted. -/
theorem run_peekOpcode_bind {f : UInt8 → Exec α} {r : (Option α × Cpu) × σ}
    (hr : ((peekOpcode >>= f) s).run h b = .ok r) :
    ∃ v t b₁, t.regs = s.regs ∧ (f v t).run h b₁ = .ok r ∧
      bytesShown (((peekOpcode >>= f) s).transcript h b) =
        v :: bytesShown ((f v t).transcript h b₁) := by
  rw [peekOpcode_bind] at hr ⊢
  obtain ⟨⟨v, w⟩, b₁, hv, hr, hsaid⟩ := Dialogue.run_bind_eq_ok hr
  refine ⟨v, { s with window := w }, b₁, rfl, hr, ?_⟩
  rw [hsaid, bytesShown_append, bytesShown_fetch hv]
  rfl

/-- A cost that is added at the end changes nothing else. -/
theorem run_add {m : Exec ℕ} {k : ℕ}
    (hr : ((m >>= fun rest => pure (k + rest)) s).run h b = .ok ((some cost, t), b')) :
    (∃ rest, (m s).run h b = .ok ((some rest, t), b')) ∧
      ((m >>= fun rest => pure (k + rest)) s).transcript h b = (m s).transcript h b := by
  obtain ⟨⟨o, u⟩, b₁, hm, hr, hsaid⟩ := Dialogue.run_bind_eq_ok hr
  cases o with
  | none => cases hr
  | some rest =>
    cases hr
    exact ⟨⟨rest, hm⟩, hsaid.trans (List.append_nil _)⟩

/-- Behind ED comes one more opcode. -/
theorem extended_counted {elapsed : ℕ} {indexed : Bool}
    (hr : ((fetchOpcode >>= fun v => (ExtendedInstruction.decode v).execute elapsed) s).run h b =
      .ok ((some cost, t), b')) :
    Counted (Opcode.inM1 indexed (0xED :: bytesShown (((fetchOpcode >>= fun v =>
      (ExtendedInstruction.decode v).execute elapsed) s).transcript h b)))
      s.regs t.regs := by
  obtain ⟨v, u, b₁, hu, hr, hsaid⟩ := run_fetchOpcode_bind hr
  rw [hsaid, Opcode.inM1_extended]
  have hcount : u.regs.r = fetched 1 s.regs.r := by rw [hu]; rfl
  have hloads : ldRA <:+ [0xED, v] ↔ v = 0x4F := by
    refine ⟨fun hsuffix => ?_, fun hv => ⟨[], by rw [hv]; rfl⟩⟩
    have heq := hsuffix.eq_of_length rfl
    exact (List.cons.inj (List.cons.inj heq).2).1.symm
  unfold Counted
  simp only [hloads]
  by_cases hv : v = 0x4F
  · rw [if_pos hv]
    rw [Opcode.ldRA_iff.2 hv] at hr
    cases hr
    show u.regs.a = s.regs.a
    rw [hu]
    rfl
  · rw [if_neg hv]
    have hbuilt : Built (fun _ => False) ((ExtendedInstruction.decode v).execute elapsed) :=
      ExtendedInstruction.execute_built _ (fun hv' => hv (Opcode.ldRA_iff.1 hv')) elapsed
    exact ((hbuilt.keepsR id u).run hr).trans hcount

/-- Behind CB comes one more opcode. -/
theorem bits_counted
    (hr : ((fetchOpcode >>= fun v => (BitInstruction.decode v).execute) s).run h b =
      .ok ((some cost, t), b')) :
    Counted (Opcode.inM1 false (0xCB :: bytesShown
      (((fetchOpcode >>= fun v => (BitInstruction.decode v).execute) s).transcript h b)))
      s.regs t.regs := by
  obtain ⟨v, u, b₁, hu, hr, hsaid⟩ := run_fetchOpcode_bind hr
  rw [hsaid, Opcode.inM1_bits]
  have hcount : u.regs.r = fetched 1 s.regs.r := by rw [hu]; rfl
  have hother : ¬ldRA <:+ [0xCB, v] := fun hsuffix => by
    have heq := hsuffix.eq_of_length rfl
    cases heq
  rw [Counted, if_neg hother]
  have hbuilt : Built (fun _ => False) (BitInstruction.decode v).execute :=
    BitInstruction.execute_built _
  exact ((hbuilt.keepsR id u).run hr).trans hcount

/-- Behind an index prefix comes one more opcode, unless it is a prefix, too. -/
theorem prefix_counted {op : UInt8} (hop : Opcode.isIndex op = true) {indexed : Bool}
    {f : UInt8 → Exec ℕ} (hf : ∀ v u b₁, (f v u).run h b₁ = .ok ((some cost, t), b') →
      Counted (Opcode.inM1 true (v :: bytesShown ((f v u).transcript h b₁))) u.regs t.regs)
    (hr : ((peekOpcode >>= fun seen => if Opcode.isIndex seen then pure 4 else fetchOpcode >>= f)
      s).run h b = .ok ((some cost, t), b')) :
    Counted (Opcode.inM1 indexed (op :: bytesShown (((peekOpcode >>= fun seen =>
      if Opcode.isIndex seen then pure 4 else fetchOpcode >>= f) s).transcript h b)))
      s.regs t.regs := by
  have hED : op ≠ 0xED := by
    rintro rfl
    cases hop
  obtain ⟨seen, u, b₁, hu, hr, hsaid⟩ := run_peekOpcode_bind hr
  rw [hsaid, Opcode.inM1_index hop]
  by_cases hseen : Opcode.isIndex seen = true
  · rw [if_pos hseen] at hr ⊢
    cases hr
    exact .single (by rw [hu])
  · rw [if_neg hseen]
    rw [if_neg hseen] at hr
    obtain ⟨v, u', b₂, hu', hr, hsaid'⟩ := run_fetchOpcode_bind hr
    simp only [if_neg hseen, hsaid']
    refine (hf v u' b₂ hr).cons hED Opcode.inM1_ne_nil ?_ ?_
    · rw [hu', ← hu]
      rfl
    · rw [hu', ← hu]
      rfl

/-- The opcodes that an opcode and its operands are made of are counted, but for the first one,
which has been fetched before. -/
theorem opcode_counted {n : ℕ} {x : Index} {elapsed : ℕ} {op : UInt8}
    (hr : (opcode n x elapsed op s).run h b = .ok ((some cost, t), b')) :
    Counted (Opcode.inM1 (x != .hl) (op :: bytesShown ((opcode n x elapsed op s).transcript h b)))
      s.regs t.regs := by
  induction n generalizing x elapsed op s b cost with
  | zero => cases hr
  | succ n ih =>
    unfold opcode at hr ⊢
    cases hop : Opcode.decode op with
    | plain i =>
      simp only [hop] at hr ⊢
      rw [Opcode.inM1_plain hop]
      have hbuilt : Built (· = Right.holdOff) (i.execute x elapsed) := by
        refine i.execute_built (fun _ => ?_) x elapsed
        rfl
      exact .single ((hbuilt.keepsR Right.noConfusion s).run hr)
    | bits =>
      simp only [hop] at hr ⊢
      obtain rfl := Opcode.decode_eq_bits_iff.1 hop
      by_cases hx : x = .hl
      · subst hx
        exact bits_counted hr
      · rw [if_neg hx] at hr ⊢
        rw [bne_iff_ne.2 hx, Opcode.inM1_indexed_bits]
        have hbuilt : Built (fun _ => False) (fetchByte >>= fun d => fetchByte >>= fun v =>
            (BitInstruction.decode v).executeIndexed x d) :=
          .bind .fetchByte fun d => .bind .fetchByte fun v =>
            BitInstruction.executeIndexed_built _ x d
        exact .single ((hbuilt.keepsR id s).run hr)
    | extended =>
      simp only [hop] at hr ⊢
      obtain rfl := Opcode.decode_eq_extended_iff.1 hop
      exact extended_counted hr
    | index y =>
      simp only [hop] at hr ⊢
      have hy : (y != .hl) = true := by
        cases y with
        | hl => exact absurd hop (Opcode.decode_ne_hl op)
        | _ => rfl
      refine prefix_counted (Opcode.isIndex_of_decode hop) (fun v u b₁ hr => ?_) hr
      -- What comes behind the prefix is an opcode on the register that it names.
      obtain ⟨⟨rest, hrest⟩, hsaid⟩ := run_add hr
      have hcounted := ih hrest
      rw [hy] at hcounted
      rw [hsaid]
      exact hcounted

theorem acceptNMI_refreshes (s : Cpu) :
    (acceptNMI s).Ends fun r => r.2.regs.r = fetched 1 s.regs.r := by
  have hrest :
      Built (fun _ => False) (push s.regs.pc >>= fun _ => jump 0x0066 >>= fun _ => pure 11) :=
    .bind (.push _) fun _ => .bind (.jump _) fun _ => .pure _
  exact (hrest.keepsR id _).mono fun _ hr => hr

/-- But in mode 0 no opcode comes with an interrupt, and R counts the acceptance only. -/
theorem serve_keepsR {m : InterruptMode} (hm : m ≠ .mode0) (s : Cpu) :
    (serve m s).Ends fun r => r.2.regs.r = s.regs.r := by
  have hbuilt : Built (· = Right.acknowledge) (serve m) := by
    refine serve_built m (fun hmode => absurd hmode hm) ?_
    rfl
  exact hbuilt.keepsR Right.noConfusion s

end Exec

/-! ### Steps -/

namespace Cpu

open Bus Exec Registers

/-- The opcodes fetched in M1 cycles in a step in which this was said; `none` if the step executes
no opcode. In mode 0 an opcode comes with the acknowledgement of an interrupt. -/
def opcodes (s : Cpu) (said : List ((q : Call) × Reply q)) : Option (List UInt8) :=
  match s.action, s.regs.im with
  | .execute, _ | .acceptInt, .mode0 => some (Opcode.inM1 false (bytesShown said))
  | _, _ => none

/-- The M1 cycles of a step. The acceptance of an interrupt is one, and a slot of a halt is one. -/
def m1Cycles (s : Cpu) (said : List ((q : Call) × Reply q)) : ℕ :=
  (s.opcodes said).elim 1 List.length

/-- A step executes `LD R,A`, be it behind an index prefix. -/
def LoadsR (s : Cpu) (said : List ((q : Call) × Reply q)) : Prop :=
  ∃ ops ∈ s.opcodes said, ldRA <:+ ops

/-- From `s` to `t` R has counted the M1 cycles of a step in which this was said, or A has been
loaded. -/
structure Refreshed (s t : Cpu) (said : List ((q : Call) × Reply q)) : Prop where
  loaded : s.LoadsR said → t.regs.r = s.regs.a
  counted : ¬s.LoadsR said → t.regs.r = fetched (s.m1Cycles said) s.regs.r

section Step

variable {h : Bus σ} {s t u : Cpu} {b b' : σ} {cost : ℕ} {said : List ((q : Call) × Reply q)}

theorem Refreshed.of_opcodes {ops : List UInt8} (hops : s.opcodes said = some ops)
    (hr : t.regs.r = if ldRA <:+ ops then s.regs.a else fetched ops.length s.regs.r) :
    Refreshed s t said := by
  have hloads : s.LoadsR said ↔ ldRA <:+ ops := by
    unfold LoadsR
    simp only [hops, Option.mem_some_iff, exists_eq_left']
  refine ⟨fun hl => ?_, fun hl => ?_⟩
  · rw [hr, if_pos (hloads.1 hl)]
  · rw [hr, if_neg fun h => hl (hloads.2 h), m1Cycles, hops]
    rfl

theorem Refreshed.of_none (hops : s.opcodes said = none) (hr : t.regs.r = fetched 1 s.regs.r) :
    Refreshed s t said := by
  refine ⟨fun hl => ?_, fun _ => ?_⟩
  · obtain ⟨ops, hmem, -⟩ := hl
    rw [hops] at hmem
    cases hmem
  · rw [m1Cycles, hops]
    exact hr

/-- The body of a step, if no port refuses it. -/
theorem perform_refreshed
    (hr : (perform s.action { s with afterEI := false }).run h b = .ok ((some cost, u), b')) :
    Refreshed s u ((perform s.action { s with afterEI := false }).transcript h b) := by
  cases ha : s.action with
  | acceptNMI =>
    rw [ha] at hr
    exact .of_none (by rw [opcodes, ha]) ((acceptNMI_refreshes _).run hr)
  | wait =>
    rw [ha] at hr
    cases hr
    exact .of_none (by rw [opcodes, ha]) rfl
  | execute =>
    rw [ha] at hr
    obtain ⟨v, t, b₁, ht, hr, hsaid⟩ := run_fetchOpcode_bind hr
    have hsaid : bytesShown ((perform .execute { s with afterEI := false }).transcript h b) =
        v :: bytesShown ((instruction 0 v t).transcript h b₁) := hsaid
    refine .of_opcodes (by rw [opcodes, ha]) ?_
    rw [hsaid]
    exact (opcode_counted hr).all Opcode.inM1_ne_nil (by rw [ht]; rfl) (by rw [ht]; rfl)
  | acceptInt =>
    rw [ha] at hr
    have hserve : perform .acceptInt { s with afterEI := false } =
        serve s.regs.im { s with regs := acknowledged s.regs, afterEI := false } := acceptInt_eq _
    rw [hserve] at hr ⊢
    by_cases hm : s.regs.im = .mode0
    · rw [hm] at hr ⊢
      obtain ⟨⟨op, b₁⟩, hop, hr⟩ := Fault.bind_eq_ok hr
      obtain ⟨⟨rest, hrest⟩, hsaid⟩ := run_add hr
      have hsaid : bytesShown ((serve .mode0 _).transcript h b) =
          op :: bytesShown ((instruction 2 op _).transcript h b₁) :=
        congrArg bytesShown ((Dialogue.transcript_ask hop _).trans (congrArg _ hsaid))
      refine .of_opcodes (by rw [opcodes, ha, hm]) ?_
      rw [hsaid]
      exact (opcode_counted hrest).all Opcode.inM1_ne_nil rfl rfl
    · refine .of_none ?_ ((serve_keepsR hm _).run hr)
      rw [opcodes, ha]
      cases him : s.regs.im with
      | mode0 => exact absurd him hm
      | _ => rfl

/-- A step that is not refused counts its M1 cycles. -/
theorem refreshed_of_step (hr : s.step.run h b = .ok ((cost, t), b')) (hcost : cost ≠ 0) :
    Refreshed s t (s.step.transcript h b) := by
  rw [step_transcript]
  rcases step_cases hr with ⟨u, -, hzero, -⟩ | ⟨u, ticks, hbody, -, rfl⟩
  · exact absurd hzero hcost
  · have hu := perform_refreshed hbody
    exact ⟨hu.loaded, hu.counted⟩

/-- The top bit of R stays in a step that does not load R; a step that is refused gives R back. -/
theorem high_of_step (hr : s.step.run h b = .ok ((cost, t), b'))
    (hl : ¬s.LoadsR (s.step.transcript h b)) : t.regs.r &&& 0x80 = s.regs.r &&& 0x80 := by
  rcases step_cases hr with ⟨u, -, -, rfl⟩ | ⟨u, ticks, -, hcost, -⟩
  · rfl
  · rw [(refreshed_of_step hr hcost).counted hl, fetched_high]

end Step

/-! ### Courses -/

/-- What may be done to a processor. -/
inductive Influence
  | step
  | advanceIdle (time : Ticks)
  | setPC (a : UInt16)
  | setSP (a : UInt16)
  | setIntLine (level : Bool)
  | nmi
  | reset
  | load (p : Snapshot)

namespace Influence

/-- The processor and the bus after an influence. A snapshot that cannot be read changes nothing. -/
def apply (h : Bus σ) (s : Cpu) (b : σ) : Influence → Except Fault (Cpu × σ)
  | step => (fun r => (r.1.2, r.2)) <$> s.step.run h b
  | advanceIdle time => (·, b) <$> s.advanceIdle time
  | setPC a => .ok (s.setPC a, b)
  | setSP a => .ok (s.setSP a, b)
  | setIntLine level => .ok (s.setIntLine level, b)
  | nmi => .ok (s.nmi, b)
  | reset => .ok (s.reset, b)
  | load p => .ok ((Cpu.load p).toOption.getD s, b)

/-- The influences that give R a value; the others may count in it. -/
def SetsR (h : Bus σ) (s : Cpu) (b : σ) : Influence → Prop
  | step => s.LoadsR (s.step.transcript h b)
  | reset | load _ => True
  | _ => False

end Influence

/-- The courses from a processor and a bus in which nothing sets R. Anything may happen to the
bus. -/
inductive Course (h : Bus σ) (s : Cpu) (b : σ) : Cpu → σ → Prop
  | refl : Course h s b s b
  | outside {t : Cpu} {b₁ : σ} (hc : Course h s b t b₁) (b' : σ) : Course h s b t b'
  | influence {t u : Cpu} {b₁ b' : σ} (hc : Course h s b t b₁) (i : Influence)
      (hi : ¬i.SetsR h t b₁) (hr : i.apply h t b₁ = .ok (u, b')) : Course h s b u b'

section Course

variable {h : Bus σ} {s t : Cpu} {b b' : σ}

theorem high_of_advanceIdle {time : Ticks} (hr : s.advanceIdle time = .ok t) :
    t.regs.r &&& 0x80 = s.regs.r &&& 0x80 := by
  obtain ⟨_, -, hr⟩ := Fault.bind_eq_ok hr
  obtain ⟨ticks, -, hr⟩ := Fault.bind_eq_ok hr
  cases hr
  rw [repeat_refresh, fetched_high]

/-- The top bit of R stays under any influence that does not set R. -/
theorem high_of_influence {i : Influence} (hi : ¬i.SetsR h s b) (hr : i.apply h s b = .ok (t, b')) :
    t.regs.r &&& 0x80 = s.regs.r &&& 0x80 := by
  cases i with
  | step =>
    obtain ⟨⟨⟨cost, u⟩, b₁⟩, hstep, heq⟩ := Fault.map_eq_ok hr
    cases heq
    exact high_of_step hstep hi
  | advanceIdle time =>
    obtain ⟨u, hidle, heq⟩ := Fault.map_eq_ok hr
    cases heq
    exact high_of_advanceIdle hidle
  | reset => exact absurd trivial hi
  | load p => exact absurd trivial hi
  | _ =>
    cases hr
    rfl

theorem Course.high (hc : Course h s b t b') : t.regs.r &&& 0x80 = s.regs.r &&& 0x80 := by
  induction hc with
  | refl => rfl
  | outside _ _ ih => exact ih
  | influence _ i hi hr ih => exact (high_of_influence hi hr).trans ih

end Course

/-- A step that is not refused counts its M1 cycles in the low seven bits of R, unless it is `LD
R,A`. The top bit changes only with `LD R,A`, with a reset and with a snapshot that is loaded: it
stays in every course without them. -/
theorem r_counts_m1 (h : Bus σ) :
    (∀ (s t : Cpu) (b b' : σ) (cost : ℕ), s.step.run h b = .ok ((cost, t), b') → cost ≠ 0 →
      (s.LoadsR (s.step.transcript h b) → t.regs.r = s.regs.a) ∧
      (¬s.LoadsR (s.step.transcript h b) → t.regs.r = s.regs.r &&& 0x80 |||
        UInt8.ofNat ((s.regs.r.toNat + s.m1Cycles (s.step.transcript h b)) % 128))) ∧
      ∀ (s t : Cpu) (b b' : σ), Course h s b t b' → t.regs.r &&& 0x80 = s.regs.r &&& 0x80 := by
  refine ⟨fun s t b b' cost hr hcost => ?_, fun s t b b' hc => hc.high⟩
  have hrefreshed := refreshed_of_step hr hcost
  refine ⟨hrefreshed.loaded, fun hl => ?_⟩
  rw [hrefreshed.counted hl, fetched_eq]

/-- A processor with all bits of R set. -/
def refreshed : Cpu := { initial with regs := { initial.regs with r := 0xFF } }

/-- `RLC (IX+5)` with all bits of R set: of its four bytes two are counted, and the count wraps. The
top bit is still set after it, and after a request for an interrupt. -/
theorem r_counts_m1_and_wraps :
    ∃ t b', refreshed.step.run (Bus.rom [0xDD, 0xCB, 0x05, 0x06]) [] = .ok ((23, t), b') ∧
      t.regs.r = 0x81 ∧ t.nmi.regs.r &&& 0x80 = 0x80 := by
  have hrun : ∃ t b', refreshed.step.run (Bus.rom [0xDD, 0xCB, 0x05, 0x06]) [] =
      .ok ((23, t), b') :=
    ⟨_, _, rfl⟩
  obtain ⟨t, b', hrun⟩ := hrun
  have hops : refreshed.opcodes (refreshed.step.transcript (Bus.rom [0xDD, 0xCB, 0x05, 0x06]) []) =
      some [0xDD, 0xCB] := rfl
  have hloads :
      ¬refreshed.LoadsR (refreshed.step.transcript (Bus.rom [0xDD, 0xCB, 0x05, 0x06]) []) := by
    unfold LoadsR
    rw [hops]
    decide
  obtain ⟨hstep, hcourse⟩ := r_counts_m1 (Bus.rom [0xDD, 0xCB, 0x05, 0x06])
  have ht := (hstep _ _ _ _ _ hrun (by decide)).2 hloads
  rw [m1Cycles, hops] at ht
  have hbits : Course _ refreshed [] t b' :=
    Course.refl.influence .step hloads (by rw [Influence.apply, hrun]; rfl)
  exact ⟨t, b', hrun, ht, hcourse _ _ _ _ (hbits.influence .nmi id rfl)⟩

end Cpu
end TandemZ80
