import TandemZ80.Proofs.Alike
import TandemZ80.Proofs.Cpu.Settled

/-!
# Processors on buses that go alike

Two buses in related states answer alike, and stay in related states. The relation also watches the
window of each processor: fetching through it, or past it, has to give the same byte on both sides,
though one processor may have a window where the other has none. Then processors that agree step
alike: nothing that an instruction does depends on what is owed, or on how its bytes were fetched.

* `Bus.lookUp` and `Bus.fetch`, what a fetch asks of the bus, with an equation for each course it
  may take; `Bus.Pairing`, two buses with such a relation;
* `Exec.Alike`, parts of instructions that go alike, with one rule for each building block;
* `Instruction.execute_alike`, `BitInstruction.execute_alike`, `ExtendedInstruction.execute_alike`,
  and `Cpu.step_alike`.
-/

namespace TandemZ80

variable {α β σ σ' Q : Type} {P : Q → Type}

/-! ### Fetching by itself -/

namespace Bus

/-- The calls of a fetch. -/
def Call.fetches : Call → Bool
  | .window _ | .readWindow .. => true
  | _ => false

/-- A byte by way of the bus, with the window that was issued. -/
def lookUp (a : UInt16) : Program (UInt8 × Option Window) :=
  .ask (.window a) fun w => .ask (.read a) fun v => .done (v, w)

/-- A byte through a window or past it, with the window that is left. -/
def fetch (w : Option Window) (a : UInt16) : Program (UInt8 × Option Window) :=
  match w with
  | none => lookUp a
  | some w =>
    if w.contains a then
      .ask (.readWindow w a) fun
        | some v => .done (v, some w)
        | none => lookUp a
    else lookUp a

section Relay

variable {h : (q : Call) → σ → Dialogue P (Reply q × σ)} {b : σ} {a : UInt16} {w : Window}

theorem relay_lookUp {o : Option Window} (ho : h (.window a) b = .done (o, b)) :
    (lookUp a).relay h b = h (.read a) b >>= fun r => .done ((r.1, o), r.2) := by
  rw [lookUp, Dialogue.relay_ask, ho]
  rfl

theorem relay_fetch {v : UInt8} (ha : w.contains a = true)
    (hv : h (.readWindow w a) b = .done (some v, b)) :
    (fetch (some w) a).relay h b = .done ((v, some w), b) := by
  unfold fetch
  dsimp only
  rw [if_pos ha, Dialogue.relay_ask, hv]
  rfl

theorem relay_fetch_stale (ha : w.contains a = true)
    (hv : h (.readWindow w a) b = .done (none, b)) :
    (fetch (some w) a).relay h b = (lookUp a).relay h b := by
  unfold fetch
  dsimp only
  rw [if_pos ha, Dialogue.relay_ask, hv]
  rfl

theorem fetch_past (ha : ¬w.contains a = true) : fetch (some w) a = lookUp a := if_neg ha

end Relay
end Bus

theorem Exec.fetchAt_eq (a : UInt16) (s : Cpu) :
    fetchAt a s = Bus.fetch s.window a >>= fun r => .done (some r.1, { s with window := r.2 }) := by
  unfold fetchAt Bus.fetch
  rw [bind_apply, show state s = .done (some s, s) from rfl, Dialogue.done_bind, andThen_some]
  cases hw : s.window with
  | none => rfl
  | some w =>
    dsimp only
    by_cases hc : w.contains a = true
    · rw [if_pos hc, if_pos hc, bind_apply]
      show Dialogue.ask _ _ = Dialogue.ask _ _
      congr 1
      funext v
      cases v with
      | none => rfl
      | some v =>
        show Dialogue.done (some v, s) = Dialogue.done (some v, { s with window := some w })
        rw [← hw]
    · rw [if_neg hc, if_neg hc]
      rfl

/-! ### Buses -/

/-- Two buses that answer alike in related states. `related` takes the window of each processor
beside the state of its bus. -/
structure Bus.Pairing {Q : Type} (P : Q → Type) (σ σ' : Type) where
  left : (q : Call) → σ → Dialogue P (Reply q × σ)
  right : (q : Call) → σ' → Dialogue P (Reply q × σ')
  /-- The faults that may occur. -/
  fault : Fault → Prop
  related : Option Window → Option Window → σ → σ' → Prop
  overflow : fault .overflow
  call : ∀ {q : Call}, q.fetches = false → ∀ {w w' : Option Window} {b : σ} {b' : σ'},
    related w w' b b' →
      Dialogue.Alike fault (fun r r' => r.1 = r'.1 ∧ related w w' r.2 r'.2) (left q b) (right q b')
  fetch : ∀ (a : UInt16) {w w' : Option Window} {b : σ} {b' : σ'}, related w w' b b' →
    Dialogue.Alike fault (fun r r' => r.1.1 = r'.1.1 ∧ related r.1.2 r'.1.2 r.2 r'.2)
      ((Bus.fetch w a).relay left b) ((Bus.fetch w' a).relay right b')

/-- Processors that agree, on buses in related states. -/
def Bus.Pairing.Matched (B : Bus.Pairing P σ σ') (s t : Cpu) (b : σ) (b' : σ') : Prop :=
  s.Agree t ∧ B.related s.window t.window b b'

namespace Exec

/-- Parts of instructions that go alike: started in processors that agree, they come to the same
result in processors that agree. -/
def Alike (B : Bus.Pairing P σ σ') (m m' : Exec α) : Prop :=
  ∀ s t b b', B.Matched s t b b' →
    Dialogue.Alike B.fault (fun r r' => r.1.1 = r'.1.1 ∧ B.Matched r.1.2 r'.1.2 r.2 r'.2)
      ((m s).relay B.left b) ((m' t).relay B.right b')

namespace Alike

variable {B : Bus.Pairing P σ σ'} {m m' : Exec α}

/-! ### Building blocks -/

theorem pure (a : α) : Alike B (Pure.pure a) (Pure.pure a) := fun _ _ _ _ h => .done ⟨rfl, h⟩

theorem bind {f f' : α → Exec β} (h : Alike B m m') (hf : ∀ a, Alike B (f a) (f' a)) :
    Alike B (m >>= f) (m' >>= f') := by
  intro s t b b' hst
  rw [bind_apply, bind_apply, Dialogue.relay_bind, Dialogue.relay_bind]
  refine (h s t b b' hst).bind ?_
  rintro ⟨⟨o, s₁⟩, b₁⟩ ⟨⟨o', t₁⟩, b₁'⟩ ⟨rfl, hst₁⟩
  cases o with
  | none => exact .done ⟨rfl, hst₁⟩
  | some a => exact hf a s₁ t₁ b₁ b₁' hst₁

/-- Registers that are looked at agree. -/
theorem regs {f f' : Registers → Exec β}
    (hf : ∀ r l, l.peek = r.f.peek → Alike B (f r) (f' { r with f := l })) :
    Alike B (Exec.regs >>= f) (Exec.regs >>= f') := by
  intro s t b b' hst
  -- The other processor differs in its window and in the record of F, and only the latter is handed
  -- on.
  obtain ⟨r, w, hr, ht⟩ := hst.1.exists_eq
  obtain ⟨l, hl, rfl⟩ := hr.exists_eq
  have hregs : t.regs = { s.regs with f := l } := by rw [ht]
  have h := hf s.regs l hl s t b b' hst
  rw [← hregs] at h
  exact h

theorem modify {f : Cpu → Cpu} (hf : ∀ s t, s.Agree t → (f s).Agree (f t))
    (hw : ∀ s, (f s).window = s.window) : Alike B (Exec.modify f) (Exec.modify f) := by
  intro s t b b' hst
  refine .done ⟨rfl, hf s t hst.1, ?_⟩
  rw [hw, hw]
  exact hst.2

theorem update {f f' : Registers → Registers} (hf : ∀ r r', r.Agree r' → (f r).Agree (f' r')) :
    Alike B (Exec.update f) (Exec.update f') := by
  intro s t b b' hst
  obtain ⟨r, w, hr, rfl⟩ := hst.1.exists_eq
  exact .done ⟨rfl, Cpu.agree_of_regs (s := { s with regs := f s.regs }) (hf s.regs r hr) w, hst.2⟩

theorem blind {f : Registers → Registers} (hf : Registers.Blind f) :
    Alike B (Exec.update f) (Exec.update f) := update fun _ _ h => hf.agree h

/-- Work that leaves F alone. -/
theorem keeping {f : Registers → Registers} (hf : ∀ r, f r.settled = (f r).settled) :
    Alike B (Exec.update f) (Exec.update f) := blind (.of_settled hf)

theorem call {q : Bus.Call} (hq : q.fetches = false) : Alike B (Exec.call q) (Exec.call q) := by
  intro s t b b' hst
  refine (B.call hq hst.2).bind ?_
  rintro ⟨x, b₁⟩ ⟨x', b₁'⟩ ⟨rfl, hb⟩
  exact .done ⟨rfl, hst.1, hb⟩

theorem refuse : Alike B (Exec.refuse : Exec α) Exec.refuse := fun _ _ _ _ h => .done ⟨rfl, h⟩

theorem overflow : Alike B (Exec.fault .overflow : Exec α) (Exec.fault .overflow) :=
  fun _ _ _ _ _ => .fail B.overflow

theorem ite {c : Prop} [Decidable c] {m₁ m₁' : Exec α} (h : Alike B m m') (h₁ : Alike B m₁ m₁') :
    Alike B (if c then m else m₁) (if c then m' else m₁') := by
  split
  · exact h
  · exact h₁

theorem fetchAt (a : UInt16) : Alike B (Exec.fetchAt a) (Exec.fetchAt a) := by
  intro s t b b' hst
  rw [fetchAt_eq, fetchAt_eq, Dialogue.relay_bind, Dialogue.relay_bind]
  refine (B.fetch a hst.2).bind ?_
  rintro ⟨⟨v, w⟩, b₁⟩ ⟨⟨v', w'⟩, b₁'⟩ ⟨rfl, hb⟩
  obtain ⟨r, w₀, hr, rfl⟩ := hst.1.exists_eq
  exact .done ⟨rfl, Cpu.agree_of_regs (s := { s with window := w }) hr w', hb⟩

/-! ### Fetches, words and ports -/

theorem read (a : UInt16) : Alike B (Exec.read a) (Exec.read a) := call rfl

theorem write (a : UInt16) (v : UInt8) : Alike B (Exec.write a v) (Exec.write a v) := call rfl

theorem peekOpcode : Alike B Exec.peekOpcode Exec.peekOpcode := regs fun _ _ _ => fetchAt _

theorem fetchByte : Alike B Exec.fetchByte Exec.fetchByte :=
  regs fun _ _ _ => .bind (.fetchAt _) fun v => .bind (.keeping fun _ => rfl) fun _ => .pure v

theorem fetchOpcode : Alike B Exec.fetchOpcode Exec.fetchOpcode :=
  .bind (.keeping fun _ => rfl) fun _ => .fetchByte

theorem fetchWord : Alike B Exec.fetchWord Exec.fetchWord :=
  .bind .fetchByte fun _ => .bind .fetchByte fun _ => .pure _

theorem readWord (a : UInt16) : Alike B (Exec.readWord a) (Exec.readWord a) :=
  .bind (.read _) fun _ => .bind (.read _) fun _ => .pure _

theorem writeWord (a v : UInt16) : Alike B (Exec.writeWord a v) (Exec.writeWord a v) :=
  .bind (.write _ _) fun _ => .write _ _

theorem push (v : UInt16) : Alike B (Exec.push v) (Exec.push v) :=
  .bind (.keeping fun _ => rfl) fun _ => .regs fun _ _ _ => .bind (.write _ _) fun _ =>
    .bind (.keeping fun _ => rfl) fun _ => .regs fun _ _ _ => .write _ _

theorem pop : Alike B Exec.pop Exec.pop :=
  .regs fun _ _ _ => .bind (.readWord _) fun _ => .bind (.keeping fun _ => rfl) fun _ => .pure _

theorem jump (a : UInt16) : Alike B (Exec.jump a) (Exec.jump a) := .keeping fun _ => rfl

theorem jumpBy (d : UInt8) : Alike B (Exec.jumpBy d) (Exec.jumpBy d) := .regs fun _ _ _ => .jump _

theorem rendezvous (elapsed : ℕ) (port : UInt16) :
    Alike B (Exec.rendezvous elapsed port) (Exec.rendezvous elapsed port) := by
  refine .bind (.call rfl) fun shared => ?_
  cases shared with
  | false => exact .pure ()
  | true =>
    refine .ite (c := elapsed < UInt32.size) ?_ .overflow
    refine .bind (.call rfl) fun granted => ?_
    cases granted with
    | false => exact .refuse
    | true => exact .pure ()

/-- Work on registers, and then a cost. -/
theorem work {f : Registers → Registers} (hf : Registers.Blind f) (cost : ℕ) :
    Alike B (do Exec.update f; return cost) (do Exec.update f; return cost) :=
  .bind (.blind hf) fun _ => .pure _

/-! ### Operands -/

theorem operandAddress (x : Index) (internal : ℕ) :
    Alike B (Exec.operandAddress x internal) (Exec.operandAddress x internal) := by
  unfold Exec.operandAddress
  refine .ite (.regs fun _ _ _ => .pure _) ?_
  refine .bind .fetchByte fun d => .regs fun r l _ => ?_
  rw [Registers.index_eq l]
  exact .bind (.keeping fun _ => rfl) fun _ => .pure _

theorem changeOperand (x : Index) (o : Operand8) {f : Flags.Lazy → UInt8 → UInt8 × Flags.Lazy}
    (hf : ∀ l l' v, l'.peek = l.peek → (f l' v).1 = (f l v).1 ∧ (f l' v).2.peek = (f l v).2.peek) :
    Alike B (Exec.changeOperand x o f) (Exec.changeOperand x o f) := by
  cases o with
  | reg q =>
    refine .bind (.update fun r r' hr => ?_) fun _ => .pure 4
    obtain ⟨l, hl, rfl⟩ := hr.exists_eq
    obtain ⟨hv, hflags⟩ := hf r.f l (r.get8 x q) hl
    dsimp only
    -- Both come to the same byte, with records of F that show the same.
    rw [Registers.get8_eq l]
    generalize f r.f (r.get8 x q) = p at hv hflags ⊢
    generalize f l (r.get8 x q) = p' at hv hflags ⊢
    obtain ⟨w, l₁⟩ := p
    obtain ⟨w', l₁'⟩ := p'
    cases hv
    dsimp only at hflags ⊢
    exact (Registers.Blind.set8 x q w).agree
      (Registers.agree_of_peek (r := { r with f := l₁ }) hflags)
  | mem =>
    refine .bind (.operandAddress x 5) fun a => .regs fun r l hl => .bind (.read _) fun v => ?_
    obtain ⟨hv, hflags⟩ := hf r.f l v hl
    dsimp only
    generalize f r.f v = p at hv hflags ⊢
    generalize f l v = p' at hv hflags ⊢
    obtain ⟨w, l₁⟩ := p
    obtain ⟨w', l₁'⟩ := p'
    cases hv
    refine .bind (.update fun r₁ r₁' hr₁ => ?_) fun _ => .bind (.write _ _) fun _ => .pure _
    obtain ⟨l₂, -, rfl⟩ := hr₁.exists_eq
    exact Registers.agree_of_peek (r := { r₁ with f := l₁ }) hflags

theorem pointer (via : Pointer) : Alike B (Exec.pointer via) (Exec.pointer via) := by
  cases via with
  | literal => exact .bind .fetchWord fun _ => .pure _
  | _ => exact .regs fun _ _ _ => .pure _

theorem taken (cond : Option Condition) : Alike B (Exec.taken cond) (Exec.taken cond) := by
  cases cond with
  | none => exact .pure true
  | some cond =>
    refine .regs fun r l hl => ?_
    rw [Registers.holds_eq hl]
    exact .pure _

end Alike
end Exec

/-! ### Unprefixed instructions -/

open Exec Registers

variable {B : Bus.Pairing P σ σ'}

namespace Instruction

theorem transferA_alike (store : Bool) (via : Pointer) :
    Alike B (transferA store via) (transferA store via) := by
  refine .bind (.pointer via) fun a => ?_
  cases store with
  | true =>
    exact .regs fun _ _ _ => .bind (.write _ _) fun _ =>
      .bind (.keeping fun _ => rfl) fun _ => .pure _
  | false => exact .bind (.read _) fun _ => .bind (.keeping fun _ => rfl) fun _ => .pure _

theorem transferPort_alike (output : Bool) (elapsed : ℕ) :
    Alike B (transferPort output elapsed) (transferPort output elapsed) := by
  refine .bind .fetchByte fun n => .regs fun r l _ => .bind (.rendezvous _ _) fun _ => ?_
  cases output with
  | true => exact .bind (.call rfl) fun _ => .bind (.keeping fun _ => rfl) fun _ => .pure _
  | false => exact .bind (.call rfl) fun _ => .bind (.keeping fun _ => rfl) fun _ => .pure _

theorem execute_alike (i : Instruction) (x : Index) (elapsed : ℕ) :
    Alike B (i.execute x elapsed) (i.execute x elapsed) := by
  cases i with
  | nop => exact .pure 4
  | halt =>
    refine .bind (.keeping fun _ => rfl) fun _ => .regs fun r l _ => ?_
    exact .ite (.bind (.call rfl) fun _ => .pure 4) (.pure 4)
  | di => exact .bind (.keeping fun _ => rfl) fun _ => .pure 4
  | ei =>
    refine .bind (.keeping fun _ => rfl) fun _ =>
      .bind (.modify (fun s t h => ?_) fun _ => rfl) fun _ => .pure 4
    obtain ⟨r, w, hr, rfl⟩ := h.exists_eq
    exact Cpu.agree_of_regs (s := { s with afterEI := true }) hr w
  | ldPair p => exact .bind .fetchWord fun v => .work (.setPair x p v) 10
  | storeA via => exact transferA_alike true via
  | loadA via => exact transferA_alike false via
  | storeIndex =>
    refine .bind .fetchWord fun a => .regs fun r l _ => ?_
    rw [index_eq l]
    exact .bind (.writeWord _ _) fun _ => .bind (.keeping fun _ => rfl) fun _ => .pure 16
  | loadIndex =>
    exact .bind .fetchWord fun a => .bind (.readWord _) fun v =>
      .work (.comp (.setIndex x v)
        (.of_settled (f := fun r => { r with wz := a + 1 }) fun _ => rfl)) 16
  | incPair p => exact .work (.of_settled fun r => by cases p <;> cases x <;> rfl) 6
  | decPair p => exact .work (.of_settled fun r => by cases p <;> cases x <;> rfl) 6
  | addPair p => exact .work (.addPair x p) 11
  | inc o =>
    refine .changeOperand (f := Flags.Lazy.inc8) x o fun l l' v h => ⟨rfl, ?_⟩
    rw [Flags.Lazy.peek_inc8, Flags.Lazy.peek_inc8, h]
  | dec o =>
    refine .changeOperand (f := Flags.Lazy.dec8) x o fun l l' v h => ⟨rfl, ?_⟩
    rw [Flags.Lazy.peek_dec8, Flags.Lazy.peek_dec8, h]
  | ldByte o =>
    cases o with
    | reg q => exact .bind .fetchByte fun v => .work (.set8 x q v) 7
    | mem =>
      exact .bind (.operandAddress x 2) fun _ => .bind .fetchByte fun _ =>
        .bind (.write _ _) fun _ => .pure _
  | ld dst src =>
    refine .work (.of_settled fun r => ?_) 4
    cases dst <;> cases src <;> cases x <;> rfl
  | ldFromMem dst =>
    exact .bind (.operandAddress x 5) fun _ => .bind (.read _) fun v => .work (.set8 .hl dst v) _
  | ldToMem src =>
    refine .bind (.operandAddress x 5) fun _ => .regs fun r l _ => ?_
    rw [get8_eq l]
    exact .bind (.write _ _) fun _ => .pure _
  | alu op o =>
    cases o with
    | reg q =>
      refine .work (fun r => ?_) 4
      rw [show r.settled.get8 x q = r.get8 x q from get8_eq _ x q]
      exact Blind.alu op _ r
    | mem =>
      exact .bind (.operandAddress x 5) fun _ => .bind (.read _) fun v => .work (.alu op v) _
  | aluByte op => exact .bind .fetchByte fun v => .work (.alu op v) 7
  | rotateA s => exact .work (.rotateA s) 4
  | daa => exact .work .daa 4
  | cpl => exact .work .complement 4
  | scf => exact .work .setCarry 4
  | ccf => exact .work .flipCarry 4
  | djnz =>
    refine .bind .fetchByte fun d => .bind (.keeping fun _ => rfl) fun _ => .regs fun r l _ => ?_
    exact .ite (.pure 8) (.bind (.jumpBy d) fun _ => .pure 13)
  | jr cond =>
    refine .bind .fetchByte fun d => .bind (.taken cond) fun _ => .ite ?_ (.pure 7)
    exact .bind (.jumpBy d) fun _ => .pure 12
  | jp cond =>
    refine .bind .fetchWord fun a => .bind (.keeping fun _ => rfl) fun _ =>
      .bind (.taken cond) fun _ => ?_
    exact .ite (.bind (.jump a) fun _ => .pure 10) (.pure 10)
  | call cond =>
    refine .bind .fetchWord fun a => .bind (.keeping fun _ => rfl) fun _ =>
      .bind (.taken cond) fun _ => ?_
    refine .ite (.regs fun r l _ => ?_) (.pure 10)
    exact .bind (.push _) fun _ => .bind (.jump a) fun _ => .pure 17
  | ret cond =>
    cases cond with
    | none => exact .bind .pop fun _ => .bind (.jump _) fun _ => .pure 10
    | some cond =>
      refine .regs fun r l hl => ?_
      rw [holds_eq hl]
      exact .ite (.bind .pop fun _ => .bind (.jump _) fun _ => .pure 11) (.pure 5)
  | rst target =>
    exact .regs fun r l _ => .bind (.push _) fun _ => .bind (.jump target) fun _ => .pure 11
  | jpIndex => exact .work (.of_settled fun r => by cases x <;> rfl) 4
  | push p =>
    refine .regs fun r l hl => ?_
    rw [getStackPair_eq hl]
    exact .bind (.push _) fun _ => .pure 11
  | pop p => exact .bind .pop fun v => .work (.setStackPair x p v) 10
  | exStack =>
    refine .regs fun r l _ => .bind (.readWord _) fun v => .regs fun r₁ l₁ _ => ?_
    rw [index_eq l₁]
    exact .bind (.writeWord _ _) fun _ =>
      .work (.comp (.setIndex x v) (.of_settled (f := fun r => { r with wz := v }) fun _ => rfl)) 19
  | ldSP => exact .work (.of_settled fun r => by cases x <;> rfl) 6
  | exAF => exact .work .exchangeAF 4
  | exx => exact .bind (.keeping fun _ => rfl) fun _ => .pure 4
  | exDE => exact .work .exchangeDE 4
  | outByte => exact transferPort_alike true elapsed
  | inByte => exact transferPort_alike false elapsed

end Instruction

/-! ### Bit instructions -/

namespace BitInstruction

theorem execute_alike (i : BitInstruction) : Alike B i.execute i.execute := by
  obtain ⟨op, operand⟩ := i
  cases operand with
  | reg q =>
    refine .bind (.update fun r r' hr => ?_) fun _ => .pure 8
    obtain ⟨l, hl, rfl⟩ := hr.exists_eq
    obtain ⟨r₁', he, hr₁⟩ := bitOp_eq hl op (r.get8 .hl q) (r.get8 .hl q)
    dsimp only
    rw [get8_eq l, he]
    generalize r.bitOp op _ _ = p at hr₁ ⊢
    obtain ⟨o, r₁⟩ := p
    cases o with
    | none => exact hr₁
    | some w => exact (Blind.set8 .hl q w).agree hr₁
  | mem =>
    refine .regs fun r l _ => .bind (.read _) fun v => .regs fun r₁ l₁ hl₁ =>
      .regs fun r₂ l₂ _ => ?_
    obtain ⟨r₃', he, hr₃⟩ := bitOp_eq hl₁ op v (high r₂.wz)
    dsimp only
    rw [he]
    generalize r₁.bitOp op _ _ = p at hr₃ ⊢
    obtain ⟨o, r₃⟩ := p
    refine .bind (.update fun _ _ _ => hr₃) fun _ => ?_
    cases o with
    | none => exact .pure 12
    | some w => exact .bind (.write _ _) fun _ => .pure 15

theorem executeIndexed_alike (i : BitInstruction) (x : Index) (d : UInt8) :
    Alike B (i.executeIndexed x d) (i.executeIndexed x d) := by
  obtain ⟨op, operand⟩ := i
  refine .regs fun r l _ => ?_
  dsimp only
  rw [index_eq l]
  refine .bind (.keeping fun _ => rfl) fun _ => .bind (.read _) fun v => .regs fun r₁ l₁ hl₁ => ?_
  obtain ⟨r₂', he, hr₂⟩ := bitOp_eq hl₁ op v (high (displace (r.index x) d))
  rw [he]
  generalize r₁.bitOp op _ _ = p at hr₂ ⊢
  obtain ⟨o, r₂⟩ := p
  refine .bind (.update fun _ _ _ => hr₂) fun _ => ?_
  cases o with
  | none => exact .pure 16
  | some w =>
    refine .bind (.write _ _) fun _ => ?_
    cases operand with
    | mem => exact .bind (.pure ()) fun _ => .pure 19
    | reg q => exact .work (.set8 .hl q w) 19

end BitInstruction

/-! ### Extended instructions -/

namespace Exec

theorem Alike.endBlock (goesOn : Bool) : Alike B (Exec.endBlock goesOn) (Exec.endBlock goesOn) := by
  cases goesOn with
  | true => exact .bind (.keeping fun _ => rfl) fun _ => .pure 21
  | false => exact .pure 16

theorem Alike.blockLoad (walk : Walk) (repeats : Bool) :
    Alike B (Exec.blockLoad walk repeats) (Exec.blockLoad walk repeats) := by
  refine .regs fun s l _ => .bind (.read _) fun v => .bind (.write _ _) fun _ => ?_
  refine .bind (.blind (.comp (.blockLoadFlags v) (.of_settled fun _ => rfl))) fun _ => ?_
  exact .endBlock _

theorem Alike.blockCompare (walk : Walk) (repeats : Bool) :
    Alike B (Exec.blockCompare walk repeats) (Exec.blockCompare walk repeats) := by
  refine .regs fun s l _ => .bind (.read _) fun v => ?_
  refine .bind (.blind (.comp (.blockCompareFlags v) (.of_settled fun _ => rfl))) fun _ => ?_
  exact .endBlock _

theorem Alike.blockInput (walk : Walk) (repeats : Bool) (elapsed : ℕ) :
    Alike B (Exec.blockInput walk repeats elapsed) (Exec.blockInput walk repeats elapsed) := by
  refine .regs fun s l _ => .bind (.rendezvous _ _) fun _ => .bind (.call rfl) fun v => ?_
  refine .regs fun s₁ l₁ _ => .bind (.write _ _) fun _ => .bind (.blind ?_) fun _ => ?_
  · exact .blockPortFlags (f := transferred walk s.bc) v
      (fun r => v.toNat + (low (walk.next r.main.c.toUInt16)).toNat) (fun _ => rfl) fun _ => rfl
  · exact .regs fun s₂ l₂ _ => .endBlock _

theorem Alike.blockOutput (walk : Walk) (repeats : Bool) (elapsed : ℕ) :
    Alike B (Exec.blockOutput walk repeats elapsed) (Exec.blockOutput walk repeats elapsed) := by
  refine .regs fun s l _ => .bind (.rendezvous _ _) fun _ => .bind (.read _) fun v => ?_
  refine .bind (.call rfl) fun _ => .bind (.blind ?_) fun _ => .regs fun s₂ l₂ _ => .endBlock _
  exact .blockPortFlags (f := transferred walk (word (s.main.b - 1) s.main.c)) v
    (fun r => v.toNat + (transferred walk (word (s.main.b - 1) s.main.c) r).main.l.toNat)
    (fun _ => rfl) fun _ => rfl

theorem Alike.block (op : BlockOp) (walk : Walk) (repeats : Bool) (elapsed : ℕ) :
    Alike B (Exec.block op walk repeats elapsed) (Exec.block op walk repeats elapsed) := by
  cases op with
  | load => exact .blockLoad walk repeats
  | compare => exact .blockCompare walk repeats
  | input => exact .blockInput walk repeats elapsed
  | output => exact .blockOutput walk repeats elapsed

end Exec

namespace ExtendedInstruction

theorem inputC_alike (o : Operand8) (elapsed : ℕ) :
    Alike B (inputC o elapsed) (inputC o elapsed) := by
  refine .regs fun r l _ => .bind (.rendezvous _ _) fun _ => .bind (.call rfl) fun v => ?_
  refine .work ?_ 12
  cases o with
  | reg q => exact .comp (.showInput (r.bc + 1) v) (.set8 .hl q v)
  | mem => exact .showInput (r.bc + 1) v

theorem outputC_alike (o : Operand8) (elapsed : ℕ) :
    Alike B (outputC o elapsed) (outputC o elapsed) := by
  refine .regs fun r l _ => .bind (.rendezvous _ _) fun _ => .regs fun s l₁ _ => ?_
  cases o with
  | reg q =>
    dsimp only
    rw [get8_eq l₁]
    exact .bind (.call rfl) fun _ => .bind (.keeping fun _ => rfl) fun _ => .pure 12
  | mem => exact .bind (.call rfl) fun _ => .bind (.keeping fun _ => rfl) fun _ => .pure 12

theorem rotateNibbles_alike (toRight : Bool) :
    Alike B (rotateNibbles toRight) (rotateNibbles toRight) := by
  refine .regs fun r l _ => .bind (.read _) fun v => .regs fun r₁ l₁ _ => ?_
  cases toRight with
  | true =>
    refine .bind (.write _ _) fun _ =>
      .work (.comp (g := fun s => { s with wz := r.hl + 1 }) ?_ ?_) 18
    · exact .of_settled fun _ => rfl
    · exact .loadShown _
  | false =>
    refine .bind (.write _ _) fun _ =>
      .work (.comp (g := fun s => { s with wz := r.hl + 1 }) ?_ ?_) 18
    · exact .of_settled fun _ => rfl
    · exact .loadShown _

theorem execute_alike (i : ExtendedInstruction) (elapsed : ℕ) :
    Alike B (i.execute elapsed) (i.execute elapsed) := by
  cases i with
  | nop => exact .pure 8
  | inC o => exact inputC_alike o elapsed
  | outC o => exact outputC_alike o elapsed
  | sbcPair p => exact .work (.sbcPair p) 15
  | adcPair p => exact .work (.adcPair p) 15
  | storePair p =>
    refine .bind .fetchWord fun a => .regs fun r l _ => ?_
    rw [show Registers.getPair { r with f := l } .hl p = r.getPair .hl p by cases p <;> rfl]
    exact .bind (.writeWord _ _) fun _ => .bind (.keeping fun _ => rfl) fun _ => .pure 20
  | loadPair p =>
    exact .bind .fetchWord fun a => .bind (.readWord _) fun v =>
      .work (.comp (.setPair .hl p v)
        (.of_settled (f := fun r => { r with wz := a + 1 }) fun _ => rfl)) 20
  | neg => exact .work .negate 8
  | retn =>
    exact .bind (.keeping fun _ => rfl) fun _ => .bind .pop fun _ => .bind (.jump _) fun _ =>
      .pure 14
  | setMode m => exact .bind (.keeping fun _ => rfl) fun _ => .pure 8
  | ldIA => exact .bind (.keeping fun _ => rfl) fun _ => .pure 9
  | ldRA => exact .bind (.keeping fun _ => rfl) fun _ => .pure 9
  | ldAI => exact .work (.loadSystem (fun r => r.i) fun _ => rfl) 9
  | ldAR => exact .work (.loadSystem (fun r => r.r) fun _ => rfl) 9
  | rrd => exact rotateNibbles_alike true
  | rld => exact rotateNibbles_alike false
  | block op walk repeats => exact .block op walk repeats elapsed

end ExtendedInstruction

/-! ### Steps -/

namespace Exec

theorem opcode_alike (n : ℕ) (x : Index) (elapsed : ℕ) (op : UInt8) :
    Alike B (opcode n x elapsed op) (opcode n x elapsed op) := by
  induction n generalizing x elapsed op with
  | zero => exact .overflow
  | succ n ih =>
    unfold opcode
    split
    · exact Instruction.execute_alike _ x elapsed
    · refine .ite (.bind .fetchOpcode fun b => BitInstruction.execute_alike _) ?_
      exact .bind .fetchByte fun d => .bind .fetchByte fun b =>
        BitInstruction.executeIndexed_alike _ x d
    · exact .bind .fetchOpcode fun b => ExtendedInstruction.execute_alike _ elapsed
    -- A prefix: what follows it has one prefix less to go.
    · refine .bind .peekOpcode fun b => .ite (.pure 4) ?_
      exact .bind .fetchOpcode fun b => .bind (ih _ _ b) fun rest => .pure _

theorem acceptNMI_alike : Alike B acceptNMI acceptNMI := by
  refine .bind (.modify (fun s t h => ?_) fun _ => rfl) fun _ =>
    .bind (.keeping fun _ => rfl) fun _ =>
    .regs fun r l _ => .bind (.push _) fun _ => .bind (.jump _) fun _ => .pure 11
  obtain ⟨r, w, hr, rfl⟩ := h.exists_eq
  exact Cpu.agree_of_regs (s := { s with nmiPending := false }) hr w

theorem acceptInt_alike : Alike B acceptInt acceptInt := by
  refine .bind (.keeping fun _ => rfl) fun _ => .regs fun r l _ => ?_
  dsimp only
  cases r.im with
  | mode0 =>
    exact .bind (.call rfl) fun op => .bind (opcode_alike _ _ _ op) fun rest => .pure _
  | mode1 => exact .regs fun r l _ => .bind (.push _) fun _ => .bind (.jump _) fun _ => .pure 13
  | mode2 =>
    exact .regs fun r l _ => .bind (.call rfl) fun v => .regs fun r₁ l₁ _ =>
      .bind (.push _) fun _ => .bind (.readWord _) fun a => .bind (.jump a) fun _ => .pure 19

theorem next_alike : Alike B next next := .bind .fetchOpcode fun op => opcode_alike _ _ _ op

theorem wait_alike : Alike B wait wait := .bind (.keeping fun _ => rfl) fun _ => .pure 4

end Exec

namespace Cpu

variable {s t : Cpu}

theorem perform_alike (a : Action) : Exec.Alike B (perform a) (perform a) := by
  cases a with
  | acceptNMI => exact acceptNMI_alike
  | acceptInt => exact acceptInt_alike
  | wait => exact wait_alike
  | execute => exact next_alike

theorem Agree.retract (h : s.Agree t) {u v : Cpu} (huv : u.Agree v) :
    (retract s u).Agree (retract t v) := by
  obtain ⟨r, w, hr, rfl⟩ := h.exists_eq
  obtain ⟨l, hl, rfl⟩ := hr.exists_eq
  obtain ⟨r', w', hr', rfl⟩ := huv.exists_eq
  obtain ⟨l', hl', rfl⟩ := hr'.exists_eq
  exact agree_of_regs (s := Cpu.retract s u) (agree_of_peek hl') w'

/-- Processors that agree, on buses in related states, take their steps alike. -/
theorem step_alike {b : σ} {b' : σ'} (h : B.Matched s t b b') :
    Dialogue.Alike B.fault (fun r r' => r.1.1 = r'.1.1 ∧ B.Matched r.1.2 r'.1.2 r.2 r'.2)
      (s.step.relay B.left b) (t.step.relay B.right b') := by
  obtain ⟨r, w, hr, ht⟩ := h.1.exists_eq
  obtain ⟨l, hl, rfl⟩ := hr.exists_eq
  have haction : t.action = s.action := by rw [ht]; rfl
  have hbegun : B.Matched { s with afterEI := false } { t with afterEI := false } b b' := by
    refine ⟨?_, h.2⟩
    rw [ht]
    exact agree_of_regs (s := { s with afterEI := false }) (agree_of_peek hl) w
  unfold step
  rw [Dialogue.relay_bind, Dialogue.relay_bind, haction]
  refine (perform_alike s.action _ _ b b' hbegun).bind ?_
  rintro ⟨⟨o, u⟩, b₁⟩ ⟨⟨o', v⟩, b₁'⟩ ⟨ho, huv⟩
  obtain rfl : o = o' := ho
  cases o with
  -- Refused, both go back to where they began, with the windows that they have by now.
  | none => exact .done ⟨rfl, h.1.retract huv.1, huv.2⟩
  | some cost =>
    obtain ⟨r₁, w₁, hr₁, hv⟩ := huv.1.exists_eq
    dsimp only at hv huv
    have hticks : v.ticks = u.ticks := by rw [hv]
    dsimp only [finish]
    rw [hticks]
    split_ifs
    · cases hadd : u.ticks.add (.ofCost (UInt32.ofNat cost)) with
      | error f => exact .fail (Ticks.add_eq_error hadd ▸ B.overflow)
      | ok ticks =>
        refine .done ⟨rfl, ?_, huv.2⟩
        rw [hv]
        exact agree_of_regs (s := { u with ticks }) hr₁ w₁
    · exact .fail B.overflow

end Cpu
end TandemZ80
