import Mathlib.Logic.Equiv.Basic
import TandemZ80.Proofs.Cpu.Prefixes
import TandemZ80.Proofs.Cpu.Retries

/-!
# Instructions under renamed index registers

HL, IX and IY are three registers of one kind, and an instruction is told which of them to work on.
So their names do not matter: if the contents of the three registers are permuted, and the
instruction is told the permuted name, it does the same. Neither does it matter how many prefixes
have been fetched before, except that R has counted them and that ports are asked for later.

* `Registers.arranged`, a register file with other index registers and another R, and
  `Registers.Aside`, work that leaves these aside;
* `Renaming` and `Registers.renamed`, a permutation of the index registers behind so many prefixes,
  with a lemma for each way to select a register;
* `Bus.Delayed`, two programs of which one makes its requests for ports later, and `Bus.delay`, a
  bus that makes requests later;
* `Exec.Renames`, parts of instructions that do the same under new names, with one rule for each
  building block;
* `Instruction.execute_renames`, `BitInstruction.executeIndexed_renames`,
  `ExtendedInstruction.execute_renames`.
-/

namespace TandemZ80

variable {α β σ : Type}

/-! ### Index registers -/

namespace Registers

/-- The register file with other index registers and another R. -/
def arranged (s : Registers) (v : Index → UInt16) (r : UInt8) : Registers :=
  { s.setHL (v .hl) with ix := v .ix, iy := v .iy, r }

@[simp] theorem index_arranged (s : Registers) (v : Index → UInt16) (r : UInt8) (x : Index) :
    (s.arranged v r).index x = v x := by
  cases x with
  | hl => exact word_high_low _
  | ix => rfl
  | iy => rfl

theorem arranged_self (s : Registers) : s.arranged s.index s.r = s := by
  simp [arranged, index, setHL, hl]

theorem arranged_arranged (s : Registers) (v v' : Index → UInt16) (r r' : UInt8) :
    (s.arranged v r).arranged v' r' = s.arranged v' r' := rfl

theorem setIndex_eq (s : Registers) (x : Index) (a : UInt16) :
    s.setIndex x a = s.arranged (Function.update s.index x a) s.r := by
  cases x with
  | hl => rfl
  | ix => simp [setIndex, arranged, index, setHL, hl]
  | iy => simp [setIndex, arranged, index, setHL, hl]

/-- Work that leaves the index registers and R aside: it neither looks at them nor changes them. -/
def Aside (f : Registers → Registers) : Prop :=
  ∀ s v r, f (s.arranged v r) = (f s).arranged v r

theorem Aside.eq_arranged {f : Registers → Registers} (hf : Aside f) (s : Registers) :
    f s = (f s).arranged s.index s.r := by
  have h := hf s s.index s.r
  rwa [arranged_self] at h

theorem Aside.index_eq {f : Registers → Registers} (hf : Aside f) (s : Registers) :
    (f s).index = s.index := by
  funext x
  rw [hf.eq_arranged s, index_arranged]

theorem Aside.r_eq {f : Registers → Registers} (hf : Aside f) (s : Registers) : (f s).r = s.r := by
  rw [hf.eq_arranged s]
  rfl

/-! ### R behind prefixes -/

/-- R after so many opcode fetches more. -/
def fetched (k : ℕ) (r : UInt8) : UInt8 := r &&& 0x80 ||| (r + UInt8.ofNat k) &&& 0x7F

theorem low_seven (r v : UInt8) : ((r &&& 0x7F) + v) &&& 0x7F = (r + v) &&& 0x7F := by
  have hmask : (0x7F : UInt8).toNat = 2 ^ 7 - 1 := rfl
  refine UInt8.toNat_inj.1 ?_
  simp only [UInt8.toNat_and, UInt8.toNat_add, hmask, Nat.and_two_pow_sub_one_eq_mod]
  omega

/-- The low seven bits of R have counted the fetches. -/
theorem fetched_low (k : ℕ) (r : UInt8) : fetched k r &&& 0x7F = (r + UInt8.ofNat k) &&& 0x7F := by
  have htop : (0x80 : UInt8) &&& 0x7F = 0 := rfl
  have hsame : (0x7F : UInt8) &&& 0x7F = 0x7F := rfl
  rw [fetched, Flags.or_and, UInt8.and_assoc, UInt8.and_assoc, htop, hsame, UInt8.and_zero,
    UInt8.zero_or]

theorem fetched_fetched (j k : ℕ) (r : UInt8) : fetched j (fetched k r) = fetched (k + j) r := by
  have hhigh : fetched k r &&& 0x80 = r &&& 0x80 := by
    have htop : (0x80 : UInt8) &&& 0x80 = 0x80 := rfl
    have hnone : (0x7F : UInt8) &&& 0x80 = 0 := rfl
    rw [fetched, Flags.or_and, UInt8.and_assoc, UInt8.and_assoc, htop, hnone, UInt8.and_zero,
      UInt8.or_zero]
  have hsum : (fetched k r + UInt8.ofNat j) &&& 0x7F = (r + UInt8.ofNat (k + j)) &&& 0x7F := by
    rw [← low_seven, fetched_low, low_seven, UInt8.ofNat_add, UInt8.add_assoc]
  rw [fetched, hhigh, hsum, fetched]

@[simp] theorem fetched_zero (r : UInt8) : fetched 0 r = r := by
  have hall : (0x80 : UInt8) ||| 0x7F = -1 := rfl
  have hsum : r + UInt8.ofNat 0 = r := UInt8.add_zero r
  rw [fetched, hsum, UInt8.and_comm r, UInt8.and_comm r, ← Flags.or_and, hall, UInt8.neg_one_and]

end Registers

/-! ### Renamings -/

/-- New names for the index registers, behind so many prefixes. -/
structure Renaming where
  perm : Equiv.Perm Index
  prefixes : ℕ

namespace Registers

/-- The register file in which the index registers have exchanged what they hold, by their new
names, and R has counted the prefixes. -/
def renamed (s : Registers) (ρ : Renaming) : Registers :=
  s.arranged (fun x => s.index (ρ.perm.symm x)) (fetched ρ.prefixes s.r)

variable (s : Registers) (ρ : Renaming) (x : Index)

theorem Aside.renamed {f : Registers → Registers} (hf : Aside f) :
    f (s.renamed ρ) = (f s).renamed ρ := by
  rw [Registers.renamed, hf, Registers.renamed, hf.index_eq, hf.r_eq]

@[simp] theorem index_renamed : (s.renamed ρ).index (ρ.perm x) = s.index x := by
  rw [renamed, index_arranged, Equiv.symm_apply_apply]

@[simp] theorem get8_renamed (q : Reg8) : (s.renamed ρ).get8 (ρ.perm x) q = s.get8 x q := by
  cases q with
  | h => exact congrArg high (s.index_renamed ρ x)
  | l => exact congrArg low (s.index_renamed ρ x)
  | _ => rfl

@[simp] theorem getPair_renamed (p : Pair) :
    (s.renamed ρ).getPair (ρ.perm x) p = s.getPair x p := by
  cases p with
  | hl => exact s.index_renamed ρ x
  | _ => rfl

@[simp] theorem getStackPair_renamed (p : StackPair) :
    (s.renamed ρ).getStackPair (ρ.perm x) p = s.getStackPair x p := by
  cases p with
  | hl => exact s.index_renamed ρ x
  | _ => rfl

@[simp] theorem setIndex_renamed (a : UInt16) :
    (s.renamed ρ).setIndex (ρ.perm x) a = (s.setIndex x a).renamed ρ := by
  have hnames : Function.update (s.renamed ρ).index (ρ.perm x) a =
      fun z => Function.update s.index x a (ρ.perm.symm z) := by
    funext z
    by_cases hz : z = ρ.perm x
    · rw [hz, Function.update_self, Equiv.symm_apply_apply, Function.update_self]
    · have hx : ρ.perm.symm z ≠ x := fun h => hz (by rw [← h, Equiv.apply_symm_apply])
      rw [Function.update_of_ne hz, Function.update_of_ne hx, renamed, index_arranged]
  have hindex :
      (s.arranged (Function.update s.index x a) s.r).index = Function.update s.index x a :=
    funext fun z => index_arranged _ _ _ z
  rw [setIndex_eq, setIndex_eq, hnames, renamed, renamed, arranged_arranged,
    arranged_arranged, hindex]
  rfl

@[simp] theorem set8_renamed (q : Reg8) (v : UInt8) :
    (s.renamed ρ).set8 (ρ.perm x) q v = (s.set8 x q v).renamed ρ := by
  cases q with
  | h => simp only [set8, index_renamed, setIndex_renamed]
  | l => simp only [set8, index_renamed, setIndex_renamed]
  | b =>
    exact Aside.renamed (f := fun s => { s with main := { s.main with b := v } }) s ρ
      fun _ _ _ => rfl
  | c =>
    exact Aside.renamed (f := fun s => { s with main := { s.main with c := v } }) s ρ
      fun _ _ _ => rfl
  | d =>
    exact Aside.renamed (f := fun s => { s with main := { s.main with d := v } }) s ρ
      fun _ _ _ => rfl
  | e =>
    exact Aside.renamed (f := fun s => { s with main := { s.main with e := v } }) s ρ
      fun _ _ _ => rfl
  | a => exact Aside.renamed (f := fun s => { s with a := v }) s ρ fun _ _ _ => rfl

theorem setBC_aside (v : UInt16) : Aside (·.setBC v) := fun _ _ _ => rfl

theorem setDE_aside (v : UInt16) : Aside (·.setDE v) := fun _ _ _ => rfl

@[simp] theorem setPair_renamed (p : Pair) (v : UInt16) :
    (s.renamed ρ).setPair (ρ.perm x) p v = (s.setPair x p v).renamed ρ := by
  cases p with
  | hl => exact s.setIndex_renamed ρ x v
  | bc => exact (setBC_aside v).renamed s ρ
  | de => exact (setDE_aside v).renamed s ρ
  | sp => exact Aside.renamed (f := fun s => { s with sp := v }) s ρ fun _ _ _ => rfl

@[simp] theorem setStackPair_renamed (p : StackPair) (v : UInt16) :
    (s.renamed ρ).setStackPair (ρ.perm x) p v = (s.setStackPair x p v).renamed ρ := by
  cases p with
  | hl => exact s.setIndex_renamed ρ x v
  | bc => exact (setBC_aside v).renamed s ρ
  | de => exact (setDE_aside v).renamed s ρ
  | af => exact Aside.renamed (f := fun s => s.setAF v) s ρ fun _ _ _ => rfl

@[simp] theorem refresh_renamed : (s.renamed ρ).refresh = s.refresh.renamed ρ := by
  have hr : fetched 1 (fetched ρ.prefixes s.r) = fetched ρ.prefixes (fetched 1 s.r) := by
    rw [fetched_fetched, fetched_fetched, Nat.add_comm]
  show { s.renamed ρ with r := fetched 1 (fetched ρ.prefixes s.r) } = _
  rw [hr]
  rfl

/-- Work that leaves IX, IY and R aside, though it may be done on HL. -/
def AsideHL (f : Registers → Registers) : Prop :=
  ∀ s ix iy r, f { s with ix, iy, r } = { f s with ix, iy, r }

variable {ρ} in
theorem renamed_eq (hhl : ρ.perm .hl = .hl) :
    s.renamed ρ = { s with
      ix := s.index (ρ.perm.symm .ix), iy := s.index (ρ.perm.symm .iy),
      r := fetched ρ.prefixes s.r } := by
  have hname : ρ.perm.symm .hl = .hl := (Equiv.symm_apply_eq _).2 hhl.symm
  have hsame : s.setHL (s.index (ρ.perm.symm .hl)) = s := by
    rw [hname]
    simp [setHL, index, hl]
  unfold renamed arranged
  rw [hsame]

variable {ρ} in
/-- If HL keeps its name, work may be done on it. -/
theorem AsideHL.renamed {f : Registers → Registers} (hf : AsideHL f) (hhl : ρ.perm .hl = .hl) :
    f (s.renamed ρ) = (f s).renamed ρ := by
  have hself : f s = { f s with ix := s.ix, iy := s.iy, r := s.r } := hf s s.ix s.iy s.r
  have hindex : ∀ y, y ≠ .hl → (f s).index y = s.index y := by
    intro y hy
    cases y with
    | hl => exact absurd rfl hy
    | ix => show (f s).ix = s.ix; rw [hself]
    | iy => show (f s).iy = s.iy; rw [hself]
  have hname : ∀ x, x ≠ .hl → ρ.perm.symm x ≠ .hl := by
    intro x hx h
    rw [Equiv.symm_apply_eq, hhl] at h
    exact hx h
  have hr : (f s).r = s.r := by rw [hself]
  rw [renamed_eq s hhl, renamed_eq (f s) hhl, hf, hr, hindex _ (hname .ix (by decide)),
    hindex _ (hname .iy (by decide))]

variable {ρ} in
theorem hl_renamed (hhl : ρ.perm .hl = .hl) : (s.renamed ρ).hl = s.hl := by
  have h := s.index_renamed ρ .hl
  rwa [hhl] at h

@[simp] theorem addPair_renamed (p : Pair) :
    (s.renamed ρ).addPair (ρ.perm x) p = (s.addPair x p).renamed ρ := by
  have haside : ∀ wz f, Aside fun s => { s with wz, f } := fun _ _ _ _ _ => rfl
  simp only [addPair, index_renamed, getPair_renamed]
  rw [← setIndex_renamed, ← (haside _ _).renamed]
  rfl

end Registers

/-! ### Later requests -/

namespace Bus

/-- The second program does as the first one, except that it asks for ports `δ` T-states later, and
comes to a result in relation `R`. -/
inductive Delayed (δ : ℕ) (R : α → β → Prop) : Program α → Program β → Prop
  | done {a : α} {a' : β} (h : R a a') : Delayed δ R (.done a) (.done a')
  | fail (f : Fault) : Delayed δ R (.fail f) (.fail f)
  | ask {q : Call} {next : Reply q → Program α} {next' : Reply q → Program β} (hq : q.asks = false)
      (h : ∀ x, Delayed δ R (next x) (next' x)) : Delayed δ R (.ask q next) (.ask q next')
  | sync (e : ℕ) {next : Bool → Program α} {next' : Bool → Program β}
      (h : ∀ x, Delayed δ R (next x) (next' x)) :
      Delayed δ R (.ask (.sync e) next) (.ask (.sync (e + δ)) next')

/-- A bus on which every request for a port is made `δ` T-states later. -/
def delay (δ : ℕ) (h : Bus σ) : Bus σ
  | .sync e, b => h (.sync (e + δ)) b
  | q, b => h q b

/-- What is said on a bus on which requests are made `δ` T-states later. -/
def saidLater (δ : ℕ) : (q : Call) × Reply q → (q : Call) × Reply q
  | ⟨.sync e, granted⟩ => ⟨.sync (e + δ), granted⟩
  | said => said

variable {δ : ℕ} {R : α → β → Prop}

theorem delay_of_asks (h : Bus σ) {q : Call} (hq : q.asks = false) (b : σ) :
    delay δ h q b = h q b := by
  cases q with
  | sync e => cases hq
  | _ => rfl

theorem saidLater_of_asks {q : Call} (hq : q.asks = false) (x : Reply q) :
    saidLater δ ⟨q, x⟩ = ⟨q, x⟩ := by
  cases q with
  | sync e => cases hq
  | _ => rfl

theorem run_delay_of_asks {d : Program α} (hd : d.Asks fun q => q.asks = false) (h : Bus σ)
    (b : σ) : d.run (delay δ h) b = d.run h b := by
  induction hd generalizing b with
  | done a => rfl
  | fail f => rfl
  | @ask q next hq _ ih =>
    rw [Dialogue.run_ask, Dialogue.run_ask, delay_of_asks h hq]
    exact congrArg (h q b >>= ·) (funext fun r => ih r.1 r.2)

theorem fetch_asks (w : Option Window) (a : UInt16) : (fetch w a).Asks fun q => q.asks = false :=
  (fetch_silent w a).mono fun q hq => by
    cases q with
    | sync e => cases hq true
    | _ => rfl

theorem delay_zero (h : Bus σ) : delay 0 h = h := by
  funext q b
  cases q <;> rfl

theorem saidLater_zero (said : (q : Call) × Reply q) : saidLater 0 said = said := by
  obtain ⟨q, x⟩ := said
  cases q <;> rfl

/-- Whether a call shows does not depend on when it is made. -/
theorem shown_saidLater (said : (q : Call) × Reply q) : shown (saidLater δ said) = shown said := by
  obtain ⟨q, x⟩ := said
  cases q <;> rfl

namespace Delayed

variable {α' β' : Type} {R' : α' → β' → Prop} {d : Program α} {d' : Program β}

theorem mono {S : α → β → Prop} (hd : Delayed δ R d d') (hR : ∀ a a', R a a' → S a a') :
    Delayed δ S d d' := by
  induction hd with
  | done h => exact .done (hR _ _ h)
  | fail f => exact .fail f
  | ask hq _ ih => exact .ask hq ih
  | sync e _ ih => exact .sync e ih

theorem bind {f : α → Program α'} {f' : β → Program β'} (hd : Delayed δ R d d')
    (hf : ∀ a a', R a a' → Delayed δ R' (f a) (f' a')) : Delayed δ R' (d >>= f) (d' >>= f') := by
  induction hd with
  | done h => exact hf _ _ h
  | fail f => exact .fail f
  | ask hq _ ih => exact .ask hq ih
  | sync e _ ih => exact .sync e ih

/-- A program without requests is not delayed. -/
theorem of_asks {d : Program α} (hd : d.Asks fun q => q.asks = false) : Delayed δ Eq d d := by
  induction hd with
  | done a => exact .done rfl
  | fail f => exact .fail f
  | ask hq _ ih => exact .ask hq ih

/-- On a bus the later program is like the other one on a bus on which all requests are made
later. -/
theorem run (hd : Delayed δ R d d') (h : Bus σ) (b : σ) :
    Fault.Alike (fun r r' => R r.1 r'.1 ∧ r.2 = r'.2) (d.run (delay δ h) b) (d'.run h b) := by
  induction hd generalizing b with
  | done hR => exact .ok ⟨hR, rfl⟩
  | fail f => exact .error f
  | ask hq _ ih =>
    rw [Dialogue.run_ask, Dialogue.run_ask, delay_of_asks h hq]
    exact .bind (.refl (fun _ => rfl) _) fun a a' (ha : a = a') => ha ▸ ih a.1 a.2
  | sync e _ ih =>
    rw [Dialogue.run_ask, Dialogue.run_ask]
    show Fault.Alike _ (h (.sync (e + δ)) b >>= _) (h (.sync (e + δ)) b >>= _)
    exact .bind (.refl (fun _ => rfl) _) fun a a' (ha : a = a') => ha ▸ ih a.1 a.2

theorem transcript (hd : Delayed δ R d d') (h : Bus σ) (b : σ) :
    d'.transcript h b = (d.transcript (delay δ h) b).map (saidLater δ) := by
  induction hd generalizing b with
  | done hR => rfl
  | fail f => rfl
  | @ask q next next' hq _ ih =>
    have hsame := delay_of_asks (δ := δ) h hq b
    cases hanswer : h q b with
    | error f =>
      rw [Dialogue.transcript_ask_error hanswer,
        Dialogue.transcript_ask_error (hsame.trans hanswer)]
      rfl
    | ok r =>
      obtain ⟨x, b'⟩ := r
      rw [Dialogue.transcript_ask hanswer, Dialogue.transcript_ask (hsame.trans hanswer),
        List.map_cons, saidLater_of_asks hq, ih]
  | @sync e next next' _ ih =>
    have hsame : delay δ h (.sync e) b = h (.sync (e + δ)) b := rfl
    cases hanswer : h (.sync (e + δ)) b with
    | error f =>
      rw [Dialogue.transcript_ask_error hanswer,
        Dialogue.transcript_ask_error (hsame.trans hanswer)]
      rfl
    | ok r =>
      obtain ⟨x, b'⟩ := r
      rw [Dialogue.transcript_ask hanswer, Dialogue.transcript_ask (hsame.trans hanswer),
        List.map_cons, ih]
      rfl

end Delayed
end Bus

/-! ### Parts of instructions -/

/-- There is time enough for a request, though it is made later. -/
def Renaming.InTime (ρ : Renaming) (e : ℕ) : Prop :=
  ρ.prefixes = 0 ∨ e + 4 * ρ.prefixes < UInt32.size

namespace Cpu

/-- The processor under new names of the index registers. -/
def renamed (s : Cpu) (ρ : Renaming) : Cpu := { s with regs := s.regs.renamed ρ }

/-- The processor after an opcode fetch that has left it with a window. -/
def fetchedOpcode (s : Cpu) (w : Option Window) : Cpu :=
  { s with regs := { s.regs.refresh with pc := s.regs.pc + 1 }, window := w }

theorem fetchedOpcode_renamed (s : Cpu) (ρ : Renaming) (w : Option Window) :
    (s.renamed ρ).fetchedOpcode w = (s.fetchedOpcode w).renamed ρ := by
  have haside : Registers.Aside fun r => { r with pc := s.regs.pc + 1 } := fun _ _ _ => rfl
  show { s with regs := { (s.regs.renamed ρ).refresh with pc := s.regs.pc + 1 }, window := w } = _
  rw [s.regs.refresh_renamed ρ, haside.renamed]
  rfl

end Cpu

namespace Exec

/-- The second part does under new names what the first one does: it comes to the same result, in
the processor under new names, and makes its requests for ports as much later as the prefixes
take. -/
def Renames (ρ : Renaming) (m m' : Exec α) : Prop :=
  ∀ s, Bus.Delayed (4 * ρ.prefixes) (fun r r' => r'.1 = r.1 ∧ r'.2 = r.2.renamed ρ) (m s)
    (m' (s.renamed ρ))

namespace Renames

variable {ρ : Renaming} {m m' : Exec α}

/-! ### Building blocks -/

theorem pure (a : α) : Renames ρ (Pure.pure a) (Pure.pure a) := fun _ => .done ⟨rfl, rfl⟩

theorem bind {f f' : α → Exec β} (h : Renames ρ m m') (hf : ∀ a, Renames ρ (f a) (f' a)) :
    Renames ρ (m >>= f) (m' >>= f') := by
  intro s
  refine (h s).bind ?_
  rintro ⟨o, t⟩ ⟨o', t'⟩ ⟨ho, ht⟩
  cases ho
  cases ht
  cases o with
  | none => exact .done ⟨rfl, rfl⟩
  | some a => exact hf a t

/-- Registers are looked at under new names. -/
theorem regs {f f' : Registers → Exec β} (hf : ∀ r, Renames ρ (f r) (f' (r.renamed ρ))) :
    Renames ρ (Exec.regs >>= f) (Exec.regs >>= f') := fun s => hf s.regs s

theorem update {f f' : Registers → Registers} (hf : ∀ r, f' (r.renamed ρ) = (f r).renamed ρ) :
    Renames ρ (Exec.update f) (Exec.update f') := by
  intro s
  refine .done ⟨rfl, ?_⟩
  exact congrArg (fun r => { s with regs := r }) (hf s.regs)

theorem aside {f : Registers → Registers} (hf : Registers.Aside f) :
    Renames ρ (Exec.update f) (Exec.update f) := update fun r => hf.renamed r ρ

theorem call {q : Bus.Call} (hq : q.asks = false) : Renames ρ (Exec.call q) (Exec.call q) :=
  fun _ => .ask hq fun _ => .done ⟨rfl, rfl⟩

theorem ite {c : Prop} [Decidable c] {m₁ m₁' : Exec α} (h : Renames ρ m m')
    (h₁ : Renames ρ m₁ m₁') :
    Renames ρ (if c then m else m₁) (if c then m' else m₁') := by
  split
  · exact h
  · exact h₁

theorem rendezvous {e e' : ℕ} (he : e' = e + 4 * ρ.prefixes) (htime : ρ.InTime e) (port : UInt16) :
    Renames ρ (Exec.rendezvous e port) (Exec.rendezvous e' port) := by
  intro s
  rw [rendezvous_eq, rendezvous_eq, he]
  refine .ask rfl fun shared => ?_
  have hsame : e < UInt32.size ↔ e + 4 * ρ.prefixes < UInt32.size := by
    rcases htime with hzero | hlt
    · rw [hzero, Nat.mul_zero, Nat.add_zero]
    · exact iff_of_true (by omega) hlt
  by_cases hshared : shared = true
  · rw [if_pos hshared, if_pos hshared]
    by_cases hlt : e < UInt32.size
    · rw [if_pos hlt, if_pos (hsame.1 hlt)]
      exact .sync e fun granted => .done ⟨rfl, rfl⟩
    · rw [if_neg hlt, if_neg (fun h => hlt (hsame.2 h))]
      exact .fail _
  · rw [if_neg hshared, if_neg hshared]
    exact .done ⟨rfl, rfl⟩

theorem fetchAt (a : UInt16) : Renames ρ (Exec.fetchAt a) (Exec.fetchAt a) := by
  intro s
  rw [fetchAt_eq, fetchAt_eq]
  refine (Bus.Delayed.of_asks (Bus.fetch_asks s.window a)).bind ?_
  rintro r _ rfl
  exact .done ⟨rfl, rfl⟩

/-! ### Fetches, words and operands -/

theorem read (a : UInt16) : Renames ρ (Exec.read a) (Exec.read a) := call rfl

theorem write (a : UInt16) (v : UInt8) : Renames ρ (Exec.write a v) (Exec.write a v) := call rfl

theorem fetchByte : Renames ρ Exec.fetchByte Exec.fetchByte :=
  regs fun _ => .bind (.fetchAt _) fun v => .bind (.aside fun _ _ _ => rfl) fun _ => .pure v

theorem fetchOpcode : Renames ρ Exec.fetchOpcode Exec.fetchOpcode :=
  .bind (.update fun r => r.refresh_renamed ρ) fun _ => .fetchByte

theorem fetchWord : Renames ρ Exec.fetchWord Exec.fetchWord :=
  .bind .fetchByte fun _ => .bind .fetchByte fun _ => .pure _

theorem readWord (a : UInt16) : Renames ρ (Exec.readWord a) (Exec.readWord a) :=
  .bind (.read _) fun _ => .bind (.read _) fun _ => .pure _

theorem writeWord (a v : UInt16) : Renames ρ (Exec.writeWord a v) (Exec.writeWord a v) :=
  .bind (.write _ _) fun _ => .write _ _

theorem push (v : UInt16) : Renames ρ (Exec.push v) (Exec.push v) :=
  .bind (.aside fun _ _ _ => rfl) fun _ => .regs fun _ => .bind (.write _ _) fun _ =>
    .bind (.aside fun _ _ _ => rfl) fun _ => .regs fun _ => .write _ _

theorem pop : Renames ρ Exec.pop Exec.pop :=
  .regs fun _ => .bind (.readWord _) fun _ => .bind (.aside fun _ _ _ => rfl) fun _ => .pure _

theorem jump (a : UInt16) : Renames ρ (Exec.jump a) (Exec.jump a) := .aside fun _ _ _ => rfl

theorem jumpBy (d : UInt8) : Renames ρ (Exec.jumpBy d) (Exec.jumpBy d) := .regs fun _ => .jump _

/-- Work on registers, and then a cost. -/
theorem work {f f' : Registers → Registers} (hf : ∀ r, f' (r.renamed ρ) = (f r).renamed ρ)
    (cost : ℕ) :
    Renames ρ (do Exec.update f; return cost) (do Exec.update f'; return cost) :=
  .bind (.update hf) fun _ => .pure _

theorem workHL {f : Registers → Registers} (hf : Registers.AsideHL f) (hhl : ρ.perm .hl = .hl)
    (cost : ℕ) :
    Renames ρ (do Exec.update f; return cost) (do Exec.update f; return cost) :=
  .work (fun r => hf.renamed r hhl) cost

theorem workAside {f : Registers → Registers} (hf : Registers.Aside f) (cost : ℕ) :
    Renames ρ (do Exec.update f; return cost) (do Exec.update f; return cost) :=
  .bind (.aside hf) fun _ => .pure _

/-- Where the `mem` operand lies, if HL keeps its name. -/
theorem operandAddress (hhl : ρ.perm .hl = .hl) (x : Index) (internal : ℕ) :
    Renames ρ (Exec.operandAddress x internal) (Exec.operandAddress (ρ.perm x) internal) := by
  unfold Exec.operandAddress
  by_cases hx : x = .hl
  · subst hx
    rw [if_pos hhl, if_pos rfl]
    refine .regs fun r => ?_
    rw [r.hl_renamed hhl]
    exact .pure _
  · have hx' : ρ.perm x ≠ .hl := fun h => hx (ρ.perm.injective (h.trans hhl.symm))
    rw [if_neg hx, if_neg hx']
    refine .bind .fetchByte fun d => .regs fun r => ?_
    rw [r.index_renamed]
    exact .bind (.aside fun _ _ _ => rfl) fun _ => .pure _

theorem changeReg (x : Index) (q : Reg8) (f : Flags.Lazy → UInt8 → UInt8 × Flags.Lazy) :
    Renames ρ (Exec.changeOperand x (.reg q) f) (Exec.changeOperand (ρ.perm x) (.reg q) f) := by
  refine .work (fun r => ?_) 4
  have haside : ∀ l, Registers.Aside fun s => { s with f := l } := fun _ _ _ _ => rfl
  dsimp only
  rw [r.get8_renamed, ← Registers.set8_renamed, ← (haside _).renamed]
  rfl

theorem changeMem (hhl : ρ.perm .hl = .hl) (x : Index)
    (f : Flags.Lazy → UInt8 → UInt8 × Flags.Lazy) :
    Renames ρ (Exec.changeOperand x .mem f) (Exec.changeOperand (ρ.perm x) .mem f) := by
  refine .bind (.operandAddress hhl x 5) fun a => .regs fun r => .bind (.read _) fun v => ?_
  exact .bind (.aside fun _ _ _ => rfl) fun _ => .bind (.write _ _) fun _ => .pure _

theorem pointer (via : Pointer) : Renames ρ (Exec.pointer via) (Exec.pointer via) := by
  cases via with
  | literal => exact .bind .fetchWord fun _ => .pure _
  | _ => exact .regs fun _ => .pure _

theorem taken (cond : Option Condition) : Renames ρ (Exec.taken cond) (Exec.taken cond) := by
  cases cond with
  | none => exact .pure true
  | some cond => exact .regs fun _ => .pure _

end Renames
end Exec

/-! ### Unprefixed instructions -/

open Exec Registers
open Flags (Lazy)

variable {ρ : Renaming}

namespace Instruction

/-- The instructions that access the byte at HL. -/
def pointed : Instruction → Bool
  | inc .mem | dec .mem | ldByte .mem | ldFromMem _ | ldToMem _ | alu _ .mem => true
  | _ => false

theorem transferA_renames (store : Bool) (via : Pointer) :
    Renames ρ (transferA store via) (transferA store via) := by
  refine .bind (.pointer via) fun a => ?_
  cases store with
  | true =>
    exact .regs fun _ => .bind (.write _ _) fun _ => .workAside (fun _ _ _ => rfl) _
  | false => exact .bind (.read _) fun _ => .workAside (fun _ _ _ => rfl) _

theorem transferPort_renames (output : Bool) {elapsed elapsed' : ℕ}
    (he : elapsed' = elapsed + 4 * ρ.prefixes) (htime : ρ.InTime (elapsed + 7)) :
    Renames ρ (transferPort output elapsed) (transferPort output elapsed') := by
  refine .bind .fetchByte fun n => .regs fun r =>
    .bind (.rendezvous (by omega) htime _) fun _ => ?_
  cases output with
  | true => exact .bind (.call rfl) fun _ => .workAside (fun _ _ _ => rfl) 11
  | false => exact .bind (.call rfl) fun _ => .workAside (fun _ _ _ => rfl) 11

/-- An instruction does the same under new names, if HL keeps its name or the instruction does not
depend on that: it neither accesses the byte at HL nor exchanges HL with another pair. -/
theorem execute_renames (i : Instruction) (x : Index)
    (hi : ρ.perm .hl = .hl ∨ i.pointed = false ∧ i ≠ .exx ∧ i ≠ .exDE) {elapsed elapsed' : ℕ}
    (he : elapsed' = elapsed + 4 * ρ.prefixes) (htime : ρ.InTime (elapsed + 7)) :
    Renames ρ (i.execute x elapsed) (i.execute (ρ.perm x) elapsed') := by
  cases i with
  | nop => exact .pure 4
  | halt =>
    refine .bind (.aside fun _ _ _ => rfl) fun _ => .regs fun r => ?_
    exact .ite (.bind (.call rfl) fun _ => .pure 4) (.pure 4)
  | di => exact .workAside (fun _ _ _ => rfl) 4
  | ei =>
    refine .bind (.aside fun _ _ _ => rfl) fun _ =>
      .bind (fun s => .done ⟨rfl, rfl⟩) fun _ => .pure 4
  | ldPair p => exact .bind .fetchWord fun v => .work (fun r => r.setPair_renamed ρ x p v) 10
  | storeA via => exact transferA_renames true via
  | loadA via => exact transferA_renames false via
  | storeIndex =>
    refine .bind .fetchWord fun a => .regs fun r => ?_
    rw [r.index_renamed]
    exact .bind (.writeWord _ _) fun _ => .workAside (fun _ _ _ => rfl) 16
  | loadIndex =>
    refine .bind .fetchWord fun a => .bind (.readWord _) fun v => .work (fun r => ?_) 16
    rw [← setIndex_renamed]
    exact congrArg (·.setIndex (ρ.perm x) v)
      (Aside.renamed (f := fun r => { r with wz := a + 1 }) r ρ fun _ _ _ => rfl)
  | incPair p => exact .work (fun r => by rw [getPair_renamed, setPair_renamed]) 6
  | decPair p => exact .work (fun r => by rw [getPair_renamed, setPair_renamed]) 6
  | addPair p => exact .work (fun r => r.addPair_renamed ρ x p) 11
  | inc o =>
    cases o with
    | reg q => exact .changeReg x q Lazy.inc8
    | mem => exact .changeMem (hi.resolve_right fun h => Bool.noConfusion h.1) x Lazy.inc8
  | dec o =>
    cases o with
    | reg q => exact .changeReg x q Lazy.dec8
    | mem => exact .changeMem (hi.resolve_right fun h => Bool.noConfusion h.1) x Lazy.dec8
  | ldByte o =>
    cases o with
    | reg q => exact .bind .fetchByte fun v => .work (fun r => r.set8_renamed ρ x q v) 7
    | mem =>
      have hhl := hi.resolve_right fun h => Bool.noConfusion h.1
      exact .bind (.operandAddress hhl x 2) fun _ => .bind .fetchByte fun _ =>
        .bind (.write _ _) fun _ => .pure _
  | ld dst src => exact .work (fun r => by rw [get8_renamed, set8_renamed]) 4
  | ldFromMem dst =>
    have hhl := hi.resolve_right fun h => Bool.noConfusion h.1
    refine .bind (.operandAddress hhl x 5) fun _ => .bind (.read _) fun v => .work (fun r => ?_) _
    have h := r.set8_renamed ρ .hl dst v
    rwa [hhl] at h
  | ldToMem src =>
    have hhl := hi.resolve_right fun h => Bool.noConfusion h.1
    refine .bind (.operandAddress hhl x 5) fun _ => .regs fun r => ?_
    have h := r.get8_renamed ρ .hl src
    rw [hhl] at h
    rw [h]
    exact .bind (.write _ _) fun _ => .pure _
  | alu op o =>
    have haside : ∀ v, Aside (·.alu op v) := fun v _ _ _ => by cases op <;> rfl
    cases o with
    | reg q =>
      refine .work (fun r => ?_) 4
      rw [r.get8_renamed]
      exact (haside _).renamed r ρ
    | mem =>
      have hhl := hi.resolve_right fun h => Bool.noConfusion h.1
      exact .bind (.operandAddress hhl x 5) fun _ => .bind (.read _) fun v =>
        .workAside (haside v) _
  | aluByte op => exact .bind .fetchByte fun v => .workAside (fun _ _ _ => by cases op <;> rfl) 7
  | rotateA s => exact .workAside (fun _ _ _ => rfl) 4
  | daa => exact .workAside (fun _ _ _ => rfl) 4
  | cpl => exact .workAside (fun _ _ _ => rfl) 4
  | scf => exact .workAside (fun _ _ _ => rfl) 4
  | ccf => exact .workAside (fun _ _ _ => rfl) 4
  | djnz =>
    refine .bind .fetchByte fun d => .bind (.aside fun _ _ _ => rfl) fun _ => .regs fun r => ?_
    exact .ite (.pure 8) (.bind (.jumpBy d) fun _ => .pure 13)
  | jr cond =>
    refine .bind .fetchByte fun d => .bind (.taken cond) fun _ => .ite ?_ (.pure 7)
    exact .bind (.jumpBy d) fun _ => .pure 12
  | jp cond =>
    refine .bind .fetchWord fun a => .bind (.aside fun _ _ _ => rfl) fun _ =>
      .bind (.taken cond) fun _ => ?_
    exact .ite (.bind (.jump a) fun _ => .pure 10) (.pure 10)
  | call cond =>
    refine .bind .fetchWord fun a => .bind (.aside fun _ _ _ => rfl) fun _ =>
      .bind (.taken cond) fun _ => ?_
    refine .ite (.regs fun r => ?_) (.pure 10)
    exact .bind (.push _) fun _ => .bind (.jump a) fun _ => .pure 17
  | ret cond =>
    cases cond with
    | none => exact .bind .pop fun _ => .bind (.jump _) fun _ => .pure 10
    | some cond =>
      exact .regs fun r => .ite (.bind .pop fun _ => .bind (.jump _) fun _ => .pure 11) (.pure 5)
  | rst target =>
    exact .regs fun r => .bind (.push _) fun _ => .bind (.jump target) fun _ => .pure 11
  | jpIndex =>
    refine .work (fun r => ?_) 4
    rw [r.index_renamed]
    exact Aside.renamed (f := fun s => { s with pc := r.index x }) r ρ fun _ _ _ => rfl
  | push p =>
    refine .regs fun r => ?_
    rw [r.getStackPair_renamed]
    exact .bind (.push _) fun _ => .pure 11
  | pop p => exact .bind .pop fun v => .work (fun r => r.setStackPair_renamed ρ x p v) 10
  | exStack =>
    refine .regs fun r => .bind (.readWord _) fun v => .regs fun r₁ => ?_
    rw [r₁.index_renamed]
    refine .bind (.writeWord _ _) fun _ => .work (fun r₂ => ?_) 19
    rw [← setIndex_renamed]
    exact congrArg (·.setIndex (ρ.perm x) v) (Aside.renamed (f := fun r => { r with wz := v }) r₂ ρ
      fun _ _ _ => rfl)
  | ldSP =>
    refine .work (fun r => ?_) 6
    rw [r.index_renamed]
    exact Aside.renamed (f := fun s => { s with sp := r.index x }) r ρ fun _ _ _ => rfl
  | exAF => exact .workAside (fun _ _ _ => rfl) 4
  | exx => exact .workHL (fun _ _ _ _ => rfl) (hi.resolve_right fun h => h.2.1 rfl) 4
  | exDE => exact .workHL (fun _ _ _ _ => rfl) (hi.resolve_right fun h => h.2.2 rfl) 4
  | outByte => exact transferPort_renames true he htime
  | inByte => exact transferPort_renames false he htime

end Instruction

/-! ### Bit instructions -/

namespace BitInstruction

theorem bitOp_renamed (s : Registers) (op : BitOp) (v xy : UInt8) :
    (s.renamed ρ).bitOp op v xy = ((s.bitOp op v xy).1, (s.bitOp op v xy).2.renamed ρ) := by
  have haside : ∀ l, Aside fun s => { s with f := l } := fun _ _ _ _ => rfl
  cases op with
  | shift sh => exact congrArg (Prod.mk _) ((haside _).renamed s ρ)
  | test bit => exact congrArg (Prod.mk _) ((haside _).renamed s ρ)
  | reset bit => rfl
  | set bit => rfl

theorem execute_renames (hhl : ρ.perm .hl = .hl) (i : BitInstruction) :
    Renames ρ i.execute i.execute := by
  obtain ⟨op, operand⟩ := i
  cases operand with
  | reg q =>
    refine .work (fun r => ?_) 8
    have hget := r.get8_renamed ρ .hl q
    rw [hhl] at hget
    dsimp only
    rw [hget, bitOp_renamed]
    obtain ⟨o, r₁⟩ := r.bitOp op (r.get8 .hl q) (r.get8 .hl q)
    cases o with
    | none => rfl
    | some w =>
      have hset := r₁.set8_renamed ρ .hl q w
      rwa [hhl] at hset
  | mem =>
    refine .regs fun r => ?_
    rw [r.hl_renamed hhl]
    refine .bind (.read _) fun v => .regs fun r₁ => .regs fun r₂ => ?_
    have hwz : (r₂.renamed ρ).wz = r₂.wz := rfl
    dsimp only
    rw [bitOp_renamed, hwz]
    generalize r₁.bitOp op v (high r₂.wz) = p
    obtain ⟨o, r₃⟩ := p
    refine .bind (.update fun _ => rfl) fun _ => ?_
    cases o with
    | none => exact .pure 12
    | some w => exact .bind (.write _ _) fun _ => .pure 15

theorem executeIndexed_renames (hhl : ρ.perm .hl = .hl) (i : BitInstruction) (x : Index)
    (d : UInt8) : Renames ρ (i.executeIndexed x d) (i.executeIndexed (ρ.perm x) d) := by
  obtain ⟨op, operand⟩ := i
  refine .regs fun r => ?_
  rw [r.index_renamed]
  refine .bind (.aside fun _ _ _ => rfl) fun _ => .bind (.read _) fun v => .regs fun r₁ => ?_
  dsimp only
  rw [bitOp_renamed]
  generalize r₁.bitOp op v (high (displace (r.index x) d)) = p
  obtain ⟨o, r₂⟩ := p
  refine .bind (.update fun _ => rfl) fun _ => ?_
  cases o with
  | none => exact .pure 16
  | some w =>
    refine .bind (.write _ _) fun _ => ?_
    cases operand with
    | mem => exact .bind (.pure ()) fun _ => .pure 19
    | reg q =>
      refine .work (fun r₃ => ?_) 19
      have hset := r₃.set8_renamed ρ .hl q w
      rwa [hhl] at hset

end BitInstruction

/-! ### Extended instructions -/

namespace Exec

theorem Renames.endBlock (goesOn : Bool) :
    Renames ρ (Exec.endBlock goesOn) (Exec.endBlock goesOn) := by
  cases goesOn with
  | true => exact .workAside (fun _ _ _ => rfl) 21
  | false => exact .pure 16

theorem Renames.blockLoad (hhl : ρ.perm .hl = .hl) (walk : Walk) (repeats : Bool) :
    Renames ρ (Exec.blockLoad walk repeats) (Exec.blockLoad walk repeats) := by
  refine .regs fun s => ?_
  rw [s.hl_renamed hhl]
  refine .bind (.read _) fun v => .bind (.write _ _) fun _ => .bind (.update fun r => ?_) fun _ =>
    .endBlock _
  exact AsideHL.renamed (f := fun r => (((r.setHL (walk.next s.hl)).setDE (walk.next s.de)).setBC
    (s.bc - 1)).blockLoadFlags v) r (fun _ _ _ _ => rfl) hhl

theorem Renames.blockCompare (hhl : ρ.perm .hl = .hl) (walk : Walk) (repeats : Bool) :
    Renames ρ (Exec.blockCompare walk repeats) (Exec.blockCompare walk repeats) := by
  refine .regs fun s => ?_
  rw [s.hl_renamed hhl]
  refine .bind (.read _) fun v => .bind (.update fun r => ?_) fun _ => .endBlock _
  exact AsideHL.renamed (f := fun r => { (r.setHL (walk.next s.hl)).setBC (s.bc - 1) with
    wz := walk.next s.wz }.blockCompareFlags v) r (fun _ _ _ _ => rfl) hhl

theorem Renames.blockInput (hhl : ρ.perm .hl = .hl) (walk : Walk) (repeats : Bool)
    {elapsed elapsed' : ℕ} (he : elapsed' = elapsed + 4 * ρ.prefixes)
    (htime : ρ.InTime (elapsed + 9)) :
    Renames ρ (Exec.blockInput walk repeats elapsed) (Exec.blockInput walk repeats elapsed') := by
  refine .regs fun s => .bind (.rendezvous (by omega) htime _) fun _ =>
    .bind (.call rfl) fun v => ?_
  refine .regs fun s₁ => ?_
  rw [s₁.hl_renamed hhl]
  refine .bind (.write _ _) fun _ => .bind (.update fun r => ?_) fun _ => .regs fun s₂ =>
    .endBlock _
  exact AsideHL.renamed (f := fun r => (transferred walk s.bc r).blockPortFlags v
    (v.toNat + (low (walk.next r.main.c.toUInt16)).toNat)) r (fun _ _ _ _ => rfl) hhl

theorem Renames.blockOutput (hhl : ρ.perm .hl = .hl) (walk : Walk) (repeats : Bool)
    {elapsed elapsed' : ℕ} (he : elapsed' = elapsed + 4 * ρ.prefixes)
    (htime : ρ.InTime (elapsed + 12)) :
    Renames ρ (Exec.blockOutput walk repeats elapsed) (Exec.blockOutput walk repeats elapsed') := by
  refine .regs fun s => .bind (.rendezvous (by omega) htime _) fun _ => ?_
  rw [s.hl_renamed hhl]
  refine .bind (.read _) fun v => .bind (.call rfl) fun _ => .bind (.update fun r => ?_) fun _ =>
    .regs fun s₂ => .endBlock _
  let port := word (s.main.b - 1) s.main.c
  exact AsideHL.renamed (f := fun r => (transferred walk port r).blockPortFlags v
    (v.toNat + (transferred walk port r).main.l.toNat)) r (fun _ _ _ _ => rfl) hhl

end Exec

namespace ExtendedInstruction

theorem inputC_renames (hhl : ρ.perm .hl = .hl) (o : Operand8) {elapsed elapsed' : ℕ}
    (he : elapsed' = elapsed + 4 * ρ.prefixes) (htime : ρ.InTime (elapsed + 8)) :
    Renames ρ (inputC o elapsed) (inputC o elapsed') := by
  refine .regs fun r => .bind (.rendezvous (by omega) htime _) fun _ =>
    .bind (.call rfl) fun v => ?_
  refine .workHL (fun _ _ _ _ => ?_) hhl 12
  cases o with
  | mem => rfl
  | reg q => cases q <;> rfl

theorem outputC_renames (hhl : ρ.perm .hl = .hl) (o : Operand8) {elapsed elapsed' : ℕ}
    (he : elapsed' = elapsed + 4 * ρ.prefixes) (htime : ρ.InTime (elapsed + 8)) :
    Renames ρ (outputC o elapsed) (outputC o elapsed') := by
  refine .regs fun r => .bind (.rendezvous (by omega) htime _) fun _ => .regs fun s => ?_
  cases o with
  | mem => exact .bind (.call rfl) fun _ => .workAside (fun _ _ _ => rfl) 12
  | reg q =>
    have hget := s.get8_renamed ρ .hl q
    rw [hhl] at hget
    dsimp only
    rw [hget]
    exact .bind (.call rfl) fun _ => .workAside (fun _ _ _ => rfl) 12

theorem rotateNibbles_renames (hhl : ρ.perm .hl = .hl) (toRight : Bool) :
    Renames ρ (rotateNibbles toRight) (rotateNibbles toRight) := by
  refine .regs fun r => ?_
  rw [r.hl_renamed hhl]
  refine .bind (.read _) fun v => .regs fun r₁ => ?_
  cases toRight with
  | true => exact .bind (.write _ _) fun _ => .workAside (fun _ _ _ => rfl) 18
  | false => exact .bind (.write _ _) fun _ => .workAside (fun _ _ _ => rfl) 18

/-- An instruction after ED never works on an index register. It does the same behind prefixes,
unless it moves R. -/
theorem execute_renames (hhl : ρ.perm .hl = .hl) (i : ExtendedInstruction)
    (hi : ρ.prefixes = 0 ∨ i ≠ .ldRA ∧ i ≠ .ldAR) {elapsed elapsed' : ℕ}
    (he : elapsed' = elapsed + 4 * ρ.prefixes)
    (htime : ∀ e ≤ 12, ρ.InTime (elapsed + e)) :
    Renames ρ (i.execute elapsed) (i.execute elapsed') := by
  cases i with
  | nop => exact .pure 8
  | inC o => exact inputC_renames hhl o he (htime 8 (by decide))
  | outC o => exact outputC_renames hhl o he (htime 8 (by decide))
  | sbcPair p => exact .workHL (fun _ _ _ _ => by cases p <;> rfl) hhl 15
  | adcPair p => exact .workHL (fun _ _ _ _ => by cases p <;> rfl) hhl 15
  | storePair p =>
    refine .bind .fetchWord fun a => .regs fun r => ?_
    have hget := r.getPair_renamed ρ .hl p
    rw [hhl] at hget
    rw [hget]
    exact .bind (.writeWord _ _) fun _ => .workAside (fun _ _ _ => rfl) 20
  | loadPair p =>
    exact .bind .fetchWord fun a => .bind (.readWord _) fun v =>
      .workHL (fun _ _ _ _ => by cases p <;> rfl) hhl 20
  | neg => exact .workAside (fun _ _ _ => rfl) 8
  | retn =>
    exact .bind (.aside fun _ _ _ => rfl) fun _ => .bind .pop fun _ => .bind (.jump _) fun _ =>
      .pure 14
  | setMode m => exact .workAside (fun _ _ _ => rfl) 8
  | ldIA => exact .workAside (fun _ _ _ => rfl) 9
  | ldRA =>
    have hzero := hi.resolve_right fun h => h.1 rfl
    refine .work (fun r => ?_) 9
    have hindex : ∀ x, Registers.index { r with r := r.a } x = r.index x :=
      fun x => by cases x <;> rfl
    rw [renamed_eq _ hhl, renamed_eq _ hhl, hzero, fetched_zero, fetched_zero, hindex, hindex]
  | ldAI => exact .workAside (fun _ _ _ => rfl) 9
  | ldAR =>
    have hzero := hi.resolve_right fun h => h.2 rfl
    refine .work (fun r => ?_) 9
    have hsame : (r.renamed ρ).r = r.r := by
      show fetched ρ.prefixes r.r = r.r
      rw [hzero, fetched_zero]
    rw [hsame]
    exact Aside.renamed (f := fun s => s.loadSystem r.r) r ρ fun _ _ _ => rfl
  | rrd => exact rotateNibbles_renames hhl true
  | rld => exact rotateNibbles_renames hhl false
  | block op walk repeats =>
    cases op with
    | load => exact .blockLoad hhl walk repeats
    | compare => exact .blockCompare hhl walk repeats
    | input => exact .blockInput hhl walk repeats he (htime 9 (by decide))
    | output => exact .blockOutput hhl walk repeats he (htime 12 (by decide))

end ExtendedInstruction
end TandemZ80
