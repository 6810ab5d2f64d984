import TandemZ80.Cpu.Snapshot
import TandemZ80.Cpu.Step
import TandemZ80.Proofs.Flags.Eager

/-!
# What is owed does not show

How much of F is still owed, and the window that opcodes were fetched through, are the two things in
a processor that its snapshot leaves out. Nothing that works on registers can tell them.

* `Registers.Agree`, registers that differ only in what is owed; `Cpu.Agree`;
* `Registers.Blind`, work on registers that does not tell what is owed, with one lemma for each kind
  of work in an instruction;
* `Cpu.save_eq_iff`, `Cpu.load_save`: a snapshot is a processor without these two.
-/

namespace TandemZ80

open Flags (Lazy)

/-! ### Registers -/

namespace Registers

variable {r r' : Registers} {f g : Registers → Registers}

/-- Registers that differ only in how much of F is still owed. -/
def Agree (r r' : Registers) : Prop := r'.settled = r.settled

@[simp] theorem settled_settled (r : Registers) : r.settled.settled = r.settled := by
  simp only [settled, Lazy.peek_ofByte]

theorem agree_of_peek {l : Lazy} (h : l.peek = r.f.peek) : r.Agree { r with f := l } := by
  unfold Agree settled
  rw [h]

theorem Agree.exists_eq (h : r.Agree r') : ∃ l, l.peek = r.f.peek ∧ r' = { r with f := l } := by
  have hf : r'.settled.f.peek = r.settled.f.peek := congrArg (fun s => s.f.peek) h
  refine ⟨r'.f, by simpa only [settled, Lazy.peek_ofByte] using hf, ?_⟩
  cases r
  cases r'
  simp only [Agree, settled, mk.injEq] at h ⊢
  exact ⟨h.1, trivial, h.2.2⟩

/-- Work on registers that cannot tell what is owed. -/
def Blind (f : Registers → Registers) : Prop := ∀ r, (f r.settled).settled = (f r).settled

namespace Blind

theorem agree (hf : Blind f) (h : r.Agree r') : (f r).Agree (f r') := by
  unfold Agree at h ⊢
  rw [← hf r', h, hf r]

/-- Work that leaves F alone. -/
theorem of_settled (h : ∀ r, f r.settled = (f r).settled) : Blind f := fun r => by
  rw [h, settled_settled]

theorem comp (hg : Blind g) (hf : Blind f) : Blind fun r => g (f r) := fun r => by
  show (g (f r.settled)).settled = _
  rw [← hg (f r.settled), hf, hg]

/-! #### Loads and exchanges -/

theorem setIndex (x : Index) (v : UInt16) : Blind (·.setIndex x v) :=
  of_settled fun r => by cases x <;> rfl

theorem setPair (x : Index) (p : Pair) (v : UInt16) : Blind (·.setPair x p v) := by
  cases p with
  | hl => exact setIndex x v
  | _ => exact of_settled fun r => rfl

theorem set8 (x : Index) (q : Reg8) (v : UInt8) : Blind (·.set8 x q v) :=
  of_settled fun r => by
    cases q with
    | h | l => cases x <;> rfl
    | _ => rfl

theorem setStackPair (x : Index) (p : StackPair) (v : UInt16) : Blind (·.setStackPair x p v) := by
  cases p with
  | hl => exact setIndex x v
  | af =>
    intro r
    simp only [Registers.setStackPair, setAF, settled, Lazy.peek_set]
  | _ => exact of_settled fun r => rfl

theorem exchangeAF : Blind exchangeAF := fun r => by
  simp only [Registers.exchangeAF, settled, Lazy.peek_set, Lazy.peek_ofByte]

theorem exchangeDE : Blind exchangeDE := of_settled fun _ => rfl

/-! #### Arithmetic -/

theorem alu (op : AluOp) (v : UInt8) : Blind (·.alu op v) := fun r => by
  cases op <;>
    simp only [Registers.alu, settled, Lazy.isSet, Lazy.peek_ofByte, Lazy.peek_add8, Lazy.peek_sub8,
      Lazy.peek_and8, Lazy.peek_xor8, Lazy.peek_or8, Lazy.peek_cp8] <;> rfl

theorem rotateA (s : Alu.Shift) : Blind (·.rotateA s) := fun r => by
  simp only [Registers.rotateA, settled, Lazy.isSet, Lazy.peek_assign, Lazy.peek_ofByte]

theorem daa : Blind daa := fun r => by
  simp only [Registers.daa, settled, Lazy.peek_set, Lazy.peek_ofByte]

theorem complement : Blind complement := fun r => by
  simp only [Registers.complement, settled, Lazy.peek_assign, Lazy.peek_ofByte]

theorem setCarry : Blind setCarry := fun r => by
  simp only [Registers.setCarry, settled, Lazy.peek_assign, Lazy.peek_ofByte]

theorem flipCarry : Blind flipCarry := fun r => by
  simp only [Registers.flipCarry, settled, Lazy.isSet, Lazy.peek_assign, Lazy.peek_ofByte]
  rfl

theorem addPair (x : Index) (p : Pair) : Blind (·.addPair x p) := fun r => by
  cases x <;> cases p <;>
    simp only [Registers.addPair, Registers.setIndex, setHL, settled, Lazy.peek_add16,
      Lazy.peek_ofByte] <;> rfl

theorem sbcPair (p : Pair) : Blind (·.sbcPair p) := fun r => by
  cases p <;>
    simp only [Registers.sbcPair, setHL, settled, Lazy.isSet, Lazy.peek_sbc16,
      Lazy.peek_ofByte] <;> rfl

theorem adcPair (p : Pair) : Blind (·.adcPair p) := fun r => by
  cases p <;>
    simp only [Registers.adcPair, setHL, settled, Lazy.isSet, Lazy.peek_adc16,
      Lazy.peek_ofByte] <;> rfl

theorem negate : Blind negate := fun r => by
  simp only [Registers.negate, settled, Lazy.peek_sub8]
  rfl

/-! #### Flags -/

/-- Flags set by what F does not tell. -/
theorem assign {mask : UInt8} {v : Registers → UInt8} (hv : ∀ r, v r.settled = v r) :
    Blind fun r => { r with f := r.f.assign mask (v r) } := fun r => by
  simp only [hv]
  simp only [settled, Lazy.peek_assign, Lazy.peek_ofByte]

theorem loadSystem (v : Registers → UInt8) (hv : ∀ r, v r.settled = v r) :
    Blind fun r => r.loadSystem (v r) := fun r => by
  simp only [hv]
  simp only [Registers.loadSystem, settled, Lazy.peek_assign, Lazy.peek_ofByte]
  rfl

theorem loadShown (v : UInt8) : Blind (·.loadShown v) := fun r => by
  simp only [Registers.loadShown, settled, Lazy.peek_assign, Lazy.peek_ofByte]

theorem blockLoadFlags (v : UInt8) : Blind (·.blockLoadFlags v) := assign fun _ => rfl

theorem blockCompareFlags (v : UInt8) : Blind (·.blockCompareFlags v) := assign fun _ => rfl

/-- Flags of a transfer, after other work. -/
theorem blockPortFlags (v : UInt8) (k : Registers → ℕ) (hf : ∀ r, f r.settled = (f r).settled)
    (hk : ∀ r, k r.settled = k r) : Blind fun r => (f r).blockPortFlags v (k r) := fun r => by
  simp only [hf, hk]
  simp only [Registers.blockPortFlags, settled, Lazy.peek_set]
  rfl

theorem showInput (wz : UInt16) (v : UInt8) :
    Blind fun r => { r with wz := wz, f := r.f.assign (~~~CF) (Flags.sz53p v) } := fun r => by
  simp only [settled, Lazy.peek_assign, Lazy.peek_ofByte]

end Blind

theorem holds_eq {l : Lazy} (h : l.peek = r.f.peek) (cond : Condition) :
    holds { r with f := l } cond = r.holds cond := by
  cases cond <;> simp only [holds, Lazy.isSet, h]

theorem getStackPair_eq {l : Lazy} (h : l.peek = r.f.peek) (x : Index) (p : StackPair) :
    getStackPair { r with f := l } x p = r.getStackPair x p := by
  cases p with
  | af => simp only [getStackPair, af, h]
  | hl => cases x <;> rfl
  | _ => rfl

theorem index_eq (l : Lazy) (x : Index) : index { r with f := l } x = r.index x := by
  cases x <;> rfl

theorem get8_eq (l : Lazy) (x : Index) (q : Reg8) : get8 { r with f := l } x q = r.get8 x q := by
  cases q with
  | h | l => simp only [get8, index_eq]
  | _ => rfl

theorem bitOp_eq {l : Lazy} (h : l.peek = r.f.peek) (op : BitOp) (v xy : UInt8) :
    ∃ r', bitOp { r with f := l } op v xy = ((r.bitOp op v xy).1, r') ∧
      (r.bitOp op v xy).2.Agree r' := by
  refine ⟨_, Prod.ext ?_ rfl, ?_⟩ <;> cases op <;>
    simp only [bitOp, Agree, settled, Lazy.isSet, Lazy.peek_set, Lazy.peek_assign, h]

end Registers

/-! ### Processors -/

namespace Cpu

variable {s t : Cpu}

/-- A processor with nothing owed in F and without a window. -/
def settled (s : Cpu) : Cpu := { s with regs := s.regs.settled, window := none }

/-- Processors that differ only in what is owed and in the window. -/
def Agree (s t : Cpu) : Prop := t.settled = s.settled

theorem Agree.refl (s : Cpu) : s.Agree s := rfl

theorem Agree.exists_eq (h : s.Agree t) :
    ∃ r w, s.regs.Agree r ∧ t = { s with regs := r, window := w } := by
  cases s
  cases t
  simp only [Agree, settled, mk.injEq] at h
  obtain ⟨hregs, -, rfl, rfl, rfl, rfl⟩ := h
  exact ⟨_, _, hregs, rfl⟩

theorem agree_of_regs {r : Registers} (h : s.regs.Agree r) (w : Option Window) :
    s.Agree { s with regs := r, window := w } := by
  unfold Agree settled
  rw [show r.settled = s.regs.settled from h]

/-! #### Snapshots -/

/-- A snapshot is all of a processor but what is owed and the window: reading it back leaves nothing
owed. -/
theorem load_save (s : Cpu) : load s.save = .ok s.settled := by
  unfold load Snapshot.restore?
  rw [if_neg (by simp [save]), show s.save.im = s.regs.im.toByte from rfl,
    InterruptMode.ofByte?_toByte]
  simp [save, settled, Registers.settled, bank, Registers.af, Registers.bc, Registers.de,
    Registers.hl, Registers.afAlt, Registers.bcAlt, Registers.deAlt, Registers.hlAlt]

/-- Nothing is owed by a processor that was read back. -/
theorem settled_of_load {p : Snapshot} (h : load p = .ok s) : s.settled = s := by
  have hload := load_save s
  rw [save_of_load h, h] at hload
  exact (Except.ok.inj hload).symm

theorem save_eq_iff : s.save = t.save ↔ s.Agree t := by
  constructor
  · intro h
    have hload := load_save s
    rw [h, load_save t] at hload
    exact Except.ok.inj hload
  · intro h
    rw [← save_of_load (load_save s), ← save_of_load (load_save t),
      show t.settled = s.settled from h]

end Cpu
end TandemZ80
