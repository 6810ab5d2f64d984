import TandemZ80.Proofs.Cpu.Refusal
import TandemZ80.Proofs.Machine.Reach
import TandemZ80.Proofs.Schedule.Idle
import TandemZ80.Proofs.Schedule.Overtaking

/-!
# A processor that waits

An idle sub processor waits for an interrupt in slots of four T-states, and asks for nothing. It
makes no difference to the main processor whether it is stepped or credited with the time.

* `Backplane.step_tentative`: on the bus of a plain machine a step is refused before it has done
  anything;
* `Cpu.Waited`, a processor that has waited; `Hardware.step_of_isIdle`;
* `Hardware.Beside`, hardware whose sub processor has waited beside hardware whose sub processor was
  credited with the time; `Hardware.processors_idle`;
* `Hardware.processors_quiet`.
-/

namespace TandemZ80

open Exec

/-! ### Refused steps -/

/-- An opcode that stands for an instruction without ports asks for none. -/
theorem Exec.instruction_sure {op : UInt8} {i : Instruction} (hop : Opcode.decode op = .plain i)
    (hi : i.usesPort = false) (elapsed : ℕ) : Sure (instruction elapsed op) (Costs 21) := by
  obtain ⟨n, hn⟩ : ∃ n, prefixLimit = n + 1 := ⟨prefixLimit - 1, by decide⟩
  unfold instruction
  rw [hn, opcode, hop]
  exact Instruction.execute_sure hi .hl elapsed

/-- FF is a restart. -/
theorem Exec.restart_sure :
    Sure (do let rest ← instruction 2 0xFF; return 2 + rest) (Costs 23) := by
  refine .bind ((instruction_sure (i := .rst 0x38) rfl rfl 2).mono fun rest hrest => .pure ?_)
  obtain ⟨hleast, hmost⟩ := hrest
  exact ⟨by omega, by omega⟩

variable {δ α : Type}

namespace Backplane

variable {s : Side} {c c' : Setting} {w : Option Window} {b : Backplane (Part δ)}

theorem reading_sure {β : Type} (b : Backplane δ)
    (access : Devices δ → Except Fault (β × Devices δ)) :
    Rendezvous.Sure (fun _ => True) (reading access b) := by
  obtain ⟨memory, ports, devices⟩ := b
  unfold reading
  dsimp only
  cases access devices with
  | ok r => exact .done trivial
  | error f => exact .fail f

variable [Device δ]

/-- Looking changes nothing. -/
theorem serve_looks (h : b.Plain s c w) {q : Bus.Call} (hq : q.looks = true) :
    ∃ x, serve q b = .done (x, b) := by
  cases q with
  | read a => exact ⟨_, h.layered.serve_read a⟩
  | acknowledge => exact ⟨_, serve_acknowledge h⟩
  | window a => exact ⟨_, rfl⟩
  | readWindow v a => exact ⟨_, rfl⟩
  | isShared p => exact ⟨_, rfl⟩
  | _ => cases hq

theorem serve_sure {q : Bus.Call} (hq : q.asks = false) (b : Backplane δ) :
    Rendezvous.Sure (fun _ => True) (serve q b) := by
  cases q with
  | sync e => cases hq
  | write a v =>
    obtain ⟨memory, ports, devices⟩ := b
    unfold serve
    dsimp only
    cases memory.write a v devices with
    | ok r => exact .done trivial
    | error f => exact .fail f
  | stop n => exact .stop n (.done trivial)
  | read a => exact reading_sure b _
  | input p => exact reading_sure b _
  | output p v =>
    exact reading_sure b fun devices => do return ((), ← b.ports.output (portOf p) v devices)
  | acknowledge => exact reading_sure b _
  | window a => exact .done trivial
  | readWindow v a => exact .done trivial
  | isShared p => exact .done trivial

theorem relay_sure {P : α → Prop} {d : Bus.Program (Option α × Cpu)} (hd : Bus.Sure P d)
    (b : Backplane δ) :
    Rendezvous.Sure (fun r => ∃ a, r.1.1 = some a ∧ P a) (d.relay serve b) := by
  induction hd generalizing b with
  | done t hP => exact .done ⟨_, rfl, hP⟩
  | ask hq _ ih =>
    rw [Dialogue.relay_ask]
    exact (serve_sure hq b).bind fun r _ => ih r.1 r.2

theorem relay_tentative (h : b.Plain s c w) {u : Cpu} {F : Prop} {P : α → Option ℕ → Prop}
    {d : Bus.Program (Option α × Cpu)} (hd : Bus.Tentative u F P d) :
    Rendezvous.Tentative (fun r => ∃ a asked, r.1.1 = some a ∧ P a asked)
      (fun r => r.1.1 = none ∧ u.Alike r.1.2 ∧ r.2 = b) (d.relay serve b) := by
  have weaken : ∀ asked {d : Bus.Program (Option α × Cpu)}, Bus.Sure (P · asked) d →
      Rendezvous.Sure (fun r => ∃ a asked, r.1.1 = some a ∧ P a asked) (d.relay serve b) := by
    intro asked d hd
    refine (relay_sure hd b).mono ?_
    rintro r ⟨a, ha, hP⟩
    exact ⟨a, asked, ha, hP⟩
  induction hd with
  | sure hd => exact .sure (weaken none hd)
  | fail f _ => exact .sure (.fail f)
  | look hq _ ih =>
    obtain ⟨x, hx⟩ := serve_looks h hq
    rw [Dialogue.relay_ask, hx]
    exact ih x
  | @sync e next t ht hrefused hgranted =>
    show Rendezvous.Tentative _ _ (.ask (.sync e) fun granted => (next granted).relay serve b)
    refine .sync e (a := ((none, t), b)) ?_ ⟨rfl, ht, rfl⟩ (weaken (some e) hgranted)
    rw [hrefused]
    rfl

/-- The end of a step returns its cost. -/
theorem finish_sure (u : Cpu) (cost : ℕ) (t : Cpu) (b : Backplane δ) :
    Rendezvous.Sure (fun r => r.1.1 = cost) ((Cpu.finish u (some cost, t)).relay serve b) := by
  unfold Cpu.finish
  dsimp only
  split_ifs
  · cases t.ticks.add _ with
    | ok ticks => exact .done rfl
    | error f => exact .fail f
  · exact .fail _

/-- Nobody answers in mode 0, so that the instruction on the bus is FF. -/
theorem relay_serve_mode0 (h : b.Plain s c w) (u : Cpu) :
    (Exec.serve .mode0 u).relay serve b =
      ((do let rest ← instruction 2 0xFF; return 2 + rest : Exec ℕ) u).relay serve b := by
  have hserve : Exec.serve .mode0 u = .ask .acknowledge fun op =>
      (do let rest ← instruction 2 op; return 2 + rest : Exec ℕ) u := rfl
  rw [hserve, Dialogue.relay_ask, serve_acknowledge h, Dialogue.done_bind]

/-- Accepted on the bus of a plain machine an interrupt asks for no port: the instruction on the bus
is a restart. -/
theorem acceptInt_sure (h : b.Plain s c w) (u : Cpu) :
    Rendezvous.Sure (fun r => ∃ cost, r.1.1 = some cost ∧ 0 < cost)
      ((acceptInt u).relay serve b) := by
  have hcosts : ∀ {m : Exec ℕ} (v : Cpu), Exec.Sure m (Costs 23) →
      Rendezvous.Sure (fun r => ∃ cost, r.1.1 = some cost ∧ 0 < cost) ((m v).relay serve b) := by
    intro m v hm
    refine (relay_sure (hm v) b).mono ?_
    rintro r ⟨cost, hr, hcost, -⟩
    exact ⟨cost, hr, by omega⟩
  rw [acceptInt_eq]
  by_cases hm : u.regs.im = .mode0
  · rw [hm, relay_serve_mode0 h]
    exact hcosts _ restart_sure
  · exact hcosts _ ((Exec.serve_sure hm).mono fun cost hc => ⟨hc.1, hc.2.trans (by decide)⟩)

/-- On the bus of a plain machine a step that is refused leaves processor and bus as they were. -/
theorem step_tentative (h : b.Plain s c w) (u : Cpu) :
    Rendezvous.Tentative (fun r => 0 < r.1.1) (fun r => r.1.1 = 0 ∧ u.Agree r.1.2 ∧ r.2 = b)
      (u.step.relay serve b) := by
  unfold Cpu.step
  rw [Dialogue.relay_bind]
  have hfinish :
      ∀ r : (Option ℕ × Cpu) × Backplane (Part δ), (∃ cost, r.1.1 = some cost ∧ 0 < cost) →
        Rendezvous.Sure (fun r => 0 < r.1.1) ((Cpu.finish u r.1).relay serve r.2) := by
    rintro ⟨⟨o, t⟩, b₁⟩ ⟨cost, ho, hcost⟩
    obtain rfl : o = some cost := ho
    exact (finish_sure u cost t b₁).mono fun r hr => hr.symm ▸ hcost
  -- Accepting an interrupt is treated apart: on a bus with another acknowledge it might ask for a
  -- port.
  by_cases ha : u.action = .acceptInt
  · rw [ha]
    exact .sure ((acceptInt_sure h _).bind hfinish)
  · refine (relay_tentative h u.perform_tentative).bind ?_ ?_
    · rintro r ⟨cost, asked, hr, hcost⟩
      exact hfinish r ⟨cost, hr, by have := hcost.least; omega⟩
    · rintro ⟨⟨o, t⟩, b₁⟩ ⟨ho, ht, hb⟩
      obtain rfl : o = none := ho
      obtain rfl : b₁ = b := hb
      refine ⟨_, rfl, rfl, Cpu.save_eq_iff.1 ?_, rfl⟩
      rw [Cpu.save_retract ht, if_neg ha]

end Backplane

/-! ### Waiting -/

/-- Registers that differ in R at most. -/
def Registers.SameButR (r r' : Registers) : Prop := ∃ n, r' = { r with r := n }

theorem Registers.SameButR.refl (r : Registers) : r.SameButR r := ⟨r.r, rfl⟩

theorem Registers.SameButR.symm {r r' : Registers} (h : r.SameButR r') : r'.SameButR r := by
  obtain ⟨n, rfl⟩ := h
  exact ⟨r.r, rfl⟩

theorem Registers.SameButR.trans {r r' r'' : Registers} (h : r.SameButR r') (h' : r'.SameButR r'') :
    r.SameButR r'' := by
  obtain ⟨n, rfl⟩ := h
  obtain ⟨n', rfl⟩ := h'
  exact ⟨n', rfl⟩

theorem Registers.sameButR_refresh (n : ℕ) (r : Registers) :
    r.SameButR (Nat.repeat Registers.refresh n r) := by
  induction n with
  | zero => exact .refl r
  | succ n ih => exact ih.trans ⟨_, rfl⟩

namespace Cpu

variable {s t : Cpu}

/-- A processor that has waited: it has the same registers but R, and is idle as before. -/
structure Waited (s t : Cpu) : Prop where
  regs : s.regs.SameButR t.regs
  idle : t.isIdle = true
  window : t.window = s.window

theorem isIdle_of_sameButR (h : s.isIdle = true) {r : Registers} (hr : s.regs.SameButR r)
    (afterEI : Bool) (ticks : Ticks) : isIdle { s with regs := r, afterEI, ticks } = true := by
  obtain ⟨n, rfl⟩ := hr
  exact h

theorem halted_of_isIdle (h : s.isIdle = true) : s.regs.halted = true := by
  unfold isIdle at h
  rw [Bool.and_eq_true, Bool.and_eq_true] at h
  exact h.1.1

theorem action_of_isIdle (h : s.isIdle = true) : s.action = .wait := by
  unfold isIdle interruptPending at h
  simp only [Bool.and_eq_true, Bool.not_eq_true', Bool.or_eq_false_iff] at h
  obtain ⟨⟨hhalted, hline⟩, hnmi, -⟩ := h
  simp [action, hnmi, hline, hhalted]

/-- An idle processor waits. -/
theorem step_of_isIdle (h : s.isIdle = true) :
    s.step = .fail .overflow ∨ ∃ t, s.step = .done (4, t) ∧ s.Waited t := by
  have hstep : s.step =
      finish s (some 4, { s with regs := s.regs.refresh, afterEI := false }) := by
    unfold step
    rw [action_of_isIdle h]
    rfl
  rw [hstep, finish, if_pos (by decide)]
  dsimp only
  cases hadd : s.ticks.add (.ofCost (UInt32.ofNat 4)) with
  | error f =>
    obtain rfl := Ticks.add_eq_error hadd
    exact .inl rfl
  | ok ticks =>
    have hregs : s.regs.SameButR s.regs.refresh := ⟨_, rfl⟩
    exact .inr ⟨_, rfl, hregs, isIdle_of_sameButR h hregs false ticks, rfl⟩

/-- An idle processor can be credited with time. -/
theorem advanceIdle_of_isIdle (h : s.isIdle = true) (n : Ticks) :
    s.advanceIdle n = .error .overflow ∨ ∃ t, s.advanceIdle n = .ok t ∧ s.Waited t := by
  unfold advanceIdle
  rw [Fault.require_of (halted_of_isIdle h)]
  cases hadd : s.ticks.add n with
  | error f =>
    obtain rfl := Ticks.add_eq_error hadd
    exact .inl rfl
  | ok ticks =>
    have hregs := Registers.sameButR_refresh ((n.count.toNat / 4) % 128) s.regs
    exact .inr ⟨_, rfl, hregs, isIdle_of_sameButR h hregs s.afterEI ticks, rfl⟩

end Cpu

/-! ### Hardware -/

namespace Hardware

variable {c c' : Setting} {h h' : Hardware δ}

/-- In plain hardware a step that is refused has done nothing. -/
theorem step_tentative [Device δ] {s : Side} {w : Option Window}
    (hplain : (h.plane s).Plain s c w) :
    Rendezvous.Tentative (fun r => 0 < r.1)
      (fun r => r.1 = 0 ∧ ∃ u, (h.boards.get s).cpu.Agree u ∧ r.2 = h.settle s u (h.plane s))
      (step s h) := by
  rw [step_eq]
  refine (Backplane.step_tentative hplain (h.boards.get s).cpu).bind (fun r hr => .done hr) ?_
  rintro ⟨⟨cost, u⟩, b⟩ ⟨hcost, hu, rfl⟩
  exact ⟨_, rfl, hcost, u, hu, rfl⟩

/-- An idle sub processor waits, and the bus is not asked for anything. -/
theorem step_of_isIdle [Device δ] (hidle : h.boards.sub.cpu.isIdle = true) :
    step .sub h = .fail .overflow ∨
      ∃ u, h.boards.sub.cpu.Waited u ∧ step .sub h = .done (4, h.settle .sub u (h.plane .sub)) := by
  rw [step_eq]
  show (h.boards.sub.cpu.step.relay _ _ >>= _) = _ ∨
    ∃ u, _ ∧ (h.boards.sub.cpu.step.relay _ _ >>= _) = _
  rcases Cpu.step_of_isIdle hidle with hfail | ⟨u, hu, hwaited⟩
  · rw [hfail]
    exact .inl rfl
  · rw [hu]
    exact .inr ⟨u, hwaited, rfl⟩

/-- Hardware in which the sub processor waits, beside hardware in which it has waited for another
time. -/
structure Beside (c c' : Setting) (h h' : Hardware δ) : Prop where
  main : h.boards.main.cpu.Agree h'.boards.main.cpu
  idle : h.boards.sub.cpu.isIdle = true
  idle' : h'.boards.sub.cpu.isIdle = true
  sub : h.boards.sub.cpu.regs.SameButR h'.boards.sub.cpu.regs
  plane : ∀ s, Backplane.Like s c c' (h.boards.get s).cpu.window (h'.boards.get s).cpu.window
    (h.plane s) (h'.plane s)

namespace Beside

/-- Both main processors have taken a step. -/
theorem settle_main (hh : Beside c c' h h') {u v : Cpu} {b b' : Backplane (Part δ)}
    (huv : u.Agree v) (hb : Backplane.Like .main c c' u.window v.window b b') :
    Beside c c' (h.settle .main u b) (h'.settle .main v b') where
  main := huv
  idle := hh.idle
  idle' := hh.idle'
  sub := hh.sub
  plane s := by
    cases s with
    | main => exact hb
    | sub => exact (hh.plane .sub).withDevices hb.link

/-- One main processor was refused a port. -/
theorem refused (hh : Beside c c' h h') {u : Cpu} (hu : h.boards.main.cpu.Agree u)
    (hplain : (h.plane .main).Plain .main c u.window) :
    Beside c c' (h.settle .main u (h.plane .main)) h' where
  main := hh.main.trans hu.symm
  idle := hh.idle
  idle' := hh.idle'
  sub := hh.sub
  plane s := by
    cases s with
    | main =>
      obtain ⟨-, hright, hmemory, hlink⟩ := hh.plane .main
      exact ⟨hplain, hright, hmemory, hlink⟩
    | sub => exact hh.plane .sub

/-- One sub processor has waited. -/
theorem waited (hh : Beside c c' h h') {u : Cpu} (hu : h.boards.sub.cpu.Waited u) :
    Beside c c' (h.settle .sub u (h.plane .sub)) h' where
  main := hh.main
  idle := hu.idle
  idle' := hh.idle'
  sub := hu.regs.symm.trans hh.sub
  plane s := by
    cases s with
    | main => exact hh.plane .main
    | sub =>
      show Backplane.Like .sub c c' u.window _ _ _
      rw [hu.window]
      exact hh.plane .sub

/-- The other one was credited with time. -/
theorem credited (hh : Beside c c' h h') {v : Cpu} (hv : h'.boards.sub.cpu.Waited v) :
    Beside c c' h (h'.settle .sub v (h'.plane .sub)) where
  main := hh.main
  idle := hh.idle
  idle' := hv.idle
  sub := hh.sub.trans hv.regs
  plane s := by
    cases s with
    | main => exact hh.plane .main
    | sub =>
      show Backplane.Like .sub c c' _ v.window _ _
      rw [hv.window]
      exact hh.plane .sub

theorem skipIdle_sub (hh : Beside c c' h h') (clocks : UInt64) :
    skipIdle .sub clocks h' = .error .overflow ∨
      ∃ h₁, skipIdle .sub clocks h' = .ok h₁ ∧ Beside c c' h h₁ := by
  rw [skipIdle_eq]
  rcases Cpu.advanceIdle_of_isIdle hh.idle' ⟨clocks⟩ with herror | ⟨v, hv, hwaited⟩
  · refine .inl ?_
    show _ <$> h'.boards.sub.cpu.advanceIdle _ = _
    rw [herror]
    rfl
  · refine .inr ⟨h'.settle .sub v (h'.plane .sub), ?_, hh.credited hwaited⟩
    show _ <$> h'.boards.sub.cpu.advanceIdle _ = _
    rw [hv]
    rfl

variable [Device δ]

/-- The main processors take their steps alike. -/
theorem step_main (hh : Beside c c' h h') (hc : c.changes < UInt32.size)
    (hc' : c'.changes < UInt32.size) :
    Dialogue.Alike (· = .overflow) (fun r r' => r.1 = r'.1 ∧ Beside c c' r.2 r'.2) (step .main h)
      (step .main h') := by
  rw [step_eq, step_eq]
  refine (Cpu.step_alike (B := Backplane.pairing δ .main hc hc') ⟨hh.main, hh.plane .main⟩).bind ?_
  rintro ⟨⟨cost, u⟩, b⟩ ⟨⟨cost', v⟩, b'⟩ ⟨hcost, huv, hb⟩
  exact .done ⟨hcost, hh.settle_main huv hb⟩

/-- A main processor that was refused a port is beside what it was beside before. -/
theorem tentative_main (hh : Beside c c' h h') (hc : c.changes < UInt32.size)
    (hc' : c'.changes < UInt32.size) :
    Rendezvous.Tentative (fun r => 0 < r.1) (fun r => r.1 = 0 ∧ Beside c c' r.2 h')
      (step .main h) := by
  -- That its bus is still plain, with the window that fetching has left, is known from how it goes.
  refine (step_tentative (hh.plane .main).left).of_alike (hh.step_main hc hc') ?_
  rintro ⟨cost, h₁⟩ ⟨cost', h₁'⟩ ⟨hcost, u, hu, rfl⟩ ⟨-, hbeside⟩
  exact ⟨hcost, hh.refused hu (hbeside.plane .main).left⟩

theorem step_sub (hh : Beside c c' h h') :
    step .sub h = .fail .overflow ∨
      ∃ cost h₁, 0 < cost ∧ step .sub h = .done (cost, h₁) ∧ Beside c c' h₁ h' := by
  rcases step_of_isIdle hh.idle with hfail | ⟨u, hwaited, hu⟩
  · exact .inl hfail
  · exact .inr ⟨4, _, by decide, hu, hh.waited hwaited⟩

end Beside

theorem processors_idle [Device δ] (hc : c.changes < UInt32.size) (hc' : c'.changes < UInt32.size) :
    (processors (δ := δ)).Idles (Beside c c') where
  alike _ _ hh := hh.step_main hc hc'
  tentative _ _ hh := hh.tentative_main hc hc'
  wait _ _ hh := hh.step_sub
  skip _ _ clocks hh := hh.skipIdle_sub clocks

/-- As long as it is idle, the sub processor asks for no port. -/
theorem processors_quiet [Device δ] :
    (processors (δ := δ)).Quiet .sub fun h => h.boards.sub.cpu.isIdle = true where
  own h hidle := by
    show Rendezvous.Lone _ (step .sub h)
    rcases step_of_isIdle hidle with hfail | ⟨u, hwaited, hu⟩
    · rw [hfail]
      exact .overflow
    · rw [hu]
      exact .done ⟨Nat.succ_pos 3, hwaited.idle⟩
  partner h hidle := by
    show (step .main h).Ends _
    rw [step_eq]
    exact (Dialogue.Ends.unconditional _).bind fun _ _ => .done hidle

end Hardware

end TandemZ80
