import TandemZ80.Proofs.Cpu.Interrupts

/-!
# Interrupts that are waiting

A processor can be asked whether an interrupt is waiting that it does not mask. If the next step
accepts one, then one is waiting. The other way round this holds but for one state: EI holds the
interrupt off that it lets through, and so for one instruction an interrupt is waiting that is not
accepted.

* `Cpu.Driven`, the runs from a reset in which the outside drives the lines and moves PC, and
  `Cpu.Driven.recorded`: the latches are a record of the past here, too;
* `Cpu.Poised`, kept by a step in `Cpu.Poised.step` and by a run in `Cpu.Driven.poised`: what is
  held off is let through;
* `Cpu.Accepts` and `Cpu.HeldOff`, what a step accepts and what it does not yet accept, and
  `Cpu.pending_unless_held_off`.
-/

namespace TandemZ80.Cpu

variable {σ : Type} {h : Bus σ} {s t : Cpu} {b b' : σ} {cost : ℕ} {past : List Event}

/-! ### Runs -/

/-- The runs from a reset, with the latest event first. Between two steps PC may be set, and
anything may happen to the bus. -/
inductive Driven (h : Bus σ) : List Event → Cpu → σ → Prop
  | reset (s : Cpu) (b : σ) : Driven h [] s.reset b
  | outside {past : List Event} {s : Cpu} {b : σ} (hs : Driven h past s b) (b' : σ) :
      Driven h past s b'
  | setIntLine {past : List Event} {s : Cpu} {b : σ} (hs : Driven h past s b) (level : Bool) :
      Driven h (.setIntLine level :: past) (s.setIntLine level) b
  | nmi {past : List Event} {s : Cpu} {b : σ} (hs : Driven h past s b) :
      Driven h (.nmi :: past) s.nmi b
  | setPC {past : List Event} {s : Cpu} {b : σ} (hs : Driven h past s b) (a : UInt16) :
      Driven h past (s.setPC a) b
  | step {past : List Event} {s t : Cpu} {b b' : σ} {cost : ℕ} (hs : Driven h past s b)
      (hr : s.step.run h b = .ok ((cost, t), b')) :
      Driven h (.step s.action cost (s.executed h b) :: past) t b'

theorem Driven.recorded (hs : Driven h past s b) : Recorded past s := by
  induction hs with
  | reset s b => exact ⟨rfl, rfl, rfl⟩
  | outside _ _ ih => exact ih
  | setIntLine _ level ih => exact ⟨rfl, ih.nmi, ih.ei⟩
  | nmi _ ih => exact ⟨ih.line, rfl, ih.ei⟩
  | setPC _ a ih => exact ⟨ih.line, ih.nmi, ih.ei⟩
  | step _ hr ih => exact ih.step (latched_of_step hr)

/-! ### What is held off -/

/-- If interrupts are held off then they are let through, and the processor is not halted. -/
def Poised (s : Cpu) : Prop := s.afterEI = true → s.regs.iff1 = true ∧ s.regs.halted = false

/-- EI lets interrupts through. -/
theorem iff1_of_ei {u : Cpu}
    (hbody : (perform s.action { s with afterEI := false }).run h b = .ok ((some cost, u), b'))
    (hei : s.executed h b = some (.plain .ei)) : u.regs.iff1 = true := by
  rcases perform_cases hbody with ⟨hnone, -⟩ | ⟨r, t, b₁, elapsed, rest, hr, -, -, hrest⟩
  · rw [hnone] at hei
    cases hei
  · rw [hr] at hei
    rw [Resolved.execute_ei hei] at hrest
    cases hrest
    rfl

theorem Poised.step (hs : s.Poised) (hr : s.step.run h b = .ok ((cost, t), b')) : t.Poised := by
  intro hheld
  obtain ⟨u, -, rfl, rfl⟩ | ⟨u, ticks, hu, -, rfl⟩ := step_cases hr
  · -- A refused step held interrupts off before, so that it was not the acceptance of one.
    have hne : s.action ≠ .acceptInt := fun ha =>
      Bool.false_ne_true ((action_eq_acceptInt.1 ha).2.2.2.symm.trans hheld)
    have hsave := (refused_step hr).2.2.2 hne
    obtain ⟨hiff, hawake⟩ := hs hheld
    exact ⟨(congrArg Snapshot.iff1 hsave).trans hiff, (congrArg Snapshot.halted hsave).trans hawake⟩
  · have hei := (afterEI_of_perform hu).1 hheld
    have hiff := iff1_of_ei hu hei
    have hawake := awake_of_ei hu hei
    exact ⟨hiff, hawake⟩

theorem Driven.poised (hs : Driven h past s b) : s.Poised := by
  induction hs with
  | reset s b => exact nofun
  | outside _ _ ih => exact ih
  | setIntLine _ level ih => exact ih
  | nmi _ ih => exact ih
  | setPC _ a ih => exact fun hheld => ⟨(ih hheld).1, rfl⟩
  | step _ hr ih => exact ih.step hr

/-! ### What is waiting -/

/-- The next step accepts an interrupt. -/
def Accepts (s : Cpu) : Prop := s.action = .acceptNMI ∨ s.action = .acceptInt

/-- The line is up and no non-maskable interrupt is requested, but the last step that completed has
executed EI. -/
def HeldOff (past : List Event) : Prop :=
  latest Event.ei? past = true ∧ latest Event.level? past = true ∧ latest Event.nmi? past = false

theorem pending_eq_true : s.interruptPending = true ↔
    s.nmiPending = true ∨ s.intLine = true ∧ s.regs.iff1 = true := by
  rw [interruptPending, Bool.or_eq_true, Bool.and_eq_true]

theorem pending_of_accepts (ha : s.Accepts) : s.interruptPending = true := by
  rcases ha with ha | ha
  · exact pending_eq_true.2 (.inl (action_eq_acceptNMI.1 ha))
  · obtain ⟨-, hup, hiff, -⟩ := action_eq_acceptInt.1 ha
    exact pending_eq_true.2 (.inr ⟨hup, hiff⟩)

theorem not_accepts_of_execute (he : s.action = .execute) : ¬s.Accepts := by
  rintro (ha | ha) <;> rw [he] at ha <;> cases ha

/-- What is held off is waiting, and something is executed first. -/
theorem Driven.pending_of_heldOff (hs : Driven h past s b) (hoff : HeldOff past) :
    s.interruptPending = true ∧ s.action = .execute := by
  obtain ⟨hei, hup, hnmi⟩ := hoff
  rw [← hs.recorded.ei] at hei
  rw [← hs.recorded.line] at hup
  rw [← hs.recorded.nmi] at hnmi
  obtain ⟨hiff, hawake⟩ := hs.poised hei
  refine ⟨pending_eq_true.2 (.inr ⟨hup, hiff⟩), ?_⟩
  simp [action, hei, hup, hnmi, hawake]

/-- What is waiting is accepted or held off. -/
theorem Driven.accepts_or_heldOff (hs : Driven h past s b) (hpending : s.interruptPending = true) :
    s.Accepts ∨ HeldOff past := by
  obtain ⟨hline, hnmi, hei⟩ := hs.recorded
  cases hn : s.nmiPending with
  | true => exact .inl (.inl (action_eq_acceptNMI.2 hn))
  | false =>
    rcases pending_eq_true.1 hpending with hn' | ⟨hup, hiff⟩
    · rw [hn] at hn'
      cases hn'
    · cases ha : s.afterEI with
      | false => exact .inl (.inr (action_eq_acceptInt.2 ⟨hn, hup, hiff, ha⟩))
      | true => exact .inr ⟨hei.symm.trans ha, hline.symm.trans hup, hnmi.symm.trans hn⟩

/-- In every run from a reset, that an interrupt is waiting tells whether the next step accepts one,
if and only if none is held off. One that is held off is waiting, and the next step executes an
instruction. -/
theorem pending_unless_held_off (hs : Driven h past s b) :
    ((s.interruptPending = true ↔ s.Accepts) ↔ ¬HeldOff past) ∧
      (HeldOff past → s.interruptPending = true ∧ s.action = .execute) := by
  refine ⟨⟨fun hiff hoff => ?_, fun hoff => ?_⟩, hs.pending_of_heldOff⟩
  · obtain ⟨hpending, hexecute⟩ := hs.pending_of_heldOff hoff
    exact not_accepts_of_execute hexecute (hiff.1 hpending)
  · exact ⟨fun hpending => (hs.accepts_or_heldOff hpending).resolve_right hoff, pending_of_accepts⟩

/-- EI at 0 with the line up. Then an interrupt is waiting, and the next step does not accept it. -/
theorem pending_after_ei :
    ∃ s b, Driven (Bus.rom [0xFB, 0x00]) [.step .execute 4 (some (.plain .ei)),
      .setIntLine true] s b ∧ s.interruptPending = true ∧ ¬s.Accepts ∧ s.action = .execute := by
  have hline := Driven.setIntLine (.reset (h := Bus.rom [0xFB, 0x00]) .initial []) true
  have hei : Driven _ _ enabled [] := hline.step rfl
  obtain ⟨hpending, hexecute⟩ := (pending_unless_held_off hei).2 ⟨rfl, rfl, rfl⟩
  exact ⟨_, _, hei, hpending, not_accepts_of_execute hexecute, hexecute⟩

end TandemZ80.Cpu
