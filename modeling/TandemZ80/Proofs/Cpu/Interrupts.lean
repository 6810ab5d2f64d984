import TandemZ80.Proofs.Cpu.Prefixes
import TandemZ80.Proofs.Cpu.Retries

/-!
# Which steps accept an interrupt

A processor keeps three latches: the level of the interrupt line, the request for a non-maskable
interrupt, and the hold-off after EI. What it does next depends on them. Seen over a whole run they
are a record of the past: of the last time the line was driven, of the requests since the last one
was accepted, and of the last step that completed. A refused step leaves no trace in them.

* `Exec.Built.unchanged`, what a part of a step leaves alone, and `Resolved.execute_afterEI`: EI
  alone holds interrupts off;
* `Cpu.executed`, the opcode that a step comes to, and `Cpu.latched_of_step`, the latches after a
  step;
* `Cpu.Event` and `Cpu.Ran`, the runs from a reset; `Cpu.latest`, what the past says, and
  `Cpu.Ran.recorded`: the latches say the same;
* `Cpu.Ran.sheltered`, from EI to the next interrupt, and `Cpu.acceptance`.
-/

namespace TandemZ80

open Exec

variable {α σ : Type} {rights : Exec.Right → Prop}

/-! ### What a step leaves alone -/

namespace Cpu.Unchanged

variable {s t u : Cpu}

theorem refl (s : Cpu) : Unchanged rights s s := ⟨rfl, fun _ => rfl, fun _ => rfl, fun _ => rfl⟩

theorem trans (h : Unchanged rights s t) (h' : Unchanged rights t u) : Unchanged rights s u where
  line := h'.line.trans h.line
  afterEI hnone := (h'.afterEI hnone).trans (h.afterEI hnone)
  nmiPending hnone := (h'.nmiPending hnone).trans (h.nmiPending hnone)
  r hnone := (h'.r hnone).trans (h.r hnone)

end Cpu.Unchanged

/-- What there is no right to is left alone. -/
theorem Exec.Built.unchanged {m : Exec α} (h : Built rights m) (s : Cpu) :
    (m s).Ends fun r => Cpu.Unchanged rights s r.2 := by
  induction h generalizing s with
  | pure a => exact .done (.refl s)
  | bind _ _ ih ihf =>
    refine (ih s).bind ?_
    rintro ⟨o, t⟩ ht
    cases o with
    | none => exact .done ht
    | some a => exact (ihf a t).mono fun r hr => ht.trans hr
  | regs _ ih => exact ih s.regs s
  | window _ ih => exact ih s.window s
  | modify hf => exact .done (hf.unchanged s)
  | replace f _ hf _ ih =>
    have hreplaced : Cpu.Unchanged rights s { s with regs := (f s.regs).2 } :=
      ⟨rfl, fun _ => rfl, fun _ => rfl, fun _ => hf s.regs⟩
    exact (ih (f s.regs).1 { s with regs := (f s.regs).2 }).mono fun r hr => hreplaced.trans hr
  | call _ => exact .ask _ fun _ => .done (.refl s)
  | acknowledge _ => exact .ask _ fun _ => .done (.refl s)
  | rendezvous elapsed port =>
    rw [rendezvous_eq]
    refine .ask _ fun shared => ?_
    split
    · split
      · exact .ask _ fun granted => .done (.refl s)
      · exact .fail _
    · exact .done (.refl s)
  | overflow => exact .fail _

/-- A non-maskable interrupt is taken, and masks the others. -/
theorem Exec.acceptNMI_ends (s : Cpu) :
    (acceptNMI s).Ends fun r => r.2.nmiPending = false ∧ r.2.regs.iff1 = false :=
  .ask _ fun _ => .ask _ fun _ => .done ⟨rfl, rfl⟩

/-! ### EI -/

/-- The opcode that index prefixes come to. -/
def Resolved.opcode (r : Resolved) : Option Opcode := r.target.map Prod.snd

/-- EI lets interrupts through, but not at once. -/
theorem Resolved.execute_ei {r : Resolved} (hr : r.opcode = some (.plain .ei)) (elapsed : ℕ)
    (t : Cpu) :
    r.execute elapsed t =
      .done (some (4 * r.prefixes + 4),
        { t with regs := t.regs.setIFF true, afterEI := true }) := by
  obtain ⟨k, target⟩ := r
  obtain ⟨⟨x, o⟩, hx, rfl⟩ := Option.map_eq_some_iff.1 hr
  cases hx
  rfl

/-- Of all that prefixes can come to, EI alone holds interrupts off. -/
theorem Resolved.execute_afterEI (r : Resolved) (elapsed : ℕ) {t : Cpu} (ht : t.afterEI = false) :
    (r.execute elapsed t).Ends fun q => (q.2.afterEI = true ↔ r.opcode = some (.plain .ei)) := by
  by_cases hei : r.opcode = some (.plain .ei)
  · rw [execute_ei hei]
    exact .done ⟨fun _ => hei, fun _ => rfl⟩
  · have hbuilt : Built (· = Right.moveR) (r.execute elapsed) := by
      refine r.execute_built (fun x hx => absurd ?_ hei) ?_ elapsed
      · rw [opcode, hx]
        rfl
      · rfl
    refine (hbuilt.unchanged t).mono fun q hq => ?_
    rw [hq.afterEI Exec.Right.noConfusion, ht]
    exact ⟨nofun, fun h => absurd h hei⟩

namespace Cpu

variable {h : Bus σ} {s t : Cpu} {b b' : σ} {cost : ℕ}

theorem action_eq_acceptNMI : s.action = .acceptNMI ↔ s.nmiPending = true := by
  unfold action
  split_ifs <;> simp_all

theorem action_eq_acceptInt : s.action = .acceptInt ↔
    s.nmiPending = false ∧ s.intLine = true ∧ s.regs.iff1 = true ∧ s.afterEI = false := by
  unfold action
  split_ifs <;> simp_all

theorem halted_of_wait : s.action = .wait → s.regs.halted = true := by
  unfold action
  split_ifs <;> simp_all

theorem halted_of_execute : s.action = .execute → s.regs.halted = false := by
  unfold action
  split_ifs <;> simp_all

/-- The opcode that a step comes to, if any. -/
def executed (h : Bus σ) (s : Cpu) (b : σ) : Option Opcode :=
  match s.opening.run h b with
  | .ok ((some r, _), _) => r.opcode
  | _ => none

theorem executed_eq {r : Resolved} (hr : s.opening.run h b = .ok ((some r, t), b')) :
    s.executed h b = r.opcode := by
  unfold executed
  rw [hr]

theorem opening_ends (s : Cpu) : s.opening.Ends fun r => s.begun.Alike r.2 := by
  have hfetch : Fetches fetchOpcode := (Quiet.fetchOpcode fun _ => trivial).fetches
  have hack : Fetches (call .acknowledge) :=
    (Quiet.call (P := fun _ => True) rfl fun _ => trivial).fetches
  unfold opening
  split
  · exact hfetch.bind (fun op => resolve_fetches prefixLimit .hl op) s.begun
  · split
    · exact hack.bind (fun op => resolve_fetches prefixLimit .hl op) s.begun
    · exact .done (.refl _)
  · exact .done (.refl _)

theorem Alike.afterEI_eq (h : s.Alike t) : t.afterEI = s.afterEI := by
  obtain ⟨pc, r, w, rfl⟩ := h
  rfl

/-- What a step that returns comes to: it was refused and is undone, or it has taken its time. -/
theorem step_cases (hr : s.step.run h b = .ok ((cost, t), b')) :
    (∃ u, (perform s.action { s with afterEI := false }).run h b = .ok ((none, u), b') ∧ cost = 0 ∧
        t = retract s u) ∨
      ∃ u ticks, (perform s.action { s with afterEI := false }).run h b = .ok ((some cost, u), b') ∧
        cost ≠ 0 ∧ t = { u with ticks } := by
  obtain ⟨⟨o, u⟩, b₁, hbody, hr, -⟩ := Dialogue.run_bind_eq_ok hr
  cases o with
  | none =>
    cases hr
    exact .inl ⟨u, hbody, rfl, rfl⟩
  | some n =>
    obtain ⟨asked, htimely⟩ := s.perform_tentative.run_some hbody
    have hleast := htimely.least
    rcases finish_cases s u n with ⟨ticks, hfinish, -⟩ | ⟨hfinish, -⟩
    · rw [hfinish] at hr
      cases hr
      exact .inr ⟨u, ticks, hbody, by omega, rfl⟩
    · rw [hfinish] at hr
      cases hr

theorem awake_of_action (ha : s.action = .execute ∨ s.action = .acceptInt) :
    s.begun.regs.halted = false := by
  unfold begun
  rcases ha with ha | ha
  · simp only [ha, reduceCtorEq, if_false]
    exact halted_of_execute ha
  · simp only [ha, if_true]
    rfl

/-- What a step that completes has come to: nothing, or an opcode that it has then executed. -/
theorem perform_cases {u : Cpu}
    (hbody : (perform s.action { s with afterEI := false }).run h b = .ok ((some cost, u), b')) :
    (s.executed h b = none ∧ u.afterEI = false) ∨
      ∃ (r : Resolved) (t : Cpu) (b₁ : σ) (elapsed rest : ℕ), s.executed h b = r.opcode ∧
        s.begun.Alike t ∧ s.begun.regs.halted = false ∧
          (r.execute elapsed t).run h b₁ = .ok ((some rest, u), b') := by
  have hunchanged := (((perform_built s.action).unchanged _).run hbody).afterEI
  have hunopened : s.opening = .done (none, s.begun) → s.executed h b = none := fun hs => by
    rw [executed, hs]
    rfl
  cases ha : s.action with
  | acceptNMI =>
    rw [ha] at hunchanged
    have hright : ¬Action.acceptNMI.rights .holdOff := by simp [Action.rights]
    exact .inl ⟨hunopened (by simp only [opening, ha]), hunchanged hright⟩
  | wait =>
    rw [ha] at hunchanged
    have hright : ¬Action.wait.rights .holdOff := by simp [Action.rights]
    exact .inl ⟨hunopened (by simp only [opening, ha]), hunchanged hright⟩
  | execute =>
    rw [perform_execute ha] at hbody
    obtain ⟨⟨o, t⟩, b₁, hr, hrest, -⟩ := Dialogue.run_bind_eq_ok hbody
    cases o with
    | none => cases hrest
    | some r =>
      exact .inr ⟨r, t, b₁, 0, cost, executed_eq hr, s.opening_ends.run hr,
        awake_of_action (.inl ha), hrest⟩
  | acceptInt =>
    by_cases hm : s.regs.im = .mode0
    · rw [perform_mode0 ha hm] at hbody
      obtain ⟨⟨o, t⟩, b₁, hr, hrest, -⟩ := Dialogue.run_bind_eq_ok hbody
      cases o with
      | none => cases hrest
      | some r =>
        obtain ⟨⟨o, v⟩, b₂, hexecute, hrest, -⟩ := Dialogue.run_bind_eq_ok hrest
        cases o with
        | none => cases hrest
        | some rest =>
          cases hrest
          exact .inr ⟨r, t, b₁, 2, rest, executed_eq hr, s.opening_ends.run hr,
            awake_of_action (.inr ha), hexecute⟩
    · have hserve : Built (· = Right.acknowledge) (serve s.regs.im) :=
        serve_built _ (fun heq => absurd heq hm) rfl
      rw [ha] at hbody
      have hother : Right.holdOff ≠ Right.acknowledge := fun heq => by cases heq
      refine .inl ⟨hunopened ?_, ((hserve.unchanged _).run hbody).afterEI hother⟩
      unfold opening
      rw [ha]
      dsimp only
      cases hmode : s.regs.im with
      | mode0 => exact absurd hmode hm
      | _ => rfl

/-- A step that completes holds interrupts off if and only if it came to EI. -/
theorem afterEI_of_perform {u : Cpu}
    (hbody : (perform s.action { s with afterEI := false }).run h b = .ok ((some cost, u), b')) :
    u.afterEI = true ↔ s.executed h b = some (.plain .ei) := by
  rcases perform_cases hbody with ⟨hnone, hu⟩ | ⟨r, t, b₁, elapsed, rest, hr, ht, -, hrest⟩
  · rw [hnone, hu]
    exact ⟨nofun, nofun⟩
  · rw [hr]
    exact (r.execute_afterEI elapsed ht.afterEI_eq).run hrest

/-- EI does not halt. -/
theorem awake_of_ei {u : Cpu}
    (hbody : (perform s.action { s with afterEI := false }).run h b = .ok ((some cost, u), b'))
    (hei : s.executed h b = some (.plain .ei)) : u.regs.halted = false := by
  rcases perform_cases hbody with ⟨hnone, -⟩ | ⟨r, t, b₁, elapsed, rest, hr, ht, hawake, hrest⟩
  · rw [hnone] at hei
    cases hei
  · rw [hr] at hei
    rw [Resolved.execute_ei hei] at hrest
    cases hrest
    obtain ⟨pc, rr, w, rfl⟩ := ht
    exact hawake

/-- The latches after a step that returns. -/
structure Latched (h : Bus σ) (s : Cpu) (b : σ) (cost : ℕ) (t : Cpu) : Prop where
  line : t.intLine = s.intLine
  nmi : t.nmiPending = (if s.action = .acceptNMI then false else s.nmiPending)
  ei : t.afterEI = true ↔
    if cost = 0 then s.afterEI = true else s.executed h b = some (.plain .ei)

theorem latched_of_step (hr : s.step.run h b = .ok ((cost, t), b')) : s.Latched h b cost t := by
  have hbody : ∀ {o u}, (perform s.action { s with afterEI := false }).run h b = .ok ((o, u), b') →
      u.intLine = s.intLine ∧
        u.nmiPending = (if s.action = .acceptNMI then false else s.nmiPending) := by
    intro o u hbody
    have hu := ((perform_built s.action).unchanged _).run hbody
    refine ⟨hu.line, ?_⟩
    split
    · next ha =>
      rw [ha] at hbody
      exact ((acceptNMI_ends _).run hbody).1
    · next ha =>
      refine hu.nmiPending ?_
      cases hs : s.action with
      | acceptNMI => exact absurd hs ha
      | _ => simp [Action.rights]
  obtain ⟨u, hu, rfl, rfl⟩ | ⟨u, ticks, hu, hcost, rfl⟩ := step_cases hr
  · exact ⟨(hbody hu).1, (hbody hu).2, Iff.rfl⟩
  · refine ⟨(hbody hu).1, (hbody hu).2, ?_⟩
    rw [if_neg hcost]
    show u.afterEI = true ↔ _
    exact afterEI_of_perform hu

/-! ### Runs -/

/-- What happens to a processor in a run. Of a step it is noted what it did, what it returned, and
the opcode that it came to. -/
inductive Event
  | setIntLine (level : Bool)
  | nmi
  | step (action : Action) (cost : ℕ) (executed : Option Opcode)

/-- The runs from a reset, with the latest event first. Anything may happen to the bus between two
steps. -/
inductive Ran (h : Bus σ) : List Event → Cpu → σ → Prop
  | reset (s : Cpu) (b : σ) : Ran h [] s.reset b
  | outside {past : List Event} {s : Cpu} {b : σ} (hs : Ran h past s b) (b' : σ) : Ran h past s b'
  | setIntLine {past : List Event} {s : Cpu} {b : σ} (hs : Ran h past s b) (level : Bool) :
      Ran h (.setIntLine level :: past) (s.setIntLine level) b
  | nmi {past : List Event} {s : Cpu} {b : σ} (hs : Ran h past s b) : Ran h (.nmi :: past) s.nmi b
  | step {past : List Event} {s t : Cpu} {b b' : σ} {cost : ℕ} (hs : Ran h past s b)
      (hr : s.step.run h b = .ok ((cost, t), b')) :
      Ran h (.step s.action cost (s.executed h b) :: past) t b'

namespace Event

/-- The level that the line is driven to. -/
def level? : Event → Option Bool
  | setIntLine level => some level
  | _ => none

/-- Whether a non-maskable interrupt is requested, or accepted. -/
def nmi? : Event → Option Bool
  | nmi => some true
  | step .acceptNMI _ _ => some false
  | _ => none

/-- Whether a step that completed has executed EI. -/
def ei? : Event → Option Bool
  | step _ cost executed => if cost = 0 then none else some (executed == some (.plain .ei))
  | _ => none

end Event

/-- What the latest event tells that tells anything; no if there is none. -/
def latest (tells : Event → Option Bool) (past : List Event) : Bool :=
  (past.findSome? tells).getD false

theorem latest_cons (tells : Event → Option Bool) (e : Event) (past : List Event) :
    latest tells (e :: past) = (tells e).getD (latest tells past) := by
  unfold latest
  rw [List.findSome?_cons]
  cases tells e <;> rfl

/-- The latches are a record of the past. -/
structure Recorded (past : List Event) (s : Cpu) : Prop where
  line : s.intLine = latest Event.level? past
  nmi : s.nmiPending = latest Event.nmi? past
  ei : s.afterEI = latest Event.ei? past

theorem Recorded.step {past : List Event} (hs : Recorded past s) {b : σ}
    (ht : s.Latched h b cost t) :
    Recorded (.step s.action cost (s.executed h b) :: past) t where
  line := by
    rw [ht.line, hs.line, latest_cons]
    rfl
  nmi := by
    rw [ht.nmi, hs.nmi, latest_cons]
    cases s.action <;> rfl
  ei := by
    have hei := ht.ei
    rw [latest_cons, Event.ei?]
    split
    · next hcost =>
      rw [if_pos hcost] at hei
      rw [Option.getD_none, ← hs.ei]
      exact Bool.eq_iff_iff.2 hei
    · next hcost =>
      rw [if_neg hcost] at hei
      rw [Option.getD_some]
      exact Bool.eq_iff_iff.2 (hei.trans beq_iff_eq.symm)

theorem Ran.recorded {past : List Event} (hs : Ran h past s b) : Recorded past s := by
  induction hs with
  | reset s b => exact ⟨rfl, rfl, rfl⟩
  | outside _ _ ih => exact ih
  | setIntLine _ level ih => exact ⟨rfl, ih.nmi, ih.ei⟩
  | nmi _ ih => exact ⟨ih.line, rfl, ih.ei⟩
  | step _ hr ih => exact ih.step (latched_of_step hr)

/-! ### From EI to the next interrupt -/

/-- Whether a step has executed to its end. -/
def Event.Completes : Event → Prop
  | step action cost _ => action = .execute ∧ cost ≠ 0
  | _ => False

/-- No interrupt is let through, or EI holds them off and the next step executes something. -/
def Sheltered (s : Cpu) : Prop := s.regs.iff1 = false ∨ s.afterEI = true ∧ s.regs.halted = false

theorem Sheltered.action_ne (hs : s.Sheltered) : s.action ≠ .acceptInt := by
  intro ha
  obtain ⟨-, -, hiff, hei⟩ := action_eq_acceptInt.1 ha
  rcases hs with hiff' | ⟨hei', -⟩
  · rw [hiff] at hiff'
    cases hiff'
  · rw [hei] at hei'
    cases hei'

/-- A step leaves the processor sheltered, unless it executes something to its end. -/
theorem Sheltered.step (hs : s.Sheltered) (hr : s.step.run h b = .ok ((cost, t), b')) :
    (s.action = .execute ∧ cost ≠ 0) ∨ t.Sheltered := by
  obtain ⟨u, hu, rfl, rfl⟩ | ⟨u, ticks, hu, hcost, rfl⟩ := step_cases hr
  · -- Refused, it is as before.
    have hsave := (refused_step hr).2.2.2 hs.action_ne
    refine .inr (hs.imp (fun hiff => ?_) fun hheld => ⟨hheld.1, ?_⟩)
    · exact (congrArg Snapshot.iff1 hsave).trans hiff
    · exact (congrArg Snapshot.halted hsave).trans hheld.2
  · cases ha : s.action with
    | execute => exact .inl ⟨rfl, hcost⟩
    | acceptInt => exact absurd ha hs.action_ne
    | acceptNMI =>
      rw [ha] at hu
      exact .inr (.inl ((acceptNMI_ends _).run hu).2)
    | wait =>
      rw [ha] at hu
      cases hu
      refine .inr (hs.imp id fun hheld => ?_)
      have hhalted := halted_of_wait ha
      rw [hheld.2] at hhalted
      cases hhalted

/-- A step that executes EI to its end leaves the processor sheltered. -/
theorem sheltered_of_ei (hr : s.step.run h b = .ok ((cost, t), b')) (hcost : cost ≠ 0)
    (hei : s.executed h b = some (.plain .ei)) : t.Sheltered := by
  obtain ⟨u, -, hzero, -⟩ | ⟨u, ticks, hu, -, rfl⟩ := step_cases hr
  · exact absurd hzero hcost
  · have hawake := awake_of_ei hu hei
    exact .inr ⟨(afterEI_of_perform hu).2 hei, hawake⟩

/-- After EI the processor is sheltered until something else has been executed. -/
theorem Ran.sheltered {past : List Event} (hs : Ran h past s b) {recent older : List Event}
    {action : Action} {n : ℕ} (hn : n ≠ 0)
    (hpast : past = recent ++ .step action n (some (.plain .ei)) :: older) :
    (∃ e ∈ recent, e.Completes) ∨ s.Sheltered := by
  induction hs generalizing recent with
  | reset s b => simp at hpast
  | outside _ _ ih => exact ih hpast
  | setIntLine _ level ih =>
    rcases List.cons_eq_append_iff.1 hpast with ⟨-, hlast⟩ | ⟨recent, rfl, htail⟩
    · cases hlast
    · exact (ih htail).imp_left List.exists_mem_cons_of_exists
  | nmi _ ih =>
    rcases List.cons_eq_append_iff.1 hpast with ⟨-, hlast⟩ | ⟨recent, rfl, htail⟩
    · cases hlast
    · exact (ih htail).imp_left List.exists_mem_cons_of_exists
  | @step past s t b b' cost _ hr ih =>
    rcases List.cons_eq_append_iff.1 hpast with ⟨-, hlast⟩ | ⟨recent, rfl, htail⟩
    · -- This is the step that executes EI.
      obtain ⟨-, rfl, hei⟩ := Event.step.inj (List.cons.inj hlast).1
      exact .inr (sheltered_of_ei hr hn hei.symm)
    · rcases ih htail with hcompletes | hshelter
      · exact .inl (List.exists_mem_cons_of_exists hcompletes)
      · exact (hshelter.step hr).imp_left fun hc => ⟨_, .head _, hc⟩

/-! ### Acceptance -/

/-- Which steps accept an interrupt, in every run from a reset. A non-maskable interrupt is accepted
exactly if one was requested since the last one was accepted. A maskable one is accepted exactly if
none of the former is due, the line is up, interrupts are let through, and the last step that
completed did not execute EI; so something is executed to its end between EI and the interrupt,
however often that is refused. -/
theorem acceptance {past : List Event} (hs : Ran h past s b) :
    (s.action = .acceptNMI ↔ latest Event.nmi? past = true) ∧
      (s.action = .acceptInt ↔ latest Event.nmi? past = false ∧ latest Event.level? past = true ∧
        s.regs.iff1 = true ∧ latest Event.ei? past = false) ∧
      (s.action = .acceptInt → ∀ recent older action cost, cost ≠ 0 →
        past = recent ++ .step action cost (some (.plain .ei)) :: older →
          ∃ e ∈ recent, e.Completes) := by
  obtain ⟨hline, hnmi, hei⟩ := hs.recorded
  rw [← hline, ← hnmi, ← hei]
  refine ⟨action_eq_acceptNMI, action_eq_acceptInt,
    fun ha recent older action cost hcost hpast => ?_⟩
  exact (hs.sheltered hcost hpast).resolve_right fun hshelter => hshelter.action_ne ha

/-- A processor that has executed EI at 0, with the line up. -/
def enabled : Cpu :=
  { initial with
    regs := { initial.regs with pc := 1, r := 1, iff1 := true, iff2 := true }
    window := some (Flat.window 0)
    intLine := true
    afterEI := true
    ticks := ⟨4⟩ }

/-- EI and `IN A,(10h)` with the line up. The input is refused once and executed then, and the
interrupt is accepted only after that. -/
theorem acceptance_after_ei :
    ∃ s b, Ran (Bus.refusing (Bus.rom [0xFB, 0xDB, 0x10]))
        [.step .execute 11 (some (.plain .inByte)), .step .execute 0 (some (.plain .inByte)),
          .step .execute 4 (some (.plain .ei)), .setIntLine true] s b ∧
      s.action = .acceptInt := by
  have hline :=
    Ran.setIntLine (.reset (h := Bus.refusing (Bus.rom [0xFB, 0xDB, 0x10])) .initial (1, [])) true
  have hei : Ran _ _ enabled (1, []) := hline.step rfl
  have hrefused : Ran _ _ enabled (0, []) := hei.step rfl
  have hinput := hrefused.step rfl
  exact ⟨_, _, hinput, (acceptance hinput).2.1.2 ⟨rfl, rfl, rfl, rfl⟩⟩

end Cpu
end TandemZ80
