import Mathlib.Logic.Relation
import TandemZ80.Bus.Flat
import TandemZ80.Proofs.Cpu.Congruence
import TandemZ80.Proofs.Transcript

/-!
# Windows are not seen

A window is a promise of the bus: what is fetched through it is what reading would give, as long as
the window does not turn out to be stale. A processor keeps its window over many steps, while the
memory behind it is written, mapped anew, and changed from outside. If the bus keeps its promises,
then nothing but the number of fetches tells a processor with windows from one without.

* `Bus.Later`, what may become of a bus, and `Bus.Issued`, the windows issued on the way;
* `Bus.SoundWindows`, a bus that keeps its promises, and `Bus.withoutWindows`, one that makes none;
* `Bus.windowless`, which makes a `Bus.Pairing` of both; `Flat.soundWindows`, an example;
* `Bus.ShowsSame`, programs that show the same, with `Exec.Alike.showsSame` and
  `Cpu.step_showsSame`, where only the windows differ;
* `Cpu.course`, what shows of a processor, step by step, and `Cpu.windows_unseen`.
-/

namespace TandemZ80

variable {σ κ : Type}

namespace Bus

/-! ### Promises -/

/-- What happens to a bus between two fetches: it answers a call, or is changed from outside. -/
inductive Moves (bus : Bus σ) (outside : κ → σ → σ) : σ → σ → Prop
  | call {q : Call} {x : Reply q} {b b' : σ} (hq : q.fetches = false) (h : bus q b = .ok (x, b')) :
      Moves bus outside b b'
  | outside (k : κ) (b : σ) : Moves bus outside b (outside k b)

/-- What may become of a bus. -/
def Later (bus : Bus σ) (outside : κ → σ → σ) : σ → σ → Prop :=
  Relation.ReflTransGen (Moves bus outside)

variable {bus : Bus σ} {outside : κ → σ → σ} {b₀ b b' : σ} {w : Window}

/-- On the way from `b₀` to `b` the window has been issued. -/
def Issued (bus : Bus σ) (outside : κ → σ → σ) (b₀ : σ) (w : Window) (b : σ) : Prop :=
  ∃ b₁ a, Later bus outside b₀ b₁ ∧ bus (.window a) b₁ = .ok (some w, b₁) ∧ Later bus outside b₁ b

theorem Issued.moves (h : Issued bus outside b₀ w b) (hb : Moves bus outside b b') :
    Issued bus outside b₀ w b' := by
  obtain ⟨b₁, a, hbefore, hissued, hafter⟩ := h
  exact ⟨b₁, a, hbefore, hissued, hafter.tail hb⟩

/-- Issuing a window and fetching through it leave the bus as it is. What is fetched through a
window that was issued earlier is what reading gives now, and then reading has no effect either. -/
structure SoundWindows (bus : Bus σ) (outside : κ → σ → σ) (b₀ : σ) : Prop where
  issue : ∀ {b : σ}, Later bus outside b₀ b → ∀ a, ∃ w, bus (.window a) b = .ok (w, b)
  through : ∀ {b : σ} {w : Window}, Issued bus outside b₀ w b →
    ∀ {a : UInt16}, w.contains a = true →
    ∃ v, bus (.readWindow w a) b = .ok (v, b) ∧ ∀ x, v = some x → bus (.read a) b = .ok (x, b)

/-- The same bus, except that there are no windows. -/
def withoutWindows (bus : Bus σ) : Bus σ
  | .window _, b => .ok (none, b)
  | .readWindow .., b => .ok (none, b)
  | q, b => bus q b

/-- The calls that show, with their answers: all but those for reading memory. -/
def shown : (q : Call) × Reply q → Bool
  | ⟨.read _, _⟩ | ⟨.window _, _⟩ | ⟨.readWindow .., _⟩ => false
  | _ => true

/-! ### Fetching -/

/-- A processor without a window, on a bus without windows, beside one that may have a window that
was issued earlier. The buses are in the same state. -/
structure Unseen (bus : Bus σ) (outside : κ → σ → σ) (b₀ : σ) (w w' : Option Window) (b b' : σ) :
    Prop where
  windowless : w' = none
  same : b' = b
  later : Later bus outside b₀ b
  issued : ∀ v, w = some v → Issued bus outside b₀ v b

namespace Unseen

variable {w w' : Option Window}

theorem moves (h : Unseen bus outside b₀ w w' b b') {b₁ : σ} (hb : Moves bus outside b b₁) :
    Unseen bus outside b₀ w w' b₁ b₁ :=
  ⟨h.windowless, rfl, h.later.tail hb, fun v hv => (h.issued v hv).moves hb⟩

/-- What does not fetch is answered alike. -/
theorem call (h : Unseen bus outside b₀ w w' b b') {q : Call} (hq : q.fetches = false) :
    Dialogue.Alike (fun _ => True) (fun r r' => r.1 = r'.1 ∧ Unseen bus outside b₀ w w' r.2 r'.2)
      (Dialogue.announce bus shown q b) (Dialogue.announce bus.withoutWindows shown q b') := by
  obtain rfl := h.same
  have hsame : bus.withoutWindows q b' = bus q b' := by
    cases q with
    | window a => cases hq
    | readWindow v a => cases hq
    | _ => rfl
  cases hanswer : bus q b' with
  | error f =>
    rw [Dialogue.announce_error hanswer, Dialogue.announce_error (hsame.trans hanswer)]
    exact .fail trivial
  | ok r =>
    have hlater := h.moves (.call hq hanswer)
    rw [Dialogue.announce_ok hanswer, Dialogue.announce_ok (hsame.trans hanswer)]
    split_ifs
    · exact .ask _ fun _ => .done ⟨rfl, hlater⟩
    · exact .done ⟨rfl, hlater⟩

/-- Looking a byte up comes to the same, though only one of the buses issues a window. -/
theorem lookUp (h : Unseen bus outside b₀ w w' b b') (hsound : SoundWindows bus outside b₀)
    (a : UInt16) :
    Dialogue.Alike (fun _ => True)
      (fun r r' => r.1.1 = r'.1.1 ∧ Unseen bus outside b₀ r.1.2 r'.1.2 r.2 r'.2)
      ((Bus.lookUp a).relay (Dialogue.announce bus shown) b)
      ((Bus.lookUp a).relay (Dialogue.announce bus.withoutWindows shown) b') := by
  obtain ⟨v, hv⟩ := hsound.issue h.later a
  obtain rfl := h.same
  have hissue : Dialogue.announce bus shown (.window a) b' = .done (v, b') :=
    Dialogue.announce_ok hv
  have hnone : Dialogue.announce bus.withoutWindows shown (.window a) b' = .done (none, b') := rfl
  rw [Bus.relay_lookUp hissue, Bus.relay_lookUp hnone]
  have hissued : Unseen bus outside b₀ v none b' b' :=
    ⟨rfl, rfl, h.later, fun u hu => ⟨b', a, h.later, hu ▸ hv, .refl⟩⟩
  refine (hissued.call (q := .read a) rfl).bind ?_
  rintro ⟨x, b₁⟩ ⟨x', b₁'⟩ ⟨rfl, hafter⟩
  exact .done ⟨rfl, hafter⟩

/-- So does fetching, through the window or past it. -/
theorem fetch (h : Unseen bus outside b₀ w w' b b') (hsound : SoundWindows bus outside b₀)
    (a : UInt16) :
    Dialogue.Alike (fun _ => True)
      (fun r r' => r.1.1 = r'.1.1 ∧ Unseen bus outside b₀ r.1.2 r'.1.2 r.2 r'.2)
      ((Bus.fetch w a).relay (Dialogue.announce bus shown) b)
      ((Bus.fetch w' a).relay (Dialogue.announce bus.withoutWindows shown) b') := by
  obtain rfl := h.windowless
  cases w with
  | none => exact h.lookUp hsound a
  | some w =>
    by_cases ha : w.contains a = true
    · obtain ⟨v, hv, hread⟩ := hsound.through (h.issued w rfl) ha
      have hthrough : Dialogue.announce bus shown (.readWindow w a) b = .done (v, b) :=
        Dialogue.announce_ok hv
      cases v with
      -- The window is stale.
      | none =>
        rw [Bus.relay_fetch_stale ha hthrough]
        exact h.lookUp hsound a
      -- The byte behind the window is the one that the other processor reads.
      | some x =>
        obtain rfl := h.same
        have hnone : Dialogue.announce bus.withoutWindows shown (.window a) b' = .done (none, b') :=
          rfl
        have hother : Dialogue.announce bus.withoutWindows shown (.read a) b' = .done (x, b') :=
          Dialogue.announce_ok (hread x rfl)
        rw [Bus.relay_fetch ha hthrough]
        show Dialogue.Alike _ _ _ ((Bus.lookUp a).relay _ b')
        rw [Bus.relay_lookUp hnone, hother]
        exact .done ⟨rfl, h⟩
    · rw [Bus.fetch_past ha]
      exact h.lookUp hsound a

end Unseen

/-- A bus that keeps its promises, beside the same bus without windows. -/
def windowless (hsound : SoundWindows bus outside b₀) :
    Bus.Pairing (fun _ : (q : Call) × Reply q => Unit) σ σ where
  left := Dialogue.announce bus shown
  right := Dialogue.announce bus.withoutWindows shown
  fault _ := True
  related := Unseen bus outside b₀
  overflow := trivial
  call := by
    intro q hq w w' b b' h
    exact h.call hq
  fetch a := by
    intro w w' b b' h
    exact h.fetch hsound a

end Bus

/-- The windows of flat memory show what is behind them, also after any change. -/
theorem Flat.soundWindows (outside : κ → Flat → Flat) (m : Flat) :
    Flat.bus.SoundWindows outside m where
  issue _ a := ⟨_, rfl⟩
  through := by
    rintro m w ⟨m₁, a, -, hissued, -⟩ a' ha
    obtain rfl : Flat.window a = w := Option.some.inj (congrArg Prod.fst (Except.ok.inj hissued))
    refine ⟨_, rfl, fun x hx => ?_⟩
    rw [Flat.readWindow_window m ha] at hx
    cases hx
    rfl

/-! ### Two windows -/

/-- On a bus in the state `b` two programs show the same calls, and stop on the same fault or end in
the same state of the bus, with the same result and with processors that are saved alike. -/
structure Bus.ShowsSame {α : Type} (bus : Bus σ) (b : σ) (d d' : Program (α × Cpu)) : Prop where
  calls : (d.transcript bus b).filter shown = (d'.transcript bus b).filter shown
  ends : Fault.Alike (fun r r' => r.1.1 = r'.1.1 ∧ r.1.2.save = r'.1.2.save ∧ r.2 = r'.2)
    (d.run bus b) (d'.run bus b)

section Windows

variable {α : Type} {bus : Bus σ} {outside : κ → σ → σ} {b₀ b : σ}
  {hsound : bus.SoundWindows outside b₀}

variable (hsound) in
/-- Both are held against a third one, on the bus without windows. -/
theorem Bus.ShowsSame.of_windowless {d d' e : Program (α × Cpu)}
    (hd : Dialogue.Alike (fun _ => True)
      (fun r r' => r.1.1 = r'.1.1 ∧ (windowless hsound).Matched r.1.2 r'.1.2 r.2 r'.2)
      (d.relay (Dialogue.announce bus shown) b)
        (e.relay (Dialogue.announce bus.withoutWindows shown) b))
    (hd' : Dialogue.Alike (fun _ => True)
      (fun r r' => r.1.1 = r'.1.1 ∧ (windowless hsound).Matched r.1.2 r'.1.2 r.2 r'.2)
      (d'.relay (Dialogue.announce bus shown) b)
        (e.relay (Dialogue.announce bus.withoutWindows shown) b)) :
    ShowsSame bus b d d' := by
  obtain ⟨hcalls, hends⟩ := hd.announced
  obtain ⟨hcalls', hends'⟩ := hd'.announced
  refine ⟨hcalls.trans hcalls'.symm, hends.join hends' ?_⟩
  rintro r r' r'' ⟨hresult, hagree, hunseen⟩ ⟨hresult', hagree', hunseen'⟩
  refine ⟨hresult.trans hresult'.symm, ?_, hunseen.same.symm.trans hunseen'.same⟩
  rw [Cpu.save_eq_iff.2 hagree, Cpu.save_eq_iff.2 hagree']

variable {s : Cpu} {w w' : Option Window} (hb : Bus.Later bus outside b₀ b)
  (hw : ∀ v, w = some v → Bus.Issued bus outside b₀ v b)
  (hw' : ∀ v, w' = some v → Bus.Issued bus outside b₀ v b)

include hb hw in
theorem Bus.matched_windowless :
    (Bus.windowless hsound).Matched { s with window := w } { s with window := none } b b :=
  ⟨Cpu.agree_of_regs (s := { s with window := w }) rfl none, rfl, rfl, hb, hw⟩

include hb hw hw' in
/-- It does not show through which window of the bus a part of an instruction fetches. -/
theorem Exec.Alike.showsSame {m : Exec α} (hm : Exec.Alike (Bus.windowless hsound) m m) :
    Bus.ShowsSame bus b (m { s with window := w }) (m { s with window := w' }) :=
  .of_windowless hsound (hm _ _ _ _ (Bus.matched_windowless hb hw))
    (hm _ _ _ _ (Bus.matched_windowless hb hw'))

variable (hsound) in
include hsound hb hw hw' in
/-- It does not show through which window of the bus a step fetches. -/
theorem Cpu.step_showsSame :
    Bus.ShowsSame bus b (step { s with window := w }) (step { s with window := w' }) :=
  .of_windowless hsound (step_alike (Bus.matched_windowless hb hw))
    (step_alike (Bus.matched_windowless hb hw'))

end Windows

/-! ### Courses -/

/-- What happens to a processor on a bus that may be changed in the ways `κ`. -/
inductive Occurrence (κ : Type)
  | step
  | change (k : κ)
  | setIntLine (level : Bool)
  | nmi

namespace Cpu

/-- What shows of the steps of a processor: for each the calls that show, the cost, the processor as
it is saved afterwards, and the bus. A fault is the end. -/
def course (bus : Bus σ) (outside : κ → σ → σ) : List (Occurrence κ) → Cpu → σ →
    List (List ((q : Bus.Call) × Bus.Reply q) × Except Fault (ℕ × Snapshot × σ))
  | [], _, _ => []
  | .change k :: rest, s, b => course bus outside rest s (outside k b)
  | .setIntLine level :: rest, s, b => course bus outside rest (s.setIntLine level) b
  | .nmi :: rest, s, b => course bus outside rest s.nmi b
  | .step :: rest, s, b =>
    let calls := (s.step.transcript bus b).filter Bus.shown
    match s.step.run bus b with
    | .error f => [(calls, .error f)]
    | .ok ((cost, s), b) => (calls, .ok (cost, s.save, b)) :: course bus outside rest s b

variable {bus : Bus σ} {outside : κ → σ → σ} {b₀ b b' : σ} {s t : Cpu}

/-- The run: what is unseen in each step stays unseen. -/
theorem course_eq (hsound : bus.SoundWindows outside b₀) (occurrences : List (Occurrence κ))
    (h : (Bus.windowless hsound).Matched s t b b') :
    course bus outside occurrences s b = course bus.withoutWindows outside occurrences t b' := by
  induction occurrences generalizing s t b b' with
  | nil => rfl
  | cons o rest ih =>
    obtain ⟨hst, hunseen⟩ := h
    obtain rfl := hunseen.same
    cases o with
    | change k => exact ih ⟨hst, hunseen.moves (.outside k _)⟩
    | setIntLine level => exact ih ⟨congrArg (Cpu.setIntLine · level) hst, hunseen⟩
    | nmi => exact ih ⟨congrArg Cpu.nmi hst, hunseen⟩
    | step =>
      obtain ⟨hcalls, hrun⟩ := (step_alike (B := Bus.windowless hsound) ⟨hst, hunseen⟩).announced
      unfold course
      dsimp only
      rw [hcalls]
      generalize s.step.run bus b' = r at hrun ⊢
      generalize t.step.run bus.withoutWindows b' = r' at hrun ⊢
      cases hrun with
      | error f => rfl
      | @ok r r' hr =>
        obtain ⟨⟨cost, s₁⟩, b₁⟩ := r
        obtain ⟨⟨cost', t₁⟩, b₁'⟩ := r'
        obtain ⟨rfl, hst₁, hunseen₁⟩ := hr
        obtain rfl : b₁' = b₁ := hunseen₁.same
        dsimp only
        rw [save_eq_iff.2 hst₁, ih ⟨hst₁, hunseen₁⟩]

/-- Windows are not seen. A processor that begins without a window takes the same course on a bus
whose windows are sound as on the same bus without windows, whatever happens to the bus between its
steps. -/
theorem windows_unseen (hsound : bus.SoundWindows outside b₀) (hs : s.window = none)
    (occurrences : List (Occurrence κ)) :
    course bus outside occurrences s b₀ = course bus.withoutWindows outside occurrences s b₀ :=
  course_eq hsound occurrences ⟨.refl s, hs, rfl, .refl, fun v hv => by rw [hs] at hv; cases hv⟩

/-- A loop in flat memory, `INC A` and `JP 0`, whose first byte is changed while it runs. -/
theorem loop_windows_unseen :
    Flat.bus.SoundWindows (fun (k : UInt16 × UInt8) m => m.poke k.1 k.2)
        (Flat.empty.load 0 [0x3C, 0xC3, 0, 0]) ∧
      Cpu.initial.window = none ∧
      course Flat.bus (fun (k : UInt16 × UInt8) m => m.poke k.1 k.2)
          [.step, .step, .change (0, 0x3D), .step, .step] Cpu.initial
          (Flat.empty.load 0 [0x3C, 0xC3, 0, 0]) =
        course Flat.bus.withoutWindows (fun (k : UInt16 × UInt8) m => m.poke k.1 k.2)
          [.step, .step, .change (0, 0x3D), .step, .step] Cpu.initial
          (Flat.empty.load 0 [0x3C, 0xC3, 0, 0]) := by
  have hsound := Flat.soundWindows (fun (k : UInt16 × UInt8) (m : Flat) => m.poke k.1 k.2)
    (Flat.empty.load 0 [0x3C, 0xC3, 0, 0])
  exact ⟨hsound, rfl, windows_unseen hsound rfl _⟩

end Cpu
end TandemZ80
