import TandemZ80.Proofs.Cpu.Contract
import TandemZ80.Proofs.Cpu.Fetching

/-!
# Retries are not seen

A bus may refuse a shared port for a while. Each attempt fetches the instruction anew and comes to
the same request, so that in the end the step is the one that a bus would have seen which grants the
port at once. A bus that refuses is held against one that does not: both go alike, except that on
the former so many requests are still refused.

* `Bus.HoldsUp`, a bus beside one that grants every request; `Bus.refusing`, which is made of the
  latter;
* `Bus.fetch_alike`, a fetch through any window that was issued, and `Bus.HoldsUp.pairing`;
* `Bus.Passes`, a program that goes the same way with refusals to come, and
  `Bus.Tentative.passes_or_held`;
* `Cpu.step_passes_or_held`, `Cpu.Held`, steps in a row that are refused, and `Cpu.retries_unseen`.
-/

namespace TandemZ80

variable {α β σ τ κ : Type}

namespace Bus

/-! ### Buses that refuse -/

/-- A bus `h` that refuses requests for a shared port for a while, beside a bus `g` that grants them
at once. They may be the same bus in two states. -/
structure HoldsUp (h : Bus σ) (g : Bus τ) where
  /-- So many requests will be refused by `h`, which is like `g` otherwise. -/
  waiting : ℕ → σ → τ → Prop
  grants : ∀ {n b c}, waiting n b c → ∀ e, ∃ c', g (.sync e) c = .ok (true, c')
  refuses : ∀ {n b c}, waiting (n + 1) b c → ∀ e, ∃ b', h (.sync e) b = .ok (false, b') ∧
    waiting n b' c
  answers : ∀ {q n b c}, n = 0 ∨ q.asks = false → waiting n b c →
    Fault.Alike (fun r r' => r.1 = r'.1 ∧ waiting n r.2 r'.2) (h q b) (g q c)

/-- So many requests are refused before the bus answers them. -/
def refusing (g : Bus τ) : Bus (ℕ × τ)
  | .sync _, (n + 1, c) => .ok (false, (n, c))
  | q, (n, c) => (fun r => (r.1, (n, r.2))) <$> g q c

theorem refusing_of (g : Bus τ) {q : Call} {n : ℕ} (hq : n = 0 ∨ q.asks = false) (c : τ) :
    refusing g q (n, c) = (fun r => (r.1, (n, r.2))) <$> g q c := by
  cases q with
  | sync e =>
    rcases hq with rfl | hq
    · rfl
    · cases hq
  | _ => rfl

/-- What the bus answers, it answers alike with refusals to come. -/
theorem refusing_answers {g : Bus τ} {q : Call} {n : ℕ} (hq : n = 0 ∨ q.asks = false)
    {p : ℕ × τ} {c : τ} (hp : p = (n, c)) :
    Fault.Alike (fun r r' => r.1 = r'.1 ∧ r.2 = (n, r'.2)) (refusing g q p) (g q c) := by
  rw [hp, refusing_of g hq]
  cases g q c with
  | error f => exact .error f
  | ok r => exact .ok ⟨rfl, rfl⟩

/-- The bus that is made to refuse is held against the one that it is made of. -/
def refusing_holdsUp (g : Bus τ) (hg : ∀ e c, ∃ c', g (.sync e) c = .ok (true, c')) :
    HoldsUp (refusing g) g where
  waiting n p c := p = (n, c)
  grants _ e := hg e _
  refuses hp _ := ⟨_, by rw [hp]; rfl, rfl⟩
  answers hq hp := refusing_answers hq hp

/-- Looking at memory, and at which ports are shared, has no effect. -/
def Still (g : Bus τ) : Prop :=
  ∀ ⦃q x c c'⦄, q.looks = true → q ≠ .acknowledge → g q c = .ok (x, c') → c' = c

/-! ### Fetching -/

/-- In states related by `V` the buses answer alike what is no request for a port. -/
def GoesLike (h : Bus σ) (g : Bus τ) (V : σ → τ → Prop) : Prop :=
  ∀ ⦃q b c⦄, q.asks = false → V b c →
    Fault.Alike (fun r r' => r.1 = r'.1 ∧ V r.2 r'.2) (h q b) (g q c)

section Fetch

variable {h : Bus σ} {g : Bus τ} {outside : κ → τ → τ} {c₀ c : τ} {b : σ} {w : Option Window}
  {V : σ → τ → Prop}

theorem lookUp_alike
    (hV : GoesLike h g V) (hsound : SoundWindows g outside c₀) (hc : Later g outside c₀ c)
    (hb : V b c) (a : UInt16) :
    Fault.Alike (fun r r' => r.1.1 = r'.1 ∧ V r.2 r'.2 ∧
        ∀ v, r.1.2 = some v → Issued g outside c₀ v r'.2)
      ((lookUp a).run h b) (g (.read a) c) := by
  obtain ⟨v, hv⟩ := hsound.issue hc a
  obtain ⟨⟨v', b₁⟩, hanswer, rfl, hb₁⟩ := (hV (q := .window a) rfl hb).exists_ok_eq hv
  have hread := hV (q := .read a) rfl hb₁
  rw [lookUp, Dialogue.run_ask, hanswer]
  show Fault.Alike _ (h (.read a) b₁ >>= fun r => .ok ((r.1, v'), r.2)) _
  generalize h (.read a) b₁ = r at hread ⊢
  generalize hg : g (.read a) c = r' at hread ⊢
  cases hread with
  | error f => exact .error f
  | ok hr =>
    refine .ok ⟨hr.1, hr.2, fun u hu => ?_⟩
    have hissued : Issued g outside c₀ u c := ⟨c, a, hc, hu ▸ hv, .refl⟩
    exact hissued.moves (.call (q := .read a) rfl hg)

/-- Through any window that was issued, and past it, a fetch gives what the other bus reads. -/
theorem fetch_alike
    (hV : GoesLike h g V) (hsound : SoundWindows g outside c₀) (hc : Later g outside c₀ c)
    (hw : ∀ v, w = some v → Issued g outside c₀ v c) (hb : V b c) (a : UInt16) :
    Fault.Alike (fun r r' => r.1.1 = r'.1 ∧ V r.2 r'.2 ∧
        ∀ v, r.1.2 = some v → Issued g outside c₀ v r'.2)
      ((fetch w a).run h b) (g (.read a) c) := by
  cases w with
  | none => exact lookUp_alike hV hsound hc hb a
  | some w =>
    by_cases ha : w.contains a = true
    · obtain ⟨v, hv, hread⟩ := hsound.through (hw w rfl) ha
      obtain ⟨⟨v', b₁⟩, hanswer, rfl, hb₁⟩ := (hV (q := .readWindow w a) rfl hb).exists_ok_eq hv
      unfold fetch
      dsimp only
      rw [if_pos ha, Dialogue.run_ask, hanswer]
      cases v' with
      -- The window is stale.
      | none => exact lookUp_alike hV hsound hc hb₁ a
      | some x =>
        rw [hread x rfl]
        exact .ok ⟨rfl, hb₁, hw⟩
    · rw [fetch_past ha]
      exact lookUp_alike hV hsound hc hb a

/-- Where reading has no effect, a fetch gives the same byte, through any window that was issued,
and has none either. -/
theorem run_fetch_of_read {a : UInt16} {x : UInt8} (hsound : SoundWindows g outside c₀)
    (hc : Later g outside c₀ c) (hw : ∀ v, w = some v → Issued g outside c₀ v c)
    (hread : g (.read a) c = .ok (x, c)) :
    ∃ w', (∀ v, w' = some v → Issued g outside c₀ v c) ∧
    (fetch w a).run g c = .ok ((x, w'), c) := by
  have hsame : GoesLike g g Eq := fun q b c' _ hb => hb ▸ .refl (fun _ => ⟨rfl, rfl⟩) _
  obtain ⟨⟨⟨x', w'⟩, c'⟩, hrun, rfl, rfl, hissued⟩ :=
    (fetch_alike hsame hsound hc hw rfl a).exists_ok_eq hread
  exact ⟨w', hissued, hrun⟩

end Fetch

/-- A bus that refuses requests and one that is made to, each beside the bus that grants them, with
the windows that the processors have. -/
structure HoldsUp.Both {h : Bus σ} {g : Bus τ} (H : HoldsUp h g) (outside : κ → τ → τ) (c₀ : τ)
    (w w' : Option Window) (b : σ) (p : ℕ × τ) : Prop where
  waiting : H.waiting p.1 b p.2
  later : Later g outside c₀ p.2
  issued : ∀ v, w = some v → Issued g outside c₀ v p.2
  issued' : ∀ v, w' = some v → Issued g outside c₀ v p.2

section Pairing

variable {h : Bus σ} {g : Bus τ} {H : HoldsUp h g} {outside : κ → τ → τ} {c₀ c : τ} {b : σ} {n : ℕ}
  {w w' : Option Window}

theorem fetch_silent (w : Option Window) (a : UInt16) :
    (fetch w a).Asks fun q => ∀ x, shown ⟨q, x⟩ = false := by
  have hlookUp : (lookUp a).Asks fun q => ∀ x, shown ⟨q, x⟩ = false :=
    .ask (fun _ => rfl) fun _ => .ask (fun _ => rfl) fun _ => .done _
  cases w with
  | none => exact hlookUp
  | some w =>
    unfold fetch
    dsimp only
    split
    · refine .ask (fun _ => rfl) fun v => ?_
      cases v with
      | none => exact hlookUp
      | some v => exact .done _
    · exact hlookUp

theorem HoldsUp.Both.moves (hb : H.Both outside c₀ w w' b (n, c)) {m : ℕ} {b' : σ} {c' : τ}
    (hwait : H.waiting m b' c') (hc : Moves g outside c c') : H.Both outside c₀ w w' b' (m, c') :=
  ⟨hwait, hb.later.tail hc, fun v hv => (hb.issued v hv).moves hc,
    fun v hv => (hb.issued' v hv).moves hc⟩

/-- Both refuse a request, or answer alike. -/
theorem HoldsUp.Both.call (hb : H.Both outside c₀ w w' b (n, c)) {q : Call}
    (hq : q.fetches = false) :
    Fault.Alike (fun r r' => r.1 = r'.1 ∧ H.Both outside c₀ w w' r.2 r'.2) (h q b)
      (refusing g q (n, c)) := by
  by_cases hasks : n = 0 ∨ q.asks = false
  · have hanswer := H.answers hasks hb.waiting
    rw [refusing_of g hasks]
    generalize h q b = r at hanswer ⊢
    generalize hg : g q c = r' at hanswer ⊢
    cases hanswer with
    | error f => exact .error f
    | ok hr => exact .ok ⟨hr.1, hb.moves hr.2 (.call hq hg)⟩
  · rw [not_or] at hasks
    obtain ⟨m, rfl⟩ := Nat.exists_eq_succ_of_ne_zero hasks.1
    cases q with
    | sync e =>
      obtain ⟨b', hrefused, hwait⟩ := H.refuses hb.waiting e
      rw [hrefused]
      exact .ok ⟨rfl, hwait, hb.later, hb.issued, hb.issued'⟩
    | _ => exact absurd rfl hasks.2

/-- Both fetch what the bus that grants requests reads. -/
theorem HoldsUp.Both.fetch (hb : H.Both outside c₀ w w' b (n, c))
    (hsound : SoundWindows g outside c₀) (a : UInt16) :
    Fault.Alike (fun r r' => r.1.1 = r'.1.1 ∧ H.Both outside c₀ r.1.2 r'.1.2 r.2 r'.2)
      ((Bus.fetch w a).run h b) ((Bus.fetch w' a).run (refusing g) (n, c)) := by
  have hleft := fetch_alike (fun _ _ _ hq hV => H.answers (.inr hq) hV) hsound hb.later hb.issued
    hb.waiting a
  have hright :=
    fetch_alike (V := fun p c => p = (n, c)) (fun _ _ _ hq hV => refusing_answers (.inr hq) hV)
    hsound hb.later hb.issued' rfl a
  generalize (Bus.fetch w a).run h b = r at hleft ⊢
  generalize (Bus.fetch w' a).run (refusing g) (n, c) = r' at hright ⊢
  generalize hread : g (.read a) c = read at hleft hright
  cases hleft with
  | error f =>
    cases hright with
    | error f => exact .error f
  | @ok _ read hl =>
    cases hright with
    | @ok r' _ hr =>
      obtain ⟨⟨x, v⟩, n', c'⟩ := r'
      obtain ⟨rfl, hstate, hissued⟩ := hr
      cases hstate
      exact .ok ⟨hl.1, hl.2.1, hb.later.tail (.call (q := .read a) rfl hread), hl.2.2, hissued⟩

/-- The bus that refuses requests, beside the one that is made to. -/
def HoldsUp.pairing (H : HoldsUp h g) (hsound : SoundWindows g outside c₀) :
    Bus.Pairing (fun _ : (q : Call) × Reply q => Unit) σ (ℕ × τ) where
  left := Dialogue.announce h shown
  right := Dialogue.announce (refusing g) shown
  fault _ := True
  related := H.Both outside c₀
  overflow := trivial
  call := by
    intro q hq w w' b p hb
    exact Dialogue.announce_alike (fun _ => trivial) (hb.call hq)
  fetch a := by
    intro w w' b p hb
    rw [(fetch_silent w a).relay_announce, (fetch_silent w' a).relay_announce]
    have halike := hb.fetch hsound a
    generalize (Bus.fetch w a).run h b = r at halike ⊢
    generalize (Bus.fetch w' a).run (refusing g) p = r' at halike ⊢
    cases halike with
    | error f => exact .fail trivial
    | ok hr => exact .done hr

end Pairing

/-! ### Programs -/

/-- A program that goes the same way with `n` refusals to come as without. -/
structure Passes (g : Bus τ) (n : ℕ) (d : Program α) (c : τ) : Prop where
  run : d.run (refusing g) (n, c) = (fun r => (r.1, (n, r.2))) <$> d.run g c
  transcript : d.transcript (refusing g) (n, c) = d.transcript g c

section Passes

variable {g : Bus τ} {n : ℕ} {c : τ}

theorem Passes.ask {q : Call} {next : Reply q → Program α} (hq : n = 0 ∨ q.asks = false)
    (hnext : ∀ x c', g q c = .ok (x, c') → Passes g n (next x) c') :
    Passes g n (.ask q next) c := by
  have hanswer := refusing_of g hq c
  cases hg : g q c with
  | error f =>
    rw [hg] at hanswer
    refine ⟨?_, ?_⟩
    · rw [Dialogue.run_ask, Dialogue.run_ask, hg, hanswer]
      rfl
    · rw [Dialogue.transcript_ask_error hg, Dialogue.transcript_ask_error hanswer]
  | ok r =>
    obtain ⟨x, c'⟩ := r
    have hpasses := hnext x c' hg
    rw [hg] at hanswer
    refine ⟨?_, ?_⟩
    · rw [Dialogue.run_ask, Dialogue.run_ask, hg, hanswer]
      exact hpasses.run
    · rw [Dialogue.transcript_ask hg, Dialogue.transcript_ask hanswer]
      exact congrArg _ hpasses.transcript

theorem Passes.of_asks {d : Program α} (hd : d.Asks fun q => n = 0 ∨ q.asks = false) (c : τ) :
    Passes g n d c := by
  induction hd generalizing c with
  | done a => exact ⟨rfl, rfl⟩
  | fail f => exact ⟨rfl, rfl⟩
  | ask hq _ ih => exact .ask hq fun x c' _ => ih x c'

/-- With no refusals to come every program does. -/
theorem Passes.zero (g : Bus τ) (d : Program α) (c : τ) : Passes g 0 d c :=
  .of_asks (.of_forall (fun _ => .inl rfl) d) c

theorem Passes.bind {d : Program α} {f : α → Program β} (hd : Passes g n d c)
    (hf : ∀ a c', Passes g n (f a) c') : Passes g n (d >>= f) c where
  run := by
    rw [Dialogue.run_bind, Dialogue.run_bind, hd.run]
    cases d.run g c with
    | error e => rfl
    | ok r => exact (hf r.1 r.2).run
  transcript := by
    rw [Dialogue.transcript_bind, Dialogue.transcript_bind, hd.run, hd.transcript]
    cases d.run g c with
    | error e => rfl
    | ok r => exact congrArg _ (hf r.1 r.2).transcript

theorem Sure.asks {P : α → Prop} {d : Program (Option α × Cpu)} (hd : Sure P d) :
    d.Asks fun q => q.asks = false := by
  induction hd with
  | done s _ => exact .done _
  | ask hq _ ih => exact .ask hq ih

theorem Sure.passes {P : α → Prop} {d : Program (Option α × Cpu)} (hd : Sure P d) (n : ℕ) (c : τ) :
    Passes g n d c := .of_asks (hd.asks.mono fun _ => .inr) c

/-- A tentative program asks for no port, or at one time only, and then it is refused with nothing
changed. -/
theorem Tentative.passes_or_held {s : Cpu} {F : Prop} {P : α → Option ℕ → Prop}
    {d : Program (Option α × Cpu)} (hd : Tentative s F P d) (hask : d.Asks (· ≠ .acknowledge))
    (hg : Still g) (hgrants : ∀ e, ∃ c', g (.sync e) c = .ok (true, c')) :
    (requests (d.transcript g c) = [] ∧ ∀ n, Passes g n d c) ∨
      ∃ e, requests (d.transcript g c) = [(e, true)] ∧
        ∀ n, ∃ t, s.Alike t ∧ d.run (refusing g) (n + 1, c) = .ok ((none, t), (n, c)) ∧
          requests (d.transcript (refusing g) (n + 1, c)) = [(e, false)] := by
  induction hd with
  | sure hd => exact .inl ⟨hd.requests g c, fun n => hd.passes n c⟩
  | fail f _ => exact .inl ⟨rfl, fun n => ⟨rfl, rfl⟩⟩
  | @look q next hq _ ih =>
    cases hask with
    | ask hack hasknext =>
    have hasks := Call.asks_of_looks hq
    cases hanswer : g q c with
    | error f =>
      refine .inl ⟨?_, fun n => .ask (.inr hasks) fun x c' hx => ?_⟩
      · rw [Dialogue.transcript_ask_error hanswer]
        rfl
      · rw [hanswer] at hx
        cases hx
    | ok r =>
      obtain ⟨x, c'⟩ := r
      obtain rfl := hg hq hack hanswer
      rw [Dialogue.transcript_ask hanswer, requests_cons_of_asks hasks]
      rcases ih x (hasknext x) with ⟨hnone, hpasses⟩ | ⟨e, he, hheld⟩
      · refine .inl ⟨hnone, fun n => .ask (.inr hasks) fun x' c'' hx => ?_⟩
        rw [hanswer] at hx
        cases hx
        exact hpasses n
      · refine .inr ⟨e, he, fun n => ?_⟩
        obtain ⟨t, ht, hrun, hsaid⟩ := hheld n
        have hrefusing := refusing_of g (.inr hasks : n + 1 = 0 ∨ q.asks = false) c'
        rw [hanswer] at hrefusing
        refine ⟨t, ht, ?_, ?_⟩
        · rw [Dialogue.run_ask, hrefusing]
          exact hrun
        · rw [Dialogue.transcript_ask hrefusing, requests_cons_of_asks hasks, hsaid]
  | @sync e next t ht hrefused hgranted =>
    obtain ⟨c', hc'⟩ := hgrants e
    refine .inr ⟨e, ?_, fun n => ⟨t, ht, ?_, ?_⟩⟩
    · rw [Dialogue.transcript_ask hc']
      show (e, true) :: requests ((next true).transcript g c') = _
      rw [hgranted.requests]
    · show (next false).run (refusing g) (n, c) = _
      rw [hrefused]
      rfl
    · show (e, false) :: requests ((next false).transcript (refusing g) (n, c)) = _
      rw [hrefused]
      rfl

end Passes
end Bus

open Exec Bus

/-- Without the right to it nobody asks who interrupts. -/
theorem Exec.Built.unacknowledged {rights : Right → Prop} {m : Exec α} (hm : Built rights m)
    (hnone : ¬rights .acknowledge) (s : Cpu) : (m s).Asks (· ≠ .acknowledge) := by
  refine hm.asks (fun q hq heq => ?_) (fun e _ => nofun) (fun h => absurd h hnone) s
  rw [heq] at hq
  cases hq

namespace Cpu

variable {h : Bus σ} {g : Bus τ} {outside : κ → τ → τ} {c₀ c : τ} {b b' : σ} {s t : Cpu} {n : ℕ}

/-! ### Steps -/

theorem finish_asks (s : Cpu) (r : Option ℕ × Cpu) : (finish s r).Asks fun _ => False := by
  obtain ⟨_ | cost, t⟩ := r
  · exact .done _
  · rcases finish_cases s t cost with ⟨ticks, hfinish, -⟩ | ⟨hfinish, -⟩
    · rw [hfinish]
      exact .done _
    · rw [hfinish]
      exact .fail _

/-- A step that does not accept an interrupt in mode 0 asks for no port, or at one time only. Then,
if it is refused, it returns 0 and has changed nothing. -/
theorem step_passes_or_held (hmode : s.action = .acceptInt → s.regs.im ≠ .mode0) (hg : Still g)
    (hgrants : ∀ e, ∃ c', g (.sync e) c = .ok (true, c')) :
    (requests (s.step.transcript g c) = [] ∧ ∀ n, Passes g n s.step c) ∨
      ∃ e, requests (s.step.transcript g c) = [(e, true)] ∧
        ∀ n, ∃ t, s.step.run (refusing g) (n + 1, c) = .ok ((0, t), (n, c)) ∧ t.save = s.save ∧
          requests (s.step.transcript (refusing g) (n + 1, c)) = [(e, false)] := by
  have hfinish : ∀ n r c', Passes g n (finish s r) c' := fun n r c' =>
    .of_asks ((finish_asks s r).mono fun _ => False.elim) c'
  simp only [step_transcript]
  by_cases ha : s.action = .acceptInt
  · have hsure : Bus.Sure (Costs 21) (perform s.action { s with afterEI := false }) := by
      rw [ha]
      show Bus.Sure _ (acceptInt { s with afterEI := false })
      rw [acceptInt_eq]
      exact serve_sure (hmode ha) _
    exact .inl ⟨hsure.requests g c, fun n => (hsure.passes n c).bind (hfinish n)⟩
  · have hright : ¬s.action.rights .acknowledge := by
      cases hs : s.action with
      | acceptInt => exact absurd hs ha
      | _ => simp [Action.rights]
    have hask := (perform_built s.action).unacknowledged hright { s with afterEI := false }
    rcases s.perform_tentative.passes_or_held hask hg hgrants with ⟨hnone, hpasses⟩ | ⟨e, he, hheld⟩
    · exact .inl ⟨hnone, fun n => (hpasses n).bind (hfinish n)⟩
    · refine .inr ⟨e, he, fun n => ?_⟩
      obtain ⟨t, ht, hrun, hsaid⟩ := hheld n
      refine ⟨retract s t, ?_, ?_, hsaid⟩
      · unfold step
        rw [Dialogue.run_bind, hrun]
        rfl
      · rw [save_retract ht, if_neg ha]

/-! ### Retries -/

theorem requests_shown (said : List ((q : Call) × Reply q)) :
    requests (said.filter shown) = requests said := by
  induction said with
  | nil => rfl
  | cons x said ih =>
    obtain ⟨q, x⟩ := x
    cases q with
    | sync e => exact congrArg ((e, x) :: ·) ih
    | _ => exact ih

/-- Steps in a row that return 0, with the times at which they have asked for a port. Before that
they have only looked. -/
inductive Held (h : Bus σ) : List ℕ → Cpu → σ → Cpu → σ → Prop
  | nil (s : Cpu) (b : σ) : Held h [] s b s b
  | cons {e : ℕ} {es : List ℕ} {s t u : Cpu} {b b₁ b₂ : σ} {before : List ((q : Call) × Reply q)}
      (hr : s.step.run h b = .ok ((0, t), b₁))
      (hsaid : s.step.transcript h b = before ++ [⟨.sync e, false⟩])
      (hlooks : ∀ x ∈ before, x.1.looks = true) (hrest : Held h es t b₁ u b₂) :
      Held h (e :: es) s b u b₂

/-- Beside a processor whose step is refused, one that agrees with it is refused as well, and goes
on beside it. -/
theorem held_step {H : HoldsUp h g} {hsound : SoundWindows g outside c₀} {e : ℕ} {s' : Cpu}
    (ht : (H.pairing hsound).Matched t s b (n + 1, c))
    (hrun : s.step.run (refusing g) (n + 1, c) = .ok ((0, s'), (n, c))) (hsave : s'.save = s.save)
    (hsaid : requests (s.step.transcript (refusing g) (n + 1, c)) = [(e, false)]) :
    ∃ t' b', (H.pairing hsound).Matched t' s b' (n, c) ∧
      ∀ {es u b₂}, Held h es t' b' u b₂ → Held h (e :: es) t b u b₂ := by
  obtain ⟨hcalls, halike⟩ := (step_alike ht).announced
  obtain ⟨⟨⟨cost, t'⟩, b'⟩, ht', rfl, hagree, hboth⟩ := halike.exists_ok_eq hrun
  obtain ⟨⟨before, e', hbefore, hlooks⟩, -⟩ := refused_step ht'
  have he : e' = e := by
    have hrequests := congrArg requests hcalls
    rw [requests_shown, requests_shown, hsaid, hbefore, requests_append, requests_of_looks hlooks]
      at hrequests
    cases hrequests
    rfl
  subst he
  have hback : t'.Agree s := (save_eq_iff.1 hsave).trans hagree
  exact ⟨t', b', ⟨hback, hboth.waiting, hboth.later, hboth.issued, ht.2.issued'⟩,
    .cons ht' hbefore hlooks⟩

/-- The times at which a step asks for a shared port. -/
def asked (g : Bus τ) (s : Cpu) (c : τ) : List ℕ := (requests (s.step.transcript g c)).map Prod.fst

/-- A step on the bus that refuses, with the refusals that are left, is like one on the other
bus. -/
theorem step_passing {H : HoldsUp h g} {hsound : SoundWindows g outside c₀}
    (ht : (H.pairing hsound).Matched t s b (n, c)) (hpasses : Passes g n s.step c)
    (hgranted : ∀ e, (e, false) ∉ requests (s.step.transcript g c)) :
    (t.step.transcript h b).filter shown = (s.step.transcript g c).filter shown ∧
      requests (t.step.transcript h b) = requests (s.step.transcript g c) ∧
      Fault.Alike (fun r r' => r.1.1 = r'.1.1 ∧ r'.1.1 ≠ 0 ∧ r.1.2.save = r'.1.2.save ∧
        H.waiting n r.2 r'.2) (t.step.run h b) (s.step.run g c) := by
  obtain ⟨hcalls, halike⟩ := (step_alike ht).announced
  have hshown := hcalls.trans (congrArg _ hpasses.transcript)
  have hrequests := congrArg requests hshown
  rw [requests_shown, requests_shown] at hrequests
  refine ⟨hshown, hrequests, ?_⟩
  rw [hpasses.run] at halike
  generalize t.step.run h b = r at halike ⊢
  cases hrun : s.step.run g c with
  | error f =>
    rw [hrun] at halike
    cases halike with
    | error f => exact .error f
  | ok r' =>
    obtain ⟨⟨cost, u⟩, c'⟩ := r'
    obtain ⟨_, -, hcontract⟩ := contract_of_step hrun
    rw [hrun] at halike
    cases halike with
    | ok hr =>
      obtain ⟨hcost, hagree, hboth⟩ := hr
      refine .ok ⟨hcost, fun hzero => ?_, save_eq_iff.2 hagree, hboth.waiting⟩
      obtain ⟨e, he⟩ := hcontract.refused.1 hzero
      exact hgranted e he

/-- All refusals that are left are taken, one in each step. -/
theorem held_steps {H : HoldsUp h g} {hsound : SoundWindows g outside c₀} {e : ℕ}
    (hheld : ∀ n, ∃ t, s.step.run (refusing g) (n + 1, c) = .ok ((0, t), (n, c)) ∧ t.save = s.save ∧
      requests (s.step.transcript (refusing g) (n + 1, c)) = [(e, false)]) (k : ℕ)
    (ht : (H.pairing hsound).Matched t s b (k, c)) :
    ∃ u b', (H.pairing hsound).Matched u s b' (0, c) ∧ Held h (List.replicate k e) t b u b' := by
  induction k generalizing t b with
  | zero => exact ⟨t, b, ht, .nil t b⟩
  | succ k ih =>
    obtain ⟨s', hrun, hsave, hsaid⟩ := hheld k
    obtain ⟨t', b₁, ht', hstep⟩ := held_step ht hrun hsave hsaid
    obtain ⟨u, b₂, hu, hrest⟩ := ih ht'
    exact ⟨u, b₂, hu, hstep hrest⟩

/-- Retries are not seen. Let a bus `h` refuse the next `k` requests for a shared port and be like a
bus `g` otherwise, which grants them at once. Memory of `g` is looked at without effect, and what
its windows show is what reading gives. Then a processor that does not accept an interrupt in mode 0
returns 0 on `h` in `k` steps in a row if its instruction asks for a port, and in none if not, and
each of them has asked at the same time. After that, the step on `h` is the one that the processor
takes on `g`: in its cost, the saved processor, and all calls but those that read memory. -/
theorem retries_unseen (H : HoldsUp h g) (hstill : Still g) (hsound : SoundWindows g outside c₀)
    (hc : Later g outside c₀ c) (hw : ∀ w, s.window = some w → Issued g outside c₀ w c)
    (hmode : s.action = .acceptInt → s.regs.im ≠ .mode0) {k : ℕ} (hb : H.waiting k b c) :
    ∃ t b', Held h ((asked g s c).flatMap (List.replicate k)) s b t b' ∧
      (t.step.transcript h b').filter shown = (s.step.transcript g c).filter shown ∧
      requests (t.step.transcript h b') = (asked g s c).map (fun e => (e, true)) ∧
      Fault.Alike (fun r r' => r.1.1 = r'.1.1 ∧ r'.1.1 ≠ 0 ∧ r.1.2.save = r'.1.2.save ∧
          H.waiting (if asked g s c = [] then k else 0) r.2 r'.2)
        (t.step.run h b') (s.step.run g c) := by
  have hmatched : (H.pairing hsound).Matched s s b (k, c) := ⟨.refl s, hb, hc, hw, hw⟩
  rcases step_passes_or_held hmode hstill (H.grants hb) with ⟨hnone, hpasses⟩ | ⟨e, he, hheld⟩
  · have hasked : asked g s c = [] := by rw [asked, hnone]; rfl
    rw [hasked, if_pos rfl]
    obtain ⟨hshown, hrequests, halike⟩ :=
      step_passing hmatched (hpasses k) (by rw [hnone]; exact nofun)
    exact ⟨s, b, .nil s b, hshown, hrequests.trans hnone, halike⟩
  · have hasked : asked g s c = [e] := by rw [asked, he]; rfl
    rw [hasked, if_neg (List.cons_ne_nil e []), List.flatMap_singleton]
    obtain ⟨t, b', ht, hsteps⟩ := held_steps hheld k hmatched
    obtain ⟨hshown, hrequests, halike⟩ := step_passing ht (.zero g s.step c) (by rw [he]; simp)
    exact ⟨t, b', hsteps, hshown, hrequests.trans he, halike⟩

end Cpu

/-- A bus with so many bytes of read-only memory, which windows show, and with outputs that are
kept. Every port is shared and free. -/
def Bus.rom (bytes : List UInt8) : Bus (List (UInt16 × UInt8))
  | .read a, out => .ok (bytes.getD a.toNat 0, out)
  | .write .., out => .ok ((), out)
  | .input _, out => .ok ((0xFF : UInt8), out)
  | .output p v, out => .ok ((), out ++ [(p, v)])
  | .acknowledge, out => .ok ((0xFF : UInt8), out)
  | .window a, out => .ok (some (Flat.window a), out)
  | .readWindow _ a, out => .ok (some (bytes.getD a.toNat 0), out)
  | .isShared _, out => .ok (true, out)
  | .sync _, out => .ok (true, out)
  | .stop _, out => .ok ((), out)

theorem Bus.rom_still (bytes : List UInt8) : Still (rom bytes) := by
  intro q x out out' hq hack hr
  cases q with
  | acknowledge => exact absurd rfl hack
  | write | input | output | sync | stop => cases hq
  | _ =>
    cases hr
    rfl

theorem Bus.rom_soundWindows (bytes : List UInt8)
    (outside : κ → List (UInt16 × UInt8) → List (UInt16 × UInt8)) (out : List (UInt16 × UInt8)) :
    SoundWindows (rom bytes) outside out where
  issue _ a := ⟨_, rfl⟩
  through _ _ _ := ⟨_, rfl, fun x hx => by cases hx; rfl⟩

/-- `OUT (10h),A`, refused twice: the output is made once, and its cost is 11. -/
theorem Cpu.output_retries_unseen :
    asked (rom [0xD3, 0x10]) .initial [] = [7] ∧
      ∃ t b' u, Held (refusing (rom [0xD3, 0x10])) [7, 7] .initial (2, []) t b' ∧
        t.step.run (refusing (rom [0xD3, 0x10])) b' = .ok ((11, u), (0, [(0xFF10, 0xFF)])) := by
  have hasked : asked (rom [0xD3, 0x10]) .initial [] = [7] := rfl
  have hsound := rom_soundWindows [0xD3, 0x10] (fun (_ : Unit) out => out) []
  obtain ⟨t, b', hheld, -, -, halike⟩ := retries_unseen
    (refusing_holdsUp (rom [0xD3, 0x10]) fun _ _ => ⟨_, rfl⟩) (rom_still _) hsound .refl nofun
      (by decide)
    (s := .initial) (k := 2) (b := (2, [])) rfl
  rw [hasked] at hheld halike
  have hrun : ∃ u, Cpu.initial.step.run (rom [0xD3, 0x10]) [] = .ok ((11, u), [(0xFF10, 0xFF)]) :=
    ⟨_, rfl⟩
  obtain ⟨u, hu⟩ := hrun
  obtain ⟨⟨⟨cost, u'⟩, b''⟩, hu', rfl, -, -, rfl⟩ := halike.exists_ok_eq hu
  exact ⟨hasked, t, b', u', hheld, hu'⟩

end TandemZ80
