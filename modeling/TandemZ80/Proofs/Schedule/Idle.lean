import TandemZ80.Proofs.Schedule.Alike
import TandemZ80.Proofs.Schedule.Progress

/-!
# Runs with an idle partner

While the sub processor only waits, it makes no difference to the main one whether the sub lane
takes its turns, so that the main lane is refused ports and has to try again, or is parked, so that
the main lane is granted every port at once.

* `Rendezvous.Sure` and `Rendezvous.Tentative`, steps that are never refused, and steps that are
  refused before they do anything; `Rendezvous.opening`, the request with which a step begins;
* `Processors.Idles`, processors of which the sub one waits;
* `Lanes.Beside`, lanes of a run beside those of a run with the sub lane parked; `Lanes.turn_main`,
  a turn of the main lane is refused or goes the same way in both;
* `Lanes.run_beside`: the run ends, and so does the one with the sub lane parked, both alike;
* `Scheduler.execBoth_beside`.
-/

namespace TandemZ80

namespace Rendezvous

variable {α β : Type} {P : α → Prop} {Q : α → Prop}

/-- The program never asks for a shared port, and `P` holds of its result. -/
inductive Sure (P : α → Prop) : Program α → Prop
  | done {a : α} (h : P a) : Sure P (.done a)
  | fail (f : Fault) : Sure P (.fail f)
  | stop (n : ℕ) {next : Unit → Program α} (h : Sure P (next ())) : Sure P (.ask (.stop n) next)

/-- The program is sure, or begins by asking for a port. Refused, it ends with a result of which `Q`
holds, and granted, it is sure. -/
inductive Tentative (P Q : α → Prop) : Program α → Prop
  | sure {d : Program α} (h : Sure P d) : Tentative P Q d
  | sync (e : ℕ) {next : Bool → Program α} {a : α} (hrefused : next false = .done a) (ha : Q a)
      (hgranted : Sure P (next true)) : Tentative P Q (.ask (.sync e) next)

theorem Sure.bind {P' : β → Prop} {d : Program α} {f : α → Program β} (hd : Sure P d)
    (hf : ∀ a, P a → Sure P' (f a)) : Sure P' (d >>= f) := by
  induction hd with
  | done h => exact hf _ h
  | fail e => exact .fail e
  | stop n _ ih => exact .stop n ih

theorem Sure.mono {P' : α → Prop} {d : Program α} (hd : Sure P d) (hP : ∀ a, P a → P' a) :
    Sure P' d := by
  induction hd with
  | done h => exact .done (hP _ h)
  | fail e => exact .fail e
  | stop n _ ih => exact .stop n ih

/-- The rest of a program is sure after a result, and ends at once after a refusal. -/
theorem Tentative.bind {P' Q' : β → Prop} {d : Program α} {f : α → Program β} (hd : Tentative P Q d)
    (hf : ∀ a, P a → Sure P' (f a)) (hrefused : ∀ a, Q a → ∃ b, f a = .done b ∧ Q' b) :
    Tentative P' Q' (d >>= f) := by
  cases hd with
  | sure h => exact .sure (h.bind hf)
  | @sync e next a hnext ha hgranted =>
    obtain ⟨b, hb, hQ⟩ := hrefused a ha
    refine .sync e (a := b) ?_ hQ (hgranted.bind hf)
    show next false >>= f = _
    rw [hnext]
    exact hb

/-- A program that goes like another one has results in relation, also where it is refused. -/
theorem Tentative.of_alike {F : Fault → Prop} {R : α → β → Prop} {Q' : α → Prop} {d : Program α}
    {d' : Program β} (hd : Tentative P Q d) (h : Dialogue.Alike F R d d')
    (hQ : ∀ a b, Q a → R a b → Q' a) : Tentative P Q' d := by
  cases hd with
  | sure hs => exact .sure hs
  | @sync e next a hnext ha hgranted =>
    cases h with
    | ask _ hnext' =>
      obtain ⟨b, -, hR⟩ := (hnext ▸ hnext' false).exists_eq_done
      exact .sync e hnext (hQ a b ha hR) hgranted

/-- A sure program makes no contact. -/
theorem Sure.meets {d : Program α} (hd : Sure P d) (c : Contact) :
    Meets (fun c' a => c' = c ∧ P a) c d := by
  induction hd with
  | done h => exact ⟨rfl, h⟩
  | fail e => trivial
  | stop n _ ih => exact ih

/-- The time of the request with which a program begins, if it does. -/
def opening : Program α → Option ℕ
  | .ask (.sync e) _ => some e
  | _ => none

theorem Sure.opening_eq {d : Program α} (hd : Sure P d) : opening d = none := by
  cases hd <;> rfl

theorem opening_bind (d : Program α) {f : α → Program β} (hf : ∀ a, opening (f a) = none) :
    opening (d >>= f) = opening d := by
  cases d with
  | done a => exact hf a
  | fail e => rfl
  | ask q next => cases q <;> rfl

theorem opening_of_alike {F : Fault → Prop} {R : α → β → Prop} {d : Program α} {d' : Program β}
    (h : Dialogue.Alike F R d d') : opening d' = opening d := by
  cases h with
  | done _ => rfl
  | fail _ => rfl
  | ask q _ => cases q <;> rfl

/-- The only contact of a tentative program is the request with which it begins. -/
theorem Tentative.meets {d : Program α} (hd : Tentative P Q d) :
    Meets (fun c a => c.asked = opening d ∧ ∀ e, c = .refused e → Q a) .none d := by
  cases hd with
  | sure h =>
    refine (h.meets .none).mono ?_
    rintro c a ⟨rfl, -⟩
    exact ⟨h.opening_eq.symm, nofun⟩
  | @sync e next a hnext ha hgranted =>
    refine ⟨rfl, (hgranted.meets (.granted e)).mono ?_, ?_⟩
    · rintro c b ⟨rfl, -⟩
      exact ⟨rfl, nofun⟩
    · rw [hnext]
      exact ⟨rfl, fun _ _ => ha⟩

end Rendezvous

open Rendezvous

variable {σ : Type} {V : σ → σ → Prop} {p : Processors σ} {st st' : σ}

/-- Processors of which the sub one waits. `V` relates their state to one in which it has waited for
another time. -/
structure Processors.Idles (p : Processors σ) (V : σ → σ → Prop) : Prop where
  alike : ∀ st st', V st st' →
    Dialogue.Alike (· = .overflow) (fun r r' => r.1 = r'.1 ∧ V r.2 r'.2) (p.step .main st)
      (p.step .main st')
  /-- A refused step leaves the state in relation to what it was in relation to. -/
  tentative : ∀ st st', V st st' →
    Tentative (fun r => 0 < r.1) (fun r => r.1 = 0 ∧ V r.2 st') (p.step .main st)
  wait : ∀ st st', V st st' → p.step .sub st = .fail .overflow ∨
    ∃ cost st₁, 0 < cost ∧ p.step .sub st = .done (cost, st₁) ∧ V st₁ st'
  skip : ∀ st st' clocks, V st st' → p.skipIdle .sub clocks st' = .error .overflow ∨
    ∃ st₁, p.skipIdle .sub clocks st' = .ok st₁ ∧ V st st₁

namespace Lanes

variable {l l' : Lanes}

/-- The lanes of a run whose sub lane waits for nobody, beside lanes of which the sub one is parked.
A main lane that waits has not reached its goal. -/
structure Beside (l l' : Lanes) : Prop where
  main : l'.main = { l.main with demand := none }
  running : ∀ s, (l.get s).parked = false
  parked : l'.sub.parked = true
  free : l.sub.demand = none
  waits : ∀ d, l.main.demand = some d → l.main.time < l.main.goal

/-! ### Turns -/

/-- A program that asks for no port goes alike whatever the partner does. -/
theorem run_sure {α β : Type} {P : α → Prop} {R : α → β → Prop} {d : Program α} {d' : Program β}
    (hd : Sure P d) (h : Dialogue.Alike (· = .overflow) R d d') (own sub sub' : Lane) :
    d.run (answer .main) ⟨own, sub⟩ = .error .overflow ∨
      ∃ a b goal, P a ∧ R a b ∧
        d.run (answer .main) ⟨own, sub⟩ = .ok (a, ⟨{ own with goal }, sub⟩) ∧
        d'.run (answer .main) ⟨{ own with demand := none }, sub'⟩ =
          .ok (b, ⟨{ own with goal, demand := none }, sub'⟩) := by
  induction hd generalizing own d' with
  | done hP =>
    obtain ⟨b, rfl, hR⟩ := h.exists_eq_done
    exact .inr ⟨_, b, own.goal, hP, hR, rfl, rfl⟩
  | fail f =>
    cases h with
    | fail hf =>
      cases hf
      exact .inl rfl
  | stop n _ ih =>
    cases h with
    | ask _ hnext =>
      rw [Dialogue.run_ask, Dialogue.run_ask]
      by_cases hn : own.after n < UInt64.size
      · have hstop := answer_stop (s := .main) (l := ⟨own, sub⟩) hn
        have hstop' := answer_stop (s := .main) (l := ⟨{ own with demand := none }, sub'⟩) hn
        rw [hstop, hstop']
        rcases ih (hnext ()) { own with goal := min own.goal (own.after n) } with herror | hok
        · exact .inl herror
        · exact .inr hok
      · rw [(answer_error (s := .main) (l := ⟨own, sub⟩) hn).1]
        exact .inl rfl

/-- A step that costs something moves the clock of its lane, unless the clock overflows. -/
theorem advance_of_pos {s : Side} {cost : ℕ} (hcost : 0 < cost) (before : UInt64) :
    (∀ l : Lanes, (l.get s).clock = before → advance s cost l = .error .overflow) ∨
      ∃ clock, before < clock ∧ ∀ l : Lanes, (l.get s).clock = before →
        advance s cost l = .ok (l.set s { l.get s with clock, demand := none }) := by
  by_cases hfits : before.toNat + cost < UInt64.size
  · obtain ⟨clock, hclock, hn⟩ := Scheduler.counter_ofNat_ok hfits
    refine .inr ⟨clock, ?_, fun l hl => ?_⟩
    · rw [UInt64.lt_iff_toNat_lt]
      omega
    · simp only [advance, if_pos hcost, hl, hclock]
      rfl
  · refine .inl fun l hl => ?_
    simp only [advance, if_pos hcost, hl, Counter.ofNat, if_neg hfits]
    rfl

/-- What is left of a step once it can no longer be refused ends alike in both runs. -/
theorem conclude_sure {d d' : Program (ℕ × σ)} (hd : Sure (fun r => 0 < r.1) d)
    (h : Dialogue.Alike (· = .overflow) (fun r r' => r.1 = r'.1 ∧ V r.2 r'.2) d d')
    (own sub sub' : Lane) :
    d.run (answer .main) ⟨own, sub⟩ >>= conclude .main = .error .overflow ∨
      ∃ clock goal st₁ st₁', own.clock < clock ∧ V st₁ st₁' ∧
        d.run (answer .main) ⟨own, sub⟩ >>= conclude .main =
          .ok (⟨{ own with clock, goal, demand := none }, sub⟩, st₁) ∧
        d'.run (answer .main) ⟨{ own with demand := none }, sub'⟩ >>= conclude .main =
          .ok (⟨{ own with clock, goal, demand := none }, sub'⟩, st₁') := by
  rcases run_sure hd h own sub sub' with
    herror | ⟨⟨cost, st₁⟩, ⟨cost', st₁'⟩, goal, hcost, hR, hr, hr'⟩
  · rw [herror]
    exact .inl rfl
  obtain ⟨rfl, hV⟩ := hR
  rw [hr, hr']
  show (fun l => (l, st₁)) <$> advance .main cost _ = _ ∨ _
  rcases advance_of_pos (s := .main) hcost own.clock with herror | ⟨clock, hlt, hok⟩
  · rw [herror _ rfl]
    exact .inl rfl
  · refine .inr ⟨clock, goal, st₁, st₁', hlt, hV, ?_, ?_⟩
    · show (fun l => (l, st₁)) <$> advance .main cost _ = _
      rw [hok _ rfl]
      rfl
    · show (fun l => (l, st₁')) <$> advance .main cost _ = _
      rw [hok _ rfl]
      rfl

/-- A turn of the main lane goes alike beside a partner that takes turns and a parked one, unless it
is refused a port: then nothing has happened. -/
theorem turn_main (hp : p.Idles V) (hV : V st st') (own : Lane) {sub sub' : Lane}
    (hsub' : sub'.parked = true) :
    turn p .main ⟨own, sub⟩ st = .error .overflow ∨
      (∃ clock goal st₁ st₁', own.clock < clock ∧ V st₁ st₁' ∧
        turn p .main ⟨own, sub⟩ st = .ok (⟨{ own with clock, goal, demand := none }, sub⟩, st₁) ∧
        turn p .main ⟨{ own with demand := none }, sub'⟩ st' =
          .ok (⟨{ own with clock, goal, demand := none }, sub'⟩, st₁')) ∨
      ∃ t st₁, sub.reaches t = false ∧ V st₁ st' ∧
        turn p .main ⟨own, sub⟩ st = .ok (⟨{ own with demand := some t }, sub⟩, st₁) := by
  have halike := hp.alike st st' hV
  have htentative := hp.tentative st st' hV
  rw [turn_eq, turn_eq]
  generalize p.step .main st = d at halike htentative
  generalize p.step .main st' = d' at halike
  cases htentative with
  | sure hd =>
    rcases conclude_sure hd halike own sub sub' with herror | hok
    · exact .inl herror
    · exact .inr (.inl hok)
  | @sync e next a hnext ha hgranted =>
    cases halike with
    | @ask _ _ next' hnext' =>
      rw [Dialogue.run_ask, Dialogue.run_ask]
      by_cases he : own.after e < UInt64.size
      · have hreach' : sub'.reaches (own.after e) = true := by
          rw [Lane.reaches, hsub', Bool.true_or]
        have hsync : answer .main (.sync e) ⟨own, sub⟩ = .ok (sub.reaches (own.after e), ⟨{ own with
            demand := if sub.reaches (own.after e) then none else some (own.after e) }, sub⟩) :=
          answer_sync (s := .main) he
        have hsync' : answer .main (.sync e) ⟨{ own with demand := none }, sub'⟩ =
            .ok (sub'.reaches (own.after e), ⟨{ own with
              demand := if sub'.reaches (own.after e) then none else some (own.after e) }, sub'⟩) :=
          answer_sync (s := .main) (l := ⟨{ own with demand := none }, sub'⟩) he
        rw [hreach'] at hsync'
        rw [hsync, hsync']
        -- Beside the parked lane the port is granted in any case.
        cases hreach : sub.reaches (own.after e) with
        | true =>
          rcases conclude_sure hgranted (hnext' true) { own with demand := none } sub sub' with
            herror | hok
          · exact .inl herror
          · exact .inr (.inl hok)
        | false =>
          obtain ⟨cost, st₁⟩ := a
          obtain ⟨rfl, hV₁⟩ := ha
          refine .inr (.inr ⟨own.after e, st₁, hreach, hV₁, ?_⟩)
          show (next false).run (answer .main) _ >>= conclude .main = _
          rw [hnext]
          rfl
      · rw [(answer_error (s := .main) (l := ⟨own, sub⟩) he).2]
        exact .inl rfl

/-- A turn of the sub lane moves its clock. -/
theorem turn_sub (hp : p.Idles V) (hV : V st st') (own sub : Lane) :
    turn p .sub ⟨own, sub⟩ st = .error .overflow ∨
      ∃ clock st₁, sub.clock < clock ∧ V st₁ st' ∧
        turn p .sub ⟨own, sub⟩ st = .ok (⟨own, { sub with clock, demand := none }⟩, st₁) := by
  rw [turn_eq]
  rcases hp.wait st st' hV with hfail | ⟨cost, st₁, hcost, hdone, hV₁⟩
  · rw [hfail]
    exact .inl rfl
  · rw [hdone]
    show (fun l => (l, st₁)) <$> advance .sub cost _ = _ ∨ _
    rcases advance_of_pos (s := .sub) hcost sub.clock with herror | ⟨clock, hlt, hok⟩
    · rw [herror _ rfl]
      exact .inl rfl
    · refine .inr ⟨clock, st₁, hlt, hV₁, ?_⟩
      show (fun l => (l, st₁)) <$> advance .sub cost _ = _
      rw [hok _ rfl]
      rfl

/-! ### The choice of a lane -/

namespace Beside

theorem eq_alone (h : Beside l l') : l' = ⟨{ l.main with demand := none }, l'.sub⟩ := by
  obtain ⟨main', sub'⟩ := l'
  rw [← h.main]

/-- The main lane takes turns only before its goal: nobody waits for it. -/
theorem time_lt_goal (h : Beside l l') (hturn : (l.main.turnAt? l.sub).isSome = true) :
    l.main.time < l.main.goal ∧ l.main.demand.all l.sub.reaches = true := by
  obtain ⟨-, ⟨d, hd, hreach⟩ | ⟨hd, hgo⟩⟩ := Lane.turnAt?_isSome hturn
  · refine ⟨h.waits d hd, ?_⟩
    rw [hd]
    exact hreach
  · have hawaits : l.sub.awaits l.main.time = false := by simp [Lane.awaits, h.free]
    rw [hawaits] at hgo
    refine ⟨hgo.resolve_right (by simp), ?_⟩
    rw [hd]
    rfl

/-- At the end of the run the main lane has reached its goal. -/
theorem goal_le_time (h : Beside l l') (hend : next l = .ok none) : ¬l.main.time < l.main.goal := by
  intro hlt
  have hdemand : l.main.demand = none := demand_of_next_none h.running hend .main
  have hnone : l.main.turnAt? l.sub = none := turnAt?_of_next_none hend .main
  have hrunning : l.main.parked = false := h.running .main
  simp [Lane.turnAt?, hrunning, hdemand, hlt] at hnone

/-- The main lane has taken a turn. -/
theorem moved (h : Beside l l') (clock : UInt64) (goal : ℕ) :
    Beside ⟨{ l.main with clock, goal, demand := none }, l.sub⟩
      ⟨{ l.main with clock, goal, demand := none }, l'.sub⟩ where
  main := rfl
  running s := by
    cases s
    · exact h.running .main
    · exact h.running .sub
  parked := h.parked
  free := h.free
  waits d hd := by cases hd

/-- The main lane was refused a port. -/
theorem refused (h : Beside l l') (hlt : l.main.time < l.main.goal) (t : ℕ) :
    Beside ⟨{ l.main with demand := some t }, l.sub⟩ l' where
  main := h.main
  running s := by
    cases s
    · exact h.running .main
    · exact h.running .sub
  parked := h.parked
  free := h.free
  waits _ _ := hlt

/-- The sub lane has waited. -/
theorem waited (h : Beside l l') (clock : UInt64) :
    Beside ⟨l.main, { l.sub with clock, demand := none }⟩ l' where
  main := h.main
  running s := by
    cases s
    · exact h.running .main
    · exact h.running .sub
  parked := h.parked
  free := rfl
  waits := h.waits

theorem turnAt?_alone (h : Beside l l') :
    l'.main.turnAt? l'.sub = (if l.main.time < l.main.goal then some l.main.time else none) ∧
      l'.sub.turnAt? l'.main = none := by
  have hrunning : l.main.parked = false := h.running .main
  have hawaits : l'.sub.awaits l.main.time = false := by simp [Lane.awaits, h.parked]
  constructor
  · rw [h.main]
    show (if l.main.parked = true then none
      else if (decide (l.main.time < l.main.goal) || l'.sub.awaits l.main.time) = true then
        some l.main.time else none) = _
    rw [hrunning, hawaits, Bool.or_false]
    simp only [decide_eq_true_iff]
    rfl
  · rw [Lane.turnAt?, if_pos h.parked]

/-- The lanes with the sub one parked go on exactly as long as the main one is before its goal. -/
theorem next_alone (h : Beside l l') (hfits : l.main.Fits) :
    next l' = .ok (if l.main.time < l.main.goal then some .main else none) := by
  have hfits' : l'.main.Fits ∧ l'.sub.Fits := by
    refine ⟨?_, .inl h.parked⟩
    rw [h.main]
    exact hfits
  obtain ⟨hmain, hsub⟩ := h.turnAt?_alone
  rw [next_of_fits hfits', pick, hmain, hsub]
  split_ifs <;> rfl

end Beside

/-! ### Runs -/

/-- More turns than the lanes can take: every turn moves a clock, or makes the main lane wait. -/
def turnsLeft (l : Lanes) : ℕ :=
  2 * (UInt64.size - l.main.clock.toNat) + 2 * (UInt64.size - l.sub.clock.toNat) +
    if l.main.demand.all l.sub.reaches then 1 else 0

theorem turnsLeft_lt_of_main {own own' sub : Lane} (h : own.clock < own'.clock) :
    turnsLeft ⟨own', sub⟩ < turnsLeft ⟨own, sub⟩ := by
  rw [UInt64.lt_iff_toNat_lt] at h
  have := own'.clock.toNat_lt
  unfold turnsLeft UInt64.size
  dsimp only
  split_ifs <;> omega

theorem turnsLeft_lt_of_sub {own sub sub' : Lane} (h : sub.clock < sub'.clock) :
    turnsLeft ⟨own, sub'⟩ < turnsLeft ⟨own, sub⟩ := by
  rw [UInt64.lt_iff_toNat_lt] at h
  have := sub'.clock.toNat_lt
  unfold turnsLeft UInt64.size
  dsimp only
  split_ifs <;> omega

theorem turnsLeft_lt_of_refused {own sub : Lane} {t : ℕ} (h : own.demand.all sub.reaches = true)
    (ht : sub.reaches t = false) :
    turnsLeft ⟨{ own with demand := some t }, sub⟩ < turnsLeft ⟨own, sub⟩ := by
  unfold turnsLeft
  dsimp only
  rw [if_pos h, Option.all_some, ht]
  exact Nat.lt_succ_self _

/-- The run ends, and the run with the sub lane parked ends alike, or a counter overflows. -/
theorem run_beside (hp : p.Idles V) {n : ℕ} (h : Beside l l') (hV : V st st')
    (hn : turnsLeft l < n) :
    run p n l st = .error .overflow ∨
      ∃ l₁ l₁' st₁ st₁', run p n l st = .ok (l₁, st₁) ∧ run p n l' st' = .ok (l₁', st₁') ∧
        V st₁ st₁' ∧ l₁.main.clock = l₁'.main.clock := by
  induction n generalizing l l' st st' with
  | zero => exact absurd hn (Nat.not_lt_zero _)
  | succ n ih =>
    cases hnext : next l with
    | error f =>
      obtain rfl := next_error hnext
      refine .inl ?_
      simp only [run, hnext]
    | ok o =>
      have halone := h.next_alone (next_eq_ok hnext).1.1
      obtain ⟨own, sub⟩ := l
      cases o with
      | none =>
        -- Neither lane of the other run can go on either.
        have hdone : ¬own.time < own.goal := h.goal_le_time hnext
        rw [if_neg hdone] at halone
        rw [run_of_next_none hnext, run_of_next_none halone]
        refine .inr ⟨_, _, st, st', rfl, rfl, hV, ?_⟩
        rw [h.main]
      | some s =>
        rw [run_of_next_some hnext]
        cases s with
        | main =>
          obtain ⟨hlt, hready⟩ := h.time_lt_goal (turnAt?_of_next_some hnext)
          rw [if_pos hlt] at halone
          rcases turn_main hp hV own h.parked with herror |
            ⟨clock, goal, st₁, st₁', hclock, hV₁, ht, ht'⟩ | ⟨t, st₁, hreach, hV₁, ht⟩
          · rw [herror]
            exact .inl rfl
          · -- Both main lanes have taken the turn.
            rw [run_of_next_some halone, h.eq_alone, ht, ht']
            exact ih (h.moved clock goal) hV₁
              ((turnsLeft_lt_of_main hclock).trans_le (Nat.le_of_lt_succ hn))
          · -- The main lane has to wait, and the other one stands where it stood.
            rw [ht]
            rcases ih (h.refused hlt t) hV₁
              ((turnsLeft_lt_of_refused hready hreach).trans_le (Nat.le_of_lt_succ hn)) with
              herror | ⟨l₁, l₁', st₁, st₁', hr, hr', hV', hclock⟩
            · exact .inl herror
            · exact .inr ⟨l₁, l₁', st₁, st₁', hr, run_le (Nat.le_succ n) hr', hV', hclock⟩
        | sub =>
          -- The parked lane stands still, which is all one: its processor only waits.
          rcases turn_sub hp hV own sub with herror | ⟨clock, st₁, hclock, hV₁, ht⟩
          · rw [herror]
            exact .inl rfl
          · rw [ht]
            rcases ih (h.waited clock) hV₁
              ((turnsLeft_lt_of_sub hclock).trans_le (Nat.le_of_lt_succ hn)) with
              herror | ⟨l₁, l₁', st₁, st₁', hr, hr', hV', hclock'⟩
            · exact .inl herror
            · exact .inr ⟨l₁, l₁', st₁, st₁', hr, run_le (Nat.le_succ n) hr', hV', hclock'⟩

end Lanes

/-! ### The scheduler -/

namespace Scheduler

variable {s s' : Scheduler}

theorem beside_begin (s : Scheduler) : Lanes.Beside s.lanes s.lanesAlone where
  main := rfl
  running i := by cases i <;> rfl
  parked := rfl
  free := rfl
  waits d hd := by cases hd

theorem turnsLeft_lt_turnLimit (l : Lanes) : l.turnsLeft < turnLimit := by
  have hlimit : 4 * UInt64.size + 1 < turnLimit := by decide
  unfold Lanes.turnsLeft
  split_ifs <;> omega

/-- What a run shows that begins with the counters `s`, beside one with the sub lane parked. -/
theorem finish_beside (hp : p.Idles V) (s : Scheduler) (hV : V st st') :
    s.finish p s.lanes st = .error .overflow ∨
      ∃ moved s₁ s₁' st₁ st₁', s.finish p s.lanes st = .ok (moved, s₁, st₁) ∧
        s.finish p s.lanesAlone st' = .ok (moved, s₁', st₁') ∧ V st₁ st₁' ∧
        s₁'.clocks.main = s₁.clocks.main ∧ s₁'.targets = s₁.targets := by
  rcases Lanes.run_beside hp s.beside_begin hV (turnsLeft_lt_turnLimit _) with
    herror | ⟨l₁, l₁', st₁, st₁', hr, hr', hV₁, hclock⟩
  · rw [finish_eq, herror]
    exact .inl rfl
  · refine .inr ⟨l₁.main.clock - s.clocks.main, { s with clocks := l₁.map Lane.clock },
      { s with clocks := l₁'.map Lane.clock }, st₁, st₁', ?_, ?_, hV₁, hclock.symm, rfl⟩
    · rw [finish_eq, hr]
      rfl
    · rw [finish_eq, hr', hclock]
      rfl

/-- A run of both processors, beside a run of the main one. If no counter overflows, both return,
and they return the same. -/
theorem execBoth_beside (hp : p.Idles V) (hV : V st st) {weights : PerSide UInt64}
    (hweights : s.weights = weights) {budget : UInt32}
    (hboth : s.execBoth p weights budget st ≠ .error .overflow)
    (hmain : s.execMain p budget st ≠ .error .overflow) :
    ∃ moved s₁ s₁' st₁ st₁', s.execBoth p weights budget st = .ok (moved, s₁, st₁) ∧
      s.execMain p budget st = .ok (moved, s₁', st₁') ∧ V st₁ st₁' ∧
      s₁'.clocks.main = s₁.clocks.main ∧ s₁'.targets = s₁.targets := by
  have hprepare : s.prepare weights budget = s.extend budget := by
    rw [prepare, reweigh_self hweights]
    rfl
  cases hs : s.extend budget with
  | error f =>
    obtain rfl := extend_error hs
    rw [execBoth_eq, hprepare, hs] at hboth
    exact absurd rfl hboth
  | ok s' =>
    rw [execBoth_of_prepare (hprepare.trans hs)] at hboth ⊢
    rw [execMain_eq hs] at hmain ⊢
    have hskips : p.Skips (V st) := fun clocks st' hV => hp.skip st st' clocks hV
    rcases credit_skips hskips s' hV with herror | ⟨st', hst', hV'⟩
    · rw [herror] at hmain
      exact absurd rfl hmain
    · rw [hst']
      rcases finish_beside hp s' hV' with herror | hok
      · exact absurd herror hboth
      · exact hok

end Scheduler
end TandemZ80
