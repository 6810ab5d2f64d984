import TandemZ80.Proofs.Alike

/-!
# Transcripts and ends

A run of a dialogue gives its result and the state in which the handler is left. The transcript of
the run is what was said in it, also where a fault cuts it short.

* `Dialogue.transcript`, and its equations along the dialogue;
* `Dialogue.transcript_bind`, the transcript of two dialogues in a row, with
  `Dialogue.run_bind_eq_ok` and `Dialogue.run_bind_eq_error`;
* `Dialogue.announce`, a handler that announces what it answers, and `Dialogue.Alike.announced`,
  which compares runs under two handlers by what they announce;
* `Dialogue.Ends`, what holds of the result of a dialogue whatever it is answered, under `bind`,
  `relay` and `run`; `Dialogue.Asks`, what holds of its questions.
-/

namespace TandemZ80.Dialogue

variable {Q : Type} {R : Q → Type} {σ α β : Type}

/-- The questions of a run with the answers they got. -/
def transcript (h : Handler R σ) : Dialogue R α → σ → List ((q : Q) × R q)
  | done _, _ => []
  | fail _, _ => []
  | ask q next, s =>
    match h q s with
    | .error _ => []
    | .ok (x, s') => ⟨q, x⟩ :: transcript h (next x) s'

theorem transcript_ask {h : Handler R σ} {q : Q} {x : R q} {s s' : σ} (hq : h q s = .ok (x, s'))
    (next : R q → Dialogue R α) :
    (ask q next).transcript h s = ⟨q, x⟩ :: (next x).transcript h s' := by
  simp only [transcript, hq]

theorem transcript_ask_error {h : Handler R σ} {q : Q} {s : σ} {f : Fault} (hq : h q s = .error f)
    (next : R q → Dialogue R α) : (ask q next).transcript h s = [] := by
  simp only [transcript, hq]

theorem transcript_ask_cases (h : Handler R σ) (q : Q) (next : R q → Dialogue R α) (s : σ) :
    (ask q next).transcript h s = [] ∨
      ∃ x s', (ask q next).transcript h s = ⟨q, x⟩ :: (next x).transcript h s' := by
  cases hq : h q s with
  | error f => exact .inl (transcript_ask_error hq next)
  | ok r => exact .inr ⟨r.1, r.2, transcript_ask hq next⟩

/-- What is said in two dialogues in a row: the second one speaks only if the first one ends. -/
theorem transcript_bind (h : Handler R σ) (d : Dialogue R α) (f : α → Dialogue R β) (s : σ) :
    (d >>= f).transcript h s =
      d.transcript h s ++
        match d.run h s with
        | .error _ => []
        | .ok (a, s') => (f a).transcript h s' := by
  induction d generalizing s with
  | done a => rfl
  | fail e => rfl
  | ask q next ih =>
    rw [ask_bind, run_ask]
    cases hq : h q s with
    | error e => rw [transcript_ask_error hq, transcript_ask_error hq]; rfl
    | ok p =>
      obtain ⟨x, s'⟩ := p
      rw [transcript_ask hq, transcript_ask hq, ih, List.cons_append]
      rfl

/-- A run of two dialogues in a row that ends, taken apart. -/
theorem run_bind_eq_ok {h : Handler R σ} {d : Dialogue R α} {f : α → Dialogue R β} {s : σ}
    {r : β × σ} (hr : (d >>= f).run h s = .ok r) :
    ∃ a s', d.run h s = .ok (a, s') ∧ (f a).run h s' = .ok r ∧
      (d >>= f).transcript h s = d.transcript h s ++ (f a).transcript h s' := by
  rw [run_bind] at hr
  obtain ⟨⟨a, s'⟩, hd, hr⟩ := Fault.bind_eq_ok hr
  refine ⟨a, s', hd, hr, ?_⟩
  rw [transcript_bind, hd]

/-- A run of two dialogues in a row that stops, in the first one or in the second. -/
theorem run_bind_eq_error {h : Handler R σ} {d : Dialogue R α} {f : α → Dialogue R β} {s : σ}
    {e : Fault} (hr : (d >>= f).run h s = .error e) :
    (d.run h s = .error e ∧ (d >>= f).transcript h s = d.transcript h s) ∨
      ∃ a s', d.run h s = .ok (a, s') ∧ (f a).run h s' = .error e ∧
        (d >>= f).transcript h s = d.transcript h s ++ (f a).transcript h s' := by
  rw [run_bind] at hr
  rcases Fault.bind_eq_error hr with hd | ⟨⟨a, s'⟩, hd, hr⟩
  · refine .inl ⟨hd, ?_⟩
    rw [transcript_bind, hd, List.append_nil]
  · refine .inr ⟨a, s', hd, hr, ?_⟩
    rw [transcript_bind, hd]

/-- What a dialogue comes to may be changed at its end. -/
theorem run_bind_done (h : Handler R σ) (d : Dialogue R α) (f : α → β) (s : σ) :
    (d >>= fun a => .done (f a)).run h s = (fun r => (f r.1, r.2)) <$> d.run h s := by
  rw [run_bind]
  cases d.run h s with
  | error e => rfl
  | ok r => rfl

theorem transcript_bind_done (h : Handler R σ) (d : Dialogue R α) (f : α → β) (s : σ) :
    (d >>= fun a => .done (f a)).transcript h s = d.transcript h s := by
  rw [transcript_bind]
  cases d.run h s with
  | error e => exact List.append_nil _
  | ok r => exact List.append_nil _

/-- Under the same answers the same is said in dialogues that go alike. -/
theorem Alike.transcript {F : Fault → Prop} {T : α → β → Prop} {d : Dialogue R α}
    {d' : Dialogue R β} (hd : Alike F T d d') (h : Handler R σ) (s : σ) :
    d.transcript h s = d'.transcript h s := by
  induction hd generalizing s with
  | done _ => rfl
  | fail _ => rfl
  | ask q _ ih =>
    cases hq : h q s with
    | error e => rw [transcript_ask_error hq, transcript_ask_error hq]
    | ok p => rw [transcript_ask hq, transcript_ask hq, ih]

/-! ### Announcements -/

/-- Answer by `h`, and announce the question with its answer, if it is to be `shown`. -/
def announce (h : Handler R σ) (shown : (q : Q) × R q → Bool) (q : Q) (s : σ) :
    Dialogue (fun _ : (q : Q) × R q => Unit) (R q × σ) :=
  match h q s with
  | .error f => .fail f
  | .ok (x, s') => if shown ⟨q, x⟩ then .ask ⟨q, x⟩ fun _ => .done (x, s') else .done (x, s')

/-- Announcements are heard, and nothing is answered. -/
def hear : Handler (fun _ : Q => Unit) Unit := fun _ s => .ok ((), s)

section Announce

variable {h : Handler R σ} {shown : (q : Q) × R q → Bool}

theorem announce_error {q : Q} {s : σ} {f : Fault} (hq : h q s = .error f) :
    announce h shown q s = .fail f := by
  simp only [announce, hq]

theorem announce_ok {q : Q} {s s' : σ} {x : R q} (hq : h q s = .ok (x, s')) :
    announce h shown q s =
      if shown ⟨q, x⟩ then .ask ⟨q, x⟩ fun _ => .done (x, s') else .done (x, s') := by
  simp only [announce, hq]

theorem run_relay_announce (d : Dialogue R α) (s : σ) :
    (d.relay (announce h shown) s).run hear () = (fun r => (r, ())) <$> d.run h s := by
  induction d generalizing s with
  | done a => rfl
  | fail f => rfl
  | ask q next ih =>
    rw [relay_ask, run_ask]
    cases hq : h q s with
    | error f =>
      rw [announce_error hq]
      rfl
    | ok p =>
      rw [announce_ok hq]
      split_ifs
      · exact ih p.1 p.2
      · exact ih p.1 p.2

theorem transcript_relay_announce (d : Dialogue R α) (s : σ) :
    (d.relay (announce h shown) s).transcript hear () =
      ((d.transcript h s).filter shown).map fun e => ⟨e, ()⟩ := by
  induction d generalizing s with
  | done a => rfl
  | fail f => rfl
  | ask q next ih =>
    rw [relay_ask]
    cases hq : h q s with
    | error f =>
      rw [announce_error hq, transcript_ask_error hq]
      rfl
    | ok p =>
      rw [announce_ok hq, transcript_ask hq]
      split_ifs with hshown
      · rw [List.filter_cons_of_pos hshown, List.map_cons, ← ih]
        rfl
      · rw [List.filter_cons_of_neg hshown, ← ih]
        rfl

/-- If dialogues go alike while they announce what is shown, then their runs show the same, and stop
on the same fault or have results in relation. -/
theorem Alike.announced {σ' : Type} {F : Fault → Prop} {V : α × σ → β × σ' → Prop}
    {d : Dialogue R α} {d' : Dialogue R β} {h' : Handler R σ'} {s : σ} {s' : σ'}
    (hd : Alike F V (d.relay (announce h shown) s) (d'.relay (announce h' shown) s')) :
    (d.transcript h s).filter shown = (d'.transcript h' s').filter shown ∧
      Fault.Alike V (d.run h s) (d'.run h' s') := by
  have htranscript := hd.transcript hear ()
  have hrun := hd.run hear ()
  rw [transcript_relay_announce, transcript_relay_announce] at htranscript
  rw [run_relay_announce, run_relay_announce] at hrun
  refine ⟨List.map_injective_iff.2 (fun e e' he => congrArg Sigma.fst he) htranscript, ?_⟩
  generalize d.run h s = r at hrun ⊢
  generalize d'.run h' s' = r' at hrun ⊢
  cases r with
  | error f =>
    cases r' with
    | error f' =>
      cases hrun
      exact .error f
    | ok r' => cases hrun
  | ok r =>
    cases r' with
    | error f' => cases hrun
    | ok r' =>
      cases hrun with
      | ok hV => exact .ok hV.1

/-- Answers that are alike are announced alike. -/
theorem announce_alike {σ' : Type} {F : Fault → Prop} {V : σ → σ' → Prop}
    {h' : Handler R σ'} {q : Q} {s : σ} {s' : σ'} (hF : ∀ f, F f)
    (hq : Fault.Alike (fun r r' => r.1 = r'.1 ∧ V r.2 r'.2) (h q s) (h' q s')) :
    Alike F (fun r r' => r.1 = r'.1 ∧ V r.2 r'.2) (announce h shown q s)
      (announce h' shown q s') := by
  unfold announce
  generalize h q s = r at hq ⊢
  generalize h' q s' = r' at hq ⊢
  cases hq with
  | error f => exact .fail (hF f)
  | @ok r r' hr =>
    obtain ⟨x, t⟩ := r
    obtain ⟨x', t'⟩ := r'
    obtain ⟨rfl, ht⟩ := hr
    dsimp only
    split_ifs
    · exact .ask _ fun _ => .done ⟨rfl, ht⟩
    · exact .done ⟨rfl, ht⟩

end Announce

/-! ### Ends -/

/-- `P` holds of the result, whatever the questions are answered by. -/
inductive Ends (P : α → Prop) : Dialogue R α → Prop
  | done {a : α} (h : P a) : Ends P (.done a)
  | fail (f : Fault) : Ends P (.fail f)
  | ask (q : Q) {next : R q → Dialogue R α} (h : ∀ x, Ends P (next x)) : Ends P (.ask q next)

namespace Ends

variable {P : α → Prop} {P' : β → Prop} {d : Dialogue R α}

theorem bind {f : α → Dialogue R β} (hd : Ends P d) (hf : ∀ a, P a → Ends P' (f a)) :
    Ends P' (d >>= f) := by
  induction hd with
  | done h => exact hf _ h
  | fail e => exact .fail e
  | ask q _ ih => exact .ask q ih

theorem mono {P'' : α → Prop} (hd : Ends P d) (hP : ∀ a, P a → P'' a) : Ends P'' d := by
  induction hd with
  | done h => exact .done (hP _ h)
  | fail e => exact .fail e
  | ask q _ ih => exact .ask q ih

theorem unconditional (d : Dialogue R α) : Ends (fun _ => True) d := by
  induction d with
  | done a => exact .done trivial
  | fail e => exact .fail e
  | ask q next ih => exact .ask q ih

/-- Dialogues that answer do not change what the results are. -/
theorem relay {Q' : Type} {S : Q' → Type} {h : (q : Q) → σ → Dialogue S (R q × σ)} (hd : Ends P d)
    (s : σ) : Ends (fun r => P r.1) (d.relay h s) := by
  induction hd generalizing s with
  | done hP => exact .done hP
  | fail e => exact .fail e
  | ask q _ ih => exact (unconditional (h q s)).bind fun r _ => ih r.1 r.2

theorem run {h : Handler R σ} (hd : Ends P d) {s s' : σ} {a : α} (hr : d.run h s = .ok (a, s')) :
    P a := by
  induction hd generalizing s with
  | done hP =>
    cases hr
    exact hP
  | fail e => cases hr
  | ask q _ ih =>
    obtain ⟨⟨x, s₁⟩, -, hr⟩ := Fault.bind_eq_ok hr
    exact ih x hr

end Ends

/-- What relates the results of a dialogue with themselves holds of them. -/
theorem Alike.ends {F : Fault → Prop} {T : α → α → Prop} {d : Dialogue R α} (h : Alike F T d d) :
    d.Ends fun a => T a a := by
  induction d with
  | done a =>
    cases h with
    | done h => exact .done h
  | fail f => exact .fail f
  | ask q next ih =>
    cases h with
    | ask _ h => exact .ask q fun x => ih x (h x)

/-! ### Questions -/

/-- `P` holds of every question, whatever the answers. -/
inductive Asks (P : Q → Prop) : Dialogue R α → Prop
  | done (a : α) : Asks P (.done a)
  | fail (f : Fault) : Asks P (.fail f)
  | ask {q : Q} {next : R q → Dialogue R α} (hq : P q) (h : ∀ x, Asks P (next x)) :
      Asks P (.ask q next)

namespace Asks

variable {P : Q → Prop} {d : Dialogue R α}

theorem bind {f : α → Dialogue R β} (hd : Asks P d) (hf : ∀ a, Asks P (f a)) :
    Asks P (d >>= f) := by
  induction hd with
  | done a => exact hf a
  | fail e => exact .fail e
  | ask hq _ ih => exact .ask hq ih

theorem mono {P' : Q → Prop} (hd : Asks P d) (hP : ∀ q, P q → P' q) : Asks P' d := by
  induction hd with
  | done a => exact .done a
  | fail e => exact .fail e
  | ask hq _ ih => exact .ask (hP _ hq) ih

theorem of_forall (hP : ∀ q, P q) (d : Dialogue R α) : Asks P d := by
  induction d with
  | done a => exact .done a
  | fail e => exact .fail e
  | ask q next ih => exact .ask (hP q) ih

/-- Without a question that is shown nothing of the transcript shows. -/
theorem filter_transcript {shown : (q : Q) × R q → Bool}
    (hd : Asks (fun q => ∀ x, shown ⟨q, x⟩ = false) d) (h : Handler R σ) (s : σ) :
    (d.transcript h s).filter shown = [] := by
  induction hd generalizing s with
  | done a => rfl
  | fail e => rfl
  | @ask q next hq _ ih =>
    rcases transcript_ask_cases h q next s with hsaid | ⟨x, s', hsaid⟩
    · rw [hsaid]
      rfl
    · rw [hsaid, List.filter_cons_of_neg (by rw [hq]; exact Bool.false_ne_true), ih]

/-- Without a question that is shown there is nothing to announce. -/
theorem relay_announce {h : Handler R σ} {shown : (q : Q) × R q → Bool}
    (hd : Asks (fun q => ∀ x, shown ⟨q, x⟩ = false) d) (s : σ) :
    d.relay (announce h shown) s = ofExcept (d.run h s) := by
  induction hd generalizing s with
  | done a => rfl
  | fail e => rfl
  | @ask q next hq _ ih =>
    rw [relay_ask, run_ask]
    cases hanswer : h q s with
    | error e =>
      rw [announce_error hanswer]
      rfl
    | ok r =>
      rw [announce_ok hanswer, if_neg (by rw [hq]; exact Bool.false_ne_true)]
      exact ih r.1 r.2

end Asks

end TandemZ80.Dialogue
