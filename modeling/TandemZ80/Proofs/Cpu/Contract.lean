import TandemZ80.Bus.Flat
import TandemZ80.Proofs.Cpu.Congruence
import TandemZ80.Proofs.Cpu.Dispatch
import TandemZ80.Proofs.Cpu.Polite
import TandemZ80.Proofs.Cpu.Refusal

/-!
# What a step promises

Whoever hands out time relies on what a step returns: on 0 if a shared port was refused, on the cost
otherwise, and on there being only one request for a port. The cost is bounded because a step takes
at most one index prefix: the byte behind a prefix is looked at first, and if that is another prefix
the step ends. The byte is then fetched again, and a bus may answer differently this time. Every
such contradiction lets one more prefix into the step, and no bus can do worse than that.

* `Bus.requests`, the requests for shared ports in a transcript;
* `Bus.contradictions`, how often a bus contradicts itself in a transcript; `Bus.Steady`, a bus that
  shows the same byte when asked twice, with `Flat.steady`; `Bus.Blamed`, which goes by both;
* `Bus.Brief`, a program whose costs are bounded up to contradictions, with its rules, and
  `Exec.opcode_brief`;
* `Cpu.perform_brief`, the body of a step, and `Cpu.step_contract`; `Bus.tape`, a bus that is not
  steady.
-/

namespace TandemZ80

variable {α σ : Type}

namespace Bus

/-! ### Requests -/

/-- The requests for shared ports in a transcript: their times, and whether they were granted. -/
def requests (said : List ((q : Call) × Reply q)) : List (ℕ × Bool) :=
  said.filterMap fun
    | ⟨.sync e, granted⟩ => some (e, granted)
    | _ => none

theorem requests_append (said said' : List ((q : Call) × Reply q)) :
    requests (said ++ said') = requests said ++ requests said' := List.filterMap_append

theorem requests_cons_of_asks {q : Call} (hq : q.asks = false) (x : Reply q)
    (said : List ((q : Call) × Reply q)) : requests (⟨q, x⟩ :: said) = requests said := by
  cases q with
  | sync e => cases hq
  | _ => rfl

theorem requests_of_looks {said : List ((q : Call) × Reply q)} (h : ∀ x ∈ said, x.1.looks = true) :
    requests said = [] := by
  induction said with
  | nil => rfl
  | cons x said ih =>
    rw [requests_cons_of_asks (Call.asks_of_looks (h x (.head _)))]
    exact ih fun y hy => h y (.tail _ hy)

section Run

variable {h : Bus σ} {b b' : σ}

/-- A sure program asks for no port. -/
theorem Sure.requests {P : α → Prop} {d : Program (Option α × Cpu)} (hd : Sure P d) (h : Bus σ)
    (b : σ) : Bus.requests (d.transcript h b) = [] := by
  induction hd generalizing b with
  | done s _ => rfl
  | @ask q next hq _ ih =>
    rcases Dialogue.transcript_ask_cases h q next b with hsaid | ⟨x, b₁, hsaid⟩
    · rw [hsaid]
      rfl
    · rw [hsaid, requests_cons_of_asks hq, ih]

section Tentative

variable {s : Cpu} {F : Prop} {P : α → Option ℕ → Prop} {d : Program (Option α × Cpu)}

/-- A tentative program with a result was granted what it asked for. -/
theorem Tentative.requests_some (hd : Tentative s F P d) {a : α} {t : Cpu}
    (hr : d.run h b = .ok ((some a, t), b')) :
    ∃ asked : Option ℕ, P a asked ∧
      requests (d.transcript h b) = asked.toList.map fun e => (e, true) := by
  induction hd generalizing b with
  | sure hd =>
    obtain ⟨a', ha, hP⟩ := hd.run hr
    cases ha
    exact ⟨none, hP, hd.requests h b⟩
  | fail f _ => cases hr
  | @look q next hq _ ih =>
    obtain ⟨⟨x, b₁⟩, hx, hr⟩ := Fault.bind_eq_ok hr
    obtain ⟨asked, hP, hasked⟩ := ih x hr
    rw [Dialogue.transcript_ask hx, requests_cons_of_asks (Call.asks_of_looks hq)]
    exact ⟨asked, hP, hasked⟩
  | @sync e next u _ hrefused hgranted =>
    obtain ⟨⟨granted, b₁⟩, hx, hr⟩ := Fault.bind_eq_ok hr
    cases granted with
    | false =>
      rw [hrefused] at hr
      cases hr
    | true =>
      obtain ⟨a', ha, hP⟩ := hgranted.run hr
      cases ha
      refine ⟨some e, hP, ?_⟩
      rw [Dialogue.transcript_ask hx]
      show (e, true) :: requests ((next true).transcript h b₁) = [(e, true)]
      rw [hgranted.requests]

/-- A tentative program without a result was refused what it asked for. -/
theorem Tentative.requests_none (hd : Tentative s F P d) {t : Cpu}
    (hr : d.run h b = .ok ((none, t), b')) : ∃ e, requests (d.transcript h b) = [(e, false)] := by
  obtain ⟨-, before, e, htr, hlooks⟩ := hd.run_none hr
  rw [htr, requests_append, requests_of_looks hlooks]
  exact ⟨e, rfl⟩

end Tentative
end Run

/-! ### Contradictions -/

/-- The byte that an answer shows, with its address. -/
def glimpse : (q : Call) × Reply q → Option (UInt16 × UInt8)
  | ⟨.read a, v⟩ => some (a, v)
  | ⟨.readWindow _ a, some v⟩ => some (a, v)
  | _ => none

/-- One contradiction if the byte now shown was last shown differently, at the same address. -/
def contradicts : Option (UInt16 × UInt8) → UInt16 × UInt8 → ℕ
  | some (a, v), (a', v') => if a = a' ∧ v ≠ v' then 1 else 0
  | none, _ => 0

theorem contradicts_self (a : UInt16) (v : UInt8) : contradicts (some (a, v)) (a, v) = 0 :=
  if_neg fun h => h.2 rfl

theorem contradicts_of_ne {a : UInt16} {v v' : UInt8} (h : v ≠ v') :
    contradicts (some (a, v)) (a, v') = 1 := if_pos ⟨rfl, h⟩

/-- How often a bus contradicts itself in a transcript: it shows a byte, and when next asked to show
one, with nothing but fetching in between, it shows another one at the same address. `last` is what
it has shown before. -/
def contradictions (last : Option (UInt16 × UInt8)) : List ((q : Call) × Reply q) → ℕ
  | [] => 0
  | e :: said =>
    match glimpse e with
    | some now => contradicts last now + contradictions (some now) said
    | none => contradictions (if e.1.fetches then last else none) said

section Contradictions

variable {said said' : List ((q : Call) × Reply q)} {e : (q : Call) × Reply q}
  {last : Option (UInt16 × UInt8)} {now : UInt16 × UInt8}

theorem contradictions_shown (he : glimpse e = some now) :
    contradictions last (e :: said) = contradicts last now + contradictions (some now) said := by
  rw [contradictions, he]

theorem contradictions_hidden (he : glimpse e = none) :
    contradictions last (e :: said) =
      contradictions (if e.1.fetches then last else none) said := by
  rw [contradictions, he]

theorem contradictions_none_le (last : Option (UInt16 × UInt8))
    (said : List ((q : Call) × Reply q)) :
    contradictions none said ≤ contradictions last said := by
  induction said generalizing last with
  | nil => exact le_refl 0
  | cons e said ih =>
    cases he : glimpse e with
    | some now =>
      rw [contradictions_shown he, contradictions_shown he]
      exact Nat.add_le_add_right (Nat.zero_le _) _
    | none =>
      rw [contradictions_hidden he, contradictions_hidden he, ite_self]
      exact ih _

/-- What is said later holds its contradictions whatever was said before. -/
theorem contradictions_append_le (last : Option (UInt16 × UInt8))
    (said said' : List ((q : Call) × Reply q)) :
    contradictions none said' ≤ contradictions last (said ++ said') := by
  induction said generalizing last with
  | nil => exact contradictions_none_le last said'
  | cons e said ih =>
    rw [List.cons_append]
    cases he : glimpse e with
    | some now =>
      rw [contradictions_shown he]
      exact (ih _).trans (Nat.le_add_left _ _)
    | none =>
      rw [contradictions_hidden he]
      exact ih _

end Contradictions

/-! ### What a fetch shows -/

section Fetch

variable {h : Bus σ} {b b' : σ} {a : UInt16} {v : UInt8} {w w' : Option Window}
  {last : Option (UInt16 × UInt8)} {said : List ((q : Call) × Reply q)}

theorem transcript_lookUp (hr : (lookUp a).run h b = .ok ((v, w), b')) :
    ∃ o, (lookUp a).transcript h b = [⟨.window a, o⟩, ⟨.read a, v⟩] := by
  obtain ⟨⟨o, b₁⟩, ho, hr⟩ := Fault.bind_eq_ok hr
  obtain ⟨⟨x, b₂⟩, hx, hr⟩ := Fault.bind_eq_ok hr
  cases hr
  refine ⟨o, ?_⟩
  rw [lookUp, Dialogue.transcript_ask ho, Dialogue.transcript_ask hx]
  rfl

/-- What is said in a fetch: the byte comes through the window, or past it, or past one that is
stale. -/
theorem transcript_fetch (hr : (fetch w a).run h b = .ok ((v, w'), b')) :
    (∃ u, (fetch w a).transcript h b = [⟨.readWindow u a, some v⟩]) ∨
      (∃ o, (fetch w a).transcript h b = [⟨.window a, o⟩, ⟨.read a, v⟩]) ∨
        ∃ u o, (fetch w a).transcript h b =
          [⟨.readWindow u a, none⟩, ⟨.window a, o⟩, ⟨.read a, v⟩] := by
  cases w with
  | none => exact .inr (.inl (transcript_lookUp hr))
  | some u =>
    by_cases ha : u.contains a = true
    · unfold fetch at hr ⊢
      dsimp only at hr ⊢
      rw [if_pos ha] at hr ⊢
      obtain ⟨⟨x, b₁⟩, hx, hr⟩ := Fault.bind_eq_ok hr
      rw [Dialogue.transcript_ask hx]
      cases x with
      | none =>
        obtain ⟨o, ho⟩ := transcript_lookUp hr
        exact .inr (.inr ⟨u, o, congrArg _ ho⟩)
      | some x =>
        cases hr
        exact .inl ⟨u, rfl⟩
    · rw [fetch_past ha] at hr ⊢
      exact .inr (.inl (transcript_lookUp hr))

/-- Through a window or past it, a fetch shows the byte that it gets, and shows it last. -/
theorem contradictions_fetch (hr : (fetch w a).run h b = .ok ((v, w'), b')) :
    contradictions last ((fetch w a).transcript h b ++ said) =
      contradicts last (a, v) + contradictions (some (a, v)) said := by
  rcases transcript_fetch hr with ⟨u, hsaid⟩ | ⟨o, hsaid⟩ | ⟨u, o, hsaid⟩ <;> rw [hsaid] <;> rfl

end Fetch

/-- A bus on which a byte that is fetched twice in a row is the same both times. -/
def Steady (h : Bus σ) : Prop :=
  ∀ ⦃w a b v w' b'⦄, (fetch w a).run h b = .ok ((v, w'), b') →
    ∀ ⦃r b''⦄, (fetch w' a).run h b' = .ok (r, b'') → r.1 = v

/-- A bus that shows the bytes of a list, one in each read, at whatever address; behind them come
zeros. -/
def tape : Bus (List UInt8) := Plain.toBus
  { read := fun
      | _, [] => .ok (0, [])
      | _, v :: bytes => .ok (v, bytes)
    write := fun _ _ bytes => .ok ((), bytes)
    input := fun _ bytes => .ok (0xFF, bytes)
    output := fun _ _ bytes => .ok ((), bytes) }

/-- The bus can be blamed for `c` contradictions in what was said: it is not blamed for more than it
has made, and a steady bus is blamed for none. -/
structure Blamed (h : Bus σ) (said : List ((q : Call) × Reply q)) (c : ℕ) : Prop where
  made : c ≤ contradictions none said
  steady : Steady h → c = 0

theorem Blamed.zero (h : Bus σ) (said : List ((q : Call) × Reply q)) : Blamed h said 0 :=
  ⟨Nat.zero_le _, fun _ => rfl⟩

theorem Blamed.append {h : Bus σ} {said' : List ((q : Call) × Reply q)} {c : ℕ}
    (hc : Blamed h said' c) (said : List ((q : Call) × Reply q)) : Blamed h (said ++ said') c :=
  ⟨hc.made.trans (contradictions_append_le none said said'), hc.steady⟩

/-- A byte fetched twice in a row: the bus is to blame if it changes. -/
theorem Blamed.refetch {h : Bus σ} {w w' w'' : Option Window} {a : UInt16} {v v' : UInt8}
    {b b' b'' : σ} (hv : (fetch w a).run h b = .ok ((v, w'), b'))
    (hv' : (fetch w' a).run h b' = .ok ((v', w''), b''))
    {said : List ((q : Call) × Reply q)} {c : ℕ} (hc : Blamed h said c) :
    Blamed h ((fetch w a).transcript h b ++ ((fetch w' a).transcript h b' ++ said))
      (contradicts (some (a, v)) (a, v') + c) where
  made := by
    rw [contradictions_fetch hv, contradictions_fetch hv']
    have hle := contradictions_none_le (some (a, v')) said
    have hmade := hc.made
    omega
  steady hh := by
    obtain rfl : v' = v := hh hv hv'
    rw [contradicts_self, hc.steady hh]

/-! ### Bounded costs -/

/-- A program, `elapsed` T-states into a step, that costs at most `most`, and that stops only where
the bus does, or if all these T-states do not fit their counter. Each contradiction of the bus
allows for four more. -/
structure Brief (elapsed most : ℕ) (d : Program (Option ℕ × Cpu)) : Prop where
  cost : ∀ {σ : Type} {h : Bus σ} {b b' : σ} {cost : ℕ} {t : Cpu},
    d.run h b = .ok ((some cost, t), b') →
      ∃ c, Blamed h (d.transcript h b) c ∧ cost ≤ most + 4 * c
  fault : ∀ {σ : Type} {h : Bus σ} {b : σ} {f : Fault}, d.run h b = .error f →
    (∃ q b₁, h q b₁ = .error f) ∨
      ∃ c, Blamed h (d.transcript h b) c ∧ UInt32.size ≤ elapsed + most + 4 * c

namespace Brief

variable {elapsed most most' : ℕ} {d : Program (Option ℕ × Cpu)}

theorem mono (hd : Brief elapsed most d) (hmost : most ≤ most') : Brief elapsed most' d where
  cost hr := by
    obtain ⟨c, hc, hcost⟩ := hd.cost hr
    exact ⟨c, hc, by omega⟩
  fault hr := by
    rcases hd.fault hr with hbus | ⟨c, hc, hlate⟩
    · exact .inl hbus
    · exact .inr ⟨c, hc, by omega⟩

theorem of_tentative {s : Cpu} {F : Prop} {P : ℕ → Option ℕ → Prop} (hd : Tentative s F P d)
    (hP : ∀ cost r, P cost r → cost ≤ most) (hF : F → UInt32.size ≤ elapsed + most) :
    Brief elapsed most d where
  cost hr := by
    obtain ⟨r, hcost⟩ := hd.run_some hr
    exact ⟨0, .zero _ _, hP _ r hcost⟩
  fault hr := by
    rcases hd.run_error hr with hbus | hstop
    · exact .inl hbus
    · exact .inr ⟨0, .zero _ _, hF hstop⟩

theorem of_sure {P : ℕ → Prop} (hd : Sure P d) (hP : ∀ cost, P cost → cost ≤ most) :
    Brief elapsed most d :=
  of_tentative (s := Cpu.initial) (F := False) (P := fun cost _ => P cost) (.sure hd)
    (fun cost _ => hP cost) False.elim

theorem sure_bind {Q : α → Prop} {d : Program (Option α × Cpu)}
    {f : Option α × Cpu → Program (Option ℕ × Cpu)} (hd : Sure Q d)
    (hf : ∀ a t, Q a → Brief elapsed most (f (some a, t))) : Brief elapsed most (d >>= f) where
  cost hr := by
    obtain ⟨⟨o, t⟩, b₁, hbegin, hr, hsaid⟩ := Dialogue.run_bind_eq_ok hr
    obtain ⟨a, rfl, ha⟩ := hd.run hbegin
    obtain ⟨c, hc, hcost⟩ := (hf a t ha).cost hr
    rw [hsaid]
    exact ⟨c, hc.append _, hcost⟩
  fault hr := by
    rcases Dialogue.run_bind_eq_error hr with ⟨hbegin, -⟩ | ⟨⟨o, t⟩, b₁, hbegin, hr, hsaid⟩
    · exact .inl (hd.run_error hbegin)
    · obtain ⟨a, rfl, ha⟩ := hd.run hbegin
      rcases (hf a t ha).fault hr with hbus | ⟨c, hc, hlate⟩
      · exact .inl hbus
      · rw [hsaid]
        exact .inr ⟨c, hc.append _, hlate⟩

/-- What is left after `spent` T-states. -/
theorem after {spent : ℕ} (hd : Brief (elapsed + spent) most d) :
    Brief elapsed (spent + most)
      (d >>= Exec.andThen fun rest => (pure (spent + rest) : Exec ℕ)) where
  cost hr := by
    obtain ⟨⟨o, t⟩, b₁, hbegin, hr, hsaid⟩ := Dialogue.run_bind_eq_ok hr
    cases o with
    | none => cases hr
    | some rest =>
      obtain ⟨c, hc, hcost⟩ := hd.cost hbegin
      cases hr
      rw [hsaid, Exec.andThen_some, Exec.pure_apply, Dialogue.transcript, List.append_nil]
      exact ⟨c, hc, by omega⟩
  fault hr := by
    rcases Dialogue.run_bind_eq_error hr with ⟨hbegin, hsaid⟩ | ⟨⟨o, t⟩, b₁, -, hr, -⟩
    · rw [hsaid]
      rcases hd.fault hbegin with hbus | ⟨c, hc, hlate⟩
      · exact .inl hbus
      · exact .inr ⟨c, hc, by omega⟩
    · cases o with
      | none => cases hr
      | some rest => cases hr

end Brief

end Bus

/-! ### Flat memory -/

namespace Flat

open Bus

variable {m m' : Flat} {a : UInt16} {w : Option Window} {r : (UInt8 × Option Window) × Flat}

theorem eq_of_lookUp (hr : (lookUp a).run bus m = .ok r) : r = ((m.peek a, some (window a)), m) :=
  (Except.ok.inj hr).symm

theorem run_fetch_window {w : Window} (ha : w.contains a = true) (m : Flat) :
    (fetch (some w) a).run bus m =
      match m.readWindow w a with
      | some v => .ok ((v, some w), m)
      | none => (lookUp a).run bus m := by
  have hbyte : bus (.readWindow w a) m = .ok (m.readWindow w a, m) := rfl
  unfold fetch
  dsimp only
  rw [if_pos ha, Dialogue.run_ask, hbyte]
  cases m.readWindow w a <;> rfl

/-- Through the window that was issued for its address, a byte is as in memory. -/
theorem eq_of_fetch_window (hr : (fetch (some (window a)) a).run bus m = .ok r) :
    r.1.1 = m.peek a := by
  by_cases ha : (window a).contains a = true
  · rw [run_fetch_window ha, readWindow_window m ha] at hr
    cases hr
    rfl
  · rw [fetch_past ha] at hr
    rw [eq_of_lookUp hr]

/-- Flat memory is steady, also for a processor with a window that was not issued there. -/
theorem steady : Steady bus := by
  intro w a m v w' m' hv r m'' hr
  have hlookUp : (lookUp a).run bus m = .ok ((v, w'), m') → r.1 = v := by
    intro hv
    cases eq_of_lookUp hv
    exact eq_of_fetch_window hr
  cases w with
  | none => exact hlookUp hv
  | some w =>
    by_cases ha : w.contains a = true
    · rw [run_fetch_window ha] at hv
      cases hx : m.readWindow w a with
      | none =>
        rw [hx] at hv
        exact hlookUp hv
      | some x =>
        rw [hx] at hv
        cases hv
        rw [run_fetch_window ha, hx] at hr
        cases hr
        rfl
    · rw [fetch_past ha] at hv
      exact hlookUp hv

end Flat

/-! ### Opcodes -/

namespace Opcode

/-- What an index prefix costs. -/
def prefixCost (op : UInt8) : ℕ := if isIndex op then 4 else 0

theorem isIndex_of_decode {op : UInt8} {y : Index} (hop : decode op = .index y) :
    isIndex op = true := by
  have hall : ∀ n : Fin 256, isIndex (UInt8.ofFin n) = true ∨
      ∀ y ∈ [Index.hl, .ix, .iy], decode (UInt8.ofFin n) ≠ .index y := by
    decide +kernel
  rcases hall op.toFin with hindex | hne
  · exact hindex
  · exact absurd hop (hne y (by cases y <;> simp))

theorem exists_decode_index {op : UInt8} (hop : isIndex op = true) : ∃ y, decode op = .index y := by
  rw [isIndex, Bool.or_eq_true, beq_iff_eq, beq_iff_eq] at hop
  rcases hop with rfl | rfl
  · exact ⟨.ix, rfl⟩
  · exact ⟨.iy, rfl⟩

theorem decode_ne_index {op : UInt8} (hop : isIndex op = false) (y : Index) :
    decode op ≠ .index y :=
  fun hy => Bool.false_ne_true (hop.symm.trans (isIndex_of_decode hy))

theorem prefixCost_of_decode {op : UInt8} {y : Index} (hop : decode op = .index y) :
    prefixCost op = 4 := if_pos (isIndex_of_decode hop)

/-- Where another byte was seen, a prefix is a contradiction. -/
theorem prefixCost_le {seen : UInt8} (hseen : ¬isIndex seen = true) (a : UInt16) (op : UInt8) :
    prefixCost op ≤ 4 * Bus.contradicts (some (a, seen)) (a, op) := by
  unfold prefixCost
  by_cases hop : isIndex op = true
  · have hne : seen ≠ op := fun heq => hseen (heq ▸ hop)
    rw [if_pos hop, Bus.contradicts_of_ne hne]
  · rw [if_neg hop]
    exact Nat.zero_le _

end Opcode

namespace Exec

open Bus

theorem fetchAt_bind (a : UInt16) (f : UInt8 → Exec α) (s : Cpu) :
    (fetchAt a >>= f) s = fetch s.window a >>= fun r => f r.1 { s with window := r.2 } := by
  rw [bind_apply, fetchAt_eq, Dialogue.bind_assoc]
  rfl

theorem peekOpcode_bind (f : UInt8 → Exec α) (s : Cpu) :
    (peekOpcode >>= f) s = fetch s.window s.regs.pc >>= fun r => f r.1 { s with window := r.2 } :=
  fetchAt_bind s.regs.pc f s

theorem fetchOpcode_bind (f : UInt8 → Exec α) (s : Cpu) :
    (fetchOpcode >>= f) s = fetch s.window s.regs.pc >>= fun r =>
      f r.1 { s with regs := { s.regs.refresh with pc := s.regs.pc + 1 }, window := r.2 } := by
  have heq : (fetchOpcode >>= f) s =
      (fetchAt s.regs.pc >>= fun v => do
        update fun r => { r with pc := s.regs.pc + 1 }
        f v) { s with regs := s.regs.refresh } := by
    unfold fetchOpcode fetchByte
    simp only [bind_assoc, pure_bind]
    rfl
  rw [heq, fetchAt_bind]
  rfl

/-- Fetching stops only where the bus does. -/
theorem fetch_error {h : Bus σ} {b : σ} {w : Option Window} {a : UInt16} {e : Fault}
    (hr : (fetch w a).run h b = .error e) : ∃ q b₁, h q b₁ = .error e := by
  have hstop : (fetchAt a { Cpu.initial with window := w }).run h b = .error e := by
    rw [fetchAt_eq, Dialogue.run_bind, hr]
    rfl
  have hsure : Sure (fetchAt a) fun _ => True := (Quiet.fetchAt fun _ => trivial).sure
  exact (hsure _).run_error hstop

/-- An opcode that is looked at before it is fetched, and that ends the step if it is a prefix. -/
theorem peek_brief {elapsed most : ℕ} {f : UInt8 → Exec ℕ} {s : Cpu} (hmost : 4 ≤ most)
    (hf : ∀ seen op t, ¬Opcode.isIndex seen = true →
      Brief elapsed (most + 4 * contradicts (some (s.regs.pc, seen)) (s.regs.pc, op)) (f op t)) :
    Brief elapsed most ((peekOpcode >>= fun seen =>
      if Opcode.isIndex seen then pure 4 else fetchOpcode >>= f) s) := by
  have heq : (peekOpcode >>= fun seen =>
        if Opcode.isIndex seen then pure 4 else fetchOpcode >>= f) s =
      fetch s.window s.regs.pc >>= fun r =>
        (if Opcode.isIndex r.1 then pure 4 else fetchOpcode >>= f) { s with window := r.2 } :=
    peekOpcode_bind _ s
  rw [heq]
  constructor
  · intro σ h b b' cost t hr
    obtain ⟨⟨seen, w⟩, b₁, hseen, hr, hsaid⟩ := Dialogue.run_bind_eq_ok hr
    rw [hsaid]
    dsimp only at hr ⊢
    by_cases hindex : Opcode.isIndex seen = true
    · rw [if_pos hindex] at hr
      cases hr
      exact ⟨0, .zero _ _, hmost⟩
    · rw [if_neg hindex, fetchOpcode_bind] at hr ⊢
      obtain ⟨⟨op, w'⟩, b₂, hop, hr, hsaid'⟩ := Dialogue.run_bind_eq_ok hr
      obtain ⟨c, hc, hcost⟩ := (hf seen op _ hindex).cost hr
      rw [hsaid']
      exact ⟨_, hc.refetch hseen hop, by omega⟩
  · intro σ h b e hr
    rcases Dialogue.run_bind_eq_error hr with ⟨hseen, -⟩ | ⟨⟨seen, w⟩, b₁, hseen, hr, hsaid⟩
    · exact .inl (fetch_error hseen)
    · rw [hsaid]
      dsimp only at hr ⊢
      by_cases hindex : Opcode.isIndex seen = true
      · rw [if_pos hindex] at hr
        cases hr
      · rw [if_neg hindex, fetchOpcode_bind] at hr ⊢
        rcases Dialogue.run_bind_eq_error hr with ⟨hop, -⟩ | ⟨⟨op, w'⟩, b₂, hop, hr, hsaid'⟩
        · exact .inl (fetch_error hop)
        · rcases (hf seen op _ hindex).fault hr with hbus | ⟨c, hc, hlate⟩
          · exact .inl hbus
          · rw [hsaid']
            exact .inr ⟨_, hc.refetch hseen hop, by omega⟩

/-- An opcode costs at most 21 T-states, or 25 with a prefix. -/
theorem opcode_brief (n : ℕ) (x : Index) (elapsed : ℕ) (op : UInt8)
    (hn : UInt32.size ≤ 4 * n + (elapsed + 21)) (s : Cpu) :
    Brief elapsed (21 + Opcode.prefixCost op) (opcode n x elapsed op s) := by
  induction n generalizing x elapsed op s with
  | zero =>
    refine .of_tentative (s := s) (F := True) (P := fun _ _ => False) (.fail _ trivial) ?_ ?_
    · exact fun _ _ h => h.elim
    · exact fun _ => by omega
  | succ n ih =>
    by_cases hop : ∃ y, Opcode.decode op = .index y
    · obtain ⟨y, hy⟩ := hop
      rw [opcode, hy, Opcode.prefixCost_of_decode hy]
      refine peek_brief (by decide) fun seen op' t hseen => ?_
      -- If the byte has become a prefix by now, the bus has contradicted itself.
      have hle := Opcode.prefixCost_le hseen s.regs.pc op'
      exact .mono (.after (ih y (elapsed + 4) op' (by omega) t)) (by omega)
    · refine .of_tentative (unindexed_tentative (not_exists.1 hop) n x elapsed s) ?_ ?_
      · exact fun cost r hc => hc.most.trans (Nat.le_add_right _ _)
      · intro hlate
        unfold Late at hlate
        omega

theorem instruction_brief (elapsed : ℕ) (op : UInt8) (s : Cpu) :
    Brief elapsed 25 (instruction elapsed op s) := by
  refine .mono (opcode_brief prefixLimit .hl elapsed op ?_ s) ?_
  · exact (show UInt32.size ≤ 4 * prefixLimit by decide).trans (Nat.le_add_right _ _)
  · unfold Opcode.prefixCost
    split <;> omega

end Exec

/-! ### Steps -/

namespace Cpu

open Exec Bus

/-- The most that a step costs on a steady bus. An acknowledge cycle in mode 0 adds 2. -/
def longest (s : Cpu) : ℕ := if s.action = .acceptInt ∧ s.regs.im = .mode0 then 27 else 25

/-- What a step from `s` to `t` that returns `cost` has promised, after what was said in it and with
`c` contradictions to blame the bus for. -/
structure Contract (s t : Cpu) (cost c : ℕ) (said : List ((q : Call) × Reply q)) : Prop where
  refused : cost = 0 ↔ ∃ e, (e, false) ∈ requests said
  least : cost ≠ 0 → 4 ≤ cost
  most : cost ≤ s.longest + 4 * c
  counted : t.ticks.count.toNat = s.ticks.count.toNat + cost
  granted : ∀ e, (e, true) ∈ requests said → e < cost

theorem perform_brief (s : Cpu) :
    Brief 0 s.longest (perform s.action { s with afterEI := false }) := by
  have hsure : ∀ {m : Exec ℕ} (t : Cpu), Exec.Sure m (Costs 21) → Brief 0 25 (m t) :=
    fun t hm => .of_sure (hm t) fun cost hc => hc.2.trans (by decide)
  unfold longest
  cases ha : s.action with
  | acceptNMI => exact hsure _ acceptNMI_sure
  | wait => exact hsure _ wait_sure
  | execute =>
    have hfetch : Exec.Sure fetchOpcode fun _ => True := .fetchOpcode fun _ => trivial
    exact .sure_bind (hfetch _) fun op t _ => instruction_brief 0 op t
  | acceptInt =>
    show Brief 0 _ (acceptInt { s with afterEI := false })
    rw [acceptInt_eq]
    by_cases hm : s.regs.im = .mode0
    · rw [if_pos ⟨rfl, hm⟩]
      show Brief 0 _ (serve s.regs.im _)
      rw [hm]
      have hcall : Exec.Sure (call .acknowledge) fun _ => True := .call rfl fun _ => trivial
      exact .sure_bind (hcall _) fun op t _ =>
        (Brief.after (instruction_brief (0 + 2) op t) : Brief 0 (2 + 25) _)
    · rw [if_neg fun h => hm h.2]
      exact hsure _ (serve_sure hm)

section Run

variable {h : Bus σ} {s t : Cpu} {b b' : σ}

theorem finish_transcript (h : Bus σ) (s : Cpu) (r : Option ℕ × Cpu) (b : σ) :
    (finish s r).transcript h b = [] := by
  rcases r with ⟨_ | cost, t⟩
  · rfl
  · rcases finish_cases s t cost with ⟨ticks, hfinish, -⟩ | ⟨hfinish, -⟩
    · rw [hfinish]
      rfl
    · rw [hfinish]
      rfl

theorem step_transcript (h : Bus σ) (s : Cpu) (b : σ) :
    s.step.transcript h b = (perform s.action { s with afterEI := false }).transcript h b := by
  unfold step
  rw [Dialogue.transcript_bind]
  cases (perform s.action { s with afterEI := false }).run h b with
  | error f => exact List.append_nil _
  | ok r =>
    dsimp only
    rw [finish_transcript, List.append_nil]

/-- A step that returns has kept its contract. -/
theorem contract_of_step {cost : ℕ} (hr : s.step.run h b = .ok ((cost, t), b')) :
    ∃ c, Blamed h (s.step.transcript h b) c ∧ s.Contract t cost c (s.step.transcript h b) := by
  have hcounted := s.step_ends.run hr
  have htentative := s.perform_tentative
  rw [step_transcript]
  obtain ⟨⟨o, u⟩, b₁, hbody, hr, -⟩ := Dialogue.run_bind_eq_ok hr
  cases o with
  | none =>
    obtain ⟨e, he⟩ := htentative.requests_none hbody
    cases hr
    refine ⟨0, .zero _ _, ⟨fun _ => ⟨e, ?_⟩, fun _ => rfl⟩, fun h => absurd rfl h, Nat.zero_le _,
      hcounted, ?_⟩
    · rw [he]
      exact .head _
    · intro e' he'
      rw [he] at he'
      simp at he'
  | some n =>
    obtain ⟨asked, htimely, hasked⟩ := htentative.requests_some hbody
    obtain ⟨c, hc, hmost⟩ := s.perform_brief.cost hbody
    obtain rfl := cost_of_finish hr
    have hleast := htimely.least
    refine ⟨c, hc, ⟨fun h => by omega, ?_⟩, fun _ => hleast, hmost, hcounted, ?_⟩
    · rintro ⟨e, he⟩
      rw [hasked] at he
      simp at he
    · intro e he
      rw [hasked, List.mem_map] at he
      obtain ⟨e', he', heq⟩ := he
      cases heq
      have hbefore := htimely.before e (Option.mem_toList.1 he')
      omega

end Run

end Cpu
end TandemZ80
