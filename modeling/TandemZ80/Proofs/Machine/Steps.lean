import TandemZ80.Proofs.Cpu.Contract
import TandemZ80.Proofs.Cpu.Idle
import TandemZ80.Proofs.Machine.Waiting
import TandemZ80.Proofs.Schedule.InStep

/-!
# The steps of a plain machine

The scheduler asks of its processors that a step costs between 1 and 27 T-states, that it touches a
shared port before its end, and that it is refused before it has done anything; then the next step
makes the same request. On the bus of a plain machine all this holds of every processor, whatever
its program: no device fails, and a byte that is fetched twice is the same both times. All that can
fail in a step is the count of T-states.

* `Backplane.serve_of_plain`, what the bus of a plain machine answers;
* `Backplane.Resolves` and `Backplane.perform_resolves`, the body of a step with the prefixes
  resolved;
* `Backplane.step_brisk`, `Backplane.step_sturdy` and `Backplane.step_opening`, a step on such a
  bus;
* `Hardware.Waits`, plain hardware with the requests that are left over;
* `Hardware.ticks`, and `Hardware.processors_count`: the processors count the costs of their steps;
* `Hardware.processors_brisk` and `Hardware.processors_sturdy`.
-/

namespace TandemZ80

open Rendezvous Exec

variable {δ α : Type}

/-- What a program comes to that asks for a port once at most, by its contact: it ends without a
result if it is refused, and otherwise with a result that has the property `P`. -/
def Rendezvous.Yields (P : α → Option ℕ → Prop) : Contact → Option α → Prop
  | .refused _, o => o = none
  | .granted elapsed, o => ∃ a, o = some a ∧ P a (some elapsed)
  | .none, o => ∃ a, o = some a ∧ P a none

/-- With the costs of a resolved step its result is brisk. -/
theorem Rendezvous.Yields.brisk {contact : Contact} {cost : ℕ}
    (h : Yields (Timely 25 0) contact (some cost)) : Brisk none contact cost ∧ cost ≤ 25 := by
  cases contact with
  | none =>
    obtain ⟨a, ha, hcost⟩ := h
    cases ha
    have hleast := hcost.least
    have hmost := hcost.most
    exact ⟨⟨rfl, by omega, by omega⟩, hmost⟩
  | granted elapsed =>
    obtain ⟨a, ha, hcost⟩ := h
    cases ha
    have hbefore := hcost.before elapsed rfl
    have hmost := hcost.most
    exact ⟨⟨nofun, by omega, by omega⟩, hmost⟩
  | refused elapsed => cases h

theorem Rendezvous.Yields.exists_refused {P : α → Option ℕ → Prop} {contact : Contact}
    (h : Yields P contact none) : ∃ elapsed, contact = .refused elapsed := by
  cases contact with
  | refused elapsed => exact ⟨elapsed, rfl⟩
  | _ =>
    obtain ⟨a, ha, -⟩ := h
    cases ha

namespace Backplane

variable {s : Side} {c c' : Setting} {w w' : Option Window} {b b' : Backplane (Part δ)} [Device δ]

/-! ### Answers -/

/-- The bus of a plain machine answers by itself, except that it passes on the end of a run. -/
theorem serve_of_plain (h : Like s c c w w b b) {q : Bus.Call} (hq : q.asks = false) :
    (∃ n, q = .stop n) ∨ ∃ x b', serve q b = .done (x, b') ∧ Like s c c w w b' b' := by
  cases q with
  | read a => exact .inr ⟨_, b, h.left.layered.serve_read a, h⟩
  | write a v => exact .inr ⟨_, _, serve_write h.left.layered a v, h.write a v⟩
  | input p =>
    obtain ⟨v, ds, ds', hin, hin', hlink⟩ := Ports.input_linked h.link s (portOf p)
    obtain ⟨-, rfl⟩ := Prod.mk.inj (Except.ok.inj (hin.symm.trans hin'))
    rw [← h.left.ports] at hin
    exact .inr ⟨v, _, reading_eq _ hin, h.withDevices hlink⟩
  | output p v =>
    obtain ⟨ds, ds', hout, hout', hlink⟩ := Ports.output_linked h.link s (portOf p) v
    obtain rfl := Except.ok.inj (hout.symm.trans hout')
    rw [← h.left.ports] at hout
    exact .inr ⟨_, _, serve_output hout, h.withDevices hlink⟩
  | acknowledge => exact .inr ⟨_, b, serve_acknowledge h.left, h⟩
  | window a => exact .inr ⟨_, b, rfl, h⟩
  | readWindow v a => exact .inr ⟨_, b, rfl, h⟩
  | isShared p => exact .inr ⟨_, b, rfl, h⟩
  | sync e => cases hq
  | stop n => exact .inl ⟨n, rfl⟩

/-- What is seen by looking does not depend on the devices. -/
theorem serve_looks_same (h : b.Plain s c w) (h' : b'.Plain s c' w')
    (hmemory : b'.memory = b.memory) (hports : b'.ports = b.ports) {q : Bus.Call}
    (hq : q.looks = true) :
    ∃ x, serve q b = .done (x, b) ∧ serve q b' = .done (x, b') := by
  cases q with
  | read a => exact ⟨_, h.layered.serve_read a, hmemory ▸ h'.layered.serve_read a⟩
  | acknowledge => exact ⟨_, serve_acknowledge h, serve_acknowledge h'⟩
  | window a => exact ⟨_, rfl, by rw [serve, hmemory]⟩
  | readWindow v a => exact ⟨_, rfl, by rw [serve, hmemory]⟩
  | isShared p => exact ⟨_, rfl, by rw [serve, hports]⟩
  | _ => cases hq

/-! ### Programs -/

theorem relay_yields (h : b.Plain s c w) {u : Cpu} {F : Prop} {P : α → Option ℕ → Prop}
    {d : Bus.Program (Option α × Cpu)} (hd : Bus.Tentative u F P d) :
    Meets (fun c r => Yields P c r.1.1) .none (d.relay serve b) := by
  induction hd with
  | sure hd =>
    refine ((relay_sure hd b).meets .none).mono ?_
    rintro c r ⟨rfl, hr⟩
    exact hr
  | fail f _ => trivial
  | look hq _ ih =>
    obtain ⟨x, hx⟩ := serve_looks h hq
    rw [Dialogue.relay_ask, hx]
    exact ih x
  | @sync e next t ht hrefused hgranted =>
    refine ⟨rfl, ((relay_sure hgranted b).meets (.granted e)).mono ?_, ?_⟩
    · rintro c r ⟨rfl, hr⟩
      exact hr
    · show Meets _ _ ((next false).relay serve b)
      rw [hrefused]
      rfl

theorem relay_sturdy_of_sure (h : Like s c c w w b b) {P : α → Prop}
    {d : Bus.Program (Option α × Cpu)} (hd : Bus.Sure P d) (hfits : d.Asks Bus.Call.fits) :
    Sturdy False (d.relay serve b) := by
  induction hd generalizing b with
  | done t _ => trivial
  | @ask q next hq _ ih =>
    cases hfits with
    | ask hfit hnext =>
      rw [Dialogue.relay_ask]
      rcases serve_of_plain h hq with ⟨n, rfl⟩ | ⟨x, b', hx, h'⟩
      · exact ⟨hfit, ih () h (hnext ())⟩
      · rw [hx]
        exact ih x h' (hnext x)

/-- Nothing fails in a program that does not fail by itself. -/
theorem relay_sturdy (h : Like s c c w w b b) {u : Cpu} {P : α → Option ℕ → Prop}
    {d : Bus.Program (Option α × Cpu)} (hd : Bus.Tentative u False P d)
    (hfits : d.Asks Bus.Call.fits) : Sturdy False (d.relay serve b) := by
  induction hd with
  | sure hd => exact relay_sturdy_of_sure h hd hfits
  | fail f hF => exact hF.elim
  | look hq _ ih =>
    cases hfits with
    | ask _ hnext =>
      obtain ⟨x, hx⟩ := serve_looks h.left hq
      rw [Dialogue.relay_ask, hx]
      exact ih x (hnext x)
  | @sync e next t ht hrefused hgranted =>
    cases hfits with
    | ask hfit hnext =>
      refine ⟨hfit, relay_sturdy_of_sure h hgranted (hnext true), ?_⟩
      show Sturdy False ((next false).relay serve b)
      rw [hrefused]
      trivial

/-- Whether a program asks for a port depends on what can be seen by looking. -/
theorem relay_opening (h : b.Plain s c w) (h' : b'.Plain s c' w') (hmemory : b'.memory = b.memory)
    (hports : b'.ports = b.ports) {u : Cpu} {F : Prop} {P : α → Option ℕ → Prop}
    {d : Bus.Program (Option α × Cpu)} (hd : Bus.Tentative u F P d) :
    opening (d.relay serve b') = opening (d.relay serve b) := by
  induction hd with
  | sure hd => rw [(relay_sure hd b).opening_eq, (relay_sure hd b').opening_eq]
  | fail f _ => rfl
  | look hq _ ih =>
    obtain ⟨x, hx, hx'⟩ := serve_looks_same h h' hmemory hports hq
    rw [Dialogue.relay_ask, Dialogue.relay_ask, hx, hx']
    exact ih x
  | sync _ _ _ => rfl

/-! ### Prefixes -/

/-- On the bus `b` the program goes like one that does not fail by itself, asks for a port once at
most, and costs at most `most`. -/
def Resolves (b : Backplane (Part δ)) (most elapsed : ℕ) (d₀ : Bus.Program (Option ℕ × Cpu)) :
    Prop :=
  ∃ (d : Bus.Program (Option ℕ × Cpu)) (u : Cpu), d₀.relay serve b = d.relay serve b ∧
    Bus.Tentative u False (Timely most elapsed) d ∧ d.Asks Bus.Call.fits

namespace Resolves

variable {most elapsed : ℕ} {d₀ d : Bus.Program (Option ℕ × Cpu)} {m : Exec ℕ}
  {rights : Right → Prop}

theorem of_eq (heq : d₀.relay serve b = d.relay serve b) (h : Resolves b most elapsed d) :
    Resolves b most elapsed d₀ := by
  obtain ⟨d', u, hd, hrest⟩ := h
  exact ⟨d', u, heq.trans hd, hrest⟩

theorem of_tentative (hm : Exec.Tentative m False (Timely most elapsed)) (hbuilt : Built rights m)
    (u : Cpu) : Resolves b most elapsed (m u) :=
  ⟨m u, u, rfl, hm u, hbuilt.fits u⟩

theorem of_sure {n : ℕ} (hm : Exec.Sure m (Costs n)) (hn : n ≤ most) (hbuilt : Built rights m)
    (u : Cpu) : Resolves b most elapsed (m u) :=
  of_tentative (.of_sure (hm.mono fun _ hcost => (Timely.of_none hcost).le hn)) hbuilt u

end Resolves

/-- A fetched byte is the one that memory shows. -/
theorem relay_fetchOpcode (h : b.Plain s c w) (hc : c.changes < UInt32.size) {u : Cpu}
    (hw : u.window = w) :
    ∃ t : Cpu, b.Plain s c t.window ∧ ∀ f : UInt8 → Exec ℕ,
      ((fetchOpcode >>= f) u).relay serve b = (f (b.memory.view u.regs.pc) t).relay serve b := by
  subst hw
  obtain ⟨w', hfetch, hdated⟩ := h.layered.relay_fetch h.dated hc u.regs.pc
  refine ⟨{ u with regs := { u.regs.refresh with pc := u.regs.pc + 1 }, window := w' },
    ⟨h.layered, hdated, h.ports⟩, fun f => ?_⟩
  rw [fetchOpcode_bind, Dialogue.relay_bind, hfetch]
  rfl

/-- To look at it changes nothing but the window. -/
theorem relay_peekOpcode (h : b.Plain s c w) (hc : c.changes < UInt32.size) {u : Cpu}
    (hw : u.window = w) :
    ∃ w', b.Plain s c w' ∧ ∀ f : UInt8 → Exec ℕ, ((peekOpcode >>= f) u).relay serve b =
      (f (b.memory.view u.regs.pc) { u with window := w' }).relay serve b := by
  subst hw
  obtain ⟨w', hfetch, hdated⟩ := h.layered.relay_fetch h.dated hc u.regs.pc
  refine ⟨w', ⟨h.layered, hdated, h.ports⟩, fun f => ?_⟩
  rw [peekOpcode_bind, Dialogue.relay_bind, hfetch]
  rfl

/-- Of two prefixes in a row the first is a step of its own, and behind a single one there is
none. -/
theorem instruction_resolves (h : b.Plain s c w) (hc : c.changes < UInt32.size) (op : UInt8)
    {u : Cpu} (hw : u.window = w) : Resolves b 25 0 (instruction 0 op u) := by
  obtain ⟨n, hn⟩ : ∃ n, prefixLimit = n + 2 := ⟨prefixLimit - 2, by decide⟩
  have hearly : ∀ elapsed ≤ 4, ¬Late elapsed := by
    intro elapsed he
    simp only [Late, UInt32.size]
    omega
  have hbuilt : ∀ n x elapsed op, Built (fun _ => True) (opcode n x elapsed op) :=
    opcode_built trivial trivial
  unfold instruction
  rw [hn]
  by_cases hop : ∃ y, Opcode.decode op = .index y
  · obtain ⟨y, hy⟩ := hop
    obtain ⟨w', h', hpeek⟩ := relay_peekOpcode h hc hw
    rw [opcode, hy]
    refine .of_eq (hpeek _) ?_
    by_cases hindex : Opcode.isIndex (b.memory.view u.regs.pc) = true
    · rw [if_pos hindex]
      have hbuilt : Built (fun _ => True) (pure 4 : Exec ℕ) := .pure 4
      have hsure : Exec.Sure (pure 4 : Exec ℕ) fun n => Timely 25 0 n none := by
        refine .pure ⟨le_refl 4, by omega, fun elapsed he => ?_⟩
        cases he
      exact .of_tentative (.of_sure hsure) hbuilt _
    · -- The byte that is fetched is the one that was looked at, so it is no prefix.
      have hplain := Opcode.decode_ne_index (eq_false_of_ne_true hindex)
      obtain ⟨t, -, hfetch⟩ := relay_fetchOpcode h' hc (u := { u with window := w' }) rfl
      rw [if_neg hindex]
      refine .of_eq (hfetch _)
        (.of_tentative (.bind ?_) (.bind (hbuilt _ _ _ _) fun _ => .pure _) t)
      refine (unindexed_tentative hplain n y 4).mono (hearly 4 le_rfl) fun rest asked hrest => ?_
      refine .pure ⟨?_, ?_, fun e he => ?_⟩
      · omega
      · have := hrest.most
        omega
      · have := hrest.before e he
        omega
  · refine .of_tentative ?_ (hbuilt _ _ _ _) u
    exact (unindexed_tentative (not_exists.1 hop) (n + 1) .hl 0).mono (hearly 0 (by omega))
      fun cost asked hcost => hcost.le (by omega)

/-- On the bus of a plain machine no step costs more than 25 T-states. -/
theorem perform_resolves (h : b.Plain s c w) (hc : c.changes < UInt32.size) {u : Cpu}
    (hw : u.window = w) : Resolves b 25 0 (Cpu.perform u.action { u with afterEI := false }) := by
  cases u.action with
  | acceptNMI => exact .of_sure acceptNMI_sure (by decide) (Cpu.perform_built .acceptNMI) _
  | wait => exact .of_sure wait_sure (by decide) (Cpu.perform_built .wait) _
  | execute =>
    obtain ⟨t, ht, hfetch⟩ := relay_fetchOpcode h hc (u := { u with afterEI := false }) hw
    exact .of_eq (hfetch _) (instruction_resolves ht hc _ rfl)
  | acceptInt =>
    have hbuilt : Built (fun _ => True) (Exec.serve u.regs.im) :=
      serve_built _ (fun _ => ⟨trivial, trivial⟩) trivial
    show Resolves b 25 0 (acceptInt _)
    rw [acceptInt_eq]
    by_cases hm : u.regs.im = .mode0
    · have hrestart : Built (fun _ => True) (do let rest ← instruction 2 0xFF; return 2 + rest) :=
        .bind (opcode_built trivial trivial _ _ _ _) fun _ => .pure _
      show Resolves b 25 0 (Exec.serve u.regs.im _)
      rw [hm]
      exact .of_eq (relay_serve_mode0 h _) (.of_sure restart_sure (by decide) hrestart _)
    · exact .of_sure (Exec.serve_sure hm) (by decide) hbuilt _

/-! ### Steps -/

/-- On the bus of a plain machine a step keeps to what the scheduler asks of it. -/
theorem step_brisk (h : b.Plain s c w) (hc : c.changes < UInt32.size) {u : Cpu}
    (hw : u.window = w) :
    Meets (fun contact r => Brisk none contact r.1.1) .none (u.step.relay serve b) := by
  obtain ⟨d, v, heq, hd, -⟩ := perform_resolves h hc hw
  unfold Cpu.step
  rw [Dialogue.relay_bind, heq]
  refine (relay_yields h hd).bind ?_
  rintro contact ⟨⟨o, t⟩, b'⟩ hyields
  cases o with
  | none =>
    obtain ⟨elapsed, rfl⟩ := hyields.exists_refused
    exact ⟨nofun, rfl⟩
  | some cost =>
    rcases Cpu.finish_cases u t cost with ⟨ticks, hfinish, -⟩ | ⟨hfinish, -⟩
    · rw [hfinish]
      exact hyields.brisk.1
    · rw [hfinish]
      trivial

/-- Only the count of T-states can fail in a step, and it has room for the cost unless it is nearly
full. -/
theorem step_sturdy (h : Like s c c w w b b) (hc : c.changes < UInt32.size) {u : Cpu}
    (hw : u.window = w) :
    Sturdy (UInt64.size ≤ u.ticks.count.toNat + 27) (u.step.relay serve b) := by
  obtain ⟨d, v, heq, hd, hfits⟩ := perform_resolves h.left hc hw
  have hticks := (Cpu.perform_polite u.action false { u with afterEI := false }).ends.relay
    (h := serve) b
  unfold Cpu.step
  rw [Dialogue.relay_bind]
  rw [heq] at hticks ⊢
  refine ((relay_sturdy h hd hfits).mono False.elim).bind
    ((relay_yields h.left hd).and_ends hticks).ends ?_
  rintro ⟨⟨o, t⟩, b'⟩ ⟨contact, hyields, hcount⟩
  have hcount : t.ticks = u.ticks := hcount
  cases o with
  | none => trivial
  | some cost =>
    have hcost := hyields.brisk.2
    rcases Cpu.finish_cases u t cost with ⟨ticks, hfinish, -⟩ | ⟨hfinish, hfull⟩
    · rw [hfinish]
      trivial
    · rw [hfinish]
      refine ⟨rfl, ?_⟩
      rw [hcount] at hfull
      simp only [UInt32.size] at hfull
      omega

theorem opening_step (u : Cpu) (b : Backplane (Part δ)) :
    opening (u.step.relay serve b) =
      opening ((Cpu.perform u.action { u with afterEI := false }).relay serve b) := by
  rw [Cpu.step, Dialogue.relay_bind]
  refine opening_bind _ ?_
  rintro ⟨⟨_ | cost, t⟩, b'⟩
  · rfl
  · exact (finish_sure u cost t b').opening_eq

/-- Whether a step begins by asking for a port does not depend on the devices. -/
theorem step_opening (h : b.Plain s c w) (h' : b'.Plain s c' w') (hmemory : b'.memory = b.memory)
    (hports : b'.ports = b.ports) (u : Cpu) :
    opening (u.step.relay serve b') = opening (u.step.relay serve b) := by
  rw [opening_step, opening_step]
  exact relay_opening h h' hmemory hports u.perform_tentative

end Backplane

/-! ### Hardware -/

namespace Hardware

/-- The T-states that a processor has counted. -/
def ticks (s : Side) (h : Hardware δ) : ℕ := (h.boards.get s).cpu.ticks.count.toNat

theorem ticks_settle (h : Hardware δ) (s : Side) (cpu : Cpu) (b : Backplane (Part δ)) :
    (h.settle s cpu b).ticks s = cpu.ticks.count.toNat ∧
      (h.settle s cpu b).ticks s.partner = h.ticks s.partner := by
  unfold ticks settle
  rw [PerSide.get_set_self, PerSide.get_set_partner]
  exact ⟨rfl, rfl⟩

variable {c : Setting} {h h' : Hardware δ} {requests : PerSide (Option ℕ)} [Device δ]

/-- Plain hardware, in which a processor that was refused a port is about to ask for it again. -/
structure Waits (c : Setting) (requests : PerSide (Option ℕ)) (h : Hardware δ) : Prop where
  like : Like c c h h
  waits : ∀ s, ∀ elapsed ∈ requests.get s, opening (step s h) = some elapsed

theorem opening_step (s : Side) (h : Hardware δ) :
    opening (step s h) = opening ((h.boards.get s).cpu.step.relay Backplane.serve (h.plane s)) := by
  rw [step_eq]
  exact opening_bind _ fun _ => rfl

/-- A step of its partner does not change what a processor is about to ask for. -/
theorem opening_step_partner {s : Side} {u : Cpu} {b : Backplane (Part δ)} (hh : Like c c h h)
    (hh' : Like c c (h.settle s u b) (h.settle s u b)) :
    opening (step s.partner (h.settle s u b)) = opening (step s.partner h) := by
  have hplane := (hh'.plane s.partner).left
  rw [opening_step, opening_step]
  rw [plane_settle, boards_settle, if_neg s.partner_ne, if_neg s.partner_ne] at hplane ⊢
  exact Backplane.step_opening (hh.plane s.partner).left hplane rfl rfl _

/-- What is left after a refused step asks for the same again. -/
theorem opening_step_refused {s : Side} {u : Cpu} (hc : c.changes < UInt32.size) (hh : Like c c h h)
    (hu : (h.boards.get s).cpu.Agree u)
    (hh' : Like c c (h.settle s u (h.plane s)) (h.settle s u (h.plane s))) :
    opening (step s (h.settle s u (h.plane s))) = opening (step s h) := by
  have hplain := (hh'.plane s).left
  rw [plane_settle, boards_settle, if_pos rfl, if_pos rfl] at hplain
  have hplane := hh.plane s
  have halike := Cpu.step_alike (B := Backplane.pairing δ s hc hc)
    ⟨hu, hplane.left, hplain, hplane.memory, hplane.link⟩
  rw [opening_step, opening_step, plane_settle, boards_settle, if_pos rfl, if_pos rfl]
  exact opening_of_alike halike

/-- The processors of a machine count their steps. -/
theorem processors_count : (processors (δ := δ)).Counts ticks where
  step i h := by
    show (step i h).Ends _
    rw [step_eq]
    refine ((Cpu.step_ends _).relay (h.plane i)).bind ?_
    rintro ⟨⟨cost, u⟩, b⟩ hcount
    obtain ⟨hown, hpartner⟩ := h.ticks_settle i u b
    exact .done ⟨hown.trans hcount, hpartner⟩
  skipIdle i clocks h h' heq := by
    have heq : skipIdle i clocks h = .ok h' := heq
    rw [skipIdle_eq] at heq
    obtain ⟨u, hu, rfl⟩ := Fault.map_eq_ok heq
    obtain ⟨hown, hpartner⟩ := h.ticks_settle i u (h.plane i)
    exact ⟨hown.trans (Cpu.advanceIdle_ticks hu), hpartner⟩

/-- The processors of a plain machine are brisk. -/
theorem processors_brisk (hc : c.changes < UInt32.size) :
    (processors (δ := δ)).Keeps Brisk (Waits c) where
  step := by
    intro requests h i hh
    show Meets _ .none (step i h)
    have hplain := (hh.like.plane i).left
    have hbrisk : Meets (fun contact r => Brisk none contact r.1) .none (step i h) := by
      rw [step_eq]
      exact (Backplane.step_brisk hplain hc rfl).bind fun contact r hr => hr
    have hkept : (step i h).Ends fun r => ∃ u b, r.2 = h.settle i u b ∧ Like c c r.2 r.2 := by
      have halike := Cpu.step_alike (B := Backplane.pairing δ i hc hc)
        (s := (h.boards.get i).cpu) ⟨.refl _, hh.like.plane i⟩
      rw [step_eq]
      refine halike.ends.bind ?_
      rintro ⟨⟨cost, u⟩, b⟩ ⟨-, hu, hb⟩
      exact .done ⟨u, b, rfl, hh.like.settle hu hb⟩
    refine (((step_tentative hplain).meets.and hbrisk).and_ends hkept).mono ?_
    rintro contact ⟨cost, -⟩ ⟨⟨⟨hasked, hrefused⟩, hbrisk⟩, u, b, rfl, hlike⟩
    have hrepeats : contact.Repeats (requests.get i) :=
      Contact.repeats_of_asked fun w hw => hasked.trans (hh.waits i w hw)
    refine ⟨⟨hrepeats, hbrisk.2⟩, hlike, (Side.forall_iff i).2 ⟨?_, ?_⟩⟩
    · rw [PerSide.get_set_self]
      intro elapsed he
      cases contact with
      | none => cases he
      | granted e => cases he
      | refused e =>
        obtain rfl : e = elapsed := Option.some.inj he
        obtain ⟨-, v, hv, hsame⟩ := hrefused e rfl
        dsimp only at hsame hlike ⊢
        rw [hsame] at hlike ⊢
        rw [opening_step_refused hc hh.like hv hlike]
        exact hasked.symm
    · rw [PerSide.get_set_partner]
      intro elapsed he
      show opening (step i.partner (h.settle i u b)) = some elapsed
      rw [opening_step_partner hh.like hlike]
      exact hh.waits _ elapsed he

/-- All that fails in their steps is the count of T-states. -/
theorem processors_sturdy (hc : c.changes < UInt32.size) :
    (processors (δ := δ)).Sturdy ticks (Waits c) where
  step := by
    intro requests h i hh
    show Sturdy (UInt64.size ≤ h.ticks i + 27) (step i h)
    rw [step_eq]
    exact (Backplane.step_sturdy (hh.like.plane i) hc rfl).bind (.unconditional _)
      fun _ _ => trivial
  count i h := (processors_count.step i h).mono fun r hr => ⟨hr.1.le, hr.2.le⟩

end Hardware
end TandemZ80
