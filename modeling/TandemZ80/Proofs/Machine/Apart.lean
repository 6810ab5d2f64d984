import TandemZ80.Proofs.Machine.Runs
import TandemZ80.Proofs.Schedule.Apart

/-!
# Machines without a link

Without the link nothing connects the two processors of a machine but the scheduler. So a processor
does what it does whatever its partner is at, though the turns of both are interleaved in another
way.

* `MemoryMap.SameMapping`, maps that show the same bytes in the same places;
* `Backplane.Bare`, a bus with RAM and images only, `Backplane.step_lone`, a step on it, and
  `Backplane.twins`, which makes a `Bus.Pairing` of two such buses;
* `Hardware.Apart` and `Hardware.processors_apart`;
* `Machine.Bare`, `Machine.AgreeOn`, and `Machine.partner_without_influence`.
-/

namespace TandemZ80

variable {δ α : Type}

/-! ### Memory -/

/-- Maps with the same bytes in the same places, mapped by clients that may have other names. -/
def MemoryMap.SameMapping (m m' : MemoryMap) : Prop :=
  ∃ clients backstop, m' = { m with clients, backstop }

namespace MemoryMap.SameMapping

variable {m m' : MemoryMap}

theorem refl (m : MemoryMap) : SameMapping m m := ⟨m.clients, m.backstop, rfl⟩

theorem symm (h : SameMapping m m') : SameMapping m' m := by
  obtain ⟨clients, backstop, rfl⟩ := h
  exact ⟨m.clients, m.backstop, rfl⟩

theorem store (h : SameMapping m m') (b : BufferId) (a : UInt16) (bytes : List UInt8) :
    SameMapping (m.store b a bytes) (m'.store b a bytes) := by
  obtain ⟨clients, backstop, rfl⟩ := h
  exact ⟨clients, backstop, rfl⟩

theorem view_eq (h : SameMapping m m') (a : UInt16) : m'.view a = m.view a := by
  obtain ⟨clients, backstop, rfl⟩ := h
  rfl

theorem window_eq (h : SameMapping m m') (a : UInt16) : m'.window a = m.window a := by
  obtain ⟨clients, backstop, rfl⟩ := h
  rfl

theorem readWindow_eq (h : SameMapping m m') (w : Window) (a : UInt16) :
    m'.readWindow w a = m.readWindow w a := by
  obtain ⟨clients, backstop, rfl⟩ := h
  rfl

theorem bytes?_eq (h : SameMapping m m') (b : BufferId) : m'.bytes? b = m.bytes? b := by
  obtain ⟨clients, backstop, rfl⟩ := h
  rfl

end MemoryMap.SameMapping

/-! ### Buses -/

namespace Backplane

variable {s : Side} {w w' : Option Window} {b b' : Backplane (Part δ)}

/-- A bus with RAM and images, and with nothing attached to its ports. -/
structure Bare (b : Backplane (Part δ)) : Prop where
  layered : b.memory.Layered
  ports : b.ports = .empty

theorem Bare.store (h : b.Bare) (a : UInt16) (v : UInt8) :
    Bare { b with memory := b.memory.store ⟨0⟩ a [v] } :=
  ⟨h.layered.store a [v], h.ports⟩

/-- Two such buses, with the same mapping, and processors with the same window. -/
structure Twin (w w' : Option Window) (b b' : Backplane (Part δ)) : Prop where
  left : b.Bare
  right : b'.Bare
  window : w' = w
  memory : b.memory.SameMapping b'.memory

theorem Bare.twin (h : b.Bare) (w : Option Window) : Twin w w b b := ⟨h, h, rfl, .refl _⟩

variable [Device δ]

namespace Bare

theorem serve_input (h : b.Bare) (p : UInt16) : serve (.input p) b = .done (0xFF, b) := by
  refine reading_eq _ ?_
  rw [h.ports, Ports.input, Ports.line, Ports.empty, Fin.getElem_fin, Vector.getElem_replicate]
  rfl

theorem serve_output (h : b.Bare) (p : UInt16) (v : UInt8) :
    serve (.output p v) b = .done ((), b) := by
  refine Backplane.serve_output ?_
  rw [h.ports, Ports.output, Ports.line, Ports.empty, Fin.getElem_fin, Vector.getElem_replicate]
  rfl

theorem serve_acknowledge (h : b.Bare) : serve .acknowledge b = .done (0xFF, b) := by
  refine reading_eq _ ?_
  rw [h.ports, Ports.acknowledge, Ports.input, Ports.line, Ports.empty, Fin.getElem_fin,
    Vector.getElem_replicate]
  rfl

theorem serve_isShared (h : b.Bare) (p : UInt16) : serve (.isShared p) b = .done (false, b) := by
  rw [serve, h.ports, Ports.isShared, Ports.line, Ports.empty, Fin.getElem_fin,
    Vector.getElem_replicate]
  rfl

/-- Looking changes nothing, and shows no shared port. -/
theorem serve_looks (h : b.Bare) {q : Bus.Call} (hq : q.looks = true) :
    ∃ x, serve q b = .done (x, b) ∧ q.reveals x = false := by
  cases q with
  | read a => exact ⟨_, h.layered.serve_read a, rfl⟩
  | acknowledge => exact ⟨_, h.serve_acknowledge, rfl⟩
  | window a => exact ⟨_, rfl, rfl⟩
  | readWindow v a => exact ⟨_, rfl, rfl⟩
  | isShared p => exact ⟨_, h.serve_isShared p, rfl⟩
  | _ => cases hq

/-- No polite program is refused a port: it asks for none. -/
theorem relay_sure (h : b.Bare) {u : Cpu} {F : Prop} {P : α → Option ℕ → Prop} {ticks : Ticks}
    {d : Bus.Program (Option α × Cpu)} (hd : Bus.Tentative u F P d)
    (hp : Bus.Polite ticks false d) :
    Rendezvous.Sure (fun r => ∃ a asked, r.1.1 = some a ∧ P a asked) (d.relay serve b) := by
  induction hd with
  | sure hd =>
    refine (Backplane.relay_sure hd b).mono ?_
    rintro r ⟨a, ha, hP⟩
    exact ⟨a, none, ha, hP⟩
  | fail f _ => exact .fail f
  | @look q next hq _ ih =>
    obtain ⟨x, hx, hreveals⟩ := h.serve_looks hq
    rw [Dialogue.relay_ask, hx]
    cases hp with
    | ask _ hnext =>
      have hrest := hnext x
      rw [hreveals] at hrest
      exact ih x hrest
  | sync _ _ _ =>
    cases hp with
    | ask hq _ => cases hq

theorem step_sure (h : b.Bare) (u : Cpu) :
    Rendezvous.Sure (fun r => 0 < r.1.1 ∧ r.1.1 ≤ UInt64.size) (u.step.relay serve b) := by
  unfold Cpu.step
  rw [Dialogue.relay_bind]
  refine (h.relay_sure u.perform_tentative (Cpu.perform_polite u.action false _)).bind ?_
  rintro ⟨⟨o, t⟩, b₁⟩ ⟨cost, asked, ho, hcost⟩
  obtain rfl : o = some cost := ho
  have hleast := hcost.least
  have hmost := hcost.most.trans (show _ ≤ UInt64.size by decide)
  exact (finish_sure u cost t b₁).mono fun r hr => hr.symm ▸ ⟨by omega, hmost⟩

end Bare

namespace Twin

/-- Such buses answer alike. -/
theorem serve (h : Twin w w' b b') {q : Bus.Call} (hq : q.fetches = false) :
    Dialogue.Alike (· = .overflow) (fun r r' => r.1 = r'.1 ∧ Twin w w' r.2 r'.2)
      (Backplane.serve q b) (Backplane.serve q b') := by
  cases q with
  | read a =>
    rw [h.left.layered.serve_read, h.right.layered.serve_read]
    exact .done ⟨(h.memory.view_eq a).symm, h⟩
  | write a v =>
    rw [serve_write h.left.layered, serve_write h.right.layered]
    exact .done ⟨rfl, h.left.store a v, h.right.store a v, h.window, h.memory.store _ a [v]⟩
  | input p =>
    rw [h.left.serve_input, h.right.serve_input]
    exact .done ⟨rfl, h⟩
  | output p v =>
    rw [h.left.serve_output, h.right.serve_output]
    exact .done ⟨rfl, h⟩
  | acknowledge =>
    rw [h.left.serve_acknowledge, h.right.serve_acknowledge]
    exact .done ⟨rfl, h⟩
  | isShared p =>
    rw [h.left.serve_isShared, h.right.serve_isShared]
    exact .done ⟨rfl, h⟩
  | sync elapsed => exact .ask _ fun granted => .done ⟨rfl, h⟩
  | stop clocks => exact .ask _ fun _ => .done ⟨rfl, h⟩
  | window a => cases hq
  | readWindow v a => cases hq

/-- A byte by way of the bus is the same, and so is the window that is issued. -/
theorem lookUp (h : Twin w w' b b') (a : UInt16) :
    Dialogue.Alike (· = .overflow) (fun r r' => r.1.1 = r'.1.1 ∧ Twin r.1.2 r'.1.2 r.2 r'.2)
      ((Bus.lookUp a).relay Backplane.serve b) ((Bus.lookUp a).relay Backplane.serve b') := by
  have hissue : ∀ b : Backplane (Part δ),
      Backplane.serve (.window a) b = .done (b.memory.window a, b) := fun _ => rfl
  rw [Bus.relay_lookUp (hissue b), Bus.relay_lookUp (hissue b'), h.left.layered.serve_read,
    h.right.layered.serve_read]
  exact .done ⟨(h.memory.view_eq a).symm, h.left, h.right, h.memory.window_eq a, h.memory⟩

theorem fetch (h : Twin w w' b b') (a : UInt16) :
    Dialogue.Alike (· = .overflow) (fun r r' => r.1.1 = r'.1.1 ∧ Twin r.1.2 r'.1.2 r.2 r'.2)
      ((Bus.fetch w a).relay Backplane.serve b) ((Bus.fetch w' a).relay Backplane.serve b') := by
  obtain rfl := h.window
  cases w' with
  | none => exact h.lookUp a
  | some w =>
    by_cases ha : w.contains a = true
    · have hread : Backplane.serve (.readWindow w a) b = .done (b.memory.readWindow w a, b) := rfl
      have hread' : Backplane.serve (.readWindow w a) b' = .done (b.memory.readWindow w a, b') := by
        rw [← h.memory.readWindow_eq]
        rfl
      cases hv : b.memory.readWindow w a with
      | some v =>
        rw [hv] at hread hread'
        rw [Bus.relay_fetch ha hread, Bus.relay_fetch ha hread']
        exact .done ⟨rfl, h⟩
      | none =>
        rw [hv] at hread hread'
        rw [Bus.relay_fetch_stale ha hread, Bus.relay_fetch_stale ha hread']
        exact h.lookUp a
    · rw [Bus.fetch_past ha]
      exact h.lookUp a

end Twin

/-- Two buses with the same mapping. -/
def twins (δ : Type) [Device δ] :
    Bus.Pairing Rendezvous.Reply (Backplane (Part δ)) (Backplane (Part δ)) where
  left := serve
  right := serve
  fault := (· = .overflow)
  related := Twin
  overflow := rfl
  call := by
    intro q hq w w' b b' h
    exact h.serve hq
  fetch a := by
    intro w w' b b' h
    exact h.fetch a

/-- On such a bus a step costs something, asks for no port and leaves the bus as it is. -/
theorem step_lone (h : b.Bare) (u : Cpu) :
    Rendezvous.Lone (fun r => (0 < r.1.1 ∧ r.1.1 ≤ UInt64.size) ∧ r.2.Bare)
      (u.step.relay serve b) := by
  have halike := Cpu.step_alike (B := twins δ) (s := u) (t := u) ⟨.refl u, h.twin u.window⟩
  refine (Rendezvous.Lone.of_sure (h.step_sure u) halike).mono ?_
  rintro r ⟨hcost, r', -, -, htwin⟩
  exact ⟨hcost, htwin.left⟩

end Backplane

/-! ### Hardware -/

namespace Hardware

variable {s : Side} {h h' : Hardware δ} {u v : Cpu} {b b' : Backplane (Part δ)}

/-- Hardware with RAM and images, and with nothing attached to its ports. -/
def Bare (h : Hardware δ) : Prop := ∀ s, (h.plane s).Bare

theorem Bare.settle (hh : h.Bare) (hb : b.Bare) (s : Side) (u : Cpu) : (h.settle s u b).Bare := by
  intro t
  rw [plane_settle]
  split_ifs
  · exact hb
  · exact ⟨(hh t).layered, (hh t).ports⟩

/-- Hardware in which the processor on side `s` and its memory are the same. -/
structure Apart (s : Side) (h h' : Hardware δ) : Prop where
  left : h.Bare
  right : h'.Bare
  cpu : (h.boards.get s).cpu.Agree (h'.boards.get s).cpu
  window : (h'.boards.get s).cpu.window = (h.boards.get s).cpu.window
  memory : (h.boards.get s).memory.SameMapping (h'.boards.get s).memory

namespace Apart

theorem symm (hh : Apart s h h') : Apart s h' h :=
  ⟨hh.right, hh.left, hh.cpu.symm, hh.window.symm, hh.memory.symm⟩

/-- The processors on side `s` have changed, and are the same still. -/
theorem settle (hh : Apart s h h') (huv : u.Agree v)
    (hb : Backplane.Twin u.window v.window b b') : Apart s (h.settle s u b) (h'.settle s v b') := by
  refine ⟨hh.left.settle hb.left s u, hh.right.settle hb.right s v, ?_, ?_, ?_⟩ <;>
    rw [boards_settle, boards_settle, if_pos rfl, if_pos rfl]
  · exact huv
  · exact hb.window
  · exact hb.memory

/-- The partner in one of them has changed. -/
theorem settle_partner (hh : Apart s h h') (hb : b.Bare) (u : Cpu) :
    Apart s (h.settle s.partner u b) h' := by
  refine ⟨hh.left.settle hb _ u, hh.right, ?_, ?_, ?_⟩ <;>
    rw [boards_settle, if_neg s.partner_ne.symm]
  · exact hh.cpu
  · exact hh.window
  · exact hh.memory

end Apart

variable [Device δ]

theorem processors_lone : (processors (δ := δ)).Lone UInt64.size Bare where
  step i h hh := by
    show Rendezvous.Lone _ (step i h)
    rw [step_eq]
    refine (Backplane.step_lone (hh i) _).bind ?_
    rintro ⟨⟨cost, u⟩, b⟩ ⟨hcost, hb⟩
    exact .done ⟨hcost, hh.settle hb i u⟩

/-- The processors of a machine without a link do not touch each other. -/
theorem processors_apart (s : Side) : (processors (δ := δ)).Apart s Bare (Apart s) where
  symm _ _ hh := hh.symm
  inside _ _ hh := hh.left
  own h h' hh := by
    show Dialogue.Alike _ _ (step s h) (step s h')
    rw [step_eq, step_eq]
    refine (Cpu.step_alike (B := Backplane.twins δ) ⟨hh.cpu, hh.left s, hh.right s, hh.window,
      hh.memory⟩).bind ?_
    rintro ⟨⟨cost, u⟩, b⟩ ⟨⟨cost', v⟩, b'⟩ ⟨hcost, huv, hb⟩
    exact .done ⟨hcost, hh.settle huv hb⟩
  partner h h' hh := by
    show (step s.partner h).Ends _
    rw [step_eq]
    refine (Backplane.step_lone (hh.left s.partner) _).ends.bind ?_
    rintro ⟨⟨cost, u⟩, b⟩ ⟨-, hb⟩
    exact .done (hh.settle_partner hb u)

end Hardware

/-! ### Machines -/

namespace Machine

variable {m m' : Machine δ} {s : Side}

/-- A machine with RAM and images, and without the link. -/
structure Bare (m : Machine δ) : Prop where
  ramBuffers : m.ramBuffers = .both ⟨0⟩
  hardware : m.hardware.Bare
  link : m.linkId = none

theorem Plain.bare {k : ℕ} (h : m.Plain k) (hlink : m.linkId = none) : m.Bare where
  ramBuffers := h.ramBuffers
  hardware s := ⟨h.layered s, by
    show (m.board s).ports = _
    rw [h.ports s, hlink, Ports.linked]⟩
  link := hlink

/-- A machine of this kind is what plain operations lead to as long as no link is attached. -/
theorem PlainlyReached.bare [Device δ] (h : m.PlainlyReached) (hbuffers : m.bufferCount ≤ 2 ^ 31)
    (hlink : m.linkId = none) : m.Bare := by
  obtain ⟨k, -, hplain⟩ := h.exists_plain hbuffers
  exact hplain.bare hlink

/-- Machines with the same processor on side `s`, with the same memory and the same counters. -/
structure AgreeOn (s : Side) (m m' : Machine δ) : Prop where
  save : (m'.cpu s).save = (m.cpu s).save
  window : (m'.cpu s).window = (m.cpu s).window
  memory : (m.board s).memory.SameMapping (m'.board s).memory
  scheduler : Scheduler.Agree s m.scheduler m'.scheduler

/-- Machines without a link that step both processors, and agree on one of them. -/
structure Apart (s : Side) (m m' : Machine δ) : Prop where
  config : m'.config = m.config
  stepped : m.config.idleSkip = false
  ramBuffers : m.ramBuffers = .both ⟨0⟩ ∧ m'.ramBuffers = .both ⟨0⟩
  hardware : Hardware.Apart s m.hardware m'.hardware
  scheduler : Scheduler.Agree s m.scheduler m'.scheduler

/-- What is done with a whole machine, or with the processor on side `s`. -/
def Operation.concerns (s : Side) : Operation δ → Prop
  | .execute _ => True
  | .setIntLine t _ | .nmi t | .write t _ _ => t = s
  | _ => False

theorem execute_of_stepped [Device δ] {ratio : ClockRatio} (hstepped : m.config.idleSkip = false)
    (hratio : m.config.ratio = ratio) (budget : UInt32) :
    m.execute budget =
      (fun r => (r.1, { m with scheduler := r.2.1, hardware := r.2.2 })) <$>
        m.scheduler.execBoth Hardware.processors ratio.weights budget m.hardware := by
  rw [execute_eq]
  unfold runs
  rw [hstepped, hratio]
  rfl

namespace Apart

theorem ram_eq (h : Apart s m m') : m'.ram s = m.ram s := by
  obtain ⟨hbuffers, hbuffers'⟩ := h.ramBuffers
  unfold ram
  rw [hbuffers, hbuffers']
  exact congrArg (·.getD #[]) (h.hardware.memory.bytes?_eq _)

theorem setBoard (h : Apart s m m') {b b' : Board} (hcpu : b.cpu.Agree b'.cpu)
    (hplane : Backplane.Twin b.cpu.window b'.cpu.window ⟨b.memory, b.ports, m.hardware.devices⟩
      ⟨b'.memory, b'.ports, m'.hardware.devices⟩) :
    Apart s (m.setBoard s b) (m'.setBoard s b') :=
  ⟨h.config, h.stepped, h.ramBuffers, h.hardware.settle hcpu hplane, h.scheduler⟩

theorem updateCpu (h : Apart s m m') {f : Cpu → Cpu}
    (hf : ∀ u v : Cpu, u.Agree v → (f u).Agree (f v)) (hwindow : ∀ u, (f u).window = u.window) :
    Apart s (m.updateCpu s f) (m'.updateCpu s f) := by
  rw [updateCpu_eq, updateCpu_eq]
  obtain ⟨hleft, hright, hcpu, hwin, hmemory⟩ := h.hardware
  refine h.setBoard (hf _ _ hcpu) ⟨hleft s, hright s, ?_, hmemory⟩
  show (f _).window = (f _).window
  rw [hwindow, hwindow]
  exact hwin

theorem write [Device δ] (h : Apart s m m') (a : UInt16) (v : UInt8) :
    ∃ m₁ m₁', m.write s a v = .ok m₁ ∧ m'.write s a v = .ok m₁' ∧ Apart s m₁ m₁' := by
  obtain ⟨hleft, hright, hcpu, hwin, hmemory⟩ := h.hardware
  refine ⟨_, _, write_of_layered (hleft s).layered a v, write_of_layered (hright s).layered a v,
    h.setBoard hcpu ⟨(hleft s).store a v, (hright s).store a v, hwin, hmemory.store _ a [v]⟩⟩

theorem execute [Device δ] (h : Apart s m m') (budget : UInt32)
    (hfits : m.execute budget ≠ .error .overflow) (hfits' : m'.execute budget ≠ .error .overflow) :
    ∃ r r', m.execute budget = .ok r ∧ m'.execute budget = .ok r' ∧ Apart s r.2 r'.2 := by
  rw [execute_of_stepped h.stepped rfl] at hfits ⊢
  rw [execute_of_stepped (by rw [h.config, h.stepped]) (by rw [h.config])] at hfits' ⊢
  obtain ⟨moved, s₁, h₁, moved', t₁, h₁', hok, hok', hagree, happart⟩ :=
    Scheduler.execBoth_apart Hardware.processors_lone (Hardware.processors_apart s) h.scheduler
      h.hardware _ (fun he => hfits (by rw [he]; rfl)) (fun he => hfits' (by rw [he]; rfl))
  rw [hok, hok']
  exact ⟨_, _, rfl, rfl, h.config, h.stepped, h.ramBuffers, happart, hagree⟩

/-- What is done with both machines leaves them in agreement. -/
theorem perform [Device δ] {t t' : Session δ} (h : Apart s t.machine t'.machine) {op : Operation δ}
    (hop : op.concerns s) (hfits : system.perform op t ≠ .error .overflow)
    (hfits' : system.perform op t' ≠ .error .overflow) :
    ∃ r r', system.perform op t = .ok r ∧ system.perform op t' = .ok r' ∧
      Apart s r.2.machine r'.2.machine := by
  cases op with
  | execute budget =>
    obtain ⟨⟨n, m⟩, ⟨n', m'⟩, hok, hok', happart⟩ := h.execute budget
      (fun he => hfits (by show _ <$> t.machine.execute budget = _; rw [he]; rfl))
      (fun he => hfits' (by show _ <$> t'.machine.execute budget = _; rw [he]; rfl))
    refine ⟨(.moved n, { t with machine := m }), (.moved n', { t' with machine := m' }), ?_, ?_,
      happart⟩
    · show _ <$> t.machine.execute budget = _
      rw [hok]
      rfl
    · show _ <$> t'.machine.execute budget = _
      rw [hok']
      rfl
  | setIntLine side level =>
    obtain rfl : side = s := hop
    exact ⟨_, _, rfl, rfl, h.updateCpu (f := (·.setIntLine level))
      (fun _ _ huv => congrArg (Cpu.setIntLine · level) huv) fun _ => rfl⟩
  | nmi side =>
    obtain rfl : side = s := hop
    exact ⟨_, _, rfl, rfl, h.updateCpu (fun _ _ huv => congrArg Cpu.nmi huv) fun _ => rfl⟩
  | write side a v =>
    obtain rfl : side = s := hop
    obtain ⟨m, m', hok, hok', happart⟩ := h.write a v
    refine ⟨(.done, { t with machine := m }), (.done, { t' with machine := m' }), ?_, ?_, happart⟩
    · show _ <$> t.machine.write _ a v = _
      rw [hok]
      rfl
    · show _ <$> t'.machine.write _ a v = _
      rw [hok']
      rfl
  | _ => exact hop.elim

end Apart

/-- Without a link no processor is told what its partner is at. Two machines of the same
configuration, without idle processors being left out, agree on one of their processors: on its
state, its memory and its counters in the scheduler. Whatever is done with both machines as a whole,
or with that processor, they go on agreeing on it, unless a counter overflows in one of them. -/
theorem partner_without_influence [Device δ] (hm : m.Bare) (hm' : m'.Bare)
    (hconfig : m'.config = m.config) (hstepped : m.config.idleSkip = false)
    (hagree : AgreeOn s m m') {ops : List (Operation δ)} (hops : ∀ op ∈ ops, op.concerns s)
    (images images' : List (Option RomHandle))
    (hfits : system.run ops ⟨m, images⟩ ≠ .error .overflow)
    (hfits' : system.run ops ⟨m', images'⟩ ≠ .error .overflow) :
    ∃ t t', system.run ops ⟨m, images⟩ = .ok t ∧ system.run ops ⟨m', images'⟩ = .ok t' ∧
      (t'.machine.cpu s).save = (t.machine.cpu s).save ∧
      t'.machine.ram s = t.machine.ram s ∧
      t'.machine.scheduler.clocks.get s = t.machine.scheduler.clocks.get s ∧
      t'.machine.scheduler.targets.get s = t.machine.scheduler.targets.get s := by
  have hapart : Apart s m m' :=
    { config := hconfig
      stepped := hstepped
      ramBuffers := ⟨hm.ramBuffers, hm'.ramBuffers⟩
      hardware := ⟨hm.hardware, hm'.hardware, Cpu.save_eq_iff.1 hagree.save.symm, hagree.window,
        hagree.memory⟩
      scheduler := hagree.scheduler }
  obtain ⟨t, t', hrun, hrun', hend⟩ :=
    System.run_both (R := fun t t' => Apart s t.machine t'.machine)
      (fun op hop t t' ht => ht.perform hop) hops hapart hfits hfits'
  exact ⟨t, t', hrun, hrun', (Cpu.save_eq_iff.2 hend.hardware.cpu).symm, hend.ram_eq,
    hend.scheduler.clock, hend.scheduler.target⟩

/-- `INC A`, `LD (4000h),A` and a jump back to the beginning. -/
def counting : List UInt8 := [0x3C, 0x32, 0x00, 0x40, 0x18, 0xFA]

/-- A halted processor with something in A. -/
def haltedWithA : Cpu := { halted with regs := { halted.regs with a := 5 } }

/-- The sub processor is 3 T-states ahead. -/
def subAhead : Scheduler := { Scheduler.initial with clocks := ⟨0, 3⟩ }

theorem roomy_subAhead : subAhead.Roomy := by
  refine ⟨fun s => ?_, fun s => ?_, fun s => ?_⟩ <;> cases s <;> decide

/-- The machine with another sub processor, which has `v` in its first byte of RAM. -/
def withSub (m : Machine δ) (u : Cpu) (v : UInt8) (scheduler : Scheduler) : Machine δ :=
  { (m.updateCpu .sub fun _ => u).loadRam .sub 0 [v] with scheduler }

theorem agreeOn_withSub (m : Machine δ) (u u' : Cpu) (v v' : UInt8) :
    AgreeOn .main (m.withSub u v .initial) (m.withSub u' v' subAhead) where
  save := rfl
  window := rfl
  memory := .refl _
  scheduler := ⟨rfl, rfl, rfl⟩

theorem Plain.withSub {k : ℕ} (h : m.Plain k) {u : Cpu} (hu : u.window = none) (v : UInt8)
    {scheduler : Scheduler} (hweights : ∀ i, Scheduler.weightFits (scheduler.weights.get i)) :
    (m.withSub u v scheduler).Plain k := by
  have hmachine :=
    (h.updateCpu (s := .sub) (f := fun _ => u) fun _ => .inr hu).loadRam (s := .sub) 0 [v]
  exact ⟨hmachine.ramBuffers, hmachine.layered, hmachine.dated, hmachine.ports, hmachine.link,
    hweights⟩

/-- Without the link every run returns from small counters. -/
theorem Plain.execute_of_bare [Device δ] {k : ℕ} (h : m.Plain k) (hk : k < UInt32.size)
    (hbare : m.Bare) (hs : m.scheduler.Roomy) (hticks : ∀ s, m.hardware.ticks s ≤ 2 ^ 62)
    (budget : UInt32) : ∃ r, m.execute budget = .ok r :=
  h.execute_returns hk hs hticks (Hardware.processors_lone.quiet .main) hbare.hardware budget

/-- Beside another sub processor too the runs of a program return. -/
theorem Starting.execute_withSub [Device δ] {k : ℕ} {program : List UInt8} (h : m.Starting program)
    (hplain : m.Plain k) (hk : k < UInt32.size) (hlink : m.linkId = none) {u : Cpu}
    (hu : u.window = none) (hticks : u.ticks.count.toNat ≤ 2 ^ 62) (v : UInt8)
    {scheduler : Scheduler} (hs : scheduler.Roomy) (budget : UInt32) :
    ∃ r, (m.withSub u v scheduler).execute budget = .ok r := by
  have hbeside := hplain.withSub hu v hs.weights
  refine hbeside.execute_of_bare hk (hbeside.bare hlink) hs (fun s => ?_) budget
  cases s
  · show (m.cpu .main).ticks.count.toNat ≤ _
    rw [h.main]
    decide
  · exact hticks

/-- Two machines whose main processors count. The sub ones are halted, and differ in A, in their
memories and in their clocks. -/
theorem counting_without_influence :
    ∃ (m m' : Machine ParallelLink) (ops : List (Operation ParallelLink)),
      m.Starting counting ∧ m.Bare ∧ m'.Bare ∧ m'.config = m.config ∧ m.config.idleSkip = false ∧
      AgreeOn .main m m' ∧
      (m'.cpu .sub).save ≠ (m.cpu .sub).save ∧ (∀ op ∈ ops, op.concerns .main) ∧
      system.run ops ⟨m, []⟩ ≠ .error .overflow ∧ system.run ops ⟨m', []⟩ ≠ .error .overflow ∧
      ∃ t t', system.run ops ⟨m, []⟩ = .ok t ∧ system.run ops ⟨m', []⟩ = .ok t' ∧
        (t'.machine.cpu .main).save = (t.machine.cpu .main).save ∧
        t'.machine.ram .main = t.machine.ram .main ∧
        t'.machine.scheduler.clocks.get .main = t.machine.scheduler.clocks.get .main ∧
        t'.machine.scheduler.targets.get .main = t.machine.scheduler.targets.get .main := by
  let config : Config := { Config.standard with idleSkip := false }
  obtain ⟨m₀, hnew⟩ : ∃ m₀ : Machine ParallelLink, new config = .ok m₀ := ⟨_, rfl⟩
  have hfields : m₀.config = config ∧ m₀.linkId = none := by
    rw [new_eq_ok hnew]
    exact ⟨rfl, rfl⟩
  obtain ⟨m, -, hplain, hstarting, hconfig, hid, -⟩ :=
    (plain_new hnew).load_starting counting (by decide)
  have hlink : m.linkId = none := hid.trans hfields.2
  have hstepped : m.config.idleSkip = false := by rw [hconfig, hfields.1]
  let ops : List (Operation ParallelLink) := [.execute 1000, .nmi .main]
  have hops : ∀ op ∈ ops, op.concerns .main := by
    simp [ops, Operation.concerns]
  have hfits : ∀ {m : Machine ParallelLink}, (∃ r, m.execute 1000 = .ok r) →
      system.run ops ⟨m, []⟩ ≠ .error .overflow := by
    rintro m ⟨r, hr⟩
    show ((fun r => (Answer.moved r.1, Session.mk r.2 [])) <$> m.execute 1000) >>= _ ≠ _
    rw [hr]
    exact fun h => by cases h
  have hbare := (hplain.withSub (u := halted) rfl 0 Scheduler.roomy_initial.weights).bare hlink
  have hbare' := (hplain.withSub (u := haltedWithA) rfl 1 roomy_subAhead.weights).bare hlink
  have hrun :=
    hfits (hstarting.execute_withSub hplain (by decide) hlink (u := halted) rfl (by decide) 0
    Scheduler.roomy_initial 1000)
  have hrun' := hfits (hstarting.execute_withSub hplain (by decide) hlink (u := haltedWithA) rfl
    (by decide) 1 roomy_subAhead 1000)
  have hagree := agreeOn_withSub m halted haltedWithA 0 1
  have hdiffer : haltedWithA.save ≠ halted.save := by decide
  have hbegins : (m.withSub halted 0 .initial).Starting counting :=
    ⟨rfl, hstarting.main, rfl, hstarting.ram⟩
  exact ⟨_, _, ops, hbegins, hbare, hbare', rfl, hstepped, hagree, hdiffer, hops, hrun, hrun',
    partner_without_influence hbare hbare' rfl hstepped hagree hops [] [] hrun hrun'⟩

end Machine
end TandemZ80
