import TandemZ80.Proofs.Machine.Ram

/-!
# Reading a machine back

A snapshot is read back by checks and changes one after the other. Taken together they refuse the
snapshot and change nothing, or make the machine one that has this very snapshot.

* `Machine.Restoring`, its rules;
* `Machine.load_eq`, all that is checked and all that is changed;
* `Machine.load_of_hasRam`, what comes of it for a machine with its RAM; `Machine.save_restored`.
-/

namespace TandemZ80.Machine

variable {δ α β : Type} {m m' : Machine δ} {p : Snapshot}

/-! ### The steps of a restoration -/

namespace Restoring

variable (m : Machine δ)

theorem get_bind (f : Machine δ → Restoring δ β) : (get >>= f).run.run m = (f m).run.run m := rfl

theorem set_bind (m' : Machine δ) (f : PUnit → Restoring δ β) :
    (set m' >>= f).run.run m = (f ()).run.run m' := rfl

theorem modify_bind (g : Machine δ → Machine δ) (f : PUnit → Restoring δ β) :
    (modify g >>= f).run.run m = (f ()).run.run (g m) := rfl

theorem throw_bind (e : StateError) (f : α → Restoring δ β) :
    ((throw e : Restoring δ α) >>= f).run.run m = .ok (.error e, m) := rfl

theorem check_bind (x : Except StateError α) (f : α → Restoring δ β) :
    (liftExcept x >>= f : Restoring δ β).run.run m =
      match x with
      | .ok a => (f a).run.run m
      | .error e => .ok (.error e, m) := by
  cases x <;> rfl

theorem lift_bind (x : Except Fault α) (f : α → Restoring δ β) :
    ((liftM x : Restoring δ α) >>= f).run.run m = x >>= fun a => (f a).run.run m := by
  cases x <;> rfl

end Restoring

open Restoring

/-- All that is checked, in its order, and all that is changed then. -/
theorem load_eq (m : Machine δ) (p : Snapshot) :
    m.load p =
      match m.refusal? p with
      | some e => .ok (.error e, m)
      | none =>
        match Cpu.load p.cpus.main, Cpu.load p.cpus.sub, Scheduler.load p.scheduler with
        | .error e, _, _ => .ok (.error e, m)
        | .ok _, .error e, _ => .ok (.error e, m)
        | .ok _, .ok _, .error e => .ok (.error e, m)
        | .ok main, .ok sub, .ok scheduler => do
          let m := { (m.updateCpu .main fun _ => main).updateCpu .sub fun _ => sub with scheduler }
          let m ← m.setRam .main p.ram.main
          let m ← m.setRam .sub p.ram.sub
          return (.ok (), p.link.elim m m.setLink) := by
  unfold load restore
  rw [get_bind]
  cases m.refusal? p with
  | some e => exact throw_bind m e _
  | none =>
    dsimp only
    simp only [check_bind, modify_bind, get_bind, lift_bind, set_bind]
    cases Cpu.load p.cpus.main with
    | error e => rfl
    | ok main =>
      cases Cpu.load p.cpus.sub with
      | error e => rfl
      | ok sub =>
        cases Scheduler.load p.scheduler with
        | error e => rfl
        | ok scheduler =>
          dsimp only
          congr 1
          funext m₁
          congr 1
          funext m₂
          cases p.link <;> rfl

/-! ### The restored machine -/

/-- What a machine becomes when a snapshot is read back. -/
def restored (m : Machine δ) (p : Snapshot) (cpus : PerSide Cpu) (scheduler : Scheduler) :
    Machine δ :=
  let board (s : Side) : Board :=
    { m.board s with
      cpu := cpus.get s
      memory := (m.board s).memory.replaceBuffer (m.ramBuffers.get s) (p.ram.get s) }
  let m := { m with scheduler, hardware := { m.hardware with boards := ⟨board .main, board .sub⟩ } }
  p.link.elim m m.setLink

theorem refusal?_eq_none (h : m.refusal? p = none) :
    p.rev = revision ∧ (∀ s, (p.ram.get s).size = ramSize) ∧ p.link.isSome = m.linkId.isSome := by
  unfold refusal? at h
  split_ifs at h with hrev hmain hsub hlink
  rw [not_not] at hrev hmain hsub hlink
  refine ⟨hrev, fun s => ?_, hlink⟩
  cases s
  · exact hmain
  · exact hsub

theorem refusal?_of_fits (hrev : p.rev = revision) (hsize : ∀ s, (p.ram.get s).size = ramSize)
    (hlink : p.link.isSome = m.linkId.isSome) : m.refusal? p = none := by
  have hmain : p.ram.main.size = ramSize := hsize .main
  have hsub : p.ram.sub.size = ramSize := hsize .sub
  unfold refusal?
  rw [if_neg (not_not.2 hrev), if_neg (not_not.2 hmain), if_neg (not_not.2 hsub),
    if_neg (not_not.2 hlink)]

theorem HasRam.setRam (h : m.HasRam) {s : Side} {bytes : Array UInt8}
    (hbytes : bytes.size = ramSize) :
    (m.setBoard s { m.board s with
      memory := (m.board s).memory.replaceBuffer (m.ramBuffers.get s) bytes }).HasRam :=
  h.setBoard (MemoryMap.retains_replaceBuffer (hbytes.trans (h s).symm))

theorem setRam_eq (h : m.HasRam) {s : Side} {bytes : Array UInt8} (hbytes : bytes.size = ramSize) :
    m.setRam s bytes = .ok (m.setBoard s { m.board s with
      memory := (m.board s).memory.replaceBuffer (m.ramBuffers.get s) bytes }) := by
  unfold setRam
  rw [Fault.require_of (by rw [size_ram, h s, hbytes]), withMemory_snd]
  rfl

/-- Once all has been checked, nothing stands in the way of the changes. -/
theorem replace_eq (h : m.HasRam) (hp : ∀ s, (p.ram.get s).size = ramSize) (cpus : PerSide Cpu)
    (scheduler : Scheduler) :
    (do
      let m := { (m.updateCpu .main fun _ => cpus.main).updateCpu .sub fun _ => cpus.sub with
        scheduler }
      let m ← m.setRam .main p.ram.main
      let m ← m.setRam .sub p.ram.sub
      return (.ok (), p.link.elim m m.setLink) :
        Except Fault (Except StateError Unit × Machine δ)) =
      .ok (.ok (), m.restored p cpus scheduler) := by
  have hcpus : HasRam { (m.updateCpu .main fun _ => cpus.main).updateCpu .sub fun _ => cpus.sub with
      scheduler } := (h.updateCpu .main fun _ => cpus.main).updateCpu .sub fun _ => cpus.sub
  dsimp only at hcpus ⊢
  generalize hm₁ : Machine.mk _ _ _ _ _ = m₁ at hcpus ⊢
  have hram := hcpus.setRam (s := .main) (hp .main)
  have hmain := setRam_eq (s := .main) hcpus (hp .main)
  have hsub := setRam_eq (s := .sub) hram (hp .sub)
  dsimp only [PerSide.get] at hmain hsub
  rw [hmain]
  dsimp only [bind, Except.bind]
  rw [hsub]
  subst hm₁
  obtain ⟨config, ⟨⟨main, sub⟩, devices⟩, counters, ramBuffers, linkId⟩ := m
  rfl

theorem load_of_fits (h : m.HasRam) {cpus : PerSide Cpu} {scheduler : Scheduler}
    (hp : m.refusal? p = none) (hcpus : ∀ s, Cpu.load (p.cpus.get s) = .ok (cpus.get s))
    (hscheduler : Scheduler.load p.scheduler = .ok scheduler) :
    m.load p = .ok (.ok (), m.restored p cpus scheduler) := by
  have hmain : Cpu.load p.cpus.main = .ok cpus.main := hcpus .main
  have hsub : Cpu.load p.cpus.sub = .ok cpus.sub := hcpus .sub
  rw [load_eq, hp, hmain, hsub, hscheduler]
  exact replace_eq h (refusal?_eq_none hp).2.1 cpus scheduler

/-- A machine with its RAM refuses a snapshot and stays as it is, or becomes the restored
machine. -/
theorem load_of_hasRam (h : m.HasRam) (p : Snapshot) :
    (∃ e, m.load p = .ok (.error e, m)) ∨
      ∃ cpus scheduler, m.refusal? p = none ∧ (∀ s, Cpu.load (p.cpus.get s) = .ok (cpus.get s)) ∧
        Scheduler.load p.scheduler = .ok scheduler ∧
        m.load p = .ok (.ok (), m.restored p cpus scheduler) := by
  have heq := load_eq m p
  cases hr : m.refusal? p with
  | some e => exact .inl ⟨e, by rw [heq, hr]⟩
  | none =>
    rw [hr] at heq
    cases hmain : Cpu.load p.cpus.main with
    | error e => exact .inl ⟨e, by rw [heq, hmain]⟩
    | ok main =>
      cases hsub : Cpu.load p.cpus.sub with
      | error e => exact .inl ⟨e, by rw [heq, hmain, hsub]⟩
      | ok sub =>
        cases hscheduler : Scheduler.load p.scheduler with
        | error e => exact .inl ⟨e, by rw [heq, hmain, hsub, hscheduler]⟩
        | ok scheduler =>
          have hcpus : ∀ s, Cpu.load (p.cpus.get s) = .ok ((PerSide.mk main sub).get s) :=
            fun s => by
            cases s <;> assumption
          exact .inr ⟨⟨main, sub⟩, scheduler, rfl, hcpus, rfl, load_of_fits h hr hcpus hscheduler⟩

/-! ### What the restored machine shows -/

theorem link?_eq_some {l : ParallelLink} : m.link? = some l ↔
    ∃ id, m.linkId = some id ∧ m.hardware.devices.get? id = some (.link l) := by
  unfold link?
  cases m.linkId with
  | none => simp
  | some id =>
    rw [Option.bind_eq_bind, Option.bind_some]
    cases hd : m.hardware.devices.get? id with
    | none => simp [hd]
    | some d => cases d <;> simp [hd]

/-- Replacing the latches changes one device, or nothing. -/
theorem setLink_eq (m : Machine δ) (l : ParallelLink) :
    ∃ devices, m.setLink l = { m with hardware := { m.hardware with devices } } ∧
      ∀ id l', m.linkId = some id → m.hardware.devices.get? id = some (.link l') →
        devices = m.hardware.devices.put id (some (.link l)) := by
  unfold setLink
  split
  · next id l₀ hid _ =>
    refine ⟨m.hardware.devices.put id (some (.link l)), withDevices_snd m _, fun id' l' h _ => ?_⟩
    rw [hid] at h
    cases h
    rfl
  · next hgone =>
    exact ⟨m.hardware.devices, rfl, fun id l' h hget =>
      (hgone id l' h (link?_eq_some.2 ⟨id, h, hget⟩)).elim⟩

theorem link?_setLink {l : ParallelLink} (hl : m.link? = some l) (l' : ParallelLink) :
    (m.setLink l').link? = some l' := by
  obtain ⟨id, hid, hget⟩ := link?_eq_some.1 hl
  obtain ⟨devices, heq, hdevices⟩ := m.setLink_eq l'
  rw [heq, hdevices id l hid hget]
  exact link?_eq_some.2 ⟨id, hid, Devices.get?_put hget _⟩

theorem board_restored (m : Machine δ) (p : Snapshot) (cpus : PerSide Cpu) (scheduler : Scheduler)
    (s : Side) :
    (m.restored p cpus scheduler).board s = { m.board s with
      cpu := cpus.get s
      memory := (m.board s).memory.replaceBuffer (m.ramBuffers.get s) (p.ram.get s) } := by
  unfold restored
  cases p.link with
  | none => cases s <;> rfl
  | some l =>
    obtain ⟨devices, heq, -⟩ := setLink_eq _ l
    dsimp only [Option.elim]
    rw [heq]
    cases s <;> rfl

theorem fields_restored (m : Machine δ) (p : Snapshot) (cpus : PerSide Cpu)
    (scheduler : Scheduler) :
    (m.restored p cpus scheduler).config = m.config ∧
      (m.restored p cpus scheduler).scheduler = scheduler ∧
      (m.restored p cpus scheduler).ramBuffers = m.ramBuffers ∧
      (m.restored p cpus scheduler).linkId = m.linkId := by
  unfold restored
  cases p.link with
  | none => exact ⟨rfl, rfl, rfl, rfl⟩
  | some l =>
    obtain ⟨devices, heq, -⟩ := setLink_eq _ l
    dsimp only [Option.elim]
    rw [heq]
    exact ⟨rfl, rfl, rfl, rfl⟩

theorem link?_restored (hlink : m.linkId.isSome → m.link?.isSome) (hp : m.refusal? p = none)
    (cpus : PerSide Cpu) (scheduler : Scheduler) :
    (m.restored p cpus scheduler).link? = p.link := by
  obtain ⟨-, -, hsome⟩ := refusal?_eq_none hp
  unfold restored
  cases hl : p.link with
  | none =>
    rw [hl] at hsome
    have hid : m.linkId = none := by
      rw [← Option.not_isSome_iff_eq_none, ← hsome]
      simp
    show (m.linkId.bind _) = none
    rw [hid]
    rfl
  | some l =>
    rw [hl] at hsome
    obtain ⟨l₀, hl₀⟩ := Option.isSome_iff_exists.1 (hlink hsome.symm)
    refine link?_setLink (l := l₀) ?_ l
    exact hl₀

theorem ram_restored (h : m.HasRam) (p : Snapshot) (cpus : PerSide Cpu) (scheduler : Scheduler)
    (s : Side) : (m.restored p cpus scheduler).ram s = p.ram.get s := by
  unfold ram
  rw [board_restored, (fields_restored m p cpus scheduler).2.2.1,
    MemoryMap.bytes?_replaceBuffer (by rw [h s]; decide)]
  rfl

theorem HasRam.load (h : m.HasRam) {r : Except StateError Unit} (hl : m.load p = .ok (r, m')) :
    m'.HasRam := by
  rcases load_of_hasRam h p with ⟨e, he⟩ | ⟨cpus, scheduler, hp, -, -, he⟩
  · rw [he] at hl
    cases hl
    exact h
  · rw [he] at hl
    cases hl
    refine h.of_retains (fields_restored m p cpus scheduler).2.2.1 fun s => ?_
    rw [board_restored]
    exact MemoryMap.retains_replaceBuffer (((refusal?_eq_none hp).2.1 s).trans (h s).symm)

/-- Reading a snapshot back gives a machine with that snapshot. -/
theorem save_restored (h : m.HasRam) (hlink : m.linkId.isSome → m.link?.isSome)
    {cpus : PerSide Cpu} {scheduler : Scheduler} (hp : m.refusal? p = none)
    (hcpus : ∀ s, Cpu.load (p.cpus.get s) = .ok (cpus.get s))
    (hscheduler : Scheduler.load p.scheduler = .ok scheduler) :
    (m.restored p cpus scheduler).save = p := by
  have hcpu : ∀ s, ((m.restored p cpus scheduler).board s).cpu.save = p.cpus.get s := fun s => by
    rw [board_restored]
    exact Cpu.save_of_load (hcpus s)
  have hcpus' : ((m.restored p cpus scheduler).hardware.boards.map fun b => b.cpu.save) = p.cpus :=
    congrArg₂ PerSide.mk (hcpu .main) (hcpu .sub)
  have hram := ram_restored h p cpus scheduler
  calc (m.restored p cpus scheduler).save
      = ⟨revision, p.cpus, p.scheduler, ⟨p.ram.main, p.ram.sub⟩, p.link⟩ := by
        unfold save
        rw [hcpus', hram, hram, link?_restored hlink hp, (fields_restored m p cpus scheduler).2.1,
          Scheduler.save_of_load hscheduler]
        rfl
    _ = p := by rw [← (refusal?_eq_none hp).1]

end TandemZ80.Machine
