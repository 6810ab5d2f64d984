import TandemZ80.Proofs.Machine.Restore

/-!
# What can be done with a machine

A session is a machine with the handles of the images that were mapped so far. Operations are all
that can be done with it from outside, down to its devices, ports and memory.

* `Machine.Operation`, `Machine.system`;
* `Machine.Operation.sparesMemory`, the operations that leave memory alone;
* `Machine.Reached`, a machine after any operations;
* `Machine.Reached.hasRam`, and `Machine.load_all_or_nothing`, which holds of every machine that is
  reached.
-/

namespace TandemZ80.Machine

variable {δ : Type}

/-- What can be done with a machine. -/
inductive Operation (δ : Type)
  | execute (budget : UInt32)
  | reset
  | setIntLine (s : Side) (level : Bool)
  | nmi (s : Side)
  | read (s : Side) (a : UInt16)
  | write (s : Side) (a : UInt16) (v : UInt8)
  | loadRam (s : Side) (a : UInt16) (bytes : List UInt8)
  | loadRom (s : Side) (a : UInt16) (bytes : List UInt8)
  /-- Take away the image that the `n`-th `loadRom` mapped, if it mapped one. -/
  | unloadRom (n : ℕ)
  | attachLink
  | load (p : Snapshot)
  /-- Do anything to a processor. -/
  | cpu (s : Side) (f : Cpu → Cpu)
  /-- Work on the memory map of a processor. -/
  | memory (s : Side) (op : MemoryMap.Operation)
  /-- Rewire the ports of a processor. -/
  | ports (s : Side) (f : Devices (Part δ) → Ports → Ports)
  /-- Do anything to the devices. -/
  | devices (f : Devices (Part δ) → Devices (Part δ))

/-- What an operation answers. -/
inductive Answer
  | done
  | moved (n : UInt64)
  | byte (v : UInt8)
  | image (h : Option RomHandle)
  | device (id : DeviceId)
  | loaded (r : Except StateError Unit)
  | memory (a : MemoryMap.Answer)

/-- A machine, with what each `loadRom` has given. -/
structure Session (δ : Type) where
  machine : Machine δ
  images : List (Option RomHandle)

section System

variable [Device δ]

/-- Machines as a system. What shows of a machine is its snapshot. -/
def system : System (Operation δ) Answer Snapshot (Session δ) where
  perform
    | .execute budget, t =>
      (fun (n, machine) => (.moved n, { t with machine })) <$> t.machine.execute budget
    | .reset, t => .ok (.done, { t with machine := t.machine.reset })
    | .setIntLine s level, t =>
      .ok (.done, { t with machine := t.machine.updateCpu s (·.setIntLine level) })
    | .nmi s, t => .ok (.done, { t with machine := t.machine.updateCpu s Cpu.nmi })
    | .read s a, t => (fun (v, machine) => (.byte v, { t with machine })) <$> t.machine.read s a
    | .write s a v, t => (fun machine => (.done, { t with machine })) <$> t.machine.write s a v
    | .loadRam s a bytes, t => .ok (.done, { t with machine := t.machine.loadRam s a bytes })
    | .loadRom s a bytes, t =>
      let (image, machine) := t.machine.loadRom s a bytes
      .ok (.image image, { machine, images := t.images ++ [image] })
    | .unloadRom n, t =>
      let machine := (t.images[n]?.join).elim t.machine t.machine.unloadRom
      .ok (.done, { t with machine })
    | .attachLink, t =>
      let (id, machine) := t.machine.attachLink
      .ok (.device id, { t with machine })
    | .load p, t => (fun (r, machine) => (.loaded r, { t with machine })) <$> t.machine.load p
    | .cpu s f, t => .ok (.done, { t with machine := t.machine.updateCpu s f })
    | .memory s op, t => do
      let b := t.machine.board s
      let (a, memory, devices) ← MemoryMap.system.perform op (b.memory, t.machine.hardware.devices)
      let m := t.machine.setBoard s { b with memory }
      return (.memory a, { t with machine := (m.withDevices fun _ => ((), devices)).2 })
    | .ports s f, t =>
      .ok (.done, { t with machine := (t.machine.withPorts s fun ds p => ((), f ds p)).2 })
    | .devices f, t =>
      .ok (.done, { t with machine := (t.machine.withDevices fun ds => ((), f ds)).2 })
  view t := t.machine.save

/-- A machine that can be reached. -/
def Reached (m : Machine δ) : Prop :=
  ∃ config m₀ ops images, new config = .ok m₀ ∧ system.run ops ⟨m₀, []⟩ = .ok ⟨m, images⟩

end System

/-! ### Memory left alone -/

/-- The operations that leave the memory maps alone, and what lies in them. -/
def Operation.sparesMemory : Operation δ → Prop
  | .reset | .setIntLine .. | .nmi _ | .read .. | .attachLink | .cpu .. | .ports ..
  | .devices _ => True
  | _ => False

variable [Device δ]

theorem SameMemory.perform {op : Operation δ} {t : Session δ} {r : Answer × Session δ}
    (hr : system.perform op t = .ok r) (hop : op.sparesMemory) :
    SameMemory t.machine r.2.machine := by
  cases op with
  | reset =>
    cases hr
    exact ⟨rfl, fun s => by cases s <;> rfl⟩
  | setIntLine s level =>
    cases hr
    exact .updateCpu _ _ (·.setIntLine level)
  | nmi s =>
    cases hr
    exact .updateCpu _ _ _
  | cpu s f =>
    cases hr
    exact .updateCpu _ _ _
  | read s a =>
    obtain ⟨⟨v, machine⟩, he, rfl⟩ := Fault.map_eq_ok hr
    obtain ⟨⟨v, devices⟩, -, he⟩ := Fault.bind_eq_ok he
    cases he
    exact ⟨rfl, fun _ => rfl⟩
  | attachLink =>
    cases hr
    exact .attachLink _
  | ports s f =>
    cases hr
    rw [withPorts_snd]
    exact .setBoard rfl
  | devices f =>
    cases hr
    rw [withDevices_snd]
    exact ⟨rfl, fun _ => rfl⟩
  | _ => exact hop.elim

variable {m : Machine δ}

theorem HasRam.perform {op : Operation δ} {t : Session δ} {r : Answer × Session δ}
    (h : t.machine.HasRam) (hr : system.perform op t = .ok r) : r.2.machine.HasRam := by
  cases op with
  | execute budget =>
    obtain ⟨⟨n, machine⟩, he, rfl⟩ := Fault.map_eq_ok hr
    exact h.execute he
  | write s a v =>
    obtain ⟨machine, he, rfl⟩ := Fault.map_eq_ok hr
    exact h.write he
  | loadRam s a bytes =>
    cases hr
    exact h.loadRam s a bytes
  | loadRom s a bytes =>
    cases hr
    exact h.loadRom s a bytes
  | unloadRom n =>
    cases hr
    show ((t.images[n]?.join).elim t.machine t.machine.unloadRom).HasRam
    cases t.images[n]?.join with
    | none => exact h
    | some rom => exact h.unloadRom rom
  | load p =>
    obtain ⟨⟨r, machine⟩, he, rfl⟩ := Fault.map_eq_ok hr
    exact h.load he
  | memory s op =>
    obtain ⟨⟨a, memory, devices⟩, hop, hr⟩ := Fault.bind_eq_ok hr
    cases hr
    have hboard := h.setBoard (s := s) (b := { t.machine.board s with memory })
      (MemoryMap.retains_perform hop)
    exact hboard.withDevices fun _ => ((), devices)
  | _ => exact h.of_sameMemory (.perform hr trivial)

/-- Both processors of every machine have their RAM. -/
theorem Reached.hasRam (h : m.Reached) : m.HasRam := by
  obtain ⟨config, m₀, ops, images, hnew, hrun⟩ := h
  exact System.run_keeps (I := fun t => t.machine.HasRam) (P := fun _ => True)
    (fun op _ t r ht hr => ht.perform hr) (fun _ _ => trivial) (hasRam_new hnew) hrun

/-! ### Snapshots -/

/-- A machine that can be reached, with its link in place, refuses a snapshot and stays exactly as
it is, or takes it over, and then this very snapshot is what it saves. -/
theorem load_all_or_nothing (h : m.Reached) (hlink : m.linkId.isSome → m.link?.isSome)
    (p : Snapshot) :
    (∃ e, m.load p = .ok (.error e, m)) ∨ ∃ m', m.load p = .ok (.ok (), m') ∧ m'.save = p := by
  rcases load_of_hasRam h.hasRam p with he | ⟨cpus, scheduler, hp, hcpus, hscheduler, he⟩
  · exact .inl he
  · exact .inr ⟨_, he, save_restored h.hasRam hlink hp hcpus hscheduler⟩

/-- A machine with the link attached, and a snapshot of it in another layout. -/
theorem linked_load_all_or_nothing :
    ∃ m : Machine ParallelLink, m.Reached ∧ m.link? = some .initial ∧
      ((∃ e, m.load { m.save with rev := 2 } = .ok (.error e, m)) ∨
        ∃ m', m.load { m.save with rev := 2 } = .ok (.ok (), m') ∧
          m'.save = { m.save with rev := 2 }) ∧
      ((∃ e, m.load m.save = .ok (.error e, m)) ∨
        ∃ m', m.load m.save = .ok (.ok (), m') ∧ m'.save = m.save) := by
  obtain ⟨m₀, hnew⟩ : ∃ m₀ : Machine ParallelLink, new .standard = .ok m₀ := ⟨_, rfl⟩
  have hreached : m₀.attachLink.2.Reached := ⟨.standard, m₀, [.attachLink], [], hnew, rfl⟩
  have hlink : m₀.attachLink.2.link? = some .initial := by
    rw [new_eq_ok hnew]
    rfl
  have hlink' : m₀.attachLink.2.linkId.isSome → m₀.attachLink.2.link?.isSome := fun _ => by
    rw [hlink]
    rfl
  exact ⟨_, hreached, hlink, load_all_or_nothing hreached hlink' _,
    load_all_or_nothing hreached hlink' _⟩

end TandemZ80.Machine
