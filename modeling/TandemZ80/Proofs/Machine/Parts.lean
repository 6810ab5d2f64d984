import TandemZ80.Machine.Snapshot
import TandemZ80.Proofs.Schedule.Alike

/-!
# Parts of a machine

What each change of a machine does, as a change of the fields of a record.

* `Hardware.step_eq` and `Hardware.skipIdle_eq`; `Hardware.plane_settle`, the buses afterwards;
* `withBoard_snd`, `withMemory_snd`, `withPorts_snd`, `withDevices_snd`, `updateCpu_eq`;
* `attachLink_of_none`, `write_eq` and `execute_eq`;
* `runs_unless` and `runs_alike`, runs of two machines whose processors go alike.
-/

namespace TandemZ80

theorem PerSide.get_set {α : Type} (p : PerSide α) (s t : Side) (a : α) :
    (p.set s a).get t = if t = s then a else p.get t := by
  cases s <;> cases t <;> rfl

/-! ### Hardware -/

namespace Hardware

variable {δ : Type}

/-- The bus of a processor. -/
def plane (h : Hardware δ) (s : Side) : Backplane (Part δ) :=
  ⟨(h.boards.get s).memory, (h.boards.get s).ports, h.devices⟩

/-- The hardware with a processor and its bus in another state. -/
def settle (h : Hardware δ) (s : Side) (cpu : Cpu) (b : Backplane (Part δ)) : Hardware δ :=
  ⟨h.boards.set s ⟨cpu, b.memory, b.ports⟩, b.devices⟩

theorem boards_settle (h : Hardware δ) (s t : Side) (cpu : Cpu) (b : Backplane (Part δ)) :
    (h.settle s cpu b).boards.get t = if t = s then ⟨cpu, b.memory, b.ports⟩ else h.boards.get t :=
  PerSide.get_set _ _ _ _

theorem plane_settle (h : Hardware δ) (s t : Side) (cpu : Cpu) (b : Backplane (Part δ)) :
    (h.settle s cpu b).plane t = if t = s then b else { h.plane t with devices := b.devices } := by
  unfold plane
  rw [boards_settle]
  split_ifs <;> rfl

theorem skipIdle_eq (s : Side) (n : UInt64) (h : Hardware δ) :
    skipIdle s n h =
      (fun cpu => h.settle s cpu (h.plane s)) <$> (h.boards.get s).cpu.advanceIdle ⟨n⟩ := by
  obtain ⟨⟨main, sub⟩, devices⟩ := h
  unfold skipIdle
  cases s <;> dsimp only [PerSide.split, PerSide.get]
  · cases main.cpu.advanceIdle ⟨n⟩ <;> rfl
  · cases sub.cpu.advanceIdle ⟨n⟩ <;> rfl

variable [Device δ]

theorem step_eq (s : Side) (h : Hardware δ) :
    step s h = (h.boards.get s).cpu.step.relay Backplane.serve (h.plane s) >>= fun r =>
      .done (r.1.1, h.settle s r.1.2 r.2) := by
  obtain ⟨⟨main, sub⟩, devices⟩ := h
  cases s <;> rfl

end Hardware

/-! ### Machines -/

namespace Machine

variable {δ α : Type} {m : Machine δ}

/-- A machine with another board. -/
def setBoard (m : Machine δ) (s : Side) (b : Board) : Machine δ :=
  { m with hardware := { m.hardware with boards := m.hardware.boards.set s b } }

theorem board_setBoard (m : Machine δ) (s t : Side) (b : Board) :
    (m.setBoard s b).board t = if t = s then b else m.board t :=
  PerSide.get_set _ _ _ _

theorem withBoard_snd (m : Machine δ) (s : Side) (f : Board → α × Board) :
    (m.withBoard s f).2 = m.setBoard s (f (m.board s)).2 := by
  obtain ⟨config, ⟨⟨main, sub⟩, devices⟩, scheduler, ramBuffers, linkId⟩ := m
  cases s <;> rfl

theorem withMemory_snd (m : Machine δ) (s : Side) (f : MemoryMap → α × MemoryMap) :
    (m.withMemory s f).2 =
      m.setBoard s { m.board s with memory := (f (m.board s).memory).2 } := by
  rw [withMemory, withBoard_snd]

theorem withMemory_fst (m : Machine δ) (s : Side) (f : MemoryMap → α × MemoryMap) :
    (m.withMemory s f).1 = (f (m.board s).memory).1 := by
  obtain ⟨config, ⟨⟨main, sub⟩, devices⟩, scheduler, ramBuffers, linkId⟩ := m
  cases s <;> rfl

theorem updateCpu_eq (m : Machine δ) (s : Side) (f : Cpu → Cpu) :
    m.updateCpu s f = m.setBoard s { m.board s with cpu := f (m.cpu s) } := by
  rw [updateCpu, withBoard_snd]
  rfl

theorem withPorts_snd (m : Machine δ) (s : Side) (f : Devices (Part δ) → Ports → α × Ports) :
    (m.withPorts s f).2 =
      m.setBoard s { m.board s with ports := (f m.hardware.devices (m.board s).ports).2 } := by
  obtain ⟨config, ⟨⟨main, sub⟩, devices⟩, scheduler, ramBuffers, linkId⟩ := m
  cases s <;> rfl

theorem withDevices_snd (m : Machine δ) (f : Devices (Part δ) → α × Devices (Part δ)) :
    (m.withDevices f).2 =
      { m with hardware := { m.hardware with devices := (f m.hardware.devices).2 } } := by
  obtain ⟨config, ⟨boards, devices⟩, scheduler, ramBuffers, linkId⟩ := m
  rfl

/-- What a new machine is made of. -/
theorem new_eq_ok {config : Config} (h : new config = .ok m) :
    m = { config
          hardware :=
            { boards := ⟨⟨.initial, .ofRam ⟨0⟩, .empty⟩, ⟨.initial, .ofRam ⟨1⟩, .empty⟩⟩
              devices := ⟨#[some .ram, some .ram]⟩ }
          scheduler := .initial, ramBuffers := .both ⟨0⟩, linkId := none } := by
  unfold new at h
  cases hv : config.validate with
  | error e =>
    rw [hv] at h
    cases h
  | ok u =>
    rw [hv] at h
    cases h
    rfl

variable [Device δ]

theorem write_eq (m : Machine δ) (s : Side) (a : UInt16) (v : UInt8) :
    m.write s a v = (fun r => { m with
      hardware :=
        { boards := m.hardware.boards.set s { m.board s with memory := r.1 },
          devices := r.2 } }) <$>
      (m.board s).memory.write a v m.hardware.devices := by
  obtain ⟨config, ⟨⟨main, sub⟩, devices⟩, scheduler, ramBuffers, linkId⟩ := m
  unfold write
  cases s <;> dsimp only [PerSide.split]
  · show (_ >>= _) = _ <$> main.memory.write a v devices
    cases main.memory.write a v devices <;> rfl
  · show (_ >>= _) = _ <$> sub.memory.write a v devices
    cases sub.memory.write a v devices <;> rfl

/-- Wire the link to the ports of a side. -/
def wired (devices : Devices (Part δ)) (id : DeviceId) (s : Side) (b : Board) : Board :=
  { b with ports := (b.ports.connect devices id (ParallelLink.connectors s)).2 }

theorem attachLink_of_none (h : m.linkId = none) :
    m.attachLink.2 =
      let (id, devices) := m.hardware.devices.add (.link .initial)
      { m with
        hardware :=
          { boards := ⟨wired devices id .main (m.board .main), wired devices id .sub (m.board .sub)⟩
            devices }
        linkId := some id } := by
  obtain ⟨config, ⟨⟨main, sub⟩, devices⟩, scheduler, ramBuffers, linkId⟩ := m
  obtain rfl : linkId = none := h
  rfl

theorem attachLink_of_some {id : DeviceId} (h : m.linkId = some id) : m.attachLink = (id, m) := by
  rw [attachLink, h]

/-- The run that `execute` lets the scheduler make. -/
def runs (m : Machine δ) (budget : UInt32) :
    Except Fault (UInt64 × Scheduler × Hardware δ) :=
  if m.config.idleSkip && (m.cpu .sub).isIdle then
    m.scheduler.execMain Hardware.processors budget m.hardware
  else m.scheduler.execBoth Hardware.processors m.config.ratio.weights budget m.hardware

theorem execute_eq (m : Machine δ) (budget : UInt32) :
    m.execute budget =
      (fun r => (r.1, { m with scheduler := r.2.1, hardware := r.2.2 })) <$> m.runs budget := by
  obtain ⟨config, hardware, scheduler, ramBuffers, linkId⟩ := m
  by_cases h : (config.idleSkip && hardware.boards.sub.cpu.isIdle) = true
  · have hruns : runs ⟨config, hardware, scheduler, ramBuffers, linkId⟩ budget =
        scheduler.execMain Hardware.processors budget hardware := if_pos h
    rw [hruns]
    unfold execute
    dsimp only
    rw [if_pos h]
    cases scheduler.execMain Hardware.processors budget hardware <;> rfl
  · have hruns : runs ⟨config, hardware, scheduler, ramBuffers, linkId⟩ budget =
        scheduler.execBoth Hardware.processors config.ratio.weights budget hardware := if_neg h
    rw [hruns]
    unfold execute
    dsimp only
    rw [if_neg h]
    cases scheduler.execBoth Hardware.processors config.ratio.weights budget hardware <;> rfl

section Runs

variable {m' : Machine δ} {T F : Fault → Prop} {V : Hardware δ → Hardware δ → Prop}

theorem runs_unless (hp : Hardware.processors.AlikeUnless T V Hardware.processors)
    (hconfig : m'.config = m.config) (hscheduler : m'.scheduler = m.scheduler)
    (hidle : (m'.cpu .sub).isIdle = (m.cpu .sub).isIdle) (hV : V m.hardware m'.hardware)
    (budget : UInt32) :
    Fault.AlikeUnless T (Scheduler.Results V) (m.runs budget) (m'.runs budget) := by
  unfold runs
  rw [hconfig, hscheduler, hidle]
  split_ifs
  · exact Scheduler.execMain_unless hp budget _ hV
  · exact Scheduler.execBoth_unless hp _ budget _ hV

theorem runs_alike (hp : Hardware.processors.Alike F V Hardware.processors)
    (hconfig : m'.config = m.config) (hscheduler : m'.scheduler = m.scheduler)
    (hidle : (m'.cpu .sub).isIdle = (m.cpu .sub).isIdle) (hV : V m.hardware m'.hardware)
    (budget : UInt32) : Fault.Alike (Scheduler.Results V) (m.runs budget) (m'.runs budget) :=
  (runs_unless hp.unless hconfig hscheduler hidle hV budget).of_false

end Runs

end Machine
end TandemZ80
