import TandemZ80.Proofs.Cpu.Timeless
import TandemZ80.Proofs.Machine.Parts
import TandemZ80.Proofs.System

/-!
# Machines under other counts of T-states

Two machines that differ in nothing but the T-states that their processors have counted run alike,
until one of the counts overflows.

* `Hardware.SameButTicks`, and `Hardware.processors_unless`;
* `Machine.SameButTicks`, and `Machine.SameButTicks.execute`;
* `Machine.Snapshot.untimed`, a snapshot without the counts, and `Machine.SameButTicks.save_eq`.
-/

namespace TandemZ80

variable {δ : Type}

/-! ### Hardware -/

/-- The same hardware but for the counts of T-states. -/
structure Hardware.SameButTicks (h h' : Hardware δ) : Prop where
  cpu : ∀ s, (h.boards.get s).cpu.SameButTicks (h'.boards.get s).cpu
  plane : ∀ s, h'.plane s = h.plane s

namespace Hardware

variable {h h' : Hardware δ}

/-- One processor and its bus have changed. -/
theorem SameButTicks.settle (hh : h.SameButTicks h') (s : Side) {u v : Cpu} (huv : u.SameButTicks v)
    (b : Backplane (Part δ)) : (h.settle s u b).SameButTicks (h'.settle s v b) := by
  refine ⟨fun t => ?_, fun t => ?_⟩
  · rw [boards_settle, boards_settle]
    split_ifs
    · exact huv
    · exact hh.cpu t
  · rw [plane_settle, plane_settle, hh.plane t]

variable [Device δ]

/-- The processors do the same under other counts, unless a count overflows. -/
theorem processors_unless :
    (processors (δ := δ)).AlikeUnless (· = .overflow) SameButTicks processors where
  step := by
    intro s h h' hh
    show Dialogue.AlikeUnless _ _ (step s h) (step s h')
    obtain ⟨ticks, hcpu⟩ := hh.cpu s
    rw [step_eq, step_eq, hcpu, hh.plane s]
    refine ((Cpu.step_retime _ ticks).relay Backplane.serve (h.plane s)).bind ?_
    rintro ⟨⟨cost, u⟩, b⟩ ⟨⟨cost', v⟩, b'⟩ ⟨⟨hcost, huv⟩, hb⟩
    cases hb
    exact .done ⟨hcost, hh.settle s huv b⟩
  skipIdle := by
    intro s n h h' hh
    show Fault.AlikeUnless _ _ (skipIdle s n h) (skipIdle s n h')
    obtain ⟨ticks, hcpu⟩ := hh.cpu s
    rw [skipIdle_eq, skipIdle_eq, hcpu, hh.plane s]
    exact (Cpu.advanceIdle_retime _ ticks ⟨n⟩).map fun u v huv => hh.settle s huv _

end Hardware

/-! ### Snapshots -/

/-- The snapshot of a processor without its count of T-states. -/
def Cpu.Snapshot.untimed (p : Snapshot) : Snapshot := { p with ticks := 0 }

theorem Cpu.SameButTicks.save_eq {s t : Cpu} (h : s.SameButTicks t) :
    t.save.untimed = s.save.untimed := by
  obtain ⟨ticks, rfl⟩ := h
  rfl

theorem Cpu.SameButTicks.isIdle_eq {s t : Cpu} (h : s.SameButTicks t) : t.isIdle = s.isIdle := by
  obtain ⟨ticks, rfl⟩ := h
  rfl

namespace Machine

/-- A snapshot without the counts of T-states. -/
def Snapshot.untimed (p : Snapshot) : Snapshot := { p with cpus := p.cpus.map Cpu.Snapshot.untimed }

/-! ### Machines -/

/-- The same machine but for the counts of T-states. -/
structure SameButTicks (m m' : Machine δ) : Prop where
  hardware : m.hardware.SameButTicks m'.hardware
  config : m'.config = m.config
  scheduler : m'.scheduler = m.scheduler
  ramBuffers : m'.ramBuffers = m.ramBuffers
  linkId : m'.linkId = m.linkId

variable {m m' : Machine δ}

theorem SameButTicks.save_eq (h : m.SameButTicks m') : m'.save.untimed = m.save.untimed := by
  have hcpus : m'.save.untimed.cpus = m.save.untimed.cpus :=
    congrArg₂ PerSide.mk (h.hardware.cpu .main).save_eq (h.hardware.cpu .sub).save_eq
  have hram : ∀ s, m'.ram s = m.ram s := fun s => by
    have hmemory : (m'.board s).memory = (m.board s).memory :=
      congrArg Backplane.memory (h.hardware.plane s)
    unfold ram
    rw [h.ramBuffers, hmemory]
  have hlink : m'.link? = m.link? := by
    have hdevices : m'.hardware.devices = m.hardware.devices :=
      congrArg Backplane.devices (h.hardware.plane .main)
    unfold link?
    rw [h.linkId, hdevices]
  show Snapshot.mk revision m'.save.untimed.cpus m'.scheduler.save ⟨m'.ram .main, m'.ram .sub⟩
    m'.link? = _
  rw [hcpus, h.scheduler, hram, hram, hlink]
  rfl

/-- A run under other counts goes the same way, unless a count overflows. -/
theorem SameButTicks.execute [Device δ] (h : m.SameButTicks m') (budget : UInt32) :
    Fault.AlikeUnless (· = .overflow) (System.Answers SameButTicks) (m.execute budget)
      (m'.execute budget) := by
  have hruns := runs_unless Hardware.processors_unless h.config h.scheduler
    (h.hardware.cpu .sub).isIdle_eq h.hardware budget
  rw [execute_eq, execute_eq]
  refine hruns.map ?_
  rintro ⟨n, scheduler, hardware⟩ ⟨n', scheduler', hardware'⟩ ⟨hn, hscheduler, hhardware⟩
  exact ⟨hn, hhardware, h.config, hscheduler.symm, h.ramBuffers, h.linkId⟩

end Machine
end TandemZ80
