import TandemZ80.Cpu.Snapshot
import TandemZ80.Machine.Basic

/-!
# Machine snapshots

A snapshot holds both processors with their RAM, the scheduler, and the parallel link if there is
one.

* `Machine.Snapshot`; `Machine.save`, `Machine.load`;
* its JSON form: `Snapshot.toJson`, `Snapshot.ofJson?`.
-/

namespace TandemZ80.Machine

variable {δ : Type} [Device δ]

/-- The stored state of a machine. -/
structure Snapshot where
  rev : UInt8
  cpus : PerSide Cpu.Snapshot
  scheduler : Scheduler.Snapshot
  ram : PerSide (Array UInt8)
  link : Option ParallelLink
  deriving DecidableEq

/-- The layout of snapshots. -/
def revision : UInt8 := 1

/-- Store a machine. -/
def save (m : Machine δ) : Snapshot :=
  { rev := revision
    cpus := m.hardware.boards.map fun b => b.cpu.save
    scheduler := m.scheduler.save
    ram := ⟨m.ram .main, m.ram .sub⟩
    link := m.link? }

/-- Why the machine cannot take a snapshot whatever its processors hold: another layout, RAM of
another size, or a link on one side only. -/
def refusal? (m : Machine δ) (p : Snapshot) : Option StateError :=
  if p.rev ≠ revision then some (.revision "machine" revision p.rev)
  else if p.ram.main.size ≠ ramSize then some (.invalid "machine" "main_ram")
  else if p.ram.sub.size ≠ ramSize then some (.invalid "machine" "sub_ram")
  else if p.link.isSome ≠ m.linkId.isSome then some (.invalid "machine" "port_link")
  else none

/-- Replace the latches of the link, if it is not gone. -/
def setLink (m : Machine δ) (l : ParallelLink) : Machine δ :=
  match m.linkId, m.link? with
  | some id, some _ => (m.withDevices fun ds => ((), ds.put id (some (.link l)))).2
  | _, _ => m

/-- Replace the RAM of a processor by as many bytes. -/
def setRam (m : Machine δ) (s : Side) (bytes : Array UInt8) : Except Fault (Machine δ) := do
  Fault.require ((m.ram s).size = bytes.size) .misuse
  return (m.withMemory s fun memory => ((), memory.replaceBuffer (m.ramBuffers.get s) bytes)).2

/-- Changes of a machine one after the other. They may be given up on the way, and what has been
changed by then stays. -/
abbrev Restoring (δ : Type) : Type → Type := ExceptT StateError (StateT (Machine δ) (Except Fault))

/-- Read a machine back, part by part. Everything is checked before anything changes. -/
def restore (p : Snapshot) : Restoring δ Unit := do
  if let some e := (← get).refusal? p then throw e
  let main ← liftExcept (Cpu.load p.cpus.main)
  let sub ← liftExcept (Cpu.load p.cpus.sub)
  let scheduler ← liftExcept (Scheduler.load p.scheduler)
  -- Nothing can be refused any more.
  modify fun m => (m.updateCpu .main fun _ => main).updateCpu .sub fun _ => sub
  modify fun m => { m with scheduler }
  set (← (← get).setRam .main p.ram.main)
  set (← (← get).setRam .sub p.ram.sub)
  if let some l := p.link then modify (·.setLink l)

/-- Read a machine back: the refusal, if there is one, and the machine after it. -/
def load (m : Machine δ) (p : Snapshot) : Except Fault (Except StateError Unit × Machine δ) :=
  (restore p).run.run m

/-! ### JSON -/

namespace Snapshot

/-- Bytes as an array of numbers. -/
def bytesToJson (bytes : Array UInt8) : Json := .arr (bytes.toList.map fun v => .nat v.toNat)

/-- Read bytes. -/
def bytesOfJson? (j : Json) : Option (Array UInt8) := do
  return (← (← j.items?).mapM Json.byte?).toArray

/-- A snapshot as an object. -/
def toJson (p : Snapshot) : Json :=
  .object
    [("rev", .nat p.rev.toNat), ("main", p.cpus.main.toJson), ("sub", p.cpus.sub.toJson),
      ("scheduler", p.scheduler.toJson), ("main_ram", bytesToJson p.ram.main),
      ("sub_ram", bytesToJson p.ram.sub),
      ("port_link", match p.link with | some l => l.toJson | none => .null)]

/-- Read a snapshot; only the link may be missing. -/
def ofJson? (j : Json) : Option Snapshot := do
  let r ← j.record?
    ["rev", "main", "sub", "scheduler", "main_ram", "sub_ram", "port_link"] false
  return {
    rev := ← r.required "rev" Json.byte?
    cpus := ⟨← r.required "main" Cpu.Snapshot.ofJson?, ← r.required "sub" Cpu.Snapshot.ofJson?⟩
    scheduler := ← r.required "scheduler" Scheduler.Snapshot.ofJson?
    ram := ⟨← r.required "main_ram" bytesOfJson?, ← r.required "sub_ram" bytesOfJson?⟩
    link := ← r.optional "port_link" ParallelLink.ofJson? }

end Snapshot
end TandemZ80.Machine
