import TandemZ80.Cpu.Query
import TandemZ80.Machine.Basic

/-!
# Observing a machine

* `Scheduler.observables`, `ParallelLink.observables`;
* `Machine.query`, `Machine.queryBelow`, `Machine.paths`. The paths of a processor are listed by one
  entry for all of them.
-/

namespace TandemZ80

/-- The paths of a scheduler. -/
def Scheduler.observables : Observables Scheduler :=
  [("main_clock", fun s => .count s.clocks.main),
    ("sub_clock", fun s => .count s.clocks.sub),
    ("main_target", fun s => .count s.targets.main),
    ("sub_target", fun s => .count s.targets.sub),
    ("sub_weight", fun s => .count s.weights.sub)]

/-- The paths of the parallel link. -/
def ParallelLink.observables : Observables ParallelLink :=
  [("main.data", fun l => .byte l.sides.main.data),
    ("main.ctrl", fun l => .byte l.sides.main.ctrl),
    ("sub.data", fun l => .byte l.sides.sub.data),
    ("sub.ctrl", fun l => .byte l.sides.sub.ctrl)]

namespace Machine

variable {δ : Type} [Device δ]

/-- The components of a machine by name, with what they show of a path. -/
def components (m : Machine δ) : List (String × (String → Option Value)) :=
  [("main", (m.cpu .main).query),
    ("sub", (m.cpu .sub).query),
    ("scheduler", Scheduler.observables.query m.scheduler),
    ("link", fun path => m.link?.bind fun l => ParallelLink.observables.query l path)]

/-- What a path shows. -/
def query (m : Machine δ) (path : String) : Option Value :=
  m.components.findSome? fun c => (below c.1 path).bind c.2

/-- What a path shows that begins with the name of the machine. -/
def queryBelow (m : Machine δ) (name path : String) : Option Value := (below name path).bind m.query

/-- The list of paths. -/
def paths : List String :=
  ["main.<z80_paths>", "sub.<z80_paths>"] ++
    Scheduler.observables.paths.map ("scheduler." ++ ·) ++
    ParallelLink.observables.paths.map ("link." ++ ·)

end Machine
end TandemZ80
