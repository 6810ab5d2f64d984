import TandemZ80.Bench.Partner
import TandemZ80.Schedule.Run

/-!
# Scripted processors

To try out a schedule, both processors follow a script: a circular list of instructions, each with
its length and what it does on the way.

* `Act`, `Instruction`, `Actor`, `Stage`;
* `Entry`, what is recorded of a step, and `Entry.word`;
* `Stage.processors`.
-/

namespace TandemZ80.Bench.Script

/-- What an instruction does on the way. -/
inductive Act
  /-- Touch a shared port. -/
  | sync (elapsed : Nat)
  /-- End the run. -/
  | stop (clocks : Nat)
  deriving DecidableEq

/-- An instruction of a script. -/
structure Instruction where
  length : Nat
  acts : List Act

/-- A processor that follows a script. -/
structure Actor where
  script : Array Instruction
  position : Nat
  /-- The time it was credited with. -/
  skipped : Nat

/-- The start of a script. -/
def Actor.ofScript (script : Array Instruction) : Actor := { script, position := 0, skipped := 0 }

/-- How a step went. -/
inductive Outcome
  | finished (length : Nat)
  | refused (elapsed : Nat)
  deriving DecidableEq

/-- What is recorded. -/
inductive Entry
  /-- A step, with the acts that were done. -/
  | step (side : Side) (done : List Act) (outcome : Outcome)
  | skip (side : Side) (clocks : Nat)
  deriving DecidableEq

/-- How an entry is written. -/
def Entry.word : Entry → String
  | step side done outcome => letter side ++ String.join (done.map act) ++ result outcome
  | skip side clocks => letter side ++ "~" ++ decimal clocks
where
  letter : Side → String
    | .main => "m"
    | .sub => "s"
  act : Act → String
    | .sync elapsed => "!" ++ decimal elapsed
    | .stop clocks => "h" ++ decimal clocks
  result : Outcome → String
    | .finished length => "+" ++ decimal length
    | .refused elapsed => "?" ++ decimal elapsed

/-- Both processors. -/
structure Stage where
  actors : PerSide Actor
  /-- How many steps may still be taken. -/
  patience : Nat
  /-- What happened, the last entry first. -/
  log : List Entry

/-- Do the acts of an instruction, up to one that is refused. `done` are the acts before, the last
one first. -/
def play (length : Nat) : List Act → List Act → Rendezvous.Program (List Act × Outcome)
  | done, [] => .done (done.reverse, .finished length)
  | done, .stop clocks :: acts => .ask (.stop clocks) fun _ =>
    play length (.stop clocks :: done) acts
  | done, .sync elapsed :: acts =>
    .ask (.sync elapsed) fun (granted : Bool) =>
      if granted then play length (.sync elapsed :: done) acts
      else .done (done.reverse, .refused elapsed)

namespace Stage

/-- Take one step. A refused step stays where it is. -/
def step (side : Side) (g : Stage) : Rendezvous.Program (Nat × Stage) :=
  let actor := g.actors.get side
  match g.patience, actor.script[actor.position]? with
  | 0, _ => .fail .exhausted
  | _, none => .fail .outOfBounds
  | patience + 1, some i => do
    let (done, outcome) ← play i.length [] i.acts
    let log := .step side done outcome :: g.log
    match outcome with
    | .refused _ => return (0, { g with patience, log })
    | .finished length =>
      let actor := { actor with position := (actor.position + 1) % actor.script.size }
      return (length, { actors := g.actors.set side actor, patience, log })

/-- Credit an actor with time. -/
def skipIdle (side : Side) (clocks : UInt64) (g : Stage) : Stage :=
  let actor := g.actors.get side
  { g with
    actors := g.actors.set side { actor with skipped := actor.skipped + clocks.toNat }
    log := .skip side clocks.toNat :: g.log }

/-- The scripted processors. -/
def processors : Processors Stage where
  step := step
  skipIdle side clocks g := .ok (g.skipIdle side clocks)

end Stage
end TandemZ80.Bench.Script
