import TandemZ80.Bus.Rendezvous
import TandemZ80.Side
import TandemZ80.Ticks

/-!
# Lanes

In a run both processors take steps in turn, each in a *lane* of its own. A lane counts its own
T-states; its *time*, by which lanes are compared, is that count times its weight. A lane that
touches a shared port before its partner has come as far is refused, and *waits* at that time until
the partner has caught up.

* `Lane`; `Lane.time`, `Lane.reaches`, `Lane.awaits`;
* `Lane.turnAt?`, when a lane would go on if it may, and `Lanes.pick`, which lane goes on;
* `Lanes.answer`, the answers to a processor that is taking a step;
* `Lanes.advance`, the end of its step.
-/

namespace TandemZ80

/-- The part of one processor in a run. -/
structure Lane where
  /-- Its own T-states. -/
  clock : UInt64
  /-- How much a T-state counts for. -/
  weight : UInt64
  /-- The time at which the run ends for it. -/
  goal : Nat
  /-- The time at which it waits for its partner. -/
  demand : Option Nat
  /-- It takes no steps in this run, and does not hold its partner back. -/
  parked : Bool
  deriving DecidableEq

namespace Lane

/-- How far a lane has come. -/
def time (l : Lane) : Nat := l.clock.toNat * l.weight.toNat

/-- A waiting lane will not touch anything before the time at which it waits, and another one
nothing before its own time. -/
def reaches (l : Lane) (t : Nat) : Bool := l.parked || t ≤ l.demand.getD l.time

/-- Whether a lane waits for its partner to come beyond `t`. -/
def awaits (l : Lane) (t : Nat) : Bool := !l.parked && l.demand.any (t < ·)

/-- The time at which a lane goes on, if it may: a waiting lane as soon as its partner has caught
up, another one until its goal, and beyond it while its partner waits for it. -/
def turnAt? (l partner : Lane) : Option Nat :=
  if l.parked then none
  else
    match l.demand with
    -- Nothing to try again before the partner has caught up.
    | some d => if partner.reaches d then some d else none
    | none => if l.time < l.goal || partner.awaits l.time then some l.time else none

/-- The time of a lane fits a counter. -/
def Fits (l : Lane) : Prop := l.parked ∨ l.time < UInt64.size

instance (l : Lane) : Decidable l.Fits := inferInstanceAs (Decidable (_ ∨ _))

end Lane

/-- The lanes of a run. -/
abbrev Lanes : Type := PerSide Lane

namespace Lanes

/-- The lane that goes on: the earlier one; of two at the same time one that waits, and the main one
if both or neither do. -/
def pick (l : Lanes) : Option Side :=
  match l.main.turnAt? l.sub, l.sub.turnAt? l.main with
  | none, none => none
  | some _, none => some .main
  | none, some _ => some .sub
  | some a, some b =>
    if b < a ∨ (a = b ∧ l.sub.demand.isSome ∧ l.main.demand.isNone) then some .sub else some .main

/-- The lane that goes on, once it is sure that all times fit their counters. -/
def next (l : Lanes) : Except Fault (Option Side) := do
  Fault.require (l.main.Fits ∧ l.sub.Fits) .overflow
  return pick l

/-- A time so many T-states after that of the lane. -/
def ahead (l : Lane) (clocks : Nat) : Except Fault Nat := do
  let t := l.time + clocks * l.weight.toNat
  Fault.require (t < UInt64.size) .overflow
  return t

/-- Answer the processor in lane `s`. A shared port is granted if the partner has come as far. -/
def answer (s : Side) : Dialogue.Handler Rendezvous.Reply Lanes
  | .sync elapsed, l => do
    let own := l.get s
    let t ← ahead own elapsed
    if (l.get s.partner).reaches t then return (true, l.set s { own with demand := none })
    else return (false, l.set s { own with demand := some t })
  | .stop clocks, l => do
    let own := l.get s
    let t ← ahead own clocks
    return ((), l.set s { own with goal := min own.goal t })

/-- The end of a step. Its cost moves the clock. A step without cost that is not waiting ends the
run for its lane. -/
def advance (s : Side) (cost : Nat) (l : Lanes) : Except Fault Lanes :=
  let own := l.get s
  if 0 < cost then do
    let clock ← Counter.ofNat (own.clock.toNat + cost)
    return l.set s { own with clock, demand := none }
  else if own.demand.isNone then .ok (l.set s { own with goal := own.time })
  else .ok l

end Lanes
end TandemZ80
