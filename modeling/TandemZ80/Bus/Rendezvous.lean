import TandemZ80.Dialogue

/-!
# The rendezvous

Two processors run in turns, each on a clock of its own. Before one touches a shared port it asks
whether its partner has come far enough; if not, it has to give its instruction up and try again. It
may also end its own turn early.

* `Rendezvous.Call`, `Rendezvous.Reply`; `Rendezvous.Program`, a program that asks for rendezvous;
* `Rendezvous.alone`, the answers for a processor without a partner.
-/

namespace TandemZ80.Rendezvous

/-- What a processor asks of its partner. -/
inductive Call
  /-- May a shared port be touched, so many T-states into the instruction? -/
  | sync (elapsed : Nat)
  /-- End this run in so many T-states. -/
  | stop (clocks : Nat)
  deriving DecidableEq

/-- What a call is answered by. -/
@[reducible] def Reply : Call → Type
  | .sync _ => Bool
  | .stop _ => Unit

/-- A program that asks for rendezvous. -/
abbrev Program (α : Type) : Type := Dialogue Reply α

/-- Without a partner every port may be touched at once. -/
def alone : Dialogue.Handler Reply Unit
  | .sync _, s => .ok (true, s)
  | .stop _, s => .ok ((), s)

end TandemZ80.Rendezvous
