import TandemZ80.Bus.Rendezvous
import TandemZ80.Decimal

/-!
# A partner on the bench

A processor under test needs no second processor: its rendezvous are answered by a partner that
refuses a given number of calls, grants all others, and records them.

* `Contact`, a recorded call, and `Contact.word`;
* `Partner`, `Partner.answer`.
-/

namespace TandemZ80.Bench

/-- A recorded rendezvous. -/
inductive Contact
  | granted (elapsed : Nat)
  | refused (elapsed : Nat)
  | stopped (clocks : Nat)
  deriving DecidableEq

/-- How a rendezvous is written. -/
def Contact.word : Contact → String
  | granted elapsed => "s" ++ decimal elapsed ++ "+"
  | refused elapsed => "s" ++ decimal elapsed ++ "-"
  | stopped clocks => "h" ++ decimal clocks

/-- A partner that grants or refuses whatever it is asked. -/
structure Partner where
  /-- How many of the next calls are refused. -/
  refusals : Nat
  /-- All calls, the last one first. -/
  log : List Contact

namespace Partner

/-- Answer a call. -/
def answer : Dialogue.Handler Rendezvous.Reply Partner
  | .sync elapsed, p =>
    match p.refusals with
    | 0 => .ok (true, { p with log := .granted elapsed :: p.log })
    | n + 1 => .ok (false, { refusals := n, log := .refused elapsed :: p.log })
  | .stop clocks, p => .ok ((), { p with log := .stopped clocks :: p.log })

end Partner
end TandemZ80.Bench
