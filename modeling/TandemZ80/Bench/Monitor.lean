import TandemZ80.Bench.Partner
import TandemZ80.Bus.Flat
import TandemZ80.Hex

/-!
# A monitored bus

A processor under test runs on flat memory. The monitor sits between the two: it records what the
processor does, and answers its rendezvous.

* `Event`, a recorded call, and `Event.word`;
* `Setup`, `Monitor`; `Monitor.bus`, and `Monitor.plainBus` with the four plain calls only.
-/

namespace TandemZ80.Bench

/-- A recorded call on the bus. -/
inductive Event
  | read (a : UInt16) (v : UInt8)
  | write (a : UInt16) (v : UInt8)
  | input (p : UInt16) (v : UInt8)
  | output (p : UInt16) (v : UInt8)
  | acknowledge (v : UInt8)
  | contact (c : Contact)
  deriving DecidableEq

/-- How a call is written. -/
def Event.word : Event → String
  | read a v => "r" ++ Hex.word a ++ "=" ++ Hex.byte v
  | write a v => "w" ++ Hex.word a ++ "=" ++ Hex.byte v
  | input p v => "i" ++ Hex.word p ++ "=" ++ Hex.byte v
  | output p v => "o" ++ Hex.word p ++ "=" ++ Hex.byte v
  | acknowledge v => "a=" ++ Hex.byte v
  | contact c => c.word

/-- How a monitor is set up. -/
structure Setup where
  /-- The ports that are shared, by the low byte of their addresses. -/
  sharedPorts : List UInt8
  /-- Let the processor fetch through windows. -/
  windows : Bool
  /-- Record reads, too. -/
  reads : Bool

/-- Flat memory under a monitor. -/
structure Monitor where
  flat : Flat
  /-- How many of the next rendezvous are refused. -/
  refusals : Nat
  /-- The recorded calls, the last one first. -/
  log : List Event

namespace Monitor

/-- Pass a call on to the flat bus. -/
def pass (q : Bus.Call) : Monitor → Except Fault (Bus.Reply q × Monitor)
  | ⟨flat, refusals, log⟩ =>
    match Flat.bus q flat with
    | .ok (r, flat) => .ok (r, ⟨flat, refusals, log⟩)
    | .error f => .error f

/-- Record a call. -/
def note (e : Event) : Monitor → Monitor
  | ⟨flat, refusals, log⟩ => ⟨flat, refusals, e :: log⟩

/-- Pass a call on and record it with its answer. -/
def passing (q : Bus.Call) (event : Bus.Reply q → Event) (m : Monitor) :
    Except Fault (Bus.Reply q × Monitor) :=
  match m.pass q with
  | .ok (r, m) => .ok (r, m.note (event r))
  | .error f => .error f

/-- Answer a rendezvous and record it. -/
def contact (q : Rendezvous.Call) : Monitor → Except Fault (Rendezvous.Reply q × Monitor)
  | ⟨flat, refusals, log⟩ =>
    match Partner.answer q ⟨refusals, []⟩ with
    | .ok (r, p) => .ok (r, ⟨flat, p.refusals, p.log.map .contact ++ log⟩)
    | .error f => .error f

/-- The monitored bus. -/
def bus (c : Setup) : Bus Monitor
  | .read a, m => if c.reads then m.passing (.read a) (.read a) else m.pass (.read a)
  | .write a v, m => m.passing (.write a v) fun _ => .write a v
  | .input p, m => m.passing (.input p) (.input p)
  | .output p v, m => m.passing (.output p v) fun _ => .output p v
  | .acknowledge, m => m.passing .acknowledge .acknowledge
  | .window a, m => if c.windows then m.pass (.window a) else .ok (none, m)
  | .readWindow w a, m => m.pass (.readWindow w a)
  | .isShared p, m => .ok (c.sharedPorts.contains (UInt8.ofNat p.toNat), m)
  | .sync elapsed, m => m.contact (.sync elapsed)
  | .stop clocks, m => m.contact (.stop clocks)

/-- The monitored bus as a plain one: all calls that a bus need not answer have their usual
answers. -/
def plainBus (c : Setup) : Bus Monitor :=
  Bus.Plain.toBus
    { read := fun a => bus c (.read a)
      write := fun a v => bus c (.write a v)
      input := fun p => bus c (.input p)
      output := fun p v => bus c (.output p v) }

end Monitor
end TandemZ80.Bench
