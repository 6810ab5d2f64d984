import TandemZ80.Json.Record
import TandemZ80.Ports
import TandemZ80.Side

/-!
# The parallel link

The two processors talk through a pair of latched ports. Each side has a data latch, which the other
side reads, and four handshake lines, which show up beside the reader's own lines.

| Port | input                               | output                    |
|------|-------------------------------------|---------------------------|
| `FC` | the partner's data                  |                           |
| `FD` | own data                            | own data                  |
| `FE` | own lines, then the partner's lines | own lines                 |
| `FF` |                                     | one line, or a mode       |

All four ports are shared, so no side sees its partner's latches from the future.

* `Latches`, `ParallelLink`; what a side reads and writes, and the device;
* `ParallelLink.connectors`, the wiring of a side;
* the JSON form.
-/

namespace TandemZ80

/-- What one side puts out. -/
structure Latches where
  data : UInt8
  /-- The lines are the high four bits; the others are low. -/
  ctrl : UInt8
  deriving DecidableEq

/-- No data, and all lines low. -/
def Latches.clear : Latches := { data := 0, ctrl := 0 }

/-- The latches of both sides. -/
structure ParallelLink where
  sides : PerSide Latches
  deriving DecidableEq

namespace ParallelLink

/-- The link at power-on. -/
def initial : ParallelLink := ⟨.both .clear⟩

instance : Inhabited ParallelLink := ⟨initial⟩

/-- What a side puts out. -/
def side (l : ParallelLink) (s : Side) : Latches := l.sides.get s

/-- Change what a side puts out. -/
def update (l : ParallelLink) (s : Side) (f : Latches → Latches) : ParallelLink :=
  ⟨l.sides.set s (f (l.side s))⟩

/-- The lines of a side, beside those of its partner. -/
def lines (l : ParallelLink) (s : Side) : UInt8 :=
  ((l.side s).ctrl &&& 0xF0) ||| ((l.side s.partner).ctrl >>> (4 : UInt8))

/-- Set or clear one line: bit 0 is its level and bits 1 to 3 its number. -/
def setLine (v : UInt8) (l : Latches) : Latches :=
  let bit := (1 : UInt8) <<< ((v >>> (1 : UInt8)) &&& 7)
  { l with ctrl := (if v &&& 1 ≠ 0 then l.ctrl ||| bit else l.ctrl &&& ~~~bit) &&& 0xF0 }

/-- An output to the control port. With bit 7 set it chooses a mode, which clears the side;
otherwise it sets or clears one line. -/
def control (v : UInt8) (l : Latches) : Latches :=
  if v &&& 0x80 ≠ 0 then .clear else setLine v l

/-! ### The device -/

/-- The functions of each side. -/
def descriptor : Descriptor :=
  { name := "port-link"
    inputs := ["main.a", "main.b", "main.c", "sub.a", "sub.b", "sub.c"]
    outputs := ["main.b", "main.c", "main.ctrl", "sub.b", "sub.c", "sub.ctrl"] }

/-- The functions that each side has in each list. -/
def functions : Nat := 3

/-- The number of the first function of a side. -/
def firstFunction : Side → Nat
  | .main => 0
  | .sub => functions

/-- The side that a function belongs to. -/
def sideOf (func : Nat) : Except Fault Side :=
  if func < functions then .ok .main
  else if func < 2 * functions then .ok .sub
  else .error .outOfBounds

/-- Answer an input. -/
def input (l : ParallelLink) (func : Nat) : Except Fault UInt8 := do
  let s ← sideOf func
  return match func - firstFunction s with
    | 0 => (l.side s.partner).data
    | 1 => (l.side s).data
    | _ => l.lines s

/-- Take an output. -/
def output (l : ParallelLink) (func : Nat) (v : UInt8) : Except Fault ParallelLink := do
  let s ← sideOf func
  return l.update s fun latches =>
    match func - firstFunction s with
    | 0 => { latches with data := v }
    | 1 => { latches with ctrl := v &&& 0xF0 }
    | _ => control v latches

instance : Device ParallelLink where
  descriptor _ := descriptor
  input l func _ := (·, l) <$> l.input func
  output l func _ v := l.output func v
  reset _ := initial

/-- The wiring of a side. -/
def connectors (s : Side) : List Connector :=
  let row (port : UInt16) (direction : Direction) (i : Nat) : Connector :=
    { port, direction, func := firstFunction s + i, shared := true }
  [row 0xFC .input 0, row 0xFD .input 1, row 0xFE .input 2,
    row 0xFD .output 0, row 0xFE .output 1, row 0xFF .output 2]

/-! ### JSON -/

/-- One side as an object. -/
def latchesToJson (l : Latches) : Json :=
  .object [("data", .nat l.data.toNat), ("ctrl", .nat l.ctrl.toNat)]

/-- Read one side. -/
def latchesOfJson? (j : Json) : Option Latches := do
  let r ← j.record? ["data", "ctrl"] false
  return { data := ← r.required "data" Json.byte?, ctrl := ← r.required "ctrl" Json.byte? }

/-- The link as an object. -/
def toJson (l : ParallelLink) : Json :=
  .object [("sides", .ofPerSide latchesToJson l.sides)]

/-- Read a link. -/
def ofJson? (j : Json) : Option ParallelLink := do
  let r ← j.record? ["sides"] false
  return ⟨← r.required "sides" (Json.perSide? latchesOfJson?)⟩

end ParallelLink
end TandemZ80
