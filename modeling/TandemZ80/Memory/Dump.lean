import TandemZ80.Decimal
import TandemZ80.Memory.Map

/-!
# Showing memory

* `Mapping.text`, what lies in a page;
* `nonzeroRuns`, the parts of a memory that hold anything.
-/

namespace TandemZ80

/-- How a mapping is written: the buffer and the offset, or the device. -/
def Mapping.text : Mapping → String
  | direct b offset => "D" ++ decimal b.index ++ "+" ++ decimal offset
  | routed device => "C" ++ decimal device.index
  | unmapped => "U"

/-- Runs of bytes, each with its start, with one more byte before them. -/
def addByte : UInt8 × Nat → List (Nat × List UInt8) → List (Nat × List UInt8)
  | (v, i), runs =>
    if v = 0 then runs
    else
      match runs with
      | (next, run) :: rest =>
        if next = i + 1 then (i, v :: run) :: rest else (i, [v]) :: runs
      | [] => [(i, [v])]

/-- The maximal runs of bytes that are not zero. -/
def nonzeroRuns (bytes : Array UInt8) : List (Nat × List UInt8) :=
  bytes.toList.zipIdx.foldr addByte []

end TandemZ80
