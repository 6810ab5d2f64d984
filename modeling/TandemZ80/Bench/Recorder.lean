import TandemZ80.Bench.Partner
import TandemZ80.Device.Basic
import TandemZ80.Hex

/-!
# Devices on the bench

Devices for trying out a bus: one without any handler, and some that hold a byte and a little memory
and record what they are asked.

* `Recorder.Kind`, `Recorder`;
* `Recorder.Entry`, a recorded access, and `Entry.word`.
-/

namespace TandemZ80.Bench

namespace Recorder

/-- The kinds of recording devices. -/
inductive Kind
  /-- Inputs give the byte. -/
  | latch
  /-- Inputs give the byte, outputs change it. -/
  | echo
  /-- Inputs and outputs mix the byte with the number of their function. -/
  | bank
  /-- Without functions. -/
  | none
  deriving DecidableEq

/-- An access that was recorded. -/
inductive Entry
  | input (func : Nat) (port : UInt16) (v : UInt8)
  | output (func : Nat) (port : UInt16) (v : UInt8)
  | read (a : UInt16) (v : UInt8)
  | write (a : UInt16) (v : UInt8)
  | reset
  deriving DecidableEq

/-- How an access is written. -/
def Entry.word : Entry → String
  | input func port v => "i" ++ access func port v
  | output func port v => "o" ++ access func port v
  | read a v => "r" ++ Hex.word a ++ "=" ++ Hex.byte v
  | write a v => "w" ++ Hex.word a ++ "=" ++ Hex.byte v
  | reset => "reset"
where
  access (func : Nat) (port : UInt16) (v : UInt8) : String :=
    decimal func ++ ":" ++ String.ofList (Nat.toDigits 16 port.toNat) ++ "=" ++ Hex.byte v

/-- What a recording device publishes. -/
def Kind.descriptor : Kind → Descriptor
  | latch => ⟨"latch", ["status"], ["command"]⟩
  | echo => ⟨"echo", ["data"], ["data"]⟩
  | bank => ⟨"bank", ["x", "y", "z"], ["x", "y"]⟩
  | none => ⟨"none", [], []⟩

end Recorder

/-- A device on the bench. -/
inductive Recorder
  /-- A device without handlers of its own. -/
  | plain
  /-- A recording device; the last entry of its log comes first. -/
  | recording (kind : Recorder.Kind) (value : UInt8) (memory : Vector UInt8 16)
      (log : List Recorder.Entry)

namespace Recorder

/-- A new recording device. -/
def new (kind : Kind) (value : UInt8) : Recorder :=
  recording kind value (Vector.replicate 16 0) []

/-- What a device publishes. -/
def descriptor : Recorder → Descriptor
  | plain => ⟨"plain", ["a"], ["a"]⟩
  | recording kind .. => kind.descriptor

/-- Answer an input. -/
def input (func : Nat) (port : UInt16) : Recorder → UInt8 × Recorder
  | plain => (0xFF, plain)
  | recording kind value memory log =>
    let v :=
      match kind with
      | .bank => value ^^^ UInt8.ofNat (func * 0x11) ^^^ UInt8.ofNat port.toNat
      | _ => value
    (v, recording kind value memory (.input func port v :: log))

/-- Take an output. -/
def output (func : Nat) (port : UInt16) (v : UInt8) : Recorder → Recorder
  | plain => plain
  | recording kind value memory log =>
    let value :=
      match kind with
      | .echo => v
      | .bank => v ^^^ UInt8.ofNat func
      | _ => value
    recording kind value memory (.output func port v :: log)

/-- Answer a read of memory. -/
def memRead (a : UInt16) : Recorder → UInt8 × Recorder
  | plain => (0xFF, plain)
  | recording kind value memory log =>
    let v := memory[a.toNat % 16]
    (v, recording kind value memory (.read a v :: log))

/-- Take a write to memory. -/
def memWrite (a : UInt16) (v : UInt8) : Recorder → Recorder
  | plain => plain
  | recording kind value memory log =>
    recording kind value (memory.set (a.toNat % 16) v) (.write a v :: log)

/-- Back to the power-on state. -/
def reset : Recorder → Recorder
  | plain => plain
  | recording kind _ _ _ => recording kind 0 (Vector.replicate 16 0) [.reset]

instance : Device Recorder where
  descriptor := descriptor
  input d func port := .ok (d.input func port)
  output d func port v := .ok (d.output func port v)
  memRead d a := .ok (d.memRead a)
  memWrite d a v := .ok (d.memWrite a v)
  reset := reset

end Recorder
end TandemZ80.Bench
