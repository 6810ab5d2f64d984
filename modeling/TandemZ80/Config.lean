import TandemZ80.Json.Parser
import TandemZ80.Json.Printer
import TandemZ80.Json.Record
import TandemZ80.Ticks

/-!
# Configuration

* `ClockRatio` and the weights it gives the two clocks;
* `Config`, `Config.standard`, `Config.validate`;
* reading and writing a configuration as text: `Config.parse`, `Config.render`.
-/

namespace TandemZ80

/-- The rate of the main processor to that of the sub processor. -/
inductive ClockRatio
  | oneToOne
  | twoToOne
  deriving DecidableEq

namespace ClockRatio

/-- How many units of common time a T-state of each processor counts for. -/
def weights : ClockRatio → PerSide UInt64
  | oneToOne => ⟨1, 1⟩
  | twoToOne => ⟨1, 2⟩

/-- How a ratio is written. -/
def name : ClockRatio → String
  | oneToOne => "1:1"
  | twoToOne => "2:1"

/-- Read a ratio. -/
def ofJson? : Json → Option ClockRatio :=
  Json.choice? ([oneToOne, twoToOne].map fun r => (r.name, r))

end ClockRatio

/-- What a machine is built from. -/
structure Config where
  ratio : ClockRatio
  /-- Leave a halted sub processor out of runs. -/
  idleSkip : Bool
  /-- The clock of the main processor. -/
  clock : MasterClock
  deriving DecidableEq

/-- Why a configuration was refused. -/
inductive ConfigError
  /-- The text is no configuration. -/
  | malformed
  | zeroClock
  deriving DecidableEq

/-- The wording of a refusal. -/
def ConfigError.message : ConfigError → String
  | malformed => "malformed configuration"
  | zeroClock => "main clock must be non-zero"

namespace Config

/-- Equal rates, a clock of 4 MHz, and halted time is skipped. -/
def standard : Config := { ratio := .oneToOne, idleSkip := true, clock := ⟨4000000⟩ }

instance : Inhabited Config := ⟨standard⟩

/-- A clock has to run. -/
def validate (c : Config) : Except ConfigError Unit :=
  if c.clock.hertz = 0 then .error .zeroClock else .ok ()

/-- A configuration as an object. -/
def toJson (c : Config) : Json :=
  .object
    [("clock_ratio", .string c.ratio.name),
      ("idle_skip", .bool c.idleSkip),
      ("main_clock_hz", .nat c.clock.hertz.toNat)]

/-- Read a configuration. What is missing is as in the standard one. -/
def ofJson? (j : Json) : Option Config := do
  let r ← j.record? ["clock_ratio", "idle_skip", "main_clock_hz"] true
  return {
    ratio := ← r.withDefault "clock_ratio" ClockRatio.ofJson? standard.ratio
    idleSkip := ← r.withDefault "idle_skip" Json.bool? standard.idleSkip
    clock := ⟨← r.withDefault "main_clock_hz" Json.count? standard.clock.hertz⟩ }

/-- A configuration as text. -/
def render (c : Config) : String := c.toJson.render

/-- Read a configuration from text. -/
def parse (text : String) : Except ConfigError Config :=
  match (Json.parse? text).bind ofJson? with
  | none => .error .malformed
  | some c => do
    c.validate
    return c

end Config
end TandemZ80
