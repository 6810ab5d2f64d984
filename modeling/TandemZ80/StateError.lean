/-!
# Refused snapshots

A component refuses a snapshot of another layout, and one that holds a value it cannot take.
-/

namespace TandemZ80

/-- Why a component refused a snapshot. -/
inductive StateError
  /-- The snapshot has another layout. -/
  | revision (component : String) (expected found : UInt8)
  /-- A field holds a value that the component cannot take. -/
  | invalid (component field : String)
  deriving DecidableEq

/-- The wording of a refusal. -/
def StateError.message : StateError → String
  | revision component expected found =>
    s!"{component} state revision {found.toNat} is not supported (expected {expected.toNat})"
  | invalid component field => s!"{component} state field `{field}` is out of range"

end TandemZ80
