import TandemZ80.Json.Value
import TandemZ80.Side

/-!
# Records in JSON

A record with named fields is written as an object. It can be read from an object, whose unknown
members are ignored, or from an array with the fields in their order.

* `Record`, the known fields that were found, and `Json.record?`;
* reading one field: `required`, `optional`, `withDefault`;
* `Json.choice?`, one of a few names; `Json.ofPerSide`, `Json.perSide?`, a value for each side.
-/

namespace TandemZ80

/-- The fields of a record that were found. -/
structure Record where
  found : List (String × Json)

namespace Json

/-- The members of an object with plain names. -/
def plainMembers? (ms : List (Text × Json)) : Option (List (String × Json)) :=
  ms.mapM fun m =>
    match m.1 with
    | .plain name => some (name, m.2)
    | .unpaired => none

/-- Read a record. In an object no field may come twice. An array must hold all fields, or, if
`short` is allowed, the first few; it may never hold more. -/
def record? (fields : List String) (short : Bool) : Json → Option Record
  | .obj ms => do
    let known := (← plainMembers? ms).filter fun m => fields.contains m.1
    if (known.map Prod.fst).Nodup then some ⟨known⟩ else none
  | .arr vs =>
    if vs.length = fields.length ∨ short ∧ vs.length < fields.length then some ⟨fields.zip vs⟩
    else none
  | _ => none

end Json

namespace Record

variable {α : Type}

/-- A field by its name. -/
def field? (r : Record) (name : String) : Option Json := r.found.lookup name

/-- A field that has to be there. -/
def required (r : Record) (name : String) (read : Json → Option α) : Option α :=
  (r.field? name).bind read

/-- A field that may be missing or null. -/
def optional (r : Record) (name : String) (read : Json → Option α) : Option (Option α) :=
  match r.field? name with
  | none | some .null => some none
  | some v => (read v).map some

/-- A field that takes a default where it is missing. -/
def withDefault (r : Record) (name : String) (read : Json → Option α) (default : α) : Option α :=
  match r.field? name with
  | none => some default
  | some v => read v

end Record

/-- One of a few named alternatives: its name, or an object with its name and null. -/
def Json.choice? {α : Type} (alternatives : List (String × α)) : Json → Option α
  | .str (.plain name) => alternatives.lookup name
  | .obj [(.plain name, .null)] => alternatives.lookup name
  | _ => none

/-- Two values, the main side's first. -/
def Json.ofPerSide {α : Type} (write : α → Json) (p : PerSide α) : Json :=
  .arr [write p.main, write p.sub]

/-- Read two values, the main side's first. -/
def Json.perSide? {α : Type} (read : Json → Option α) : Json → Option (PerSide α)
  | .arr [a, b] => do return ⟨← read a, ← read b⟩
  | _ => none

end TandemZ80
