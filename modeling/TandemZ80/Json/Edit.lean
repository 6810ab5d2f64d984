import TandemZ80.Json.Value

/-!
# Editing JSON

* `Json.merge`, an object with the members of another one;
* `Json.path?`, the steps of a pointer, and `Json.edit?`, a value changed at one place.
-/

namespace TandemZ80.Json

/-- Set a member of an object, in its place or behind the others. -/
def setMember (name : Text) (v : Json) : List (Text × Json) → List (Text × Json)
  | [] => [(name, v)]
  | m :: ms => if m.1 = name then (name, v) :: ms else m :: setMember name v ms

/-- The members of the second object replace those of the first, or are added to it. -/
def merge : Json → Json → Json
  | .obj ms, .obj changes => .obj (changes.foldl (fun ms m => setMember m.1 m.2 ms) ms)
  | base, _ => base

/-- The steps of a pointer: each begins with a slash. -/
def path? (pointer : String) : Option (List String) :=
  match pointer.splitOn "/" with
  | "" :: steps => some (steps.map fun s => (s.replace "~1" "/").replace "~0" "~")
  | _ => none

/-- Change the value at a path: set it, or take it out if there is no new value. All but the last
step have to exist; the last one may also be a new member, or the end of an array. -/
def edit? (v : Option Json) : List String → Json → Option Json
  | [], _ => v
  | step :: path, .obj ms =>
    let name := Text.plain step
    match path, v with
    | [], none => some (.obj (ms.filter fun m => m.1 ≠ name))
    | [], some v => some (.obj (setMember name v ms))
    | path, v => do
      let child ← edit? v path (← ms.lookup name)
      return .obj (setMember name child ms)
  | step :: path, .arr vs => do
    let i ← if step = "-" then some vs.length else step.toNat?
    match path, v with
    | [], none => if i < vs.length then some (.arr (vs.eraseIdx i)) else none
    | [], some v =>
      if i < vs.length then some (.arr (vs.set i v))
      else if i = vs.length then some (.arr (vs ++ [v]))
      else none
    | path, v => do
      let child ← edit? v path (← vs[i]?)
      return .arr (vs.set i child)
  | _ :: _, _ => none

end TandemZ80.Json
