import TandemZ80.Decimal
import TandemZ80.Hex

/-!
# Observing a component

Every component answers queries by path: `pc`, `flags.z`, or `sub.pc` for a component inside
another. A component is described by a table of its paths, so the list of paths and the answers
cannot disagree.

* `Value`, what a query answers, and how it is written;
* `Observables`, a table of paths; `query`, `paths`;
* `below`, the part of a path inside a named component.
-/

namespace TandemZ80

/-- The answer to a query. -/
inductive Value
  | flag (b : Bool)
  | byte (b : UInt8)
  | word (w : UInt16)
  | count (n : UInt64)
  deriving DecidableEq

namespace Value

/-- Flags are words, bytes and words are hexadecimal with all their digits, counts are decimal. -/
def text : Value → String
  | flag b => if b then "true" else "false"
  | byte b => "0x" ++ String.ofList (Hex.digits .upper 2 b.toNat)
  | word w => "0x" ++ String.ofList (Hex.digits .upper 4 w.toNat)
  | count n => decimal n.toNat

end Value

/-- The paths of a component with state `σ`, and what each one shows. -/
abbrev Observables (σ : Type) : Type := List (String × (σ → Value))

namespace Observables

variable {σ : Type}

/-- The paths in their order. -/
def paths (o : Observables σ) : List String := o.map Prod.fst

/-- What `path` shows, if the component knows it. -/
def query (o : Observables σ) (s : σ) (path : String) : Option Value :=
  (o.lookup path).map fun view => view s

end Observables

/-! ### Paths inside a component -/

/-- What is left of `s` after `lead`, if `s` starts with it. -/
def dropLead : List Char → List Char → Option (List Char)
  | [], s => some s
  | c :: lead, d :: s => if c = d then dropLead lead s else none
  | _ :: _, [] => none

/-- The rest of `path` after `name` and a dot. -/
def below (name path : String) : Option String :=
  (dropLead (name.toList ++ ['.']) path.toList).map String.ofList

end TandemZ80
