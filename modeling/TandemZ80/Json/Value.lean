/-!
# JSON values

* `Text`, the content of a string. An escape can name one half of a surrogate pair on its own; such
  content is no text, but it is a JSON string all the same;
* `Json`, a value. Members of an object keep their order, and a name may come twice. Whole numbers
  are apart from numbers with a fraction or an exponent, which keep their written form.
-/

namespace TandemZ80

/-- The content of a JSON string. -/
inductive Text
  | plain (s : String)
  /-- Half of a surrogate pair stands alone in it. -/
  | unpaired
  deriving DecidableEq

/-- A JSON value. -/
inductive Json
  | null
  | bool (b : Bool)
  /-- A whole number. -/
  | int (n : Int)
  /-- A number with a fraction or an exponent, or a negative zero, as it is written. -/
  | decimal (digits : List Char)
  | str (t : Text)
  | arr (items : List Json)
  | obj (members : List (Text × Json))

namespace Json

instance : Inhabited Json := ⟨null⟩

/-- A string value. -/
def string (s : String) : Json := str (.plain s)

/-- A count as a value. -/
def nat (n : Nat) : Json := int n

/-- An object with plain names. -/
def object (members : List (String × Json)) : Json :=
  obj (members.map fun m => (.plain m.1, m.2))

/-- The value of a yes or no. -/
def bool? : Json → Option Bool
  | bool b => some b
  | _ => none

/-- The value of a whole number below `bound`. -/
def nat? (bound : Nat) : Json → Option Nat
  | int n => if 0 ≤ n ∧ n < bound then some n.toNat else none
  | _ => none

/-- The value of a byte. -/
def byte? (j : Json) : Option UInt8 := (j.nat? UInt8.size).map UInt8.ofNat

/-- The value of a word. -/
def word? (j : Json) : Option UInt16 := (j.nat? UInt16.size).map UInt16.ofNat

/-- The value of a counter. -/
def count? (j : Json) : Option UInt64 := (j.nat? UInt64.size).map UInt64.ofNat

/-- The items of an array. -/
def items? : Json → Option (List Json)
  | arr items => some items
  | _ => none

theorem nat?_nat {bound n : Nat} (h : n < bound) : (nat n).nat? bound = some n := by
  simp [nat, nat?, h]

@[simp] theorem count?_nat (v : UInt64) : (nat v.toNat).count? = some v := by
  simp [count?, nat?_nat v.toNat_lt]

end Json
end TandemZ80
