/-!
# Hexadecimal text

* `Hex.digit`, `Hex.value?`, digits and their values;
* `Hex.digits`, a number with a fixed number of digits;
* `Hex.ofBytes`, `Hex.toBytes?`, two digits for each byte.
-/

namespace TandemZ80.Hex

/-- The digits from ten on come in either case. -/
inductive Letters
  | upper
  | lower
  deriving DecidableEq

/-- The character code of the digit ten. -/
def Letters.ten : Letters → Nat
  | upper => 65
  | lower => 97

/-- The digit of value `n`, which is below sixteen. -/
def digit (l : Letters) (n : Nat) : Char :=
  if n < 10 then Char.ofNat (48 + n) else Char.ofNat (l.ten + (n - 10))

/-- The value of a digit in either case. -/
def value? (c : Char) : Option Nat :=
  let n := c.toNat
  if 48 ≤ n ∧ n ≤ 57 then some (n - 48)
  else if 65 ≤ n ∧ n ≤ 70 then some (n - 55)
  else if 97 ≤ n ∧ n ≤ 102 then some (n - 87)
  else none

/-- The last `width` digits of `n`. -/
def digits (l : Letters) (width n : Nat) : List Char :=
  match width with
  | 0 => []
  | w + 1 => digits l w (n / 16) ++ [digit l (n % 16)]

/-- A byte in two digits. -/
def byte (v : UInt8) : String := String.ofList (digits .lower 2 v.toNat)

/-- A word in four digits. -/
def word (v : UInt16) : String := String.ofList (digits .lower 4 v.toNat)

/-- Bytes in two digits each. -/
def ofBytes (bytes : List UInt8) : List Char := bytes.flatMap fun v => digits .lower 2 v.toNat

/-- Read bytes of two digits each. -/
def toBytes? : List Char → Option (List UInt8)
  | [] => some []
  | [_] => none
  | a :: b :: rest =>
    match value? a, value? b with
    | some x, some y => (toBytes? rest).map (UInt8.ofNat (16 * x + y) :: ·)
    | _, _ => none

theorem value?_digit (l : Letters) {n : Nat} (h : n < 16) : value? (digit l n) = some n := by
  have : ∀ l ∈ [Letters.upper, .lower], ∀ n ∈ List.range 16, value? (digit l n) = some n := by
    decide
  exact this l (by cases l <;> simp) n (List.mem_range.mpr h)

end TandemZ80.Hex
