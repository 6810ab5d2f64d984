/-!
# Decimal text

* `decimal`, a number in decimal digits.
-/

namespace TandemZ80

/-- A number in decimal digits, without leading zeros. -/
def decimal (n : Nat) : String := String.ofList (Nat.toDigits 10 n)

end TandemZ80
