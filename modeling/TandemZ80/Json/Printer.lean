import TandemZ80.Hex
import TandemZ80.Json.Value

/-!
# Writing JSON

Values are written without blanks, members in their order. In strings only what has to be escaped is
escaped, control characters by their letter if they have one.

* `quote`, a string between quotes;
* `Json.render`, the text of a value.
-/

namespace TandemZ80.Json

/-- A character inside a string. -/
def escapeChar (c : Char) : List Char :=
  match c with
  | '"' => ['\\', '"']
  | '\\' => ['\\', '\\']
  | '\x08' => ['\\', 'b']
  | '\x0C' => ['\\', 'f']
  | '\n' => ['\\', 'n']
  | '\r' => ['\\', 'r']
  | '\t' => ['\\', 't']
  | c =>
    if c.toNat < 0x20 then '\\' :: 'u' :: Hex.digits .lower 4 c.toNat else [c]

/-- The content of a string between quotes. Content that is no text is written as a lone half of a
surrogate pair. -/
def quote : Text → List Char
  | .plain s => '"' :: s.toList.flatMap escapeChar ++ ['"']
  | .unpaired => ['"', '\\', 'u', 'd', '8', '0', '0', '"']

/-- A whole number in decimal digits. -/
def digits : Int → List Char
  | .ofNat n => Nat.toDigits 10 n
  | .negSucc n => '-' :: Nat.toDigits 10 (n + 1)

mutual

/-- A value, followed by `rest`. -/
def chars : Json → List Char → List Char
  | .null, rest => 'n' :: 'u' :: 'l' :: 'l' :: rest
  | .bool true, rest => 't' :: 'r' :: 'u' :: 'e' :: rest
  | .bool false, rest => 'f' :: 'a' :: 'l' :: 's' :: 'e' :: rest
  | .int n, rest => digits n ++ rest
  | .decimal cs, rest => cs ++ rest
  | .str t, rest => quote t ++ rest
  | .arr vs, rest => '[' :: charsItems vs (']' :: rest)
  | .obj ms, rest => '\x7b' :: charsMembers ms ('\x7d' :: rest)

/-- The items of an array, separated by commas, followed by `rest`. -/
def charsItems : List Json → List Char → List Char
  | [], rest => rest
  | [v], rest => chars v rest
  | v :: vs, rest => chars v (',' :: charsItems vs rest)

/-- The members of an object, separated by commas, followed by `rest`. -/
def charsMembers : List (Text × Json) → List Char → List Char
  | [], rest => rest
  | [(name, v)], rest => quote name ++ ':' :: chars v rest
  | (name, v) :: ms, rest => quote name ++ ':' :: chars v (',' :: charsMembers ms rest)

end

/-- The text of a value. -/
def render (v : Json) : String := String.ofList (chars v [])

end TandemZ80.Json
