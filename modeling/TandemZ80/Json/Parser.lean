import TandemZ80.Json.Token

/-!
# Reading JSON

The parser is a pushdown automaton over tokens. Values may nest to any depth.

* `Parser`, a parser at work, with the containers that are still open;
* `Json.parse?`, which reads a whole text.
-/

namespace TandemZ80.Json

/-- A container that waits for a value. Its parts so far come last first. -/
inductive Frame
  | items (done : List Json)
  | member (done : List (Text × Json)) (name : Text)

/-- A parser at work: what may come next, and the containers that are still open. -/
inductive Parser
  /-- A value has to come. -/
  | value (stack : List Frame)
  /-- An array was opened. -/
  | firstItem (stack : List Frame)
  | afterItem (done : List Json) (stack : List Frame)
  /-- An object was opened. -/
  | firstMember (stack : List Frame)
  /-- The name of another member has to come. -/
  | nextMember (done : List (Text × Json)) (stack : List Frame)
  | afterName (done : List (Text × Json)) (name : Text) (stack : List Frame)
  | afterMember (done : List (Text × Json)) (stack : List Frame)
  /-- A value was read to its end. -/
  | done (v : Json)

namespace Parser

/-- A value is complete; it goes into the innermost open container. -/
def deliver (v : Json) : List Frame → Parser
  | [] => done v
  | .items vs :: stack => afterItem (v :: vs) stack
  | .member ms name :: stack => afterMember ((name, v) :: ms) stack

/-- Begin a value. -/
def begin? (stack : List Frame) : Token → Option Parser
  | .str t => some (deliver (.str t) stack)
  | .atom v => some (deliver v stack)
  | .openArray => some (firstItem stack)
  | .openObject => some (firstMember stack)
  | .closeObject | .closeArray | .comma | .colon => none

/-- Read one token. -/
def step? : Parser → Token → Option Parser
  | value stack, t => begin? stack t
  | firstItem stack, .closeArray => some (deliver (.arr []) stack)
  | firstItem stack, t => begin? (.items [] :: stack) t
  | afterItem vs stack, .comma => some (value (.items vs :: stack))
  | afterItem vs stack, .closeArray => some (deliver (.arr vs.reverse) stack)
  | firstMember stack, .closeObject => some (deliver (.obj []) stack)
  | firstMember stack, .str name => some (afterName [] name stack)
  | nextMember ms stack, .str name => some (afterName ms name stack)
  | afterName ms name stack, .colon => some (value (.member ms name :: stack))
  | afterMember ms stack, .comma => some (nextMember ms stack)
  | afterMember ms stack, .closeObject => some (deliver (.obj ms.reverse) stack)
  | _, _ => none

/-- Read tokens. -/
def feed? (p : Parser) : List Token → Option Parser
  | [] => some p
  | t :: ts =>
    match p.step? t with
    | some p => p.feed? ts
    | none => none

/-- The value, if it was read to its end. -/
def finish? : Parser → Option Json
  | done v => some v
  | _ => none

theorem feed?_append (p : Parser) (ts us : List Token) :
    p.feed? (ts ++ us) = (p.feed? ts).bind fun p => p.feed? us := by
  induction ts generalizing p with
  | nil => rfl
  | cons t ts ih =>
    simp only [List.cons_append, feed?]
    cases p.step? t with
    | none => rfl
    | some p => exact ih p

end Parser

/-- The value that a list of tokens writes. -/
def ofTokens? (ts : List Token) : Option Json :=
  ((Parser.value []).feed? ts).bind Parser.finish?

/-- Read a text: one value, with blanks around it and nothing else. -/
def parse? (s : String) : Option Json := (Token.ofChars? s.toList).bind ofTokens?

end TandemZ80.Json
