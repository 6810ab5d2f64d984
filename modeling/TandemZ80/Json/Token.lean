import TandemZ80.Hex
import TandemZ80.Json.Value

/-!
# JSON tokens

The characters of a JSON text group into tokens with blanks between them. The lexer is an automaton
over single characters.

* `Token`;
* the automata for numbers (`Numeral`) and strings (`Quoted`);
* `Lexer`, `Token.ofChars?`.
-/

namespace TandemZ80.Json

/-- A token of a JSON text. -/
inductive Token
  | openObject
  | closeObject
  | openArray
  | closeArray
  | comma
  | colon
  | str (t : Text)
  /-- A value without parts that is not a string. -/
  | atom (v : Json)

/-- The brackets and marks. -/
def Token.ofMark? (c : Char) : Option Token :=
  match c.toNat with
  | 0x7B => some .openObject
  | 0x7D => some .closeObject
  | 0x5B => some .openArray
  | 0x5D => some .closeArray
  | 0x2C => some .comma
  | 0x3A => some .colon
  | _ => none

/-- Blank, tab, line feed and carriage return. -/
def isBlank (c : Char) : Bool := c == ' ' || c == '\t' || c == '\n' || c == '\r'

/-! ### Numbers -/

/-- How far a number has been read. -/
inductive Numeral
  /-- After a minus sign: a digit has to come. -/
  | sign
  /-- A leading zero. No digit may follow. -/
  | zero
  | whole
  /-- After the point: a digit has to come. -/
  | point
  | fraction
  /-- After the exponent mark: a sign or a digit has to come. -/
  | mark
  /-- After the sign of the exponent: a digit has to come. -/
  | markSign
  | exponent
  deriving DecidableEq

namespace Numeral

/-- The start of a number. -/
def start? (c : Char) : Option Numeral :=
  if c = '-' then some sign
  else if c = '0' then some zero
  else if c.isDigit then some whole
  else none

/-- What follows the whole part. -/
def afterWhole? (c : Char) : Option Numeral :=
  if c = '.' then some point else if c = 'e' ∨ c = 'E' then some mark else none

/-- Go on with a character that belongs to the number. -/
def next? (n : Numeral) (c : Char) : Option Numeral :=
  match n with
  | sign => if c = '0' then some zero else if c.isDigit then some whole else none
  | zero => afterWhole? c
  | whole => if c.isDigit then some whole else afterWhole? c
  | point => if c.isDigit then some fraction else none
  | fraction =>
    if c.isDigit then some fraction else if c = 'e' ∨ c = 'E' then some mark else none
  | mark =>
    if c.isDigit then some exponent else if c = '+' ∨ c = '-' then some markSign else none
  | markSign | exponent => if c.isDigit then some exponent else none

/-- Whether the number may end here. -/
def isComplete : Numeral → Bool
  | zero | whole | fraction | exponent => true
  | sign | point | mark | markSign => false

/-- The number that a string of decimal digits writes. -/
def ofDigits (cs : List Char) : Nat := cs.foldl (fun n c => 10 * n + (c.toNat - 48)) 0

/-- The value of a complete number. -/
def toJson (n : Numeral) (cs : List Char) : Json :=
  if n = zero ∨ n = whole then
    match cs with
    | '-' :: ds => if ofDigits ds = 0 then .decimal cs else .int (-(ofDigits ds : Int))
    | ds => .int (ofDigits ds)
  else .decimal cs

end Numeral

/-! ### Strings -/

/-- How far a string has been read: the units so far, the last one first, and what is open. A unit
is the code of a character, or of one half of a surrogate pair. -/
inductive Quoted
  | body (units : List Nat)
  /-- After a backslash. -/
  | escape (units : List Nat)
  /-- After a backslash and a u, with the digits still to come and the number so far. -/
  | unicode (units : List Nat) (left : Nat) (n : Nat)

namespace Quoted

/-- The character that an escape letter stands for. -/
def escaped? (c : Char) : Option Nat :=
  match c with
  | '"' => some 0x22
  | '\\' => some 0x5C
  | '/' => some 0x2F
  | 'b' => some 0x08
  | 'f' => some 0x0C
  | 'n' => some 0x0A
  | 'r' => some 0x0D
  | 't' => some 0x09
  | _ => none

/-- Whether a unit is the first half of a surrogate pair. -/
def isHigh (n : Nat) : Bool := 0xD800 ≤ n && n < 0xDC00

/-- Whether a unit is the second half of a surrogate pair. -/
def isLow (n : Nat) : Bool := 0xDC00 ≤ n && n < 0xE000

/-- The characters that units stand for, if every half has its partner. -/
def chars? : List Nat → Option (List Char)
  | [] => some []
  | h :: l :: r =>
    if isHigh h then
      if isLow l then
        (chars? r).map (Char.ofNat (0x10000 + (h - 0xD800) * 0x400 + (l - 0xDC00)) :: ·)
      else none
    else if isLow h then none
    else (chars? (l :: r)).map (Char.ofNat h :: ·)
  | [u] => if isHigh u || isLow u then none else some [Char.ofNat u]

/-- The content with the given units. -/
def text (units : List Nat) : Text :=
  match chars? units with
  | some cs => .plain (String.ofList cs)
  | none => .unpaired

/-- Go on with a character: either the string goes on, or it ends with its content. -/
def next? (q : Quoted) (c : Char) : Option (Quoted ⊕ Text) :=
  match q with
  | body units =>
    if c = '"' then some (.inr (text units.reverse))
    else if c = '\\' then some (.inl (escape units))
    else if c.toNat < 0x20 then none
    else some (.inl (body (c.toNat :: units)))
  | escape units =>
    if c = 'u' then some (.inl (unicode units 4 0))
    else (escaped? c).map fun n => .inl (body (n :: units))
  | unicode units left n =>
    (Hex.value? c).map fun d =>
      let n := 16 * n + d
      .inl (if left ≤ 1 then body (n :: units) else unicode units (left - 1) n)

end Quoted

/-! ### The lexer -/

/-- What the lexer is inside of. -/
inductive Lexer.Mode
  | between
  /-- A word, with the letters still to come and the value it stands for. -/
  | word (left : List Char) (v : Json)
  /-- A number, with its characters so far, the last one first. -/
  | number (n : Numeral) (cs : List Char)
  | string (q : Quoted)

/-- A lexer at work: where it is, and the tokens so far, the last one first. -/
structure Lexer where
  mode : Lexer.Mode
  out : List Token

namespace Lexer

/-- Between tokens: skip a blank, or begin a token. -/
def begin? (out : List Token) (c : Char) : Option Lexer :=
  if isBlank c then some ⟨.between, out⟩
  else if c = '"' then some ⟨.string (.body []), out⟩
  else if c = 'n' then some ⟨.word ['u', 'l', 'l'] .null, out⟩
  else if c = 't' then some ⟨.word ['r', 'u', 'e'] (.bool true), out⟩
  else if c = 'f' then some ⟨.word ['a', 'l', 's', 'e'] (.bool false), out⟩
  else
    match Token.ofMark? c with
    | some t => some ⟨.between, t :: out⟩
    | none => (Numeral.start? c).map fun n => ⟨.number n [c], out⟩

/-- Read one character. -/
def step? (l : Lexer) (c : Char) : Option Lexer :=
  match l.mode with
  | .between => begin? l.out c
  | .word left v =>
    match left with
    | [d] => if c = d then some ⟨.between, .atom v :: l.out⟩ else none
    | d :: left => if c = d then some ⟨.word left v, l.out⟩ else none
    | [] => none
  | .number n cs =>
    match n.next? c with
    | some n => some ⟨.number n (c :: cs), l.out⟩
    | none => if n.isComplete then begin? (.atom (n.toJson cs.reverse) :: l.out) c else none
  | .string q =>
    match q.next? c with
    | some (.inl q) => some ⟨.string q, l.out⟩
    | some (.inr t) => some ⟨.between, .str t :: l.out⟩
    | none => none

/-- Read characters. -/
def feed? (l : Lexer) : List Char → Option Lexer
  | [] => some l
  | c :: cs =>
    match l.step? c with
    | some l => l.feed? cs
    | none => none

/-- The tokens, if no token is cut off at the end. -/
def finish? (l : Lexer) : Option (List Token) :=
  match l.mode with
  | .between => some l.out.reverse
  | .number n cs =>
    if n.isComplete then some (Token.atom (n.toJson cs.reverse) :: l.out).reverse else none
  | .word .. | .string _ => none

theorem feed?_append (l : Lexer) (cs ds : List Char) :
    l.feed? (cs ++ ds) = (l.feed? cs).bind fun l => l.feed? ds := by
  induction cs generalizing l with
  | nil => rfl
  | cons c cs ih =>
    simp only [List.cons_append, feed?]
    cases l.step? c with
    | none => rfl
    | some l => exact ih l

end Lexer

/-- The tokens of a text. -/
def Token.ofChars? (cs : List Char) : Option (List Token) :=
  (Lexer.feed? ⟨.between, []⟩ cs).bind Lexer.finish?

end TandemZ80.Json
