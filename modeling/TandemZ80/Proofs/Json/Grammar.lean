import TandemZ80.Json.Printer
import TandemZ80.Json.Token
import Mathlib.Data.Int.Notation
import Mathlib.Data.Nat.Notation

/-!
# JSON texts

Which texts a value may be written as, as a grammar. Blanks may stand around values, names and
marks. A whole number is written in one way only; a number with a fraction or an exponent keeps its
written form. The characters of a string may be written as they are or as escapes, and what lies
beyond the first plane also as the two halves of a surrogate pair.

* `IsDecimal`, numbers that are not whole numbers;
* `StringText`, the ways to write a string, with `Content`, what the units written in it make up;
* `Phrase` and `Writes`, the grammar;
* `IsText`, a text of a value.
-/

namespace TandemZ80.Json

/-- Nothing but blanks. -/
def Blanks (cs : List Char) : Prop := ∀ c ∈ cs, isBlank c = true

/-! ### Numbers -/

/-- Decimal digits, at least one of them. -/
structure Digits (cs : List Char) : Prop where
  ne_nil : cs ≠ []
  isDigit : ∀ c ∈ cs, c.isDigit = true

/-- The fraction of a number, if there is one. -/
inductive Fraction : List Char → Prop
  | none : Fraction []
  | some {ds : List Char} (hds : Digits ds) : Fraction ('.' :: ds)

/-- The exponent of a number, if there is one. -/
inductive Exponent : List Char → Prop
  | none : Exponent []
  | some {mark : Char} {sign ds : List Char} (hmark : mark ∈ ['e', 'E'])
    (hsign : sign ∈ [[], ['+'], ['-']])
      (hds : Digits ds) : Exponent (mark :: (sign ++ ds))

/-- A number that is no whole number: it is a negative zero, or it has a fraction or an exponent. -/
inductive IsDecimal : List Char → Prop
  | negativeZero : IsDecimal ['-', '0']
  | parts {sign fs es : List Char} (hsign : sign ∈ [[], ['-']]) (n : ℕ) (hfs : Fraction fs)
      (hes : Exponent es) (hne : fs ++ es ≠ []) :
      IsDecimal (sign ++ (Nat.toDigits 10 n ++ (fs ++ es)))

/-! ### Strings -/

/-- The letters that stand for a unit behind a backslash. -/
def shortEscapes : List (Char × ℕ) :=
  [('"', 0x22), ('\\', 0x5C), ('/', 0x2F), ('b', 0x08), ('f', 0x0C), ('n', 0x0A), ('r', 0x0D),
    ('t', 0x09)]

/-- The ways to write a unit: a character, a letter behind a backslash, or four hexadecimal
digits. -/
inductive UnitText : ℕ → List Char → Prop
  | char (c : Char) (hc : 0x20 ≤ c.toNat) (hquote : c ≠ '"') (hslash : c ≠ '\\') :
      UnitText c.toNat [c]
  | short {c : Char} {u : ℕ} (hu : (c, u) ∈ shortEscapes) : UnitText u ['\\', c]
  | code {a b c d : Char} {i j k l : ℕ} (ha : Hex.value? a = some i) (hb : Hex.value? b = some j)
      (hc : Hex.value? c = some k) (hd : Hex.value? d = some l) :
      UnitText (16 * (16 * (16 * i + j) + k) + l) ['\\', 'u', a, b, c, d]

/-- The ways to write several units. -/
inductive UnitsText : List ℕ → List Char → Prop
  | nil : UnitsText [] []
  | cons {u : ℕ} {us : List ℕ} {cs ds : List Char} (hu : UnitText u cs) (hus : UnitsText us ds) :
      UnitsText (u :: us) (cs ++ ds)

/-- The characters that units make up: each unit is a character, or a half of one. -/
inductive Decodes : List ℕ → List Char → Prop
  | nil : Decodes [] []
  | char (c : Char) {us : List ℕ} {cs : List Char} (h : Decodes us cs) :
      Decodes (c.toNat :: us) (c :: cs)
  | pair {u w : ℕ} (hu : 0xD800 ≤ u ∧ u < 0xDC00) (hw : 0xDC00 ≤ w ∧ w < 0xE000) {c : Char}
      (hc : c.toNat = 0x10000 + (u - 0xD800) * 0x400 + (w - 0xDC00)) {us : List ℕ} {cs : List Char}
      (h : Decodes us cs) : Decodes (u :: w :: us) (c :: cs)

/-- The content that units make up. -/
def Content (us : List ℕ) : Text → Prop
  | .plain s => Decodes us s.toList
  | .unpaired => ∀ cs, ¬Decodes us cs

/-- The ways to write a string. -/
inductive StringText : Text → List Char → Prop
  | quoted {t : Text} {us : List ℕ} {cs : List Char} (hus : UnitsText us cs) (ht : Content us t) :
      StringText t ('"' :: (cs ++ ['"']))

/-! ### Values -/

/-- What is written, with what it stands for. -/
inductive Phrase
  | value (v : Json)
  /-- A value between blanks. -/
  | element (v : Json)
  /-- What an array holds between its brackets. -/
  | elements (vs : List Json)
  | member (m : Text × Json)
  /-- What an object holds between its brackets. -/
  | members (ms : List (Text × Json))

/-- The grammar: the characters that a phrase may be written with. -/
inductive Writes : Phrase → List Char → Prop
  | null : Writes (.value .null) ['n', 'u', 'l', 'l']
  | true : Writes (.value (.bool true)) ['t', 'r', 'u', 'e']
  | false : Writes (.value (.bool false)) ['f', 'a', 'l', 's', 'e']
  | int (n : ℤ) : Writes (.value (.int n)) (digits n)
  | decimal {cs : List Char} (hcs : IsDecimal cs) : Writes (.value (.decimal cs)) cs
  | str {t : Text} {cs : List Char} (ht : StringText t cs) : Writes (.value (.str t)) cs
  | emptyArray {bs : List Char} (hbs : Blanks bs) : Writes (.value (.arr [])) ('[' :: (bs ++ [']']))
  | array {vs : List Json} {cs : List Char} (hvs : Writes (.elements vs) cs) :
      Writes (.value (.arr vs)) ('[' :: (cs ++ [']']))
  | emptyObject {bs : List Char} (hbs : Blanks bs) :
      Writes (.value (.obj [])) ('\x7b' :: (bs ++ ['\x7d']))
  | object {ms : List (Text × Json)} {cs : List Char} (hms : Writes (.members ms) cs) :
      Writes (.value (.obj ms)) ('\x7b' :: (cs ++ ['\x7d']))
  | element {v : Json} {bs cs bs' : List Char} (hbs : Blanks bs) (hv : Writes (.value v) cs)
      (hbs' : Blanks bs') : Writes (.element v) (bs ++ (cs ++ bs'))
  | lastElement {v : Json} {cs : List Char} (hv : Writes (.element v) cs) :
      Writes (.elements [v]) cs
  | nextElement {v : Json} {vs : List Json} {cs ds : List Char} (hv : Writes (.element v) cs)
      (hvs : Writes (.elements vs) ds) : Writes (.elements (v :: vs)) (cs ++ ',' :: ds)
  | member {name : Text} {v : Json} {bs cs bs' ds : List Char} (hbs : Blanks bs)
      (hname : StringText name cs) (hbs' : Blanks bs') (hv : Writes (.element v) ds) :
      Writes (.member (name, v)) (bs ++ (cs ++ (bs' ++ ':' :: ds)))
  | lastMember {m : Text × Json} {cs : List Char} (hm : Writes (.member m) cs) :
      Writes (.members [m]) cs
  | nextMember {m : Text × Json} {ms : List (Text × Json)} {cs ds : List Char}
      (hm : Writes (.member m) cs) (hms : Writes (.members ms) ds) :
      Writes (.members (m :: ms)) (cs ++ ',' :: ds)

/-- A text of a value: the value, with blanks around it and nothing else. -/
def IsText (v : Json) (text : String) : Prop := Writes (.element v) text.toList

end TandemZ80.Json
