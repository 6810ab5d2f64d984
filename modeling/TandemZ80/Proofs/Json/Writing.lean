import TandemZ80.Json.Printer
import TandemZ80.Proofs.Json.Reading

/-!
# What is written is a text

What is written for a value is one of its texts, if it has any: a number that keeps its written form
has to be a number, and everything else can be written. So what was written is read back.

* `unitText_escapeChar` and `stringText_quote`, characters and strings;
* `Phrase.chars` and `Writes.chars`, by induction on the grammar;
* `isText_render` and `parse?_render`;
* `Codec` and `Codec.Lawful`, any reader and printer that keep to the grammar, and `codec_lawful`.
-/

namespace TandemZ80.Json

/-! ### Strings -/

theorem unitText_escapeChar (c : Char) : UnitText c.toNat (escapeChar c) := by
  unfold escapeChar
  split
  case h_8 hquote hslash _ _ _ _ _ =>
    split_ifs with hc
    · have hdigit : ∀ n, Hex.value? (Hex.digit .lower (n % 16)) = some (n % 16) :=
        fun n => Hex.value?_digit .lower (Nat.mod_lt n (by decide))
      have hcode := UnitText.code (hdigit (c.toNat / 16 / 16 / 16)) (hdigit (c.toNat / 16 / 16))
        (hdigit (c.toNat / 16)) (hdigit c.toNat)
      have hvalue : 16 * (16 * (16 * (c.toNat / 16 / 16 / 16 % 16) + c.toNat / 16 / 16 % 16) +
          c.toNat / 16 % 16) + c.toNat % 16 = c.toNat := by omega
      rwa [hvalue] at hcode
    · exact .char c (by omega) hquote hslash
  all_goals exact .short (by decide)

theorem unitsText_escape (cs : List Char) :
    UnitsText (cs.map Char.toNat) (cs.flatMap escapeChar) := by
  induction cs with
  | nil => exact .nil
  | cons c cs ih => exact .cons (unitText_escapeChar c) ih

theorem decodes_map_toNat (cs : List Char) : Decodes (cs.map Char.toNat) cs := by
  induction cs with
  | nil => exact .nil
  | cons c cs ih => exact .char c ih

theorem stringText_quote (t : Text) : StringText t (quote t) := by
  cases t with
  | plain s => exact .quoted (unitsText_escape s.toList) (decodes_map_toNat s.toList)
  | unpaired =>
    have hhalf : UnitText (16 * (16 * (16 * 13 + 8) + 0) + 0) ['\\', 'u', 'd', '8', '0', '0'] :=
      .code rfl rfl rfl rfl
    exact .quoted (.cons hhalf .nil) fun cs h => nomatch Quoted.chars?_of_decodes h

/-! ### Values -/

/-- What is written for a phrase, followed by `rest`. -/
def Phrase.chars : Phrase → List Char → List Char
  | .value v, rest | .element v, rest => Json.chars v rest
  | .elements vs, rest => charsItems vs rest
  | .member m, rest => quote m.1 ++ ':' :: Json.chars m.2 rest
  | .members ms, rest => charsMembers ms rest

/-- No blanks are written around a value. -/
theorem Writes.element_of_value {v : Json} {cs : List Char} (h : Writes (.value v) cs) :
    Writes (.element v) cs := by
  have helement : Writes (.element v) ([] ++ (cs ++ [])) := .element nofun h nofun
  rwa [List.nil_append, List.append_nil] at helement

theorem Writes.member_of_element {name : Text} {v : Json} {cs : List Char}
    (h : Writes (.element v) cs) :
    Writes (.member (name, v)) (quote name ++ ':' :: cs) := by
  have hempty : Blanks [] := nofun
  exact .member hempty (stringText_quote name) hempty h

/-- What is written for a phrase that can be written is a text of it. -/
theorem Writes.chars {p : Phrase} {cs : List Char} (h : Writes p cs) (rest : List Char) :
    ∃ ds, Writes p ds ∧ p.chars rest = ds ++ rest := by
  induction h generalizing rest with
  | null => exact ⟨_, .null, rfl⟩
  | true => exact ⟨_, .true, rfl⟩
  | false => exact ⟨_, .false, rfl⟩
  | int n => exact ⟨_, .int n, rfl⟩
  | decimal hcs => exact ⟨_, .decimal hcs, rfl⟩
  | @str t _ _ => exact ⟨_, .str (stringText_quote t), rfl⟩
  | emptyArray _ =>
    have hempty : Blanks [] := nofun
    exact ⟨_, .emptyArray hempty, rfl⟩
  | @array vs _ _ ih =>
    obtain ⟨ds, hds, heq⟩ := ih (']' :: rest)
    refine ⟨_, .array hds, ?_⟩
    show '[' :: (Phrase.elements vs).chars (']' :: rest) = _
    rw [heq]
    simp
  | emptyObject _ =>
    have hempty : Blanks [] := nofun
    exact ⟨_, .emptyObject hempty, rfl⟩
  | @object ms _ _ ih =>
    obtain ⟨ds, hds, heq⟩ := ih ('\x7d' :: rest)
    refine ⟨_, .object hds, ?_⟩
    show '\x7b' :: (Phrase.members ms).chars ('\x7d' :: rest) = _
    rw [heq]
    simp
  | element _ _ _ ih =>
    obtain ⟨ds, hds, heq⟩ := ih rest
    exact ⟨ds, hds.element_of_value, heq⟩
  | lastElement _ ih =>
    obtain ⟨ds, hds, heq⟩ := ih rest
    exact ⟨ds, .lastElement hds, heq⟩
  | @nextElement v vs _ _ _ hvs ih ih' =>
    obtain ⟨ds', hds', heq'⟩ := ih' rest
    obtain ⟨ds, hds, heq⟩ := ih (',' :: (ds' ++ rest))
    refine ⟨_, .nextElement hds hds', ?_⟩
    have hchars : (Phrase.elements (v :: vs)).chars rest =
        (Phrase.element v).chars (',' :: (Phrase.elements vs).chars rest) := by
      cases hvs <;> rfl
    rw [hchars, heq', heq]
    simp
  | @member name v _ _ _ _ _ _ _ _ ih =>
    obtain ⟨ds, hds, heq⟩ := ih rest
    refine ⟨_, hds.member_of_element, ?_⟩
    show quote name ++ ':' :: (Phrase.element v).chars rest = _
    rw [heq]
    simp
  | lastMember _ ih =>
    obtain ⟨ds, hds, heq⟩ := ih rest
    exact ⟨ds, .lastMember hds, heq⟩
  | @nextMember m ms _ _ _ hms ih ih' =>
    obtain ⟨ds', hds', heq'⟩ := ih' rest
    obtain ⟨ds, hds, heq⟩ := ih (',' :: (ds' ++ rest))
    refine ⟨_, .nextMember hds hds', ?_⟩
    have hchars : (Phrase.members (m :: ms)).chars rest =
        (Phrase.member m).chars (',' :: (Phrase.members ms).chars rest) := by
      cases hms <;> rfl
    rw [hchars, heq', heq]
    simp

variable {v : Json}

/-- What is written for a value is one of its texts. -/
theorem isText_render (h : ∃ text, IsText v text) : IsText v v.render := by
  obtain ⟨text, htext⟩ := h
  obtain ⟨ds, hds, heq⟩ := Writes.chars htext []
  have hchars : chars v [] = ds := heq.trans (List.append_nil ds)
  rw [IsText, render, String.toList_ofList, hchars]
  exact hds

/-- What was written for a value is read as that value. -/
theorem parse?_render (h : ∃ text, IsText v text) : parse? v.render = some v :=
  parse?_of_isText (isText_render h)

/-! ### Readers and printers -/

/-- A reader of texts with a printer. -/
structure Codec where
  read? : String → Option Json
  print : Json → String

/-- The reader takes every text of the grammar for the value that it stands for, and reads back what
is printed for a value that has a text. -/
structure Codec.Lawful (c : Codec) : Prop where
  reads : ∀ v text, IsText v text → c.read? text = some v
  reads_back : ∀ v, (∃ text, IsText v text) → c.read? (c.print v) = some v

/-- The parser with the printer beside it. -/
def codec : Codec := ⟨parse?, render⟩

theorem codec_lawful : codec.Lawful := ⟨fun _ _ => parse?_of_isText, fun _ => parse?_render⟩

end TandemZ80.Json
