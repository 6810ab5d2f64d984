import Mathlib.Tactic
import TandemZ80.Json.Parser
import TandemZ80.Proofs.Json.Grammar

/-!
# Texts are read

Every text of a value is read as that value. The lexer meets a phrase of the grammar between tokens
and is between tokens again behind it, having added the tokens of the phrase; only behind a number
it has to see what comes next, and there a mark or a blank stands, or the text ends. The parser
meets a phrase with some containers open, and behind it the same ones are open, with what the phrase
stands for inside.

* `Numeral.read?`, what the characters of a number come to, and `Quoted.text_eq`, what the units of
  a string come to;
* `Delimited` and `Lexes`, the lexer's part;
* `Parser.Awaits`, `Parser.AwaitsName` and `Reads`, the parser's part;
* `Writes.reads`, by induction on the grammar, and `parse?_of_isText`.
-/

namespace TandemZ80

theorem Hex.value?_lt {c : Char} {d : ℕ} (h : value? c = some d) : d < 16 := by
  unfold value? at h
  dsimp only at h
  split_ifs at h <;> cases h <;> omega

namespace Json

variable {cs ds rest : List Char} {ts us : List Token} {out : List Token}

/-! ### Numbers -/

namespace Numeral

variable {n m : Numeral}

/-- Go on with the characters of a number. -/
def run? (n : Numeral) (cs : List Char) : Option Numeral := cs.foldlM next? n

/-- Read the characters of a number. -/
def read? : List Char → Option Numeral
  | [] => none
  | c :: cs => (start? c).bind (run? · cs)

theorem run?_cons {c : Char} (hc : n.next? c = some m) (cs : List Char) :
    n.run? (c :: cs) = m.run? cs := by
  rw [run?, List.foldlM_cons, hc]
  rfl

theorem run?_append (h : n.run? cs = some m) (ds : List Char) : n.run? (cs ++ ds) = m.run? ds := by
  rw [run?] at h
  rw [run?, List.foldlM_append, h]
  rfl

/-! #### Digits -/

/-- Digits after the first one change nothing. -/
theorem run?_loop (hds : ∀ c ∈ ds, c.isDigit = true)
    (hnext : ∀ c : Char, c.isDigit = true → n.next? c = some n) : n.run? ds = some n := by
  induction ds with
  | nil => rfl
  | cons c ds ih =>
    rw [run?_cons (hnext c (hds c (.head _)))]
    exact ih fun c hc => hds c (.tail _ hc)

theorem run?_digits (hds : Digits ds) (hfirst : ∀ c : Char, c.isDigit = true → n.next? c = some m)
    (hnext : ∀ c : Char, c.isDigit = true → m.next? c = some m) : n.run? ds = some m := by
  obtain ⟨hne, hdigit⟩ := hds
  obtain ⟨c, ds, rfl⟩ := List.exists_cons_of_ne_nil hne
  rw [run?_cons (hfirst c (hdigit c (.head _)))]
  exact run?_loop (fun c hc => hdigit c (.tail _ hc)) hnext

theorem digits_toDigits (k : ℕ) : Digits (Nat.toDigits 10 k) :=
  ⟨Nat.toDigits_ne_nil, fun _ hc => Nat.isDigit_of_mem_toDigits (by decide) (by decide) hc⟩

/-- Only zero begins with the digit zero. -/
theorem exists_toDigits_eq_cons {k : ℕ} (hk : k ≠ 0) :
    ∃ c ds, Nat.toDigits 10 k = c :: ds ∧ c ≠ '0' := by
  induction k using Nat.strong_induction_on with
  | _ k ih =>
    by_cases hlt : k < 10
    · refine ⟨k.digitChar, [], Nat.toDigits_of_lt_base hlt, ?_⟩
      interval_cases k
      · exact absurd rfl hk
      all_goals decide
    · obtain ⟨c, ds, hcs, hc⟩ := ih (k / 10) (by omega) (by omega)
      refine ⟨c, ds ++ [(k % 10).digitChar], ?_, hc⟩
      rw [Nat.toDigits_of_base_le (by decide) (by omega), hcs]
      rfl

theorem ofDigits_toDigits (k : ℕ) : ofDigits (Nat.toDigits 10 k) = k :=
  Nat.ofDigitChars_ten_toDigits

/-- The whole part of a number, behind its sign. -/
theorem run?_toDigits (k : ℕ) :
    ∃ m, (m = zero ∨ m = whole) ∧ sign.run? (Nat.toDigits 10 k) = some m := by
  by_cases hk : k = 0
  · exact ⟨zero, .inl rfl, by rw [hk]; rfl⟩
  · obtain ⟨c, ds, hcs, hc⟩ := exists_toDigits_eq_cons hk
    have hdigit := (digits_toDigits k).isDigit
    rw [hcs] at hdigit ⊢
    have hfirst : sign.next? c = some whole := by
      rw [next?, if_neg hc, if_pos (hdigit c (.head _))]
    refine ⟨whole, .inr rfl, ?_⟩
    rw [run?_cons hfirst]
    exact run?_loop (fun c hc => hdigit c (.tail _ hc)) fun c hc => if_pos hc

/-! #### Fractions and exponents -/

theorem run?_fraction (hn : n = zero ∨ n = whole) (hcs : Fraction cs) :
    ∃ m, n.run? cs = some m ∧ (cs = [] ∧ m = n ∨ m = fraction) := by
  cases hcs with
  | none => exact ⟨n, rfl, .inl ⟨rfl, rfl⟩⟩
  | some hds =>
    have hpoint : n.next? '.' = some point := by
      rcases hn with rfl | rfl <;> rfl
    refine ⟨fraction, ?_, .inr rfl⟩
    rw [run?_cons hpoint]
    exact run?_digits hds (fun c hc => if_pos hc) fun c hc => if_pos hc

theorem run?_exponent (hn : n = zero ∨ n = whole ∨ n = fraction) (hcs : Exponent cs) :
    ∃ m, n.run? cs = some m ∧ (cs = [] ∧ m = n ∨ m = exponent) := by
  cases hcs with
  | none => exact ⟨n, rfl, .inl ⟨rfl, rfl⟩⟩
  | @some c sign ds hmark hsign hds =>
    have hmark : n.next? c = some mark := by
      fin_cases hmark <;> rcases hn with rfl | rfl | rfl <;> rfl
    refine ⟨exponent, ?_, .inr rfl⟩
    rw [run?_cons hmark]
    fin_cases hsign
    · exact run?_digits hds (fun c hc => if_pos hc) fun c hc => if_pos hc
    all_goals exact run?_digits (n := markSign) hds (fun c hc => if_pos hc) fun c hc => if_pos hc

/-! #### Whole numbers and others -/

/-- A sign may stand before a number. -/
theorem read?_signed {s : List Char} (hs : s ∈ [[], ['-']]) (hne : cs ≠ [])
    (h : sign.run? cs = some n) : read? (s ++ cs) = some n := by
  obtain ⟨c, cs, rfl⟩ := List.exists_cons_of_ne_nil hne
  fin_cases hs
  · have hc : c ≠ '-' := by
      rintro rfl
      cases h
    have hstart : start? c = sign.next? c := if_neg hc
    rw [List.nil_append, read?, hstart]
    exact h
  · exact h

theorem toJson_whole (hn : n = zero ∨ n = whole) (hcs : Digits cs) :
    n.toJson cs = .int (ofDigits cs) := by
  have hsign : ∀ ds, cs = '-' :: ds → False := by
    rintro ds rfl
    cases hcs.isDigit '-' (.head _)
  unfold toJson
  rw [if_pos hn]
  split
  · exact (hsign _ rfl).elim
  · rfl

theorem toJson_negative (hn : n = zero ∨ n = whole) (hne : ofDigits ds ≠ 0) :
    n.toJson ('-' :: ds) = .int (-(ofDigits ds : ℤ)) := by
  unfold toJson
  rw [if_pos hn]
  exact if_neg hne

theorem read?_int (k : ℤ) :
    ∃ n : Numeral, n.isComplete = true ∧ read? (digits k) = some n ∧
    n.toJson (digits k) = .int k := by
  have hcomplete : ∀ {n}, n = zero ∨ n = whole → n.isComplete = true := by
    rintro n (rfl | rfl) <;> rfl
  cases k with
  | ofNat k =>
    obtain ⟨n, hn, hrun⟩ := run?_toDigits k
    refine ⟨n, hcomplete hn, read?_signed (.head _) Nat.toDigits_ne_nil hrun, ?_⟩
    rw [digits, toJson_whole hn (digits_toDigits k), ofDigits_toDigits]
    rfl
  | negSucc k =>
    obtain ⟨n, hn, hrun⟩ := run?_toDigits (k + 1)
    refine ⟨n, hcomplete hn, read?_signed (.tail _ (.head _)) Nat.toDigits_ne_nil hrun, ?_⟩
    rw [digits, toJson_negative hn (by rw [ofDigits_toDigits]; exact Nat.succ_ne_zero k),
      ofDigits_toDigits]
    rfl

/-- A number that is no whole number keeps its written form. -/
theorem read?_decimal (hcs : IsDecimal cs) :
    ∃ n, n.isComplete = true ∧ read? cs = some n ∧ n.toJson cs = .decimal cs := by
  cases hcs with
  | negativeZero => exact ⟨zero, rfl, rfl, rfl⟩
  | @parts s fs es hs k hfs hes hne =>
    obtain ⟨n, hn, hwhole⟩ := run?_toDigits k
    obtain ⟨m, hm, hfraction⟩ := run?_fraction hn hfs
    have hm' : m = zero ∨ m = whole ∨ m = fraction := by grind
    obtain ⟨l, hl, hexponent⟩ := run?_exponent hm' hes
    have hl' : l = fraction ∨ l = exponent := by grind
    have hrun : sign.run? (Nat.toDigits 10 k ++ (fs ++ es)) = some l := by
      rw [run?_append hwhole, run?_append hm, hl]
    refine ⟨l, ?_, read?_signed hs (by simp [Nat.toDigits_ne_nil]) hrun, ?_⟩
    · rcases hl' with rfl | rfl <;> rfl
    · rcases hl' with rfl | rfl <;> rfl

end Numeral

/-! ### Strings -/

theorem toNat_valid (c : Char) : c.toNat < 0xD800 ∨ 0xDFFF < c.toNat ∧ c.toNat < 0x110000 := c.valid

/-- A unit is a code below the end of the last plane. -/
theorem UnitText.lt {u : ℕ} (h : UnitText u cs) : u < 0x110000 := by
  cases h with
  | char c => exact (toNat_valid c).elim (fun hc => hc.trans (by decide)) And.right
  | short hu => fin_cases hu <;> decide
  | code ha hb hc hd =>
    have := Hex.value?_lt ha
    have := Hex.value?_lt hb
    have := Hex.value?_lt hc
    have := Hex.value?_lt hd
    omega

theorem UnitsText.lt {us : List ℕ} (h : UnitsText us cs) : ∀ u ∈ us, u < 0x110000 := by
  induction h with
  | nil => nofun
  | cons hu _ ih => exact List.forall_mem_cons.2 ⟨hu.lt, ih⟩

namespace Quoted

/-- A character is no half of one. -/
theorem toNat_apart (c : Char) : isHigh c.toNat = false ∧ isLow c.toNat = false := by
  have hc := toNat_valid c
  simp only [isHigh, isLow, Bool.and_eq_false_iff, decide_eq_false_iff_not]
  omega

theorem chars?_of_decodes {us : List ℕ} (h : Decodes us cs) : chars? us = some cs := by
  induction h with
  | nil => rfl
  | @char c us cs h ih =>
    obtain ⟨hhigh, hlow⟩ := toNat_apart c
    cases us with
    | nil =>
      cases ih
      simp [chars?, hhigh, hlow]
    | cons u us => simp [chars?, hhigh, hlow, ih]
  | @pair u w hu hw c hc us cs h ih =>
    have hhigh : isHigh u = true := by simpa [isHigh] using hu
    have hlow : isLow w = true := by simpa [isLow] using hw
    simp [chars?, hhigh, hlow, ih, ← hc]

theorem toNat_ofNat {u : ℕ} (hu : u < 0xD800 ∨ 0xDFFF < u ∧ u < 0x110000) :
    (Char.ofNat u).toNat = u := by
  rw [Char.ofNat, dif_pos hu]
  rfl

/-- A code that is no half of a character is one. -/
theorem toNat_ofNat_unit {u : ℕ} (hu : u < 0x110000) (hhigh : ¬isHigh u = true)
    (hlow : ¬isLow u = true) : (Char.ofNat u).toNat = u := by
  simp only [isHigh, isLow, Bool.and_eq_true, decide_eq_true_eq] at hhigh hlow
  exact toNat_ofNat (by omega)

theorem decodes_of_chars? {us : List ℕ} (hus : ∀ u ∈ us, u < 0x110000) (h : chars? us = some cs) :
    Decodes us cs := by
  induction us using chars?.induct generalizing cs with
  | case1 =>
    cases h
    exact .nil
  | case2 u w us hu hw ih =>
    rw [chars?, if_pos hu, if_pos hw] at h
    obtain ⟨cs, hcs, rfl⟩ := Option.map_eq_some_iff.1 h
    simp only [isHigh, isLow, Bool.and_eq_true, decide_eq_true_eq] at hu hw
    refine .pair hu hw (toNat_ofNat ?_) (ih (fun u hu => hus u (.tail _ (.tail _ hu))) hcs)
    exact .inr (by omega)
  | case3 u w us hu hw =>
    rw [chars?, if_pos hu, if_neg hw] at h
    cases h
  | case4 u w us hu hlow =>
    rw [chars?, if_neg hu, if_pos hlow] at h
    cases h
  | case5 u w us hu hlow ih =>
    rw [chars?, if_neg hu, if_neg hlow] at h
    obtain ⟨cs, hcs, rfl⟩ := Option.map_eq_some_iff.1 h
    have hchar := Decodes.char (Char.ofNat u) (ih (fun u hu => hus u (.tail _ hu)) hcs)
    rwa [toNat_ofNat_unit (hus u (.head _)) hu hlow] at hchar
  | case6 u hu =>
    rw [chars?, if_pos hu] at h
    cases h
  | case7 u hu =>
    rw [chars?, if_neg hu] at h
    cases h
    rw [Bool.or_eq_true, not_or] at hu
    have hchar := Decodes.char (Char.ofNat u) .nil
    rwa [toNat_ofNat_unit (hus u (.head _)) hu.1 hu.2] at hchar

/-- The units of a string come to their content. -/
theorem text_eq {us : List ℕ} {t : Text} (hus : ∀ u ∈ us, u < 0x110000) (ht : Content us t) :
    text us = t := by
  cases t with
  | plain s =>
    rw [text, chars?_of_decodes ht]
    exact congrArg Text.plain s.ofList_toList
  | unpaired =>
    cases h : chars? us with
    | none => rw [text, h]
    | some cs => exact absurd (decodes_of_chars? hus h) (ht cs)

end Quoted

/-! ### The lexer -/

open Lexer

namespace Lexer

/-- The tokens that a lexer comes to with these characters. -/
def tokens? (l : Lexer) (cs : List Char) : Option (List Token) := (l.feed? cs).bind finish?

theorem tokens?_append {l l' : Lexer} (h : l.feed? cs = some l') (rest : List Char) :
    l.tokens? (cs ++ rest) = l'.tokens? rest := by
  rw [tokens?, feed?_append, h]
  rfl

end Lexer

theorem isBlank_iff {c : Char} : isBlank c = true ↔ c ∈ [' ', '\t', '\n', '\r'] := by
  simp [isBlank, or_assoc]

/-- What may come behind a value: blanks, and the marks that do not begin one. -/
def delimiters : List Char := [' ', '\t', '\n', '\r', ',', ':', ']', '\x7d']

/-- A number that stands before these characters does not go on in them. -/
def Delimited (rest : List Char) : Prop := ∀ c ∈ rest.head?, ∀ n : Numeral, n.next? c = none

namespace Delimited

theorem nil : Delimited [] := nofun

theorem of_mem {c : Char} (hc : c ∈ delimiters) : Delimited (c :: rest) := by
  intro c' hc' n
  cases hc'
  fin_cases hc <;> cases n <;> rfl

theorem blanks (hrest : Delimited rest) (hcs : Blanks cs) : Delimited (cs ++ rest) := by
  cases cs with
  | nil => exact hrest
  | cons c cs =>
    exact of_mem (List.mem_append_left [',', ':', ']', '\x7d'] (isBlank_iff.1 (hcs c (.head _))))

end Delimited

/-- The lexer reads the characters as the tokens, whatever was before and whatever is behind. -/
def Lexes (cs : List Char) (ts : List Token) : Prop :=
  ∀ (out : List Token) (rest : List Char), Delimited rest →
    tokens? ⟨.between, out⟩ (cs ++ rest) = tokens? ⟨.between, ts.reverse ++ out⟩ rest

namespace Lexes

/-- Any token but a number is complete with its last character. -/
theorem of_feed (h : ∀ out, feed? ⟨.between, out⟩ cs = some ⟨.between, ts.reverse ++ out⟩) :
    Lexes cs ts :=
  fun out rest _ => tokens?_append (h out) rest

theorem append (h : Lexes cs ts) (h' : Lexes ds us)
    (hds : ∀ rest, Delimited rest → Delimited (ds ++ rest)) :
    Lexes (cs ++ ds) (ts ++ us) := by
  intro out rest hrest
  rw [List.append_assoc, h out _ (hds rest hrest), h' _ rest hrest, List.reverse_append,
    List.append_assoc]

theorem nil : Lexes [] [] := of_feed fun _ => rfl

/-- A mark is read by itself. -/
theorem mark {c : Char} {t : Token} (hc : ∀ out, begin? out c = some ⟨.between, t :: out⟩)
    (h : Lexes cs ts) : Lexes (c :: cs) (t :: ts) := by
  intro out rest hrest
  have hstep : step? ⟨.between, out⟩ c = some ⟨.between, t :: out⟩ := hc out
  have hmark : feed? ⟨.between, out⟩ [c] = some ⟨.between, t :: out⟩ := by
    rw [feed?, hstep]
    rfl
  rw [← List.singleton_append, List.append_assoc, tokens?_append hmark, h _ rest hrest,
    List.reverse_cons, List.append_assoc]
  rfl

theorem append_mark {c : Char} {t : Token} (hmem : c ∈ delimiters)
    (hc : ∀ out, begin? out c = some ⟨.between, t :: out⟩) (h : Lexes cs ts) (h' : Lexes ds us) :
    Lexes (cs ++ c :: ds) (ts ++ t :: us) := h.append (.mark hc h') fun _ _ => .of_mem hmem

theorem bracketed {l r : Char} {t u : Token} (hl : ∀ out, begin? out l = some ⟨.between, t :: out⟩)
    (hmem : r ∈ delimiters) (hr : ∀ out, begin? out r = some ⟨.between, u :: out⟩)
    (h : Lexes cs ts) :
    Lexes (l :: (cs ++ [r])) (t :: (ts ++ [u])) := .mark hl (.append_mark hmem hr h .nil)

theorem blanks {bs : List Char} (hbs : Blanks bs) (h : Lexes cs ts) : Lexes (bs ++ cs) ts := by
  intro out rest hrest
  have hfeed : feed? ⟨.between, out⟩ bs = some ⟨.between, out⟩ := by
    clear h
    induction bs with
    | nil => rfl
    | cons c bs ih =>
      have hstep : step? ⟨.between, out⟩ c = some ⟨.between, out⟩ := if_pos (hbs c (.head _))
      rw [feed?, hstep]
      exact ih fun c' hc' => hbs c' (.tail _ hc')
  rw [List.append_assoc, tokens?_append hfeed, h out rest hrest]

theorem of_blanks {bs : List Char} (hbs : Blanks bs) : Lexes bs [] := by
  have hblanks := blanks hbs nil
  rwa [List.append_nil] at hblanks

theorem append_blanks {bs : List Char} (h : Lexes cs ts) (hbs : Blanks bs) :
    Lexes (cs ++ bs) ts := by
  intro out rest hrest
  rw [List.append_assoc, h out _ (hrest.blanks hbs), of_blanks hbs _ rest hrest]
  rfl

end Lexes

/-! #### Numbers -/

theorem Lexer.begin?_number {c : Char} {n : Numeral} (h : Numeral.start? c = some n) :
    begin? out c = some ⟨.number n [c], out⟩ := by
  have hne : ∀ d, Numeral.start? d = none → c ≠ d := by
    rintro d hd rfl
    rw [hd] at h
    cases h
  have hblank : ¬isBlank c = true := by
    intro hc
    have hmem := isBlank_iff.1 hc
    fin_cases hmem <;> cases h
  have hmark : Token.ofMark? c = none := by
    unfold Token.ofMark?
    split
    · next hc => exact absurd (Char.toNat_inj.1 hc) (hne '\x7b' rfl)
    · next hc => exact absurd (Char.toNat_inj.1 hc) (hne '\x7d' rfl)
    · next hc => exact absurd (Char.toNat_inj.1 hc) (hne '[' rfl)
    · next hc => exact absurd (Char.toNat_inj.1 hc) (hne ']' rfl)
    · next hc => exact absurd (Char.toNat_inj.1 hc) (hne ',' rfl)
    · next hc => exact absurd (Char.toNat_inj.1 hc) (hne ':' rfl)
    · rfl
  unfold begin?
  rw [if_neg hblank, if_neg (hne '"' rfl), if_neg (hne 'n' rfl), if_neg (hne 't' rfl),
    if_neg (hne 'f' rfl), hmark, h]
  rfl

theorem Lexer.feed?_number {n m : Numeral} {rev : List Char} (h : n.run? cs = some m) :
    feed? ⟨.number n rev, out⟩ cs = some ⟨.number m (cs.reverse ++ rev), out⟩ := by
  induction cs generalizing n rev with
  | nil =>
    cases h
    rfl
  | cons c cs ih =>
    obtain ⟨l, hl, h⟩ := Option.bind_eq_some_iff.1 h
    have hstep : step? ⟨.number n rev, out⟩ c = some ⟨.number l (c :: rev), out⟩ := by
      simp only [step?, hl]
    rw [feed?, hstep]
    show feed? ⟨.number l (c :: rev), out⟩ cs = _
    rw [ih h, List.reverse_cons, List.append_assoc]
    rfl

/-- A complete number ends where it does not go on. -/
theorem Lexer.tokens?_number {n : Numeral} {rev : List Char} (hn : n.isComplete = true)
    (hrest : Delimited rest) :
    tokens? ⟨.number n rev, out⟩ rest =
      tokens? ⟨.between, .atom (n.toJson rev.reverse) :: out⟩ rest := by
  cases rest with
  | nil => exact if_pos hn
  | cons c rest =>
    have hstep :
        step? ⟨.number n rev, out⟩ c = step? ⟨.between, .atom (n.toJson rev.reverse) :: out⟩ c := by
      simp only [step?, hrest c rfl n, if_pos hn]
    rw [tokens?, tokens?, feed?, feed?, hstep]

theorem Lexes.number {n : Numeral} (h : Numeral.read? cs = some n) (hn : n.isComplete = true) :
    Lexes cs [.atom (n.toJson cs)] := by
  intro out rest hrest
  cases cs with
  | nil => cases h
  | cons c cs =>
    obtain ⟨m, hm, h⟩ := Option.bind_eq_some_iff.1 h
    have hstep : feed? ⟨.between, out⟩ (c :: cs) = some ⟨.number n (c :: cs).reverse, out⟩ := by
      have hbegin : step? ⟨.between, out⟩ c = some ⟨.number m [c], out⟩ := begin?_number hm
      rw [feed?, hbegin]
      show feed? ⟨.number m [c], out⟩ cs = _
      rw [feed?_number h, List.reverse_cons]
    rw [tokens?_append hstep, tokens?_number hn hrest, List.reverse_reverse]
    rfl

/-! #### Strings -/

theorem Lexer.feed?_unit {u : ℕ} {us : List ℕ} (h : UnitText u cs) :
    feed? ⟨.string (.body us), out⟩ cs = some ⟨.string (.body (u :: us)), out⟩ := by
  cases h with
  | char c hc hquote hslash =>
    have hnext : Quoted.next? (.body us) c = some (.inl (.body (c.toNat :: us))) := by
      rw [Quoted.next?, if_neg hquote, if_neg hslash, if_neg (by omega)]
    simp only [feed?, step?, hnext]
  | short hu => fin_cases hu <;> rfl
  | code ha hb hc hd => simp [feed?, step?, Quoted.next?, ha, hb, hc, hd]

theorem Lexer.feed?_units {us done : List ℕ} (h : UnitsText us cs) :
    feed? ⟨.string (.body done), out⟩ cs = some ⟨.string (.body (us.reverse ++ done)), out⟩ := by
  induction h generalizing done with
  | nil => rfl
  | cons hu _ ih =>
    rw [feed?_append, feed?_unit hu, Option.bind_some, ih, List.reverse_cons, List.append_assoc]
    rfl

theorem Lexes.string {t : Text} (h : StringText t cs) : Lexes cs [.str t] := by
  cases h with
  | @quoted us cs hus ht =>
    refine of_feed fun out => ?_
    show feed? ⟨.string (.body []), out⟩ (cs ++ ['"']) = some ⟨.between, .str t :: out⟩
    rw [feed?_append, feed?_units hus, List.append_nil]
    show some (Lexer.mk .between (.str (Quoted.text us.reverse.reverse) :: out)) = _
    rw [List.reverse_reverse, Quoted.text_eq hus.lt ht]

/-! ### The parser -/

namespace Parser

/-- A value may come, and it goes into the innermost of these containers. In an array that was just
opened the closing bracket may come, too. -/
def Awaits (p : Parser) (stack : List Frame) : Prop :=
  ∀ t, t ≠ .closeArray → p.step? t = begin? stack t

theorem awaits_value (stack : List Frame) : Awaits (value stack) stack := fun _ _ => rfl

theorem awaits_firstItem (stack : List Frame) : Awaits (firstItem stack) (.items [] :: stack) := by
  intro t ht
  cases t with
  | closeArray => exact absurd rfl ht
  | _ => rfl

/-- A member may come behind these. -/
def AwaitsName (p : Parser) (done : List (Text × Json)) (stack : List Frame) : Prop :=
  ∀ name, p.step? (.str name) = some (afterName done name stack)

theorem feed?_cons {p p' : Parser} {t : Token} (h : p.step? t = some p') (ts : List Token) :
    p.feed? (t :: ts) = p'.feed? ts := by
  rw [feed?, h]

theorem feed?_append_of {p p' : Parser} (h : p.feed? ts = some p') (us : List Token) :
    p.feed? (ts ++ us) = p'.feed? us := by
  rw [feed?_append, h, Option.bind_some]

end Parser

open TandemZ80.Json.Parser

/-- The parser reads the tokens as the phrase, wherever it may come. -/
def Reads : Phrase → List Token → Prop
  | .value v, ts | .element v, ts => ∀ p stack, Awaits p stack → p.feed? ts = some (deliver v stack)
  | .elements vs, ts => ∀ p done stack, Awaits p (.items done :: stack) →
      p.feed? ts = some (afterItem (vs.reverse ++ done) stack)
  | .member m, ts => ∀ p done stack, AwaitsName p done stack →
      p.feed? ts = some (afterMember (m :: done) stack)
  | .members ms, ts => ∀ p done stack, AwaitsName p done stack →
      p.feed? ts = some (afterMember (ms.reverse ++ done) stack)

namespace Reads

variable {v : Json} {vs : List Json} {m : Text × Json} {ms : List (Text × Json)}

theorem atom (v : Json) : Reads (.value v) [.atom v] :=
  fun _ _ hp => feed?_cons (hp (.atom v) nofun) []

theorem str (t : Text) : Reads (.value (.str t)) [.str t] :=
  fun _ _ hp => feed?_cons (hp (.str t) nofun) []

theorem emptyArray : Reads (.value (.arr [])) [.openArray, .closeArray] :=
  fun _ _ hp => feed?_cons (hp .openArray nofun) _

theorem array (h : Reads (.elements vs) ts) :
    Reads (.value (.arr vs)) (.openArray :: (ts ++ [.closeArray])) := by
  intro p stack hp
  rw [feed?_cons (hp .openArray nofun), feed?_append_of (h _ _ _ (awaits_firstItem stack))]
  show some (deliver (.arr (vs.reverse ++ []).reverse) stack) = _
  rw [List.append_nil, List.reverse_reverse]

theorem emptyObject : Reads (.value (.obj [])) [.openObject, .closeObject] :=
  fun _ _ hp => feed?_cons (hp .openObject nofun) _

theorem object (h : Reads (.members ms) ts) :
    Reads (.value (.obj ms)) (.openObject :: (ts ++ [.closeObject])) := by
  intro p stack hp
  have hfirst : AwaitsName (firstMember stack) [] stack := fun _ => rfl
  rw [feed?_cons (hp .openObject nofun), feed?_append_of (h _ _ _ hfirst)]
  show some (deliver (.obj (ms.reverse ++ []).reverse) stack) = _
  rw [List.append_nil, List.reverse_reverse]

theorem lastElement (h : Reads (.element v) ts) : Reads (.elements [v]) ts :=
  fun p _ _ hp => h p _ hp

theorem nextElement (h : Reads (.element v) ts) (h' : Reads (.elements vs) us) :
    Reads (.elements (v :: vs)) (ts ++ .comma :: us) := by
  intro p done stack hp
  rw [feed?_append_of (h p _ hp)]
  show (Parser.value (.items (v :: done) :: stack)).feed? us = _
  rw [h' _ _ _ (awaits_value _), List.reverse_cons, List.append_assoc]
  rfl

theorem member {name : Text} (h : Reads (.element v) ts) :
    Reads (.member (name, v)) (.str name :: .colon :: ts) := by
  intro p done stack hp
  rw [feed?_cons (hp name)]
  exact h _ _ (awaits_value (.member done name :: stack))

theorem lastMember (h : Reads (.member m) ts) : Reads (.members [m]) ts := h

theorem nextMember (h : Reads (.member m) ts) (h' : Reads (.members ms) us) :
    Reads (.members (m :: ms)) (ts ++ .comma :: us) := by
  intro p done stack hp
  have hnext : AwaitsName (Parser.nextMember (m :: done) stack) (m :: done) stack := fun _ => rfl
  rw [feed?_append_of (h p _ _ hp)]
  show (Parser.nextMember (m :: done) stack).feed? us = _
  rw [h' _ _ _ hnext, List.reverse_cons, List.append_assoc]
  rfl

end Reads

/-- What the grammar writes is read: it has tokens that the lexer finds and the parser
understands. -/
theorem Writes.reads {p : Phrase} (h : Writes p cs) : ∃ ts, Lexes cs ts ∧ Reads p ts := by
  induction h with
  | null => exact ⟨_, .of_feed fun _ => rfl, .atom _⟩
  | true => exact ⟨_, .of_feed fun _ => rfl, .atom _⟩
  | false => exact ⟨_, .of_feed fun _ => rfl, .atom _⟩
  | int n =>
    obtain ⟨m, hm, hread, hvalue⟩ := Numeral.read?_int n
    exact ⟨_, hvalue ▸ .number hread hm, .atom _⟩
  | decimal hcs =>
    obtain ⟨m, hm, hread, hvalue⟩ := Numeral.read?_decimal hcs
    exact ⟨_, hvalue ▸ .number hread hm, .atom _⟩
  | str ht => exact ⟨_, .string ht, .str _⟩
  | emptyArray hbs =>
    exact ⟨_, .bracketed (fun _ => rfl) (by decide) (fun _ => rfl) (.of_blanks hbs), .emptyArray⟩
  | array _ ih =>
    obtain ⟨ts, hlexes, hreads⟩ := ih
    exact ⟨_, .bracketed (fun _ => rfl) (by decide) (fun _ => rfl) hlexes, hreads.array⟩
  | emptyObject hbs =>
    exact ⟨_, .bracketed (fun _ => rfl) (by decide) (fun _ => rfl) (.of_blanks hbs), .emptyObject⟩
  | object _ ih =>
    obtain ⟨ts, hlexes, hreads⟩ := ih
    exact ⟨_, .bracketed (fun _ => rfl) (by decide) (fun _ => rfl) hlexes, hreads.object⟩
  | element hbs _ hbs' ih =>
    obtain ⟨ts, hlexes, hreads⟩ := ih
    exact ⟨ts, .blanks hbs (hlexes.append_blanks hbs'), hreads⟩
  | lastElement _ ih =>
    obtain ⟨ts, hlexes, hreads⟩ := ih
    exact ⟨ts, hlexes, hreads.lastElement⟩
  | nextElement _ _ ih ih' =>
    obtain ⟨ts, hlexes, hreads⟩ := ih
    obtain ⟨us, hlexes', hreads'⟩ := ih'
    exact ⟨_, .append_mark (by decide) (fun _ => rfl) hlexes hlexes', hreads.nextElement hreads'⟩
  | member hbs hname hbs' _ ih =>
    obtain ⟨ts, hlexes, hreads⟩ := ih
    -- There may be blanks between the name and the colon.
    have hcolon : Lexes (_ ++ ':' :: _) (.colon :: ts) :=
      .append_mark (by decide) (fun _ => rfl) (.of_blanks hbs') hlexes
    refine ⟨_, .blanks hbs ((Lexes.string hname).append hcolon fun rest _ => ?_), hreads.member⟩
    rw [List.append_assoc]
    exact .blanks (.of_mem (by decide)) hbs'
  | lastMember _ ih =>
    obtain ⟨ts, hlexes, hreads⟩ := ih
    exact ⟨ts, hlexes, hreads.lastMember⟩
  | nextMember _ _ ih ih' =>
    obtain ⟨ts, hlexes, hreads⟩ := ih
    obtain ⟨us, hlexes', hreads'⟩ := ih'
    exact ⟨_, .append_mark (by decide) (fun _ => rfl) hlexes hlexes', hreads.nextMember hreads'⟩

/-- Every text of a value is read as that value. -/
theorem parse?_of_isText {v : Json} {text : String} (h : IsText v text) : parse? text = some v := by
  obtain ⟨ts, hlexes, hreads⟩ := Writes.reads h
  have htokens : Token.ofChars? text.toList = some ts := by
    have hall := hlexes [] [] .nil
    rw [List.append_nil, List.append_nil] at hall
    rw [Token.ofChars?]
    refine hall.trans ?_
    show some ts.reverse.reverse = some ts
    rw [List.reverse_reverse]
  rw [parse?, htokens, Option.bind_some, ofTokens?, hreads _ _ (awaits_value [])]
  rfl

end Json
end TandemZ80
