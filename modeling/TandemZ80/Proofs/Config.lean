import TandemZ80.Config
import TandemZ80.Proofs.Json.Writing

/-!
# Configuration texts

A configuration is read from any text of an object. Members that it does not know are skipped,
whatever they hold; of the three that it knows each may be missing, and then the standard value
stands. A clock that does not run is refused.

* `Json.record?_object`, the known members of an object, and `Record.withDefault_eq`;
* `Config.IsRatio`, the values that stand for a ratio;
* `Config.Overrides`, what a text says about a configuration, and `Config.Overrides.StatedBy`, the
  members that say it;
* `Config.parseBy`, which reads a configuration by any reader of texts, and
  `Config.parseBy_of_lawful`: all that is asked of the reader and of the printer is that they keep
  to the grammar;
* `Config.texts_override`, the case of `Config.parse` and `Config.render`.
-/

namespace TandemZ80

/-! ### Records -/

namespace Json

theorem plainMembers?_map (ms : List (String × Json)) :
    plainMembers? (ms.map fun m => (.plain m.1, m.2)) = some ms := by
  induction ms with
  | nil => rfl
  | cons m ms ih =>
    rw [plainMembers?] at ih ⊢
    rw [List.map_cons, List.mapM_cons, ih]
    rfl

theorem lookup_filter {fields : List String} {name : String} (hname : name ∈ fields)
    (ms : List (String × Json)) :
    (ms.filter fun m => fields.contains m.1).lookup name = ms.lookup name := by
  induction ms with
  | nil => rfl
  | cons m ms ih =>
    by_cases heq : name = m.1
    · have hm : fields.contains m.1 = true := by rw [← heq]; exact List.contains_iff_mem.2 hname
      rw [List.filter_cons, if_pos hm, List.lookup_cons, List.lookup_cons, beq_iff_eq.2 heq]
    · have hskip : ∀ l : List (String × Json), (m :: l).lookup name = l.lookup name := by
        intro l
        rw [List.lookup_cons, beq_eq_false_iff_ne.2 heq]
      rw [hskip, List.filter_cons]
      split_ifs
      · rw [hskip, ih]
      · exact ih

/-- The record that an object holds in which no known field comes twice. Other members may. -/
theorem record?_object {fields : List String} {ms : List (String × Json)}
    (honce : ∀ name ∈ fields, (ms.map Prod.fst).count name ≤ 1) (short : Bool) :
    ∃ r, (object ms).record? fields short = some r ∧
      ∀ name ∈ fields, r.field? name = ms.lookup name := by
  have hnodup : ((ms.filter fun m => fields.contains m.1).map Prod.fst).Nodup := by
    rw [List.nodup_iff_count_le_one]
    intro name
    by_cases hname : name ∈ fields
    · exact ((List.filter_sublist.map Prod.fst).count_le name).trans (honce name hname)
    · rw [List.count_eq_zero.2]
      · exact Nat.zero_le 1
      · intro hmem
        obtain ⟨m, hm, rfl⟩ := List.mem_map.1 hmem
        exact hname (List.contains_iff_mem.1 (List.mem_filter.1 hm).2)
  refine ⟨⟨ms.filter fun m => fields.contains m.1⟩, ?_, fun name hname => lookup_filter hname ms⟩
  rw [object, record?, plainMembers?_map]
  exact if_pos hnodup

end Json

/-- A field that is missing takes its default, and any other is read. -/
theorem Record.withDefault_eq {α : Type} {r : Record} {name : String} (read : Json → Option α)
    {means : α → Json → Prop} (hread : ∀ a v, means a v → read v = some a) {value : Option α}
    (h : Option.Rel means value (r.field? name)) (default : α) :
    r.withDefault name read default = some (value.getD default) := by
  rw [withDefault]
  generalize r.field? name = field at h ⊢
  cases h with
  | none => rfl
  | some hmeans => exact hread _ _ hmeans

namespace Config

/-! ### What a text says -/

/-- The values that stand for a ratio: its name, or an object with its name and nothing in it. -/
inductive IsRatio (r : ClockRatio) : Json → Prop
  | name : IsRatio r (.string r.name)
  | tagged : IsRatio r (.object [(r.name, .null)])

theorem ofJson?_of_isRatio (r : ClockRatio) (v : Json) (h : IsRatio r v) :
    ClockRatio.ofJson? v = some r := by
  cases h <;> cases r <;> rfl

/-- The members that a configuration knows. -/
def fields : List String := ["clock_ratio", "idle_skip", "main_clock_hz"]

/-- What a text says about a configuration. -/
structure Overrides where
  ratio : Option ClockRatio
  idleSkip : Option Bool
  hertz : Option UInt64

namespace Overrides

/-- The configuration with what the text says. -/
def onto (o : Overrides) (c : Config) : Config :=
  { ratio := o.ratio.getD c.ratio
    idleSkip := o.idleSkip.getD c.idleSkip
    clock := ⟨o.hertz.getD c.clock.hertz⟩ }

/-- The members of an object say this: they come in any order, with any others between them, and no
known one comes twice. Their names are texts, without lone halves of surrogate pairs; what the
others hold may be anything. -/
structure StatedBy (o : Overrides) (ms : List (String × Json)) : Prop where
  once : ∀ name ∈ fields, (ms.map Prod.fst).count name ≤ 1
  ratio : Option.Rel IsRatio o.ratio (ms.lookup "clock_ratio")
  idleSkip : Option.Rel (fun b v => v = .bool b) o.idleSkip (ms.lookup "idle_skip")
  hertz : Option.Rel (fun n v => v = .nat n.toNat) o.hertz (ms.lookup "main_clock_hz")

end Overrides

variable {o : Overrides} {ms : List (String × Json)} {text : String}

theorem ofJson?_object (ho : o.StatedBy ms) : ofJson? (.object ms) = some (o.onto standard) := by
  obtain ⟨r, hr, hfield⟩ := Json.record?_object ho.once true
  have hratio := Record.withDefault_eq ClockRatio.ofJson? ofJson?_of_isRatio
    (hfield "clock_ratio" (by decide) ▸ ho.ratio)
  have hidle := Record.withDefault_eq Json.bool? (by rintro b _ rfl; rfl)
    (hfield "idle_skip" (by decide) ▸ ho.idleSkip)
  have hhertz := Record.withDefault_eq Json.count? (by rintro n _ rfl; exact Json.count?_nat n)
    (hfield "main_clock_hz" (by decide) ▸ ho.hertz)
  unfold ofJson?
  rw [← fields, hr]
  show (r.withDefault "clock_ratio" ClockRatio.ofJson? standard.ratio).bind _ = _
  rw [hratio, Option.bind_some]
  show (r.withDefault "idle_skip" Json.bool? standard.idleSkip).bind _ = _
  rw [hidle, Option.bind_some]
  show (r.withDefault "main_clock_hz" Json.count? standard.clock.hertz).bind _ = _
  rw [hhertz]
  rfl

/-- Read a configuration from text as `parse` does, by any reader of texts. -/
def parseBy (codec : Json.Codec) (text : String) : Except ConfigError Config :=
  match (codec.read? text).bind ofJson? with
  | none => .error .malformed
  | some c => do
    c.validate
    return c

theorem parseBy_codec (text : String) : parseBy Json.codec text = parse text := rfl

/-- What is read as the members is the configuration that they state. -/
theorem parseBy_of_read {codec : Json.Codec} (ho : o.StatedBy ms)
    (hread : codec.read? text = some (.object ms)) :
    parseBy codec text = if o.hertz = some 0 then .error .zeroClock else .ok (o.onto standard) := by
  have hzero : (o.onto standard).clock.hertz = 0 ↔ o.hertz = some 0 := by
    show o.hertz.getD 4000000 = 0 ↔ _
    cases o.hertz with
    | none => decide
    | some n => exact Option.some_inj.symm
  rw [parseBy, hread, Option.bind_some, ofJson?_object ho]
  show (validate (o.onto standard) >>= fun _ => .ok (o.onto standard)) = _
  unfold validate
  simp only [hzero]
  split_ifs <;> rfl

/-! ### What is written -/

/-- A configuration as members says all of it. -/
theorem exists_isText_toJson (c : Config) : ∃ text, Json.IsText c.toJson text := by
  have hratio : Json.Writes (.value (.string c.ratio.name)) _ := .str (Json.stringText_quote _)
  have hidle : ∃ cs, Json.Writes (.value (.bool c.idleSkip)) cs := by
    cases c.idleSkip with
    | true => exact ⟨_, .true⟩
    | false => exact ⟨_, .false⟩
  obtain ⟨cs, hidle⟩ := hidle
  have hhertz : Json.Writes (.value (.nat c.clock.hertz.toNat)) _ := .int _
  have hobject : Json.Writes (.value c.toJson) _ :=
    .object (.nextMember hratio.element_of_value.member_of_element
      (.nextMember hidle.element_of_value.member_of_element
        (.lastMember hhertz.element_of_value.member_of_element)))
  exact ⟨String.ofList _, by rw [Json.IsText, String.toList_ofList]; exact hobject.element_of_value⟩

theorem statedBy_toJson (c : Config) :
    Overrides.StatedBy ⟨some c.ratio, some c.idleSkip, some c.clock.hertz⟩
      [("clock_ratio", .string c.ratio.name), ("idle_skip", .bool c.idleSkip),
        ("main_clock_hz", .nat c.clock.hertz.toNat)] where
  once := by
    show ∀ name ∈ fields, ["clock_ratio", "idle_skip", "main_clock_hz"].count name ≤ 1
    decide
  ratio := .some .name
  idleSkip := .some rfl
  hertz := .some rfl

/-- By whatever reader and printer keep to the grammar, a configuration whose clock runs is read
back from its text, and any text of an object with a selection of the known members overrides the
standard configuration. -/
theorem parseBy_of_lawful {codec : Json.Codec} (hcodec : codec.Lawful) :
    (∀ c : Config, c.clock.hertz ≠ 0 → parseBy codec (codec.print c.toJson) = .ok c) ∧
      ∀ (o : Overrides) (ms : List (String × Json)) (text : String), o.StatedBy ms →
        Json.IsText (.object ms) text →
        parseBy codec text = if o.hertz = some 0 then .error .zeroClock
          else .ok (o.onto standard) := by
  refine ⟨fun c hc => ?_, fun o ms text ho htext => parseBy_of_read ho (hcodec.reads _ _ htext)⟩
  have hparse := parseBy_of_read c.statedBy_toJson (hcodec.reads_back _ c.exists_isText_toJson)
  rw [if_neg fun h => hc (Option.some_inj.1 h)] at hparse
  exact hparse

/-- A configuration whose clock runs is read back from its text. From any text of an object with a
selection of the known members, in any order and with any others between them, the standard
configuration is read with what these say in its place; it is refused for its clock if and only if
the text says that the clock does not run. -/
theorem texts_override :
    (∀ c : Config, c.clock.hertz ≠ 0 → parse c.render = .ok c) ∧
      ∀ (o : Overrides) (ms : List (String × Json)) (text : String), o.StatedBy ms →
        Json.IsText (.object ms) text →
        parse text = if o.hertz = some 0 then .error .zeroClock else .ok (o.onto standard) := by
  have hlawful := parseBy_of_lawful Json.codec_lawful
  simp only [parseBy_codec] at hlawful
  exact hlawful

/-- A text with a member that is not known, before a clock of 8 MHz; and the standard
configuration. -/
theorem texts_override_at_8_MHz :
    parse "\x7b\"turbo\": [1.5],\"main_clock_hz\":8000000\x7d" =
      .ok { standard with clock := ⟨8000000⟩ } ∧ parse standard.render = .ok standard := by
  have hblank : Json.Blanks [' '] := List.forall_mem_singleton.2 rfl
  have hempty : Json.Blanks [] := nofun
  have hdigits : Json.Digits ['5'] := ⟨List.cons_ne_nil _ _, List.forall_mem_singleton.2 rfl⟩
  have hnumber : Json.Writes (.value (.decimal ['1', '.', '5'])) ['1', '.', '5'] :=
    .decimal (Json.IsDecimal.parts (.head _) 1 (.some hdigits) .none (List.cons_ne_nil _ _))
  have hturbo := Json.Writes.array (.lastElement hnumber.element_of_value)
  have hclock : Json.Writes (.value (.nat 8000000)) _ := .int 8000000
  have htext : Json.IsText
      (.object [("turbo", .arr [.decimal ['1', '.', '5']]), ("main_clock_hz", .nat 8000000)])
      "\x7b\"turbo\": [1.5],\"main_clock_hz\":8000000\x7d" :=
    Json.Writes.element_of_value (.object (.nextMember
      (Json.Writes.member_of_element (.element hblank hturbo hempty))
      (.lastMember hclock.element_of_value.member_of_element)))
  have hstated : Overrides.StatedBy ⟨none, none, some 8000000⟩
      [("turbo", .arr [.decimal ['1', '.', '5']]), ("main_clock_hz", .nat 8000000)] :=
    ⟨by decide, .none, .none, .some rfl⟩
  exact ⟨texts_override.2 _ _ _ hstated htext, texts_override.1 standard (by decide)⟩

end Config
end TandemZ80
