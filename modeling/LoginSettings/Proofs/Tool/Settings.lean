import LoginSettings.Proofs.Document.InOrder
import LoginSettings.Proofs.Document.Lookup
import LoginSettings.Proofs.Json.Records
import LoginSettings.Tool.Load
import Mathlib.Tactic.Choose

/-!
# Settings one by one

The settings of the tool are decoded as a record of records. What the record comes to is told here
setting by setting: which values a setting can have, and what it takes from them.

* `Config.decode_ofValue_iff_takes` — decoding succeeds exactly if each setting by itself takes the
  value that stands in its place
* `exists_takes_iff` — values that are right each by itself make settings together
* `Config.validate_eq_ok_iff` — which settings are valid
-/

namespace LoginSettings

open Json (Node)
open Json.Node (MemberDecodes OptionDecodes)

/-- Formats are known by their names. -/
theorem Format.find?_variants {name : String} {f : Format} :
    Members.find? name variants = some f ↔ name = f.name := by
  by_cases hjson : name = "json"
  · subst hjson
    cases f <;> decide
  · by_cases hyaml : name = "yaml"
    · subst hyaml
      cases f <;> decide
    · cases f <;> simp [variants, Format.name, Members.find?, hjson, hyaml]

theorem Format.decode_ofValue_ok_iff {v : Value} (hv : v.isObject = false) {f : Format} :
    Format.decode (Node.ofValue v) = .ok f ↔ v = .string f.name := by
  rw [Format.decode, Node.decodeName_ofValue_ok_iff hv]
  constructor
  · rintro ⟨name, rfl, hname⟩
    rw [Format.find?_variants.1 hname]
  · rintro rfl
    exact ⟨f.name, rfl, Format.find?_variants.2 rfl⟩

namespace Tool

/-! ## Single settings -/

/-- What the tool can be told, each of which may stand in any layer. -/
inductive Setting where
  | logFilter
  | format
  | pretty
  | siteKey
  | theme
  | language
deriving DecidableEq, Repr

namespace Setting

/-- Where a setting stands in a layer. -/
def path : Setting → List String
  | logFilter => ["log_filter"]
  | format => ["output", "format"]
  | pretty => ["output", "pretty"]
  | siteKey => ["bot_protection", "site_key"]
  | theme => ["bot_protection", "theme"]
  | language => ["bot_protection", "language"]

/-- The value of a setting that is built in. -/
def builtin (d : Defaults) : Setting → Option Value
  | logFilter => some (.string d.logFilter)
  | format => some (.string d.format.name)
  | pretty => some (.bool d.pretty)
  | siteKey => none
  | theme => some (.string d.theme)
  | language => some (.string d.language)

/-- The value of a setting that counts: the one that overrides, else the user's, else the one that
is built in. Null is a value. -/
def pick (s : Setting) (user overrides : Option Value) : Option Value :=
  (overrides.bind (Value.at? s.path)).or ((user.bind (Value.at? s.path)).or (s.builtin {}))

/-- Holds of the values that a setting can have; only the key of the site may be missing or null. -/
def accepts : Setting → Option Value → Bool
  | format, some (.string name) => name = "json" || name = "yaml"
  | pretty, some (.bool _) => true
  | siteKey, none => true
  | siteKey, some .null => true
  | siteKey, some (.string _) => true
  | logFilter, some (.string _) => true
  | theme, some (.string _) => true
  | language, some (.string _) => true
  | _, _ => false

end Setting

/-- The value of a setting, if it has one. -/
def Config.get? (c : Config) : Setting → Option Value
  | .logFilter => some (.string c.logFilter)
  | .format => some (.string c.output.format.name)
  | .pretty => some (.bool c.output.pretty)
  | .siteKey => c.widget.siteKey.map .string
  | .theme => some (.string c.widget.theme)
  | .language => some (.string c.widget.language)

/-- Holds of texts with nothing but blanks. -/
def isBlankText : Option Value → Bool
  | some (.string text) => Text.isAllBlank text
  | _ => false

/-! ## Decoding -/

variable {ms outputs widgets : List (String × Value)}

/-- The settings of the output are decoded member by member. -/
theorem OutputSettings.decode_ofValue_ok_iff (hkeys : (ms.map (·.1)).Nodup) {o : OutputSettings} :
    decode (Node.ofValue (.object ms)) = .ok o ↔
      MemberDecodes Format.decode "format" ms o.format ∧
      MemberDecodes Node.decodeBool "pretty" ms o.pretty := by
  have hfields := Node.fields_ofValue_ok_iff "OutputSettings" shapes hkeys (by decide)
  simp only [shapes, List.forall_mem_cons, Node.check_field_eq_ok_iff] at hfields
  simp only [decode, Node.bind_eq_ok_iff]
  constructor
  · rintro ⟨fs, hfs, format, hformat, pretty, hpretty, ho⟩
    cases ho
    exact ⟨(Node.required_of_fields hkeys hfs (by decide)).1 hformat,
      (Node.required_of_fields hkeys hfs (by decide)).1 hpretty⟩
  · rintro ⟨hformat, hpretty⟩
    obtain ⟨fs, hfs⟩ := hfields.2 ⟨fun w => hformat.exists_ok, fun w => hpretty.exists_ok, by simp⟩
    exact ⟨fs, hfs, o.format, (Node.required_of_fields hkeys hfs (by decide)).2 hformat,
      o.pretty, (Node.required_of_fields hkeys hfs (by decide)).2 hpretty, rfl⟩

/-- The settings of the widget are decoded member by member. -/
theorem WidgetSettings.decode_ofValue_ok_iff (hkeys : (ms.map (·.1)).Nodup) {w : WidgetSettings} :
    decode (Node.ofValue (.object ms)) = .ok w ↔
      OptionDecodes Node.decodeString "site_key" ms w.siteKey ∧
      MemberDecodes Node.decodeString "theme" ms w.theme ∧
      MemberDecodes Node.decodeString "language" ms w.language := by
  have hfields := Node.fields_ofValue_ok_iff "BotProtectionSettings" shapes hkeys
    (by decide)
  simp only [shapes, List.forall_mem_cons, Node.check_field_eq_ok_iff,
    Node.check_optionalField_eq_ok_iff] at hfields
  simp only [decode, Node.bind_eq_ok_iff]
  constructor
  · rintro ⟨fs, hfs, siteKey, hsiteKey, theme, htheme, language, hlanguage, hw⟩
    cases hw
    exact ⟨(Node.optional_of_fields hkeys hfs (by decide)).1 hsiteKey,
      (Node.required_of_fields hkeys hfs (by decide)).1 htheme,
      (Node.required_of_fields hkeys hfs (by decide)).1 hlanguage⟩
  · rintro ⟨hsiteKey, htheme, hlanguage⟩
    obtain ⟨fs, hfs⟩ := hfields.2 ⟨fun w => hsiteKey.exists_ok, fun w => htheme.exists_ok,
      fun w => hlanguage.exists_ok, by simp⟩
    exact ⟨fs, hfs, w.siteKey, (Node.optional_of_fields hkeys hfs (by decide)).2 hsiteKey,
      w.theme, (Node.required_of_fields hkeys hfs (by decide)).2 htheme,
      w.language, (Node.required_of_fields hkeys hfs (by decide)).2 hlanguage, rfl⟩

/-- The settings of the tool are decoded member by member. -/
theorem Config.decode_ofValue_ok_iff (hkeys : (ms.map (·.1)).Nodup) {c : Config} :
    decode (Node.ofValue (.object ms)) = .ok c ↔
      MemberDecodes Node.decodeString "log_filter" ms c.logFilter ∧
      MemberDecodes OutputSettings.decode "output" ms c.output ∧
      MemberDecodes WidgetSettings.decode "bot_protection" ms c.widget := by
  have hfields := Node.fields_ofValue_ok_iff "ToolConfig" shapes hkeys (by decide)
  simp only [shapes, List.forall_mem_cons, Node.check_field_eq_ok_iff] at hfields
  simp only [decode, Node.bind_eq_ok_iff]
  constructor
  · rintro ⟨fs, hfs, logFilter, hlogFilter, output, houtput, widget, hwidget, hc⟩
    cases hc
    exact ⟨(Node.required_of_fields hkeys hfs (by decide)).1 hlogFilter,
      (Node.required_of_fields hkeys hfs (by decide)).1 houtput,
      (Node.required_of_fields hkeys hfs (by decide)).1 hwidget⟩
  · rintro ⟨hlogFilter, houtput, hwidget⟩
    obtain ⟨fs, hfs⟩ := hfields.2 ⟨fun w => hlogFilter.exists_ok, fun w => houtput.exists_ok,
      fun w => hwidget.exists_ok, by simp⟩
    exact ⟨fs, hfs, c.logFilter, (Node.required_of_fields hkeys hfs (by decide)).2 hlogFilter,
      c.output, (Node.required_of_fields hkeys hfs (by decide)).2 houtput,
      c.widget, (Node.required_of_fields hkeys hfs (by decide)).2 hwidget, rfl⟩

/-! ## Setting by setting -/

theorem Setting.forall_iff {P : Setting → Prop} : (∀ s, P s) ↔ P .logFilter ∧ P .format ∧
    P .pretty ∧ P .siteKey ∧ P .theme ∧ P .language := by
  constructor
  · intro h
    exact ⟨h _, h _, h _, h _, h _, h _⟩
  · rintro ⟨h₁, h₂, h₃, h₄, h₅, h₆⟩ s
    cases s <;> assumption

/-- Holds where a setting has the value that is found for it; null stands for none. -/
def Config.Takes (c : Config) (s : Setting) (found : Option Value) : Prop :=
  s.accepts found = true ∧ c.get? s = found.filter fun v => v ≠ .null

variable {c : Config} {found : Option Value}

/-- Settings accept their own values. -/
theorem Config.accepts_get? (c : Config) (s : Setting) : s.accepts (c.get? s) = true := by
  cases s with
  | format => cases hf : c.output.format <;> simp [get?, Setting.accepts, Format.name, hf]
  | siteKey => cases hk : c.widget.siteKey <;> simp [get?, Setting.accepts, hk]
  | _ => rfl

theorem Config.filter_get? (c : Config) (s : Setting) :
    (c.get? s).filter (fun v => v ≠ .null) = c.get? s := by
  cases s with
  | siteKey => cases hk : c.widget.siteKey <;> simp [get?, hk, Option.filter]
  | _ => simp [get?, Option.filter]

/-- Null is accepted as a site key only. -/
theorem Setting.filter_eq_self {s : Setting} (hs : s ≠ .siteKey) (h : s.accepts found = true) :
    found.filter (fun v => v ≠ .null) = found := by
  rcases found with _ | v
  · rfl
  · have hv : v ≠ .null := by
      rintro rfl
      cases s with
      | siteKey => exact hs rfl
      | _ => cases h
    simp [Option.filter, hv]

/-- A setting other than the site key is taken from what is found as it is. -/
theorem Config.takes_iff {s : Setting} (hs : s ≠ .siteKey) :
    c.Takes s found ↔ found = c.get? s := by
  constructor
  · rintro ⟨haccepts, hget⟩
    rw [hget, Setting.filter_eq_self hs haccepts]
  · rintro rfl
    exact ⟨c.accepts_get? s, (c.filter_get? s).symm⟩

/-- There is no site key without a member or with null, and else it is the string that is found. -/
theorem Config.takes_siteKey_iff : c.Takes .siteKey found ↔
    ((found = none ∨ found = some .null) ∧ c.widget.siteKey = none) ∨
    ∃ s, found = some (.string s) ∧ c.widget.siteKey = some s := by
  rcases found with _ | v
  · simp [Takes, Setting.accepts, Config.get?]
  · cases v <;> simp [Takes, Setting.accepts, Config.get?, Option.filter]

/-! ## Decoding a layer -/

/-- Holds of layers whose sections are objects as far as they are there, and whose settings are
none. -/
structure WellShaped (v : Value) : Prop where
  sections : ∀ name ∈ ["output", "bot_protection"], ∀ w, v.at? [name] = some w → w.isObject = true
  settings : ∀ (s : Setting) w, v.at? s.path = some w → w.isObject = false

/-- Holds of well-shaped layers that are objects in order. -/
structure IsLayer (v : Value) : Prop extends WellShaped v where
  ordered : v.Ordered
  isObject : v.isObject = true

variable {v base upper : Value}

theorem exists_members (hv : v.Ordered) (h : v.isObject = true) :
    ∃ ms, v = .object ms ∧ (ms.map (·.1)).Nodup := by
  cases hv with
  | object increasing _ => exact ⟨_, rfl, increasing.nodup_keys⟩
  | _ => cases h

/-- A section of a layer is an object whose members have different names. -/
theorem IsLayer.exists_section (h : IsLayer v) {name : String}
    (hname : name ∈ ["output", "bot_protection"]) (hsome : (v.at? [name]).isSome) :
    ∃ ms, v.member? name = some (.object ms) ∧ (ms.map (·.1)).Nodup := by
  obtain ⟨w, hw⟩ := Option.isSome_iff_exists.1 hsome
  obtain ⟨ms, rfl, hkeys⟩ := exists_members (h.ordered.at hw) (h.sections name hname w hw)
  rw [Value.at?_singleton] at hw
  exact ⟨ms, hw, hkeys⟩

/-- A setting in a section is a member of the section. -/
theorem at?_pair {name key : String} (h : v.member? name = some (.object ms)) :
    v.at? [name, key] = Members.find? key ms := by
  rw [Value.at?_pair, h, Option.bind_some, Value.member?_object]

/-- **Settings are decoded setting by setting** from a layer that has both sections. -/
theorem Config.decode_ofValue_iff_takes (h : IsLayer v) (houtput : (v.at? ["output"]).isSome)
    (hwidget : (v.at? ["bot_protection"]).isSome) {c : Config} :
    decode (Node.ofValue v) = .ok c ↔ ∀ s : Setting, c.Takes s (v.at? s.path) := by
  obtain ⟨os, hos, hokeys⟩ := h.exists_section (by simp) houtput
  obtain ⟨ws, hws, hwkeys⟩ := h.exists_section (by simp) hwidget
  -- A format may be spelled as an object elsewhere, but no setting of a layer is one.
  have hformat : ∀ w, Members.find? "format" os = some w → w.isObject = false := by
    intro w hw
    refine h.settings .format w ?_
    rw [Setting.path, at?_pair hos, hw]
  obtain ⟨ms, rfl, hkeys⟩ := exists_members h.ordered h.isObject
  have hdecoded : decode (Node.ofValue (.object ms)) = .ok c ↔
      MemberDecodes Node.decodeString "log_filter" ms c.logFilter ∧
      (MemberDecodes Format.decode "format" os c.output.format ∧
        MemberDecodes Node.decodeBool "pretty" os c.output.pretty) ∧
      OptionDecodes Node.decodeString "site_key" ws c.widget.siteKey ∧
      MemberDecodes Node.decodeString "theme" ws c.widget.theme ∧
      MemberDecodes Node.decodeString "language" ws c.widget.language := by
    rw [decode_ofValue_ok_iff hkeys, ← OutputSettings.decode_ofValue_ok_iff hokeys,
      ← WidgetSettings.decode_ofValue_ok_iff hwkeys, Node.memberDecodes_of_find? hos,
      Node.memberDecodes_of_find? hws]
  have hformat' : MemberDecodes Format.decode "format" os c.output.format ↔
      Members.find? "format" os = some (.string c.output.format.name) := by
    constructor
    · rintro ⟨w, hw, hdecode⟩
      rw [hw, (Format.decode_ofValue_ok_iff (hformat w hw)).1 hdecode]
    · intro hfind
      exact ⟨_, hfind, (Format.decode_ofValue_ok_iff rfl).2 rfl⟩
  have hlogFilter : (Value.object ms).at? ["log_filter"] = Members.find? "log_filter" ms := by
    rw [Value.at?, Value.member?_object]
    cases Members.find? "log_filter" ms <;> rfl
  rw [hdecoded, hformat', Setting.forall_iff, takes_siteKey_iff, takes_iff (by decide),
    takes_iff (by decide), takes_iff (by decide), takes_iff (by decide), takes_iff (by decide)]
  simp only [Setting.path, at?_pair hos, at?_pair hws, hlogFilter, Node.memberDecodes_string_iff,
    Node.memberDecodes_bool_iff, Node.optionDecodes_string_iff, get?, and_assoc]

/-! ## Settings from layers -/

/-- Settings are valid if the texts that may not be blank are not. -/
theorem Config.validate_eq_ok_iff {c : Config} : c.validate = .ok () ↔
    isBlankText (c.get? .logFilter) = false ∧ isBlankText (c.get? .siteKey) = false ∧
    isBlankText (c.get? .language) = false := by
  have hsiteKey : isBlankText (c.get? .siteKey) = c.widget.siteKey.any Text.isAllBlank := by
    rw [get?]
    cases c.widget.siteKey <;> rfl
  rw [hsiteKey]
  simp only [get?, isBlankText, validate]
  split_ifs with hlogFilter hkey hlanguage
  · simp [hlogFilter]
  · simp [hkey]
  · simp [hlanguage]
  · simp [hlogFilter, hkey, hlanguage]

theorem isBlankText_filter (found : Option Value) :
    isBlankText (found.filter fun v => v ≠ .null) = isBlankText found := by
  rcases found with _ | v
  · rfl
  · cases v <;> simp [Option.filter, isBlankText]

/-- Each value that a setting can have is taken by some settings. -/
theorem Setting.exists_takes {s : Setting} {found : Option Value} (h : s.accepts found = true) :
    ∃ c : Config, c.Takes s found := by
  let plain (text : String) (key : Option String) (b : Bool) : Config :=
    ⟨text, ⟨if text = "yaml" then .yaml else .json, b⟩, ⟨key, text, text⟩⟩
  rcases found with _ | v
  · cases s with
    | siteKey => exact ⟨plain "" none true, rfl, rfl⟩
    | _ => cases h
  · cases v with
    | null =>
      cases s with
      | siteKey => exact ⟨plain "" none true, rfl, rfl⟩
      | _ => cases h
    | bool b =>
      cases s with
      | pretty => exact ⟨plain "" none b, rfl, rfl⟩
      | _ => cases h
    | string text =>
      cases s with
      | pretty => cases h
      | format =>
        have hname : text = "json" ∨ text = "yaml" := by simpa [accepts] using h
        refine ⟨plain text none true, h, ?_⟩
        rcases hname with rfl | rfl <;> rfl
      | _ => exact ⟨plain text (some text) true, rfl, rfl⟩
    | _ => cases s <;> cases h

/-- Values that the settings can have, each by itself, are taken by settings together. -/
theorem exists_takes_iff {found : Setting → Option Value} :
    (∃ c : Config, ∀ s, c.Takes s (found s)) ↔ ∀ s : Setting, s.accepts (found s) = true := by
  constructor
  · rintro ⟨c, hc⟩ s
    exact (hc s).1
  · intro h
    -- Each setting is taken from settings that have it right, whatever the others are there.
    choose c hc using fun s => Setting.exists_takes (h s)
    refine ⟨⟨(c .logFilter).logFilter, ⟨(c .format).output.format, (c .pretty).output.pretty⟩,
      ⟨(c .siteKey).widget.siteKey, (c .theme).widget.theme, (c .language).widget.language⟩⟩,
      fun s => ?_⟩
    cases s <;> exact hc _

end Tool
end LoginSettings
