import LoginSettings.Proofs.Text.Utf8
import LoginSettings.Proofs.Tool.Layers
import LoginSettings.Proofs.Tool.Settings

/-!
# Settings that are in force

What the tool is told in the end, if there may be a file of the user and something that overrides
it. Each setting is looked up by itself: in what overrides, else in the user's file, else among the
built-in ones. What is found this way decides whether there are settings at all, and what they are.

* `settles_mergeLayers` — each setting is picked by itself from the layers there are
* `Effective.build_of_layers` — what comes of a user's file and of what overrides it
-/

namespace LoginSettings.Tool

open Files (Tree)

variable {v base upper : Value}

/-! ## What layers come to -/

theorem IsLayer.opens (h : IsLayer v) (s : Setting) : v.Opens s.path := by
  have hsection : ∀ name ∈ ["output", "bot_protection"], ∀ key, v.Opens [name, key] := by
    intro name hname key
    obtain ⟨ms, rfl, -⟩ := exists_members h.ordered h.isObject
    cases hfind : Members.find? name ms with
    | none => exact Value.opens_cons_of_none hfind
    | some w =>
      have hw : w.isObject = true := by
        refine h.sections name hname w ?_
        rw [Value.at?, Value.member?_object, hfind]
        rfl
      cases w with
      | object os => exact (Value.opens_cons_of_some hfind).2 (Value.opens_singleton os key)
      | _ => cases hw
  cases s with
  | logFilter =>
    obtain ⟨ms, rfl, -⟩ := exists_members h.ordered h.isObject
    exact Value.opens_singleton ms "log_filter"
  | _ => exact hsection _ (by simp) _

/-- A setting of the upper layer takes the place of the lower one. -/
theorem IsLayer.at?_overlay (hupper : IsLayer upper) (base : Value) (s : Setting) :
    (base.overlay upper).at? s.path = (upper.at? s.path).or (base.at? s.path) := by
  cases h : upper.at? s.path with
  | some w =>
    rw [Value.at?_overlay_of_some base hupper.ordered h,
      Value.overlay_of_not_isObject _ (hupper.settings s w h)]
    rfl
  | none =>
    rw [Value.at?_overlay_of_none base hupper.ordered h (hupper.opens s)]
    rfl

/-- A layer over a layer is a layer. -/
theorem IsLayer.overlay (hbase : IsLayer base) (hupper : IsLayer upper) :
    IsLayer (base.overlay upper) where
  ordered := Value.ordered_overlay hbase.ordered hupper.ordered
  isObject := Value.isObject_overlay base hupper.isObject
  sections := by
    intro name hname w hw
    cases h : upper.at? [name] with
    | some u =>
      rw [Value.at?_overlay_of_some base hupper.ordered h] at hw
      cases hw
      exact Value.isObject_overlay _ (hupper.sections name hname u h)
    | none =>
      obtain ⟨ms, rfl, -⟩ := exists_members hupper.ordered hupper.isObject
      rw [Value.at?_overlay_of_none base hupper.ordered h (Value.opens_singleton ms name)] at hw
      exact hbase.sections name hname w hw
  settings := by
    intro s w hw
    rw [hupper.at?_overlay, Option.or_eq_some_iff] at hw
    rcases hw with hw | ⟨-, hw⟩
    · exact hupper.settings s w hw
    · exact hbase.settings s w hw

/-- Holds of layers that have both sections, and in which `found` tells what the settings are. -/
structure Settles (v : Value) (found : Setting → Option Value) : Prop extends IsLayer v where
  hasSections : ∀ name ∈ ["output", "bot_protection"], (v.at? [name]).isSome
  at? : ∀ s : Setting, v.at? s.path = found s

theorem Settles.overlay {found : Setting → Option Value} (hbase : Settles base found)
    (hupper : IsLayer upper) :
    Settles (base.overlay upper) fun s => (upper.at? s.path).or (found s) where
  toIsLayer := hbase.toIsLayer.overlay hupper
  hasSections := by
    intro name hname
    obtain ⟨ms, rfl, -⟩ := exists_members hupper.ordered hupper.isObject
    rw [Value.isSome_at?_overlay base hupper.ordered]
    exact .inr ⟨hbase.hasSections name hname, Value.opens_singleton ms name⟩
  at? := by
    intro s
    rw [hupper.at?_overlay, hbase.at?]

theorem settles_layer (d : Defaults) : Settles d.layer fun s => s.builtin d where
  ordered := by
    have hkeys : ["bot_protection", "log_filter", "output"].Pairwise (· < ·) := by decide
    refine .object (Value.increasing_of_keys _ rfl hkeys) ?_
    simp only [List.forall_mem_cons]
    refine ⟨.object (Value.increasing_of_keys ["language", "theme"] rfl (by decide)) ?_, .string _,
      .object (Value.increasing_of_keys ["format", "pretty"] rfl (by decide)) ?_, by simp⟩
    · simp only [List.forall_mem_cons]
      exact ⟨.string _, .string _, by simp⟩
    · simp only [List.forall_mem_cons]
      exact ⟨.string _, .bool _, by simp⟩
  isObject := rfl
  sections := by
    simp only [List.forall_mem_cons]
    refine ⟨?_, ?_, by simp⟩
    all_goals
      rintro w ⟨⟩
      rfl
  settings := by
    intro s w hw
    cases s <;> cases hw <;> rfl
  hasSections := by
    simp only [List.forall_mem_cons]
    exact ⟨rfl, rfl, by simp⟩
  at? := by
    intro s
    cases s <;> rfl

/-- **Each setting is picked by itself** from the layers there are. -/
theorem settles_mergeLayers {user overrides : Option Value} (huser : ∀ v ∈ user, IsLayer v)
    (hoverrides : ∀ v ∈ overrides, IsLayer v) :
    Settles (Value.mergeLayers (({} : Defaults).layer :: (user.toList ++ overrides.toList)))
      fun s => s.pick user overrides := by
  have hbuiltin := settles_layer {}
  cases user with
  | none =>
    cases overrides with
    | none => exact hbuiltin
    | some upper => exact hbuiltin.overlay (hoverrides upper rfl)
  | some file =>
    have hfile := hbuiltin.overlay (huser file rfl)
    cases overrides with
    | none => exact hfile
    | some upper => exact hfile.overlay (hoverrides upper rfl)

/-! ## The user's file -/

/-- A file of the user: its bytes are UTF-8 and spell a table of settings. -/
structure UserFile (t : Tree) where
  path : String
  bytes : List UInt8
  text : String
  table : Value
  read : t.read path = .ok bytes
  decoded : Text.decodeUtf8 bytes = .ok text
  parsed : Toml.readText text = some table

/-- The layer that a user's file makes. -/
def UserFile.layer {t : Tree} (f : UserFile t) : Value := f.table.inOrder

/-- The sources of the layers there are. -/
def sourcesOf {t : Tree} (file : Option (UserFile t)) (overrides : Option Value) : List Source :=
  ⟨.builtin, none, none⟩
    :: ((file.map fun f => ⟨.user, some f.path, some (Digest.hexDigest f.bytes)⟩).toList
      ++ (overrides.map fun _ => ⟨.cli, none, none⟩).toList)

variable {t : Tree}

theorem UserFile.isLayer (f : UserFile t) (h : WellShaped f.layer) : IsLayer f.layer := by
  refine ⟨h, Value.ordered_inOrder f.table, ?_⟩
  have hparsed := f.parsed
  rw [Toml.readText, Option.map_eq_some_iff] at hparsed
  obtain ⟨d, -, hd⟩ := hparsed
  rw [layer, ← hd]
  rfl

/-- The file of a user is loaded as its layer, with the hash of its bytes. -/
theorem loadLayer_path (f : UserFile t) :
    loadLayer t f.path = .ok (f.layer, Digest.hexDigest f.bytes) := by
  simp only [loadLayer, f.read, f.decoded, f.parsed, Except.mapError, bind, Except.bind]
  rfl

theorem Effective.build_eq (file : Option (UserFile t)) (overrides : Option Value) :
    build t (file.map UserFile.path) overrides
      = (Config.ofLayers (({} : Defaults).layer
          :: ((file.map UserFile.layer).toList ++ overrides.toList))).map
        fun c => ⟨c, sourcesOf file overrides⟩ := by
  cases file with
  | none =>
    simp only [build, Option.map_none, bind, Except.bind, pure, Except.pure]
    cases overrides <;> rfl
  | some f =>
    simp only [build, Option.map_some, loadLayer_path, bind, Except.bind, pure, Except.pure]
    cases overrides <;> rfl

/-! ## What comes of layers -/

/-- Holds of failures that are reported as a text that cannot be read. -/
def ConfigError.isParseError : ConfigError → Bool
  | notText _ => true
  | notToml => true
  | shape _ => true
  | _ => false

/-- Holds of failures that are reported as settings that are not valid. -/
def ConfigError.isValidationError : ConfigError → Bool
  | invalid _ => true
  | _ => false

/-- What comes of layers of which it is known what the settings in them are. -/
theorem Config.ofLayers_cases {layers : List Value} {found : Setting → Option Value}
    (h : Settles (Value.mergeLayers layers) found) :
    (∃ e, ofLayers layers = .error (.shape e) ∧ ¬∀ s : Setting, s.accepts (found s) = true) ∨
    ∃ c : Config, (∀ s, c.Takes s (found s)) ∧
      ofLayers layers = (c.validate.mapError ConfigError.invalid).map fun _ => c := by
  have hdecode : ∀ c, Json.decodeOfValue decode (Value.mergeLayers layers) = .ok c ↔
      ∀ s, c.Takes s (found s) := by
    intro c
    have hoks := decode_ofValue_iff_takes h.toIsLayer (h.hasSections _ (by simp))
      (h.hasSections _ (by simp)) (c := c)
    simp only [h.at?] at hoks
    exact hoks
  cases hresult : Json.decodeOfValue decode (Value.mergeLayers layers) with
  | error e =>
    refine .inl ⟨e, ?_, fun haccepts => ?_⟩
    · simp [ofLayers, hresult, Except.mapError, bind, Except.bind]
    · obtain ⟨c, hc⟩ := exists_takes_iff.2 haccepts
      rw [(hdecode c).2 hc] at hresult
      cases hresult
  | ok c =>
    refine .inr ⟨c, (hdecode c).1 hresult, ?_⟩
    simp only [ofLayers, hresult, Except.mapError, bind, Except.bind]
    cases c.validate <;> rfl

/-- **The settings in force.** Each setting is what overrides it, else what the user's file says,
else what is built in, with null as good as any value. If one of them has the wrong type there is a
parse error; else, if a text that is needed is blank, a validation error; else these are the
settings, and the sources tell which layers there were. -/
theorem Effective.build_of_layers (file : Option (UserFile t)) (overrides : Option Value)
    (hfile : ∀ f ∈ file, WellShaped f.layer) (hoverrides : ∀ v ∈ overrides, IsLayer v) :
    let found (s : Setting) := s.pick (file.map UserFile.layer) overrides
    let result := build t (file.map UserFile.path) overrides
    let accepted := ∀ s : Setting, s.accepts (found s) = true
    let filled := isBlankText (found .logFilter) = false ∧ isBlankText (found .siteKey) = false ∧
      isBlankText (found .language) = false
    ((∃ e, result = .error e ∧ e.isParseError = true) ↔
      ∃ s : Setting, s.accepts (found s) = false) ∧
    ((∃ e, result = .error e ∧ e.isValidationError = true) ↔ accepted ∧ ¬filled) ∧
    ((∃ e, result = .ok e ∧ e.sources = sourcesOf file overrides ∧
      ∀ s, e.config.get? s = (found s).filter fun v => v ≠ .null) ↔ accepted ∧ filled) := by
  intro found result accepted filled
  have huser : ∀ v ∈ file.map UserFile.layer, IsLayer v := by
    intro v hv
    obtain ⟨f, hf, rfl⟩ := Option.map_eq_some_iff.1 hv
    exact f.isLayer (hfile f hf)
  have hresult : result = (Config.ofLayers (({} : Defaults).layer
      :: ((file.map UserFile.layer).toList ++ overrides.toList))).map
        fun c => ⟨c, sourcesOf file overrides⟩ := build_eq file overrides
  have hwrong : (∃ s : Setting, s.accepts (found s) = false) ↔ ¬accepted := by simp [accepted]
  rcases Config.ofLayers_cases (settles_mergeLayers huser hoverrides) with
    ⟨e, hlayers, hrejected⟩ | ⟨c, htakes, hlayers⟩
  · -- The settings are not decoded, so they are not validated either.
    rw [hlayers] at hresult
    have hnot : ¬accepted := hrejected
    rw [hresult, hwrong]
    simp [Except.map, ConfigError.isParseError, ConfigError.isValidationError, hnot]
  · have haccepted : accepted := fun s => (htakes s).1
    have hvalid : c.validate = .ok () ↔ filled := by
      simp only [Config.validate_eq_ok_iff, (htakes _).2, isBlankText_filter, filled]
      rfl
    rw [hlayers] at hresult
    cases hvalidate : c.validate with
    | ok u =>
      have hfilled : filled := hvalid.1 hvalidate
      have htaken : ∀ s : Setting, c.get? s = (found s).filter fun v => v ≠ .null :=
        fun s => (htakes s).2
      rw [hresult, hwrong, hvalidate]
      simp [Except.map, Except.mapError, haccepted, hfilled, htaken, ConfigError.isParseError]
    | error fault =>
      have hnot : ¬filled := by
        rw [← hvalid, hvalidate]
        rintro ⟨⟩
      rw [hresult, hwrong, hvalidate]
      simp [Except.map, Except.mapError, ConfigError.isParseError, ConfigError.isValidationError,
        haccepted, hnot]

/-- Null on the command line takes the key of the site away that the user's file has. -/
theorem Effective.build_of_layers_null_key :
    let text := "log_filter = \"debug\"\n[bot_protection]\nsite_key = \"0x4\"\n"
    let table : Value := .object [("bot_protection", .object [("site_key", .string "0x4")]),
      ("log_filter", .string "debug")]
    let bytes := Text.encodeUtf8 text.toList
    let t : Tree := ⟨[(["config.toml"], bytes)], []⟩
    let overrides : Value :=
      .object [("bot_protection", .object [("site_key", .null)]), ("extra", .array [])]
    WellShaped table ∧ IsLayer overrides ∧
    ∃ e, build t (some "config.toml") (some overrides) = .ok e ∧
      e.config.get? .logFilter = some (.string "debug") ∧ e.config.get? .siteKey = none ∧
      e.config.get? .theme = some (.string "auto") ∧
      e.sources.map Source.origin = [.builtin, .user, .cli] := by
  have hread : ∀ bytes, (⟨[(["config.toml"], bytes)], []⟩ : Tree).read "config.toml" = .ok bytes :=
    fun _ => rfl
  have hparsed : Toml.readText "log_filter = \"debug\"\n[bot_protection]\nsite_key = \"0x4\"\n"
      = some (.object [("bot_protection", .object [("site_key", .string "0x4")]),
        ("log_filter", .string "debug")]) := by
    decide +kernel
  intro text table bytes t overrides
  have htext : Text.decodeUtf8 bytes = .ok text := by
    rw [Text.decodeUtf8_encodeUtf8, String.ofList_toList]
  let file : UserFile t := ⟨"config.toml", bytes, text, table, hread bytes, htext, hparsed⟩
  have htable : WellShaped table := by
    refine ⟨?_, fun s w hw => ?_⟩
    · simp only [List.forall_mem_cons]
      refine ⟨?_, ?_, by simp⟩
      · rintro w ⟨⟩
      · rintro w ⟨⟩
        rfl
    · cases s <;> cases hw <;> rfl
  have hoverrides : IsLayer overrides := by
    refine ⟨⟨?_, fun s w hw => ?_⟩, Value.ordered_inOrder overrides, rfl⟩
    · simp only [List.forall_mem_cons]
      refine ⟨?_, ?_, by simp⟩
      · rintro w ⟨⟩
      · rintro w ⟨⟩
        rfl
    · cases s <;> cases hw
      rfl
  have hlayer : file.layer = table := rfl
  obtain ⟨-, -, hsettings⟩ := build_of_layers (some file) (some overrides)
    (by simpa [hlayer] using htable) (by simpa using hoverrides)
  obtain ⟨e, he, hsources, hget⟩ := hsettings.2 ⟨by intro s; cases s <;> rfl, rfl, rfl, rfl⟩
  refine ⟨htable, hoverrides, e, he, hget .logFilter, hget .siteKey, hget .theme, ?_⟩
  rw [hsources]
  rfl

end LoginSettings.Tool
