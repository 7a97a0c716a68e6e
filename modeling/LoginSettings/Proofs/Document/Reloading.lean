import LoginSettings.Proofs.Document.JsonText
import LoginSettings.Proofs.Files.Write
import LoginSettings.Proofs.Session.Runs
import LoginSettings.Proofs.Yaml.Reloading

/-!
# Documents that are loaded again

A document that has been written into a file is loaded from there as it was, as soon as its text is
read back as the document. So is the document that a session saves, and its digest is the one that
the session reports.

* `load_of_write`, `load_of_save` — what a text that is read back means for files and sessions
* `reloaded_json` — documents written as JSON, of any shape and with any texts
* `reloaded_yaml` — documents written as YAML, and the one case in which a file does not hold them
-/

namespace LoginSettings.Document

open Files (Tree)

variable {d : Document} {format : Format} {path : String} {t t' : Tree}

theorem formatOf_of_ofPath? (h : Format.ofPath? path = some format) :
    formatOf path = .ok format := by
  rw [formatOf, h]

/-- A document is stored by every write that succeeds, and what is loaded then is what its text
spells. -/
theorem load_eq_of_write (hformat : Format.ofPath? path = some format)
    (hwrite : t.write path (Text.encodeUtf8 (d.toFileText format).toList) = .ok t') :
    d.store t path = .ok t' ∧ load t' path = ofText format (d.toFileText format) := by
  have hread := (Tree.writes_of_write hwrite).read
  have htext : t'.readText path = .ok (d.toFileText format) := by
    simp only [Tree.readText, hread, Text.decodeUtf8_encodeUtf8, String.ofList_toList, bind,
      Except.bind]
    rfl
  constructor
  · simp only [store, formatOf_of_ofPath? hformat, hwrite, bind, Except.bind]
    rfl
  · simp only [load, formatOf_of_ofPath? hformat, htext, bind, Except.bind]

/-- A document whose text is read back is loaded again as it was. -/
theorem load_of_write (hback : ofText format (d.toFileText format) = .ok d)
    (hformat : Format.ofPath? path = some format)
    (hwrite : t.write path (Text.encodeUtf8 (d.toFileText format).toList) = .ok t') :
    d.store t path = .ok t' ∧ load t' path = .ok d := by
  obtain ⟨hstore, hload⟩ := load_eq_of_write hformat hwrite
  exact ⟨hstore, hload.trans hback⟩

/-- A session that saves such a document into a file reports it, and the file holds what has been
reported. -/
theorem load_of_save {h : Session.History} (hdocument : h.session.preview = d)
    (hback : ofText format (d.toFileText format) = .ok d)
    (hformat : Format.ofPath? path = some format)
    (hwrite : h.files.write path (Text.encodeUtf8 (d.toFileText format).toList) = .ok t') :
    ∃ o h', h.step (.save (.file path)) = (.ok (.saved o), h') ∧ o.document = d ∧
      ∃ e, load h'.files path = .ok e ∧ e = d ∧ e.digest = o.digest := by
  obtain ⟨hstore, hload⟩ := load_of_write hback hformat hwrite
  rw [← hdocument] at hstore
  obtain ⟨log, hstep⟩ := h.step_save_file hstore
  refine ⟨h.session.outcome, _, hstep, hdocument, d, hload, rfl, ?_⟩
  rw [← hdocument]
  rfl

/-! ## JSON -/

/-- A document is read from its text as JSON, with or without blanks at the end. -/
theorem ofJson_toText (hwhole : Json.Whole d.root)
    (hdepth : Json.nesting d.root ≤ Json.greatestDepth) (pretty : Bool) {blanks : List Char}
    (hblanks : Json.Blanks blanks) :
    ofJson (d.toText .json pretty ++ String.ofList blanks) = .ok d := by
  obtain ⟨cs, hspells, htext⟩ := exists_spells_toText hwhole pretty
  rw [htext, ← String.ofList_append]
  exact ofJson_of_spells hspells hwhole hdepth hblanks

/-- The line feed at the end of a file is blank. -/
theorem exists_endLine (text : String) :
    ∃ blanks, Json.Blanks blanks ∧ endLine text = text ++ String.ofList blanks := by
  unfold endLine
  split
  · exact ⟨[], Json.blanks_nil, by simp⟩
  · exact ⟨['\n'], by simp [Json.Blanks, Json.isSpace], rfl⟩

/-- **Documents written as JSON are read back as they were**, on one line or on several, from a text
or from a file, and what a session has saved has the digest that it reported. All strings and keys
are allowed, and all whole numbers that are read as integers. -/
theorem reloaded_json (hwhole : Json.Whole d.root)
    (hdepth : Json.nesting d.root ≤ 127) :
    (∀ pretty, ofJson (d.toText .json pretty) = .ok d) ∧
    (∀ (t t' : Tree) path, Format.ofPath? path = some .json →
      t.write path (Text.encodeUtf8 (d.toFileText .json).toList) = .ok t' →
      d.store t path = .ok t' ∧ load t' path = .ok d) ∧
    ∀ (h : Session.History) (t' : Tree) path, h.session.preview = d →
      Format.ofPath? path = some .json →
      h.files.write path (Text.encodeUtf8 (d.toFileText .json).toList) = .ok t' →
      ∃ o h', h.step (.save (.file path)) = (.ok (.saved o), h') ∧ o.document = d ∧
        ∃ e, load h'.files path = .ok e ∧ e = d ∧ e.digest = o.digest := by
  have hback : ofText .json (d.toFileText .json) = .ok d := by
    obtain ⟨blanks, hblanks, hend⟩ := exists_endLine (d.toText .json true)
    rw [ofText, toFileText, hend]
    exact ofJson_toText hwhole hdepth true hblanks
  refine ⟨fun pretty => ?_, fun t t' path hformat hwrite => load_of_write hback hformat hwrite,
    fun h t' path hdocument hformat hwrite => load_of_save hdocument hback hformat hwrite⟩
  simpa using ofJson_toText hwhole hdepth pretty Json.blanks_nil

/-- A document with texts that look like something else, keys on two lines and outside the ASCII
range, the least and the greatest integer, and empty containers inside others. -/
def intricate : Document := .ofValue (.object
  [("two\nlines", .string "null"), ("\"a\\b\": #", .string " é\n\x00\x1f\"\\ 😀\n\n"),
    ("ключ", .array [.number (.integer (-0x8000000000000000)), .array [.object []], .object []]),
    ("", .object [("12", .array []), ("- ", .number (.integer 0xFFFFFFFFFFFFFFFF))])])

theorem whole_intricate : Json.Whole intricate.root := by
  have hroot : intricate.root = .object
      [("", .object [("- ", .number (.integer 0xFFFFFFFFFFFFFFFF)), ("12", .array [])]),
        ("\"a\\b\": #", .string " é\n\x00\x1f\"\\ 😀\n\n"), ("two\nlines", .string "null"),
        ("ключ", .array [.number (.integer (-0x8000000000000000)), .array [.object []],
          .object []])] := by decide
  have hleast : Json.Whole (.number (.integer (-0x8000000000000000))) :=
    .number (by decide) (by decide)
  have hgreatest : Json.Whole (.number (.integer 0xFFFFFFFFFFFFFFFF)) :=
    .number (by decide) (by decide)
  have hinner : Json.Whole (.object
      [("- ", .number (.integer 0xFFFFFFFFFFFFFFFF)), ("12", .array [])]) :=
    .object (by simpa using ⟨hgreatest, .array nofun⟩)
  have hitems : Json.Whole (.array
      [.number (.integer (-0x8000000000000000)), .array [.object []], .object []]) :=
    .array (by simpa using ⟨hleast, .array (by simpa using .object nofun), .object nofun⟩)
  rw [hroot]
  exact .object (by simpa using ⟨hinner, .string _, .string _, hitems⟩)

/-- A new file in an empty working directory. -/
theorem write_new (hpath : path = "a.json" ∨ path = "a.yaml" ∨ path = "a.yml")
    (bytes : List UInt8) :
    Tree.empty.write path bytes = .ok ⟨[([path], bytes)], []⟩ := by
  rcases hpath with rfl | rfl | rfl <;> rfl

theorem reloaded_json_intricate :
    Json.nesting intricate.root = 4 ∧
    (∀ pretty, ofJson (intricate.toText .json pretty) = .ok intricate) ∧
    ∃ t', Tree.empty.write "a.json" (Text.encodeUtf8 (intricate.toFileText .json).toList) = .ok t' ∧
      load t' "a.json" = .ok intricate := by
  have hdepth : Json.nesting intricate.root = 4 := by decide
  obtain ⟨htext, hfile, -⟩ := reloaded_json whole_intricate (by omega)
  have hwrite := write_new (.inl rfl) (Text.encodeUtf8 (intricate.toFileText .json).toList)
  exact ⟨hdepth, htext, _, hwrite, (hfile _ _ _ (by decide +kernel) hwrite).2⟩

/-! ## YAML -/

theorem ofYaml_eq {text : String} {v : Value} (h : Yaml.readValue text = some v)
    (hordered : v.Ordered) : ofYaml text = .ok ⟨v, hordered⟩ := by
  rw [ofYaml, h]
  exact congrArg Except.ok (ext_root (Value.inOrder_eq_self hordered))

/-- A document is read from its text as YAML. -/
theorem ofYaml_toText (hwhole : Json.Whole d.root)
    (hdepth : Json.nesting d.root ≤ Yaml.greatestDepth) (pretty : Bool) :
    ofYaml (d.toText .yaml pretty) = .ok d :=
  ofYaml_eq (Yaml.readValue_render hwhole hdepth) d.ordered

/-- Holds of documents whose YAML ends in a separator of lines or paragraphs right behind another
line end. The last string is then a block that keeps its line ends. -/
def KeepsSeparator (d : Document) : Prop :=
  Yaml.endsTwice d.toYaml.toList = true ∧ d.toYaml.toList.getLast? ≠ some '\n'

instance : DecidablePred KeepsSeparator := fun _ => inferInstanceAs (Decidable (_ ∧ _))

/-- The line feed at the end of a file counts just behind a separator that is kept. -/
theorem ofYaml_toFileText (hwhole : Json.Whole d.root)
    (hdepth : Json.nesting d.root ≤ Yaml.greatestDepth) :
    ofYaml (d.toFileText .yaml) = .ok d ↔ ¬d.KeepsSeparator := by
  by_cases hlast : d.toYaml.toList.getLast? = some '\n'
  · have htext : d.toFileText .yaml = d.toText .yaml true := if_pos hlast
    rw [htext, ofYaml_toText hwhole hdepth]
    simp [KeepsSeparator, hlast]
  · have htext : d.toFileText .yaml = d.toYaml ++ "\n" := if_neg hlast
    obtain ⟨w, hread, hordered, hsame⟩ := Yaml.readValue_render_lineFeed hwhole hdepth hlast
    have hdocument : (⟨w, hordered d.ordered⟩ : Document) = d ↔ w = d.root :=
      ⟨congrArg root, fun h => ext_root h⟩
    have hkeeps : d.KeepsSeparator ↔ Yaml.endsTwice d.toYaml.toList = true := and_iff_left hlast
    rw [htext, toYaml, ofYaml_eq hread (hordered d.ordered), Except.ok.injEq, hdocument, hsame,
      hkeeps, Bool.not_eq_true]
    rfl

/-- **Documents written as YAML are read back as they were**, with all strings and keys and all
whole numbers that are read as integers. So they are from a file, unless its last string ends in a
separator that is kept: the line feed at the end of the file becomes a part of that string. -/
theorem reloaded_yaml (hwhole : Json.Whole d.root) (hdepth : Json.nesting d.root ≤ 127) :
    (∀ pretty, ofYaml (d.toText .yaml pretty) = .ok d) ∧
    ∀ (t t' : Tree) path, Format.ofPath? path = some .yaml →
      t.write path (Text.encodeUtf8 (d.toFileText .yaml).toList) = .ok t' →
      d.store t path = .ok t' ∧ (load t' path = .ok d ↔ ¬d.KeepsSeparator) := by
  have hdepth' : Json.nesting d.root ≤ Yaml.greatestDepth :=
    Nat.le_trans hdepth (by decide)
  refine ⟨ofYaml_toText hwhole hdepth', fun t t' path hformat hwrite => ?_⟩
  obtain ⟨hstore, hload⟩ := load_eq_of_write hformat hwrite
  rw [hload]
  exact ⟨hstore, ofYaml_toFileText hwhole hdepth'⟩

theorem reloaded_yaml_intricate :
    Json.nesting intricate.root = 4 ∧
    (∀ pretty, ofYaml (intricate.toText .yaml pretty) = .ok intricate) ∧
    ∃ t', Tree.empty.write "a.yml" (Text.encodeUtf8 (intricate.toFileText .yaml).toList) = .ok t' ∧
      load t' "a.yml" = .ok intricate := by
  have hdepth : Json.nesting intricate.root = 4 := by decide
  obtain ⟨htext, hfile⟩ := reloaded_yaml whole_intricate (by omega)
  have hwrite := write_new (.inr (.inr rfl)) (Text.encodeUtf8 (intricate.toFileText .yaml).toList)
  exact ⟨hdepth, htext, _, hwrite,
    (hfile _ _ _ (by decide +kernel) hwrite).2.2 (by decide +kernel)⟩

/-- A document whose only string ends in a separator of lines behind a line feed. -/
def separated : Document := .ofValue (.object [("note", .string "a\n\u2028")])

/-- The document is within the bounds, and stored without a failure. What is loaded then has a line
feed more in its string. -/
theorem load_separated_ne :
    Json.Whole separated.root ∧ Json.nesting separated.root ≤ 127 ∧
    Format.ofPath? "a.yaml" = some .yaml ∧
    ∃ t', separated.store .empty "a.yaml" = .ok t' ∧
      load t' "a.yaml" = .ok (.ofValue (.object [("note", .string "a\n\u2028\n")])) ∧
      load t' "a.yaml" ≠ .ok separated := by
  have hformat : Format.ofPath? "a.yaml" = some .yaml := by decide +kernel
  have hwhole : ∀ s, Json.Whole (.object [("note", .string s)]) := fun s =>
    .object (by simpa using .string s)
  obtain ⟨hstore, hload⟩ := load_eq_of_write hformat
    (write_new (.inr (.inl rfl)) (Text.encodeUtf8 (separated.toFileText .yaml).toList))
  have htext : separated.toFileText .yaml = (Document.ofValue
      (.object [("note", .string "a\n\u2028\n")])).toText .yaml true := by decide +kernel
  have hread := ofYaml_toText (d := .ofValue (.object [("note", .string "a\n\u2028\n")]))
    (hwhole _) (by decide) true
  rw [← htext] at hread
  refine ⟨hwhole _, by decide, hformat, _, hstore, hload.trans hread, ?_⟩
  rw [hload.trans hread]
  decide

end LoginSettings.Document
