import LoginSettings.Proofs.Cli.Quiet
import LoginSettings.Proofs.Document.JsonText
import LoginSettings.Proofs.Settings.Fields
import LoginSettings.Proofs.Settings.PatchAgain
import LoginSettings.Proofs.Wire.Settings

/-!
# Settings that are shown and given back

Settings are printed as JSON with their members in order and without blanks at the end, and a
snapshot is decoded strictly. Nothing is lost between the two, so that settings which are given back
as they have been shown are no edit.

* `decodeOfText_settingsText` — what is printed for settings is decoded to these settings
* `run_display` — the run that shows the settings of a document
* `shown_given_back` — the settings shown, given back as a snapshot
-/

namespace LoginSettings.Cli

open Files (Tree)

variable {t t' : Tree} {c : Tool.Config}

/-! ## The text of settings -/

/-- The text of settings spells their members in some order. -/
theorem exists_spells_settingsText (hjson : c.output.format = .json) (s : Settings) :
    ∃ v cs, Value.Reordered s.encode v ∧ Json.Spells v cs ∧
      settingsText c s = String.ofList cs := by
  have hreordered := s.reordered_root_ofValue
  have hwhole := s.standsFor.whole.reordered hreordered
  obtain ⟨members, hroot, -⟩ := hreordered.members
  obtain ⟨cs, hspells, htext⟩ := Document.exists_spells_toText hwhole c.output.pretty
  refine ⟨_, cs, hreordered, hspells, ?_⟩
  -- The text ends with a brace, so that there is nothing to cut.
  have htrim : Text.trimEnd cs = cs := by
    rw [hroot] at hspells
    obtain ⟨inner, blanks, -, -, rfl⟩ := hspells
    refine Text.trimEnd_eq_self ?_
    rw [← List.cons_append, List.getLast?_concat]
    rfl
  rw [settingsText, hjson, htext, Text.trimmedEnd, String.toList_ofList, htrim]

/-- **What is printed for settings is decoded to these settings.** -/
theorem decodeOfText_settingsText (hjson : c.output.format = .json) (s : Settings) :
    Json.decodeOfText Settings.decode (settingsText c s ++ "\n") = .ok s := by
  obtain ⟨v, cs, hreordered, hspells, htext⟩ := exists_spells_settingsText hjson s
  have hblanks : Json.Blanks ['\n'] := by simp [Json.Blanks, Json.isSpace]
  have hline : settingsText c s ++ "\n" = String.ofList (cs ++ ['\n']) := by
    rw [htext, String.ofList_append]
  rw [hline]
  exact s.standsFor.decodeOfText_of_spells (by decide) hreordered hspells hblanks

/-- A file with what has been printed for settings is read as a snapshot of these settings. -/
theorem readSnapshot_of_read {path : String} {s : Settings} (hjson : c.output.format = .json)
    (hread : t.read path = .ok (Text.encodeUtf8 (settingsText c s ++ "\n").toList)) :
    readSnapshot t path = .ok s := by
  have htext : t.readText path = .ok (settingsText c s ++ "\n") := by
    simp only [Tree.readText, hread, Text.decodeUtf8_encodeUtf8, String.ofList_toList, bind,
      Except.bind]
    rfl
  simp only [readSnapshot, htext, Except.mapError, bind, Except.bind,
    decodeOfText_settingsText hjson s]

/-! ## Showing settings, and giving them back -/

section

variable {env : Tool.Environment} {i : Invocation} {order : Order} {document snapshot : String}
  {effective : Option String} {raw : Document} {filled : Option Document}

theorem result_beginSession_of_load (hraw : Document.load t document = .ok raw)
    (hfilled : effective.mapM (Document.load t) = .ok filled) :
    (beginSession t document effective).result = some (.start raw filled) := by
  rw [result_beginSession, hraw, hfilled]
  rfl

/-- **The run that shows the settings of a document prints their text and nothing else**, and leaves
the files as they are. -/
theorem run_display (hcommand : i.command = .display document effective)
    (hsettings : i.settings t env = .ok c) (hraw : Document.load t document = .ok raw)
    (hfilled : effective.mapM (Document.load t) = .ok filled) :
    (i.run t env).exitCode = 0
      ∧ (i.run t env).out = settingsText c (.ofDocument (filled.getD raw)) ++ "\n"
      ∧ (i.run t env).files = t := by
  obtain ⟨hexit, hout, hfiles⟩ := Invocation.run_of_settings hsettings
  rw [hcommand] at hexit hout hfiles
  obtain ⟨hexit', hout', hfiles'⟩ :=
    Outcome.ofProgress_bind t (.choose env.logFilter c.logFilter)
      (quiet_beginSession t document effective) (result_beginSession_of_load hraw hfilled)
      fun s => Progress.outLine (settingsText c s.initial)
  exact ⟨hexit.trans hexit', (hout.trans hout').trans (Outcome.out_outLine ..),
    hfiles.trans hfiles'⟩

/-- **Settings that are given back as they have been shown are no edit.** What is printed as JSON
for the settings of a document is read as a snapshot of these settings. The session on the same
document that takes it has nothing changed, and what it saves is the document as it was loaded. -/
theorem shown_given_back (hcommand : i.command = .display order.document order.effective)
    (hsettings : i.settings t env = .ok c) (hjson : c.output.format = .json)
    (hraw : Document.load t order.document = .ok raw)
    (hfilled : order.effective.mapM (Document.load t) = .ok filled)
    (hrawAgain : Document.load t' order.document = .ok raw)
    (hfilledAgain : order.effective.mapM (Document.load t') = .ok filled)
    (hassignments : order.assignments = []) (hsnapshot : order.snapshot = some snapshot)
    (hread : t'.read snapshot = .ok (Text.encodeUtf8 (i.run t env).out.toList)) :
    let shown := Settings.ofDocument (filled.getD raw)
    (i.run t env).exitCode = 0 ∧ (i.run t env).out = settingsText c shown ++ "\n" ∧
    readSnapshot t' snapshot = .ok shown ∧
    ∃ s, (beginSession t' order.document order.effective >>= editSession t' order).result = some s ∧
      s.initial = shown ∧ s.current = shown ∧ s.isDirty = false ∧ s.changedFields = [] ∧
      s.preview = raw ∧
      ∀ {α : Type} (accept : Document → Except SaveError α),
        s.save accept = (accept raw).map fun a => (s.outcome, a) := by
  intro shown
  obtain ⟨hexit, hout, -⟩ := run_display hcommand hsettings hraw hfilled
  rw [hout] at hread
  have hshown : readSnapshot t' snapshot = .ok shown := readSnapshot_of_read hjson hread
  -- The snapshot takes the place of settings that are the same already.
  have hedited : (beginSession t' order.document order.effective >>= editSession t' order).result
      = some (.start raw filled) := by
    rw [Progress.result_bind, result_beginSession_of_load hrawAgain hfilledAgain, Option.bind_some,
      result_editSession, hsnapshot, hassignments, Option.mapM_some, hshown]
    rfl
  have hpreview : (Session.start raw filled).preview = raw :=
    Document.patch_eq_self fun f hf => absurd rfl hf
  refine ⟨hexit, hout, hshown, _, hedited, rfl, rfl, ?_, ?_, hpreview, fun accept => ?_⟩
  · simp [Session.isDirty, Session.start]
  · exact Settings.changedFields_eq_nil_iff.2 rfl
  · rw [Session.save, hpreview]

end

/-- Keywords with quotes, a line feed and letters outside ASCII come back as they were. -/
theorem shown_given_back_keywords :
    let keywords := ["say \"hi\"\n", "ünïcode 🦊"]
    let filled := Document.ofValue (.object [("identity", .object [("login_id", .object
      [("types", .object [("username", .object
        [("excluded_keywords", .ofStrings keywords)])])])])])
    let t (shown : String) : Tree :=
      ⟨[(["app.json"], Text.encodeUtf8 Document.empty.toJson.toList),
        (["filled.json"], Text.encodeUtf8 filled.toJson.toList),
        (["shown.json"], Text.encodeUtf8 shown.toList)], []⟩
    let i : Invocation :=
      { config := none, logFilter := none, command := .display "app.json" (some "filled.json") }
    let shown := (i.run (t "") ⟨none, none, none⟩).out
    let order : Order :=
      { document := "app.json", effective := some "filled.json", assignments := [],
        snapshot := some "shown.json", target := none, json := false }
    readSnapshot (t shown) "shown.json" = .ok (.ofDocument filled) ∧
    (Settings.ofDocument filled).excludedKeywords = keywords ∧
    ∃ s, (beginSession (t shown) "app.json" (some "filled.json")
        >>= editSession (t shown) order).result = some s ∧
      s.isDirty = false ∧ s.preview = .empty := by
  intro keywords filled t i shown order
  have hread : ∀ app filled shown, let t : Tree :=
      ⟨[(["app.json"], app), (["filled.json"], filled), (["shown.json"], shown)], []⟩
      t.read "app.json" = .ok app ∧ t.read "filled.json" = .ok filled
        ∧ t.read "shown.json" = .ok shown := fun _ _ _ => ⟨rfl, rfl, rfl⟩
  have hwhole : Json.Whole filled.root :=
    .object (List.forall_mem_singleton.2 (.object (List.forall_mem_singleton.2 (.object
      (List.forall_mem_singleton.2 (.object (List.forall_mem_singleton.2 (.object
        (List.forall_mem_singleton.2 (Json.whole_ofStrings keywords))))))))))
  have hraw : ∀ text, Document.load (t text) "app.json" = .ok .empty := fun text =>
    Document.load_of_read false rfl .null (Nat.zero_le _) (hread _ _ _).1
  have hfilled : ∀ text,
      (some "filled.json").mapM (Document.load (t text)) = .ok (some filled) := by
    intro text
    have hload : Document.load (t text) "filled.json" = .ok filled :=
      Document.load_of_read false rfl hwhole (by decide) (hread _ _ _).2.1
    rw [Option.mapM_some, hload]
    rfl
  have hsettings : i.settings (t "") ⟨none, none, none⟩
      = .ok ⟨"portal_settings=info", ⟨.json, true⟩, ⟨none, "auto", "auto"⟩⟩ := by rfl
  have hcommand : i.command = .display order.document order.effective := rfl
  obtain ⟨-, -, hshown, s, hs, -, -, hclean, -, hpreview, -⟩ :=
    shown_given_back hcommand hsettings rfl (hraw "") (hfilled "") (hraw shown) (hfilled shown)
      rfl rfl (hread _ _ _).2.2
  exact ⟨hshown, rfl, s, hs, hclean, hpreview⟩

end LoginSettings.Cli
