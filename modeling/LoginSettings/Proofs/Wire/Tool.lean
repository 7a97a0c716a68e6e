import LoginSettings.Proofs.Json.StandsFor
import LoginSettings.Wire.Tool

/-!
# Settings of the tool decoded from what they are encoded as

The settings of the tool, the built-in ones and the sources of layers stand for themselves when they
are encoded. Of a text that there is not, there is no member either.
-/

namespace LoginSettings

open Json (FieldShape Known Node StandsFor)

theorem Format.standsFor (f : Format) (depth : Nat) : StandsFor depth decode f.encode f :=
  .name depth (by cases f <;> rfl)

namespace Tool

theorem Origin.standsFor (o : Origin) (depth : Nat) : StandsFor depth decode o.encode o :=
  .name depth (by cases o <;> rfl)

section

variable {depth : Nat} {name : String} {shapes : List FieldShape} {optional : Bool}

/-- A member that is left out if there is no text is known if its name is. -/
theorem known_optionalMember (text : Option String)
    (hshape : shapes.find? (fun s => s.name = name)
      = some { Json.field name (Node.decodeOption Node.decodeString) with optional }) :
    ∀ m ∈ optionalMember name text, Known depth shapes m := by
  cases text with
  | none => simp [optionalMember]
  | some s => simpa [optionalMember] using (StandsFor.some_string depth s).known hshape

end

theorem Source.standsFor (s : Source) : StandsFor 1 decode s.encode s := by
  refine .record ?_ ?_ fun fs hof => ?_
  · cases s.path <;> cases s.digest <;> simp [optionalMember]
  · rw [List.forall_mem_append, List.forall_mem_cons]
    exact ⟨⟨(s.origin.standsFor 0).known rfl, known_optionalMember s.path rfl⟩,
      known_optionalMember s.digest rfl⟩
  · have horigin : fs.required "origin" Origin.decode = .ok s.origin :=
      hof.required rfl (s.origin.standsFor 0)
    have hpath : fs.optional "path" Node.decodeString = .ok s.path :=
      hof.optional (by cases s.path <;> cases s.digest <;> rfl)
    have hdigest : fs.optional "digest" Node.decodeString = .ok s.digest :=
      hof.optional (by cases s.path <;> cases s.digest <;> rfl)
    rw [horigin, hpath, hdigest]
    rfl

theorem OutputSettings.standsFor (o : OutputSettings) : StandsFor 1 decode o.encode o := by
  refine .record (by simp) ?_ fun fs hof => ?_
  · simp only [List.forall_mem_cons]
    exact ⟨(o.format.standsFor 0).known rfl, (StandsFor.bool 0 _).known rfl, by simp⟩
  · have hformat : fs.required "format" Format.decode = .ok o.format :=
      hof.required rfl (o.format.standsFor 0)
    have hpretty : fs.required "pretty" Node.decodeBool = .ok o.pretty :=
      hof.required rfl (.bool 0 _)
    rw [hformat, hpretty]
    rfl

theorem WidgetSettings.standsFor (w : WidgetSettings) : StandsFor 1 decode w.encode w := by
  refine .record ?_ ?_ fun fs hof => ?_
  · cases w.siteKey <;> simp [optionalMember]
  · rw [List.forall_mem_append]
    simp only [List.forall_mem_cons]
    exact ⟨known_optionalMember w.siteKey rfl, (StandsFor.string 0 _).known rfl,
      (StandsFor.string 0 _).known rfl, by simp⟩
  · have hsiteKey : fs.optional "site_key" Node.decodeString = .ok w.siteKey :=
      hof.optional (by cases w.siteKey <;> rfl)
    have htheme : fs.required "theme" Node.decodeString = .ok w.theme :=
      hof.required (by cases w.siteKey <;> rfl) (.string 0 _)
    have hlanguage : fs.required "language" Node.decodeString = .ok w.language :=
      hof.required (by cases w.siteKey <;> rfl) (.string 0 _)
    rw [hsiteKey, htheme, hlanguage]
    rfl

theorem Config.standsFor (c : Config) : StandsFor 2 decode c.encode c := by
  refine .record (by simp) ?_ fun fs hof => ?_
  · simp only [List.forall_mem_cons]
    exact ⟨(StandsFor.string 1 _).known rfl, c.output.standsFor.known rfl,
      c.widget.standsFor.known rfl, by simp⟩
  · have hlogFilter : fs.required "log_filter" Node.decodeString = .ok c.logFilter :=
      hof.required rfl (.string 0 _)
    have houtput : fs.required "output" OutputSettings.decode = .ok c.output :=
      hof.required rfl c.output.standsFor
    have hwidget : fs.required "bot_protection" WidgetSettings.decode = .ok c.widget :=
      hof.required rfl c.widget.standsFor
    rw [hlogFilter, houtput, hwidget]
    rfl

theorem Defaults.standsFor (d : Defaults) : StandsFor 1 decode d.encode d := by
  refine .record (by simp) ?_ fun fs hof => ?_
  · simp only [List.forall_mem_cons]
    exact ⟨(StandsFor.string 0 _).known rfl, (d.format.standsFor 0).known rfl,
      (StandsFor.bool 0 _).known rfl, (StandsFor.string 0 _).known rfl,
      (StandsFor.string 0 _).known rfl, by simp⟩
  · have hlogFilter : fs.required "log_filter" Node.decodeString = .ok d.logFilter :=
      hof.required rfl (.string 0 _)
    have hformat : fs.required "output_format" Format.decode = .ok d.format :=
      hof.required rfl (d.format.standsFor 0)
    have hpretty : fs.required "pretty" Node.decodeBool = .ok d.pretty :=
      hof.required rfl (.bool 0 _)
    have htheme : fs.required "bot_protection_theme" Node.decodeString = .ok d.theme :=
      hof.required rfl (.string 0 _)
    have hlanguage : fs.required "bot_protection_language" Node.decodeString = .ok d.language :=
      hof.required rfl (.string 0 _)
    rw [hlogFilter, hformat, hpretty, htheme, hlanguage]
    rfl

end Tool
end LoginSettings
