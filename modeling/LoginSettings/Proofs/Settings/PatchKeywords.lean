import LoginSettings.Proofs.Document.Removal
import LoginSettings.Proofs.Settings.Written

/-!
# Keywords after a patch

Keywords stand in a document in one form: a list of those that count, or nothing at all if none do.
An empty list is never written. This is so whatever stood there before, and whatever else the patch
has put into the section on user names by then.

Taking keywords away makes no objects. A patch that does only this gives back the document itself,
unless keywords are there to be taken away, and then nothing but these is missing.
-/

namespace LoginSettings

namespace Settings

variable {initial current : Settings}

/-- Where nothing but keywords differs, a patch writes keywords only. -/
theorem written_of_keywords_only
    (hother : ∀ f : Field, f.isKeywordField = false → current.get f = initial.get f)
    (hdiffers : ∃ f : Field, f.isKeywordField = true ∧ current.get f ≠ initial.get f) :
    initial.written current = [.excludedKeywords] := by
  have hflags : (current.changedFields initial).filter (fun f => !f.isKeywordField) = [] := by
    rw [List.filter_eq_nil_iff]
    intro f hf
    cases hkeyword : f.isKeywordField with
    | true => simp
    | false => exact absurd (hother f hkeyword) (mem_changedFields.1 hf)
  rw [written, hflags, any_changedFields_iff.2 hdiffers]
  rfl

end Settings

namespace Value

variable {initial current : Settings}

theorem patch_of_keywords_only (root : Value)
    (hother : ∀ f : Field, f.isKeywordField = false → current.get f = initial.get f)
    (hdiffers : ∃ f : Field, f.isKeywordField = true ∧ current.get f ≠ initial.get f) :
    root.patch initial current = root.writeKeywords current.keywords := by
  have hkeyword : Field.excludedKeywords.isKeywordField = true := rfl
  rw [patch_eq_foldl, Settings.written_of_keywords_only hother hdiffers]
  exact write_keyword current root hkeyword

theorem at?_patch_keywords (root : Value)
    (hdiffers : ∃ f : Field, f.isKeywordField = true ∧ current.get f ≠ initial.get f) :
    (root.patch initial current).at? keywordsLocation.place = ofKeywords? current.keywords := by
  have hrewrites : initial.Rewrites current .excludedKeywords :=
    (Settings.rewrites_iff_of_isKeywordField rfl).2 hdiffers
  exact (holds_patch root hrewrites).keywords_stand rfl

end Value

namespace Document

/-- **Keywords have one form in a document.** A patch with other keywords leaves behind a list of
those that count, or nothing where none do. If it takes keywords away and does nothing else, it
changes a document that has some, and only by these. -/
theorem keywords_patch (d : Document) {initial current : Settings}
    (h : current.excludedKeywords ≠ initial.excludedKeywords
      ∨ current.excludeKeywords ≠ initial.excludeKeywords) :
    let texts := effectiveList current.excludedKeywords current.excludeKeywords
    let place := ["identity", "login_id", "types", "username", "excluded_keywords"]
    (d.patch initial current).root.at? place
        = (if texts = [] then none else some (.array (texts.map .string)))
    ∧ ((∀ f : Field, f.isKeywordField = false → current.get f = initial.get f) → texts = [] →
      (d.root.at? place = none → d.patch initial current = d)
      ∧ (d.root.at? place ≠ none → ∀ e : Document,
        e = d.patch initial current ↔ Value.TakesAway place d.root e.root)) := by
  intro texts place
  have hdiffers := Settings.exists_keyword_differs_iff.2 h
  refine ⟨Value.at?_patch_keywords d.root hdiffers, fun hother hnil => ?_⟩
  have hpatch : (d.patch initial current).root
      = d.root.eraseAt keywordsLocation.member keywordsLocation.path := by
    show d.root.patch initial current = _
    have hkeywords : current.keywords = [] := hnil
    rw [Value.patch_of_keywords_only d.root hother hdiffers, hkeywords, Value.writeKeywords_nil]
  have htakes : Value.TakesAway place d.root (d.patch initial current).root := by
    rw [hpatch]
    exact Value.takesAway_eraseAt keywordsLocation.member keywordsLocation.path d.root
  constructor
  · intro hplace
    apply ext_root
    rw [hpatch]
    exact Value.eraseAt_eq_self d.ordered hplace
  · intro hplace e
    constructor
    · rintro rfl
      exact htakes
    · intro he
      exact ext_root (he.eq e.ordered (d.patch initial current).ordered htakes hplace)

/-- Keywords are turned off. A document whose section on user names is null stays as it is, and one
that has a number in place of keywords loses it and nothing else. Once they are turned on they stand
in both, without the blank one. -/
theorem keywords_patch_over_null_and_number :
    let place := ["identity", "login_id", "types", "username", "excluded_keywords"]
    let within (content : Value) := Document.ofValue (.object [("identity", .object
      [("login_id", .object [("types", .object [("username", content)])])])])
    let listed := within (.object [("ascii_only", .bool true),
      ("excluded_keywords", .number (.integer 7))])
    let off : Settings := { excludedKeywords := [" staff ", ""] }
    let on : Settings := { off with excludeKeywords := true }
    off.excludeKeywords ≠ on.excludeKeywords
    ∧ (within .null).patch on off = within .null
    ∧ listed.root.at? place ≠ none
    ∧ Value.TakesAway place listed.root (listed.patch on off).root
    ∧ ((within .null).patch off on).root.at? place = some (.array [.string "staff"])
    ∧ (listed.patch off on).root.at? place = some (.array [.string "staff"]) := by
  intro place within listed off on
  have hoff : off.excludeKeywords ≠ on.excludeKeywords := by decide
  have hother : ∀ f : Field, f.isKeywordField = false → off.get f = on.get f := by decide
  have hlisted : listed.root.at? place ≠ none := by decide
  have htaken (d : Document) := (keywords_patch d (.inr hoff)).2 hother rfl
  have hwritten (d : Document) :
      (d.patch off on).root.at? place = some (.array [.string "staff"]) := by
    rw [(keywords_patch d (.inr hoff.symm)).1]
    decide
  refine ⟨hoff, ?_, hlisted, ?_, hwritten _, hwritten _⟩
  · exact (htaken (within .null)).1 (by decide)
  · exact ((htaken listed).2 hlisted _).1 rfl

end Document
end LoginSettings
