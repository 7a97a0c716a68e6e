import LoginSettings.Proofs.Settings.Written

/-!
# Reading settings back after a patch

What the settings of a patched document are: the new value of a field that differs, and the old
value of any other. Two kinds of fields do not take every value. A type stays enabled once it is
listed, and keywords read back as those that count.

Turning off a type that is not listed would list it, so that the statement asks for an entry of
every type that is turned off. Settings that have been read out of the document always have one.
-/

namespace LoginSettings

namespace Settings

theorem filterMap_string?_ofStrings (texts : List String) :
    ((Value.ofStrings texts).items?.getD []).filterMap Value.string? = texts := by
  rw [Value.ofStrings, Value.items?, Option.getD_some, List.filterMap_map]
  exact List.filterMap_some

/-- A flag that holds is read as it has been written. -/
theorem get_ofRoot_of_holds {current : Settings} {root : Value} {f : Field}
    (hf : f ∈ Field.flags) (h : Value.Holds current root f) :
    (ofRoot root).get f = current.get f := by
  rw [get_eq_bool_flag hf, get_eq_bool_flag hf, flag_ofRoot hf, h.flag_stands hf,
    Option.bind_some, Value.bool?, Option.getD_some, Field.stored_stored]

/-- Keywords that hold are read as those that count. -/
theorem excludedKeywords_ofRoot_of_holds {current : Settings} {root : Value}
    (h : Value.Holds current root .excludedKeywords) :
    (ofRoot root).excludedKeywords = current.keywords := by
  rw [excludedKeywords_ofRoot, h.keywords_stand rfl, Value.ofKeywords?]
  by_cases hnil : current.keywords = []
  · rw [if_pos hnil, hnil]
    rfl
  · rw [if_neg hnil]
    exact filterMap_string?_ofStrings _

/-- What settings read after a patch have in common with those read before it, and with those it
has been made from. -/
structure ReadBack (before initial current after : Settings) : Prop where
  flag : ∀ f ∈ Field.flags,
    after.get f = if current.get f ≠ initial.get f then current.get f else before.get f
  enabled : ∀ t, after.enabled t = true
    ↔ before.enabled t = true ∨ initial.enabled t = false ∧ current.enabled t = true
  excludedKeywords : after.excludedKeywords =
    if current.excludedKeywords ≠ initial.excludedKeywords
      ∨ current.excludeKeywords ≠ initial.excludeKeywords
    then effectiveList current.excludedKeywords current.excludeKeywords
    else before.excludedKeywords
  excludeKeywords : after.excludeKeywords = true ↔ after.excludedKeywords ≠ []

end Settings

namespace Document

/-- Holds where every type that is turned off has an entry in the list of keys. -/
def ListsDisabled (d : Document) (initial current : Settings) : Prop :=
  ∀ t, initial.enabled t = true → current.enabled t = false → isListed t (keysOf d.root) = true

theorem listsDisabled_ofDocument (d : Document) (current : Settings) :
    d.ListsDisabled (.ofDocument d) current := by
  intro t ht _
  rwa [Settings.ofDocument, Settings.enabled_ofRoot] at ht

/-- A flag that is changed is read as it is then, and all others as before. -/
theorem get_ofDocument_patch_flag (d : Document) (initial current : Settings) {f : Field}
    (hf : f ∈ Field.flags) :
    (Settings.ofDocument (d.patch initial current)).get f
      = if current.get f ≠ initial.get f then current.get f
        else (Settings.ofDocument d).get f := by
  by_cases hne : current.get f ≠ initial.get f
  · rw [if_pos hne]
    exact Settings.get_ofRoot_of_holds hf (Value.holds_patch d.root (.inl hne))
  · rw [if_neg hne]
    refine Value.get_ofRoot_patch d.root ?_
    rintro (h | ⟨hkeyword, -⟩)
    · exact hne h
    · exact Field.not_isKeywordField_of_mem_flags hf hkeyword

/-- A type is read as enabled if it was so before, or if it has been turned on. -/
theorem enabled_ofDocument_patch (d : Document) {initial current : Settings}
    (h : d.ListsDisabled initial current) (t : KeyType) :
    (Settings.ofDocument (d.patch initial current)).enabled t = true
      ↔ (Settings.ofDocument d).enabled t = true
        ∨ initial.enabled t = false ∧ current.enabled t = true := by
  have hlisted := h t
  rw [Settings.ofDocument, Settings.ofDocument, Settings.enabled_ofRoot, Settings.enabled_ofRoot,
    patch, Value.isListed_patch, Bool.or_eq_true, decide_eq_true_eq]
  constructor
  · rintro (hbefore | hne)
    · exact .inl hbefore
    · -- A patch that toggles the type lists it, which shows only where it was not listed before.
      cases hi : initial.enabled t with
      | true => exact .inl (hlisted hi (by simpa [hi] using hne))
      | false => exact .inr ⟨rfl, by simpa [hi] using hne⟩
  · rintro (hbefore | ⟨hi, hc⟩)
    · exact .inl hbefore
    · exact .inr (by simp [hi, hc])

/-- Keywords that have been changed are read as those that count, and else as before. -/
theorem excludedKeywords_ofDocument_patch (d : Document) (initial current : Settings) :
    (Settings.ofDocument (d.patch initial current)).excludedKeywords =
      if current.excludedKeywords ≠ initial.excludedKeywords
        ∨ current.excludeKeywords ≠ initial.excludeKeywords
      then effectiveList current.excludedKeywords current.excludeKeywords
      else (Settings.ofDocument d).excludedKeywords := by
  have hrewrites : initial.Rewrites current .excludedKeywords
      ↔ current.excludedKeywords ≠ initial.excludedKeywords
        ∨ current.excludeKeywords ≠ initial.excludeKeywords := by
    rw [Settings.rewrites_iff_of_isKeywordField rfl, Settings.exists_keyword_differs_iff]
  split
  · rename_i h
    exact Settings.excludedKeywords_ofRoot_of_holds
      (Value.holds_patch d.root (hrewrites.2 h))
  · rename_i h
    have hget := Value.get_ofRoot_patch d.root fun hwrites => h (hrewrites.1 hwrites)
    rw [Settings.get, Settings.get, FieldValue.list.injEq] at hget
    exact hget

/-- **Reading back a patch.** If every type that is turned off is listed, then the patched document
reads as the current settings where they differ from the initial ones and as before elsewhere; and
where the initial settings come from the document, every type that is turned off is listed. -/
theorem ofDocument_patch (d : Document) (initial current : Settings) :
    (d.ListsDisabled initial current →
      Settings.ReadBack (.ofDocument d) initial current
        (.ofDocument (d.patch initial current)))
    ∧ d.ListsDisabled (.ofDocument d) current := by
  refine ⟨fun h => ?_, listsDisabled_ofDocument d current⟩
  exact
    { flag := fun f hf => get_ofDocument_patch_flag d initial current hf
      enabled := enabled_ofDocument_patch d h
      excludedKeywords := excludedKeywords_ofDocument_patch d initial current
      excludeKeywords := by
        rw [Settings.ofDocument, Settings.excludeKeywords_ofRoot]
        simp }

/-- E-mail addresses are turned off and stay listed; user names are turned on, and a blank keyword
is dropped, although nothing but null stands where the section on user names belongs. -/
theorem ofDocument_patch_over_null :
    let d := Document.ofValue (.object [("identity", .object [("login_id", .object
      [("keys", .array [.object [("type", .string "email")]]), ("types", .null)])])])
    let initial : Settings := { emailEnabled := true }
    let current : Settings :=
      { usernameEnabled := true, excludedKeywords := [" staff ", " "], excludeKeywords := true }
    let after := Settings.ofDocument (d.patch initial current)
    d.ListsDisabled initial current
    ∧ after.enabled .email = true
    ∧ after.enabled .username = true
    ∧ after.excludedKeywords = ["staff"]
    ∧ after.excludeKeywords = true
    ∧ after.get .allowPlus = .bool true := by
  intro d initial current after
  have hlisted : d.ListsDisabled initial current := by
    intro t
    cases t <;> decide
  obtain ⟨hflag, henabled, hkeywords, hgate⟩ := (ofDocument_patch d initial current).1 hlisted
  have hstaff : after.excludedKeywords = ["staff"] := by
    rw [hkeywords, if_pos (by decide)]
    decide
  refine ⟨hlisted, (henabled .email).2 (.inl (by decide)),
    (henabled .username).2 (.inr ⟨rfl, rfl⟩), hstaff, ?_, ?_⟩
  · rw [hgate, hstaff]
    decide
  · rw [hflag .allowPlus (by decide), if_neg (by decide)]
    decide

end Document
end LoginSettings
