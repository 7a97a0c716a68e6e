import LoginSettings.Proofs.Settings.Places

/-!
# Written fields

What a patch leaves behind. A patch writes one field after another, the two fields for keywords as
one and last (`patch_eq_foldl`). `Value.Holds` says that a value has at the place of a field what
settings say in it: writing a field makes it hold and keeps all others that hold, and writing a
field that holds changes nothing.

* `changesOnly_patch` — a patch changes the places of differing fields only
* `holds_patch` — the fields that a patch writes hold afterwards
* `patch_eq_self` — where all differing fields hold, a patch changes nothing
* `isListed_patch`, `get_ofRoot_patch` — what is read of the fields that a patch does not write
-/

namespace LoginSettings

namespace Settings

/-- Holds of the fields that a patch writes: those that differ, and with one of the two fields for
keywords the other one too. -/
def Rewrites (initial current : Settings) (f : Field) : Prop :=
  current.get f ≠ initial.get f
    ∨ f.isKeywordField = true ∧ ∃ g : Field, g.isKeywordField = true ∧ current.get g ≠ initial.get g

variable {initial current : Settings} {f : Field}

/-- A field about keywords differs if the keywords do, or whether they are to be excluded. -/
theorem exists_keyword_differs_iff :
    (∃ g : Field, g.isKeywordField = true ∧ current.get g ≠ initial.get g)
      ↔ current.excludedKeywords ≠ initial.excludedKeywords
        ∨ current.excludeKeywords ≠ initial.excludeKeywords := by
  constructor
  · rintro ⟨g, hg, h⟩
    rcases Field.eq_of_isKeywordField hg with rfl | rfl
    · exact .inl (by simpa [get] using h)
    · exact .inr (by simpa [get] using h)
  · rintro (h | h)
    · exact ⟨.excludedKeywords, rfl, by simpa [get] using h⟩
    · exact ⟨.excludeKeywords, rfl, by simpa [get] using h⟩

/-- Either field for keywords is written where one of them differs. -/
theorem rewrites_iff_of_isKeywordField (hf : f.isKeywordField = true) :
    initial.Rewrites current f
      ↔ ∃ g : Field, g.isKeywordField = true ∧ current.get g ≠ initial.get g := by
  constructor
  · rintro (h | ⟨-, h⟩)
    · exact ⟨f, hf, h⟩
    · exact h
  · exact fun h => .inr ⟨hf, h⟩

/-- All other fields are rewritten if they differ themselves. -/
theorem rewrites_iff_of_not_isKeywordField (hf : f.isKeywordField = false) :
    initial.Rewrites current f ↔ current.get f ≠ initial.get f := by
  simp [Rewrites, hf]

theorem any_changedFields_iff :
    (current.changedFields initial).any Field.isKeywordField = true
      ↔ ∃ g : Field, g.isKeywordField = true ∧ current.get g ≠ initial.get g := by
  simp only [List.any_eq_true, mem_changedFields, and_comm]

/-- The fields that a patch writes, one after another, with one field for the keywords. -/
def written (initial current : Settings) : List Field :=
  let changed := current.changedFields initial
  changed.filter (fun f => !f.isKeywordField)
    ++ if changed.any Field.isKeywordField then [.excludedKeywords] else []

/-- A field that is not about keywords is written if it differs. -/
theorem mem_written_of_not_isKeywordField (hf : f.isKeywordField = false) :
    f ∈ initial.written current ↔ current.get f ≠ initial.get f := by
  have hne : f ≠ .excludedKeywords := by
    rintro rfl
    cases hf
  rw [written, List.mem_append, List.mem_filter, mem_changedFields]
  split <;> simp [hf, hne]

/-- Keywords are written if one of the fields about them differs. -/
theorem excludedKeywords_mem_written :
    .excludedKeywords ∈ initial.written current
      ↔ ∃ g : Field, g.isKeywordField = true ∧ current.get g ≠ initial.get g := by
  have hkeyword : Field.excludedKeywords.isKeywordField = true := rfl
  rw [written, List.mem_append, List.mem_filter, ← any_changedFields_iff]
  split <;> simp_all

/-- Every written field shares its place with one that differs. -/
theorem exists_differing_of_mem_written (h : f ∈ initial.written current) :
    ∃ g : Field, current.get g ≠ initial.get g ∧ g.place = f.place := by
  cases hf : f.isKeywordField with
  | false => exact ⟨f, (mem_written_of_not_isKeywordField hf).1 h, rfl⟩
  | true =>
    have hkeywords : .excludedKeywords ∈ initial.written current := by
      rcases Field.eq_of_isKeywordField hf with rfl | rfl
      · exact h
      · rw [written, List.mem_append, List.mem_filter] at h
        rcases h with ⟨-, h⟩ | h
        · cases h
        · split at h
          · cases List.mem_singleton.1 h
          · cases h
    obtain ⟨g, hg, hne⟩ := excludedKeywords_mem_written.1 hkeywords
    refine ⟨g, hne, ?_⟩
    rw [Field.place_of_isKeywordField hg, Field.place_of_isKeywordField hf]

end Settings

namespace Value

/-- What stands for keywords: nothing if there are none. -/
def ofKeywords? (texts : List String) : Option Value :=
  if texts = [] then none else some (ofStrings texts)

/-- Holds where a value has at the place of a field what settings say in it. For a type this is an
entry in the list of keys that need not be toggled any more. -/
inductive Holds (current : Settings) (root : Value) : Field → Prop where
  | enabled {t : KeyType} {keys : List Value}
      (stands : root.at? (Field.enabled t).place = some (array keys))
      (toggled : toggled t (current.enabled t) keys = keys) : Holds current root (.enabled t)
  | flag {f : Field} (isFlag : f ∈ Field.flags)
      (stands : root.at? f.place = some (bool (f.stored (current.flag f)))) : Holds current root f
  | keyword {f : Field} (isKeyword : f.isKeywordField = true)
      (stands : root.at? keywordsLocation.place = ofKeywords? current.keywords) :
      Holds current root f

/-- The value with a field taken from settings, where either field for keywords stands for both. -/
def write (current : Settings) (root : Value) (f : Field) : Value :=
  if f.isKeywordField then root.writeKeywords current.keywords else root.writeField current f

variable {current : Settings} {root : Value} {f : Field}

/-- Where a flag holds, it stands at its place as it is stored. -/
theorem Holds.flag_stands (h : Holds current root f) (hf : f ∈ Field.flags) :
    root.at? f.place = some (bool (f.stored (current.flag f))) := by
  cases h with
  | enabled _ _ => exact absurd hf (Field.enabled_not_mem_flags _)
  | flag _ stands => exact stands
  | keyword isKeyword _ => exact absurd isKeyword (Field.not_isKeywordField_of_mem_flags hf)

/-- Where keywords hold, their list stands at its place, or nothing does. -/
theorem Holds.keywords_stand (h : Holds current root f) (hf : f.isKeywordField = true) :
    root.at? keywordsLocation.place = ofKeywords? current.keywords := by
  cases h with
  | enabled _ _ => cases hf
  | flag isFlag _ => exact absurd hf (Field.not_isKeywordField_of_mem_flags isFlag)
  | keyword _ stands => exact stands

/-- Whether a field holds depends on its place only. -/
theorem Holds.congr {other : Value} (h : Holds current root f)
    (hplace : other.at? f.place = root.at? f.place) : Holds current other f := by
  cases h with
  | enabled stands toggled => exact .enabled (hplace.trans stands) toggled
  | flag isFlag stands => exact .flag isFlag (hplace.trans stands)
  | keyword isKeyword stands =>
    rw [Field.place_of_isKeywordField isKeyword] at hplace
    exact .keyword isKeyword (hplace.trans stands)

/-! ## One field -/

theorem write_enabled (current : Settings) (root : Value) (t : KeyType) :
    root.write current (.enabled t) = root.toggle t (current.enabled t) := rfl

/-- A flag is written as a boolean at its place. -/
theorem write_flag (current : Settings) (root : Value) (hf : f ∈ Field.flags) :
    root.write current f
      = amend (fun _ => bool (f.stored (current.flag f))) f.place (some root) := by
  rw [write, if_neg (Field.not_isKeywordField_of_mem_flags hf), writeField_flag current root hf]

/-- Each of the fields about keywords stands for all of them. -/
theorem write_keyword (current : Settings) (root : Value) (hf : f.isKeywordField = true) :
    root.write current f = root.writeKeywords current.keywords := by
  rw [write, if_pos hf]

/-- A field is written at its place only. -/
theorem changesOnly_write (current : Settings) (root : Value) (f : Field) :
    ChangesOnly [f.place] root (root.write current f) := by
  cases hf : f.isKeywordField with
  | true =>
    rw [write_keyword current root hf, Field.place_of_isKeywordField hf]
    exact changesOnly_writeKeywords _ root
  | false =>
    rw [write, if_neg (by simp [hf])]
    exact changesOnly_writeField current root f

/-- At the place of another field nothing changes. -/
theorem at?_write_of_place_ne {g : Field} (h : f.place ≠ g.place) :
    (root.write current g).at? f.place = root.at? f.place := by
  refine (changesOnly_write current root g).lookup _ fun q hq => ?_
  rw [List.mem_singleton.1 hq]
  exact Field.apart_place h

/-- The list of keys that is written stands at its place. -/
theorem at?_write_enabled (current : Settings) (root : Value) (t : KeyType) :
    (root.write current (.enabled t)).at? (Field.enabled t).place
      = some (array (toggled t (current.enabled t) (keysOf root))) := by
  rw [write_enabled, toggle_eq_amend, at?_amend_self, Option.bind_some, ← keysOf_eq t]

/-- Writing whether a type is enabled toggles it in the list of keys. -/
theorem keysOf_write_enabled (current : Settings) (root : Value) (t : KeyType) :
    keysOf (root.write current (.enabled t)) = toggled t (current.enabled t) (keysOf root) :=
  keysOf_of_at? t (at?_write_enabled current root t)

/-- **A written field holds.** -/
theorem holds_write (current : Settings) (root : Value) (f : Field) :
    Holds current (root.write current f) f := by
  induction f using Field.byPlace with
  | enabled t => exact .enabled (at?_write_enabled current root t) (toggled_toggled t _ _ _)
  | flag f hf =>
    rw [write_flag current root hf]
    exact .flag hf (at?_amend_self _ _ _)
  | keyword f hf =>
    rw [write_keyword current root hf]
    refine .keyword hf ?_
    by_cases h : current.keywords = []
    · rw [h, writeKeywords_nil, ofKeywords?, if_pos rfl]
      exact at?_eraseAt_self _ _ root
    · rw [writeKeywords_of_ne_nil h, ofKeywords?, if_neg h]
      exact at?_amend_self _ _ _

/-- Writing a field keeps what holds, also where it is written at the same place. -/
theorem Holds.write (h : Holds current root f) (g : Field) :
    Holds current (root.write current g) f := by
  by_cases hplace : f.place = g.place
  · induction g using Field.byPlace with
    | enabled s =>
      cases h with
      | @enabled t keys stands htoggled =>
        by_cases hts : t = s
        · subst hts
          exact holds_write current root _
        · -- The entry for `s` may be put at the end, which is behind the one for `t`.
          have hkeys : keysOf root = keys := keysOf_of_at? t stands
          have hwritten := at?_write_enabled current root s
          rw [hkeys] at hwritten
          exact .enabled hwritten (toggled_eq_self_of_toggled hts htoggled _)
      | flag isFlag _ =>
        rw [Field.eq_of_place_eq isFlag hplace.symm]
        exact holds_write current root f
      | keyword isKeyword _ => cases Field.isKeywordField_of_place_eq isKeyword hplace.symm
    | flag g hg =>
      rw [Field.eq_of_place_eq hg hplace]
      exact holds_write current root g
    | keyword g hg =>
      have hf := Field.isKeywordField_of_place_eq hg hplace
      rw [write_keyword current root hg, ← write_keyword current root hf]
      exact holds_write current root f
  · exact h.congr (at?_write_of_place_ne hplace)

/-- Writing a field that holds already changes nothing. -/
theorem write_eq_self (hroot : root.Ordered) (h : Holds current root f) :
    root.write current f = root := by
  cases h with
  | enabled stands htoggled =>
    rw [write_enabled, toggle_eq_amend]
    refine amend_eq_self hroot stands ?_
    rw [Option.bind_some, items?, Option.getD_some, htoggled]
  | flag isFlag stands =>
    rw [write_flag current root isFlag]
    exact amend_eq_self hroot stands rfl
  | keyword isKeyword stands =>
    rw [write_keyword current root isKeyword]
    by_cases hnil : current.keywords = []
    · rw [hnil, ofKeywords?, if_pos rfl] at stands
      rw [hnil, writeKeywords_nil]
      exact eraseAt_eq_self hroot stands
    · rw [ofKeywords?, if_neg hnil] at stands
      rw [writeKeywords_of_ne_nil hnil]
      exact amend_eq_self hroot stands rfl

/-- A written type is listed, and no other one changes. -/
theorem isListed_write (current : Settings) (root : Value) (f : Field) (t : KeyType) :
    isListed t (keysOf (root.write current f))
      = (isListed t (keysOf root) || decide (f = .enabled t)) := by
  by_cases hplace : (Field.enabled t).place = f.place
  · induction f using Field.byPlace with
    | enabled s =>
      rw [keysOf_write_enabled, isListed_toggled]
      simp [eq_comm]
    | flag f hf =>
      exact absurd (Field.eq_of_place_eq hf hplace ▸ hf) (Field.enabled_not_mem_flags t)
    | keyword f hf => cases Field.isKeywordField_of_place_eq hf hplace
  · have hne : f ≠ .enabled t := by
      rintro rfl
      exact hplace rfl
    rw [keysOf_congr t (at?_write_of_place_ne hplace)]
    simp [hne]

/-! ## One field after another -/

/-- Fields are written at their places only. -/
theorem changesOnly_foldl_write (current : Settings) (root : Value) (fields : List Field) :
    ChangesOnly (fields.map Field.place) root (fields.foldl (Value.write current) root) := by
  induction fields generalizing root with
  | nil => exact .refl _ root
  | cons f fields ih =>
    rw [List.map_cons, List.foldl_cons]
    refine ((changesOnly_write current root f).mono ?_).trans ((ih _).mono ?_)
    · simp
    · exact fun q hq => List.mem_cons_of_mem _ hq

/-- What holds is not lost when other fields are written. -/
theorem Holds.foldl_write (h : Holds current root f) (fields : List Field) :
    Holds current (fields.foldl (Value.write current) root) f := by
  induction fields generalizing root with
  | nil => exact h
  | cons g fields ih => exact ih (h.write g)

/-- All fields that have been written hold. -/
theorem holds_foldl_write {fields : List Field} (h : f ∈ fields) :
    Holds current (fields.foldl (Value.write current) root) f := by
  induction fields generalizing root with
  | nil => simp at h
  | cons g fields ih =>
    rcases List.mem_cons.1 h with rfl | h
    · exact (holds_write current root f).foldl_write fields
    · exact ih h

/-- Writing fields that hold already changes nothing. -/
theorem foldl_write_eq_self (hroot : root.Ordered) {fields : List Field}
    (h : ∀ f ∈ fields, Holds current root f) :
    fields.foldl (Value.write current) root = root := by
  induction fields with
  | nil => rfl
  | cons f fields ih =>
    rw [List.foldl_cons, write_eq_self hroot (h f List.mem_cons_self)]
    exact ih fun g hg => h g (List.mem_cons_of_mem _ hg)

/-- The types that are listed afterwards are those of before, and those that have been written. -/
theorem isListed_foldl_write (current : Settings) (root : Value) (fields : List Field)
    (t : KeyType) : isListed t (keysOf (fields.foldl (Value.write current) root))
      = (isListed t (keysOf root) || decide (.enabled t ∈ fields)) := by
  induction fields generalizing root with
  | nil => simp
  | cons f fields ih =>
    rw [List.foldl_cons, ih, isListed_write, Bool.or_assoc]
    simp [eq_comm]

/-! ## The whole patch -/

/-- The fields about keywords are left out when fields are written one by one. -/
theorem foldl_writeField (current : Settings) (root : Value) (fields : List Field) :
    fields.foldl (Value.writeField current) root
      = (fields.filter fun f => !f.isKeywordField).foldl (Value.write current) root := by
  induction fields generalizing root with
  | nil => rfl
  | cons f fields ih =>
    cases hf : f.isKeywordField with
    | true =>
      rw [List.foldl_cons, writeField_keyword current root hf, ih, List.filter_cons_of_neg]
      simp [hf]
    | false =>
      rw [List.foldl_cons, ih, List.filter_cons_of_pos (by simp [hf]), List.foldl_cons,
        write, if_neg (by simp [hf])]

/-- **A patch writes one field after another.** -/
theorem patch_eq_foldl (initial current : Settings) (root : Value) :
    root.patch initial current = (initial.written current).foldl (Value.write current) root := by
  rw [Settings.written, List.foldl_append, ← foldl_writeField, patch]
  split <;> rfl

/-- **A patch changes the places of the differing fields only.** -/
theorem changesOnly_patch (initial current : Settings) (root : Value) :
    ChangesOnly ((current.changedFields initial).map Field.place) root
      (root.patch initial current) := by
  rw [patch_eq_foldl]
  refine (changesOnly_foldl_write current root _).mono fun q hq => ?_
  obtain ⟨f, hf, rfl⟩ := List.mem_map.1 hq
  obtain ⟨g, hg, hplace⟩ := Settings.exists_differing_of_mem_written hf
  exact List.mem_map.2 ⟨g, Settings.mem_changedFields.2 hg, hplace⟩

/-- **The fields that a patch writes hold afterwards.** -/
theorem holds_patch {initial : Settings} (root : Value) (h : initial.Rewrites current f) :
    Holds current (root.patch initial current) f := by
  rw [patch_eq_foldl]
  cases hf : f.isKeywordField with
  | false =>
    have hdiffers := (Settings.rewrites_iff_of_not_isKeywordField hf).1 h
    exact holds_foldl_write ((Settings.mem_written_of_not_isKeywordField hf).2 hdiffers)
  | true =>
    have hdiffers := (Settings.rewrites_iff_of_isKeywordField hf).1 h
    have hmem := Settings.excludedKeywords_mem_written.2 hdiffers
    exact .keyword hf ((holds_foldl_write hmem).keywords_stand rfl)

/-- **Where all differing fields hold, a patch changes nothing.** -/
theorem patch_eq_self {initial : Settings} (hroot : root.Ordered)
    (h : ∀ f, current.get f ≠ initial.get f → Holds current root f) :
    root.patch initial current = root := by
  rw [patch_eq_foldl]
  refine foldl_write_eq_self hroot fun f hf => ?_
  cases hkeyword : f.isKeywordField with
  | false => exact h f ((Settings.mem_written_of_not_isKeywordField hkeyword).1 hf)
  | true =>
    -- The field that differs may be the other one for keywords, which says the same of the place.
    obtain ⟨g, hg, hplace⟩ := Settings.exists_differing_of_mem_written hf
    exact .keyword hkeyword
      ((h g hg).keywords_stand (Field.isKeywordField_of_place_eq hkeyword hplace))

/-- **After a patch a type is listed if it was before or if it has been toggled.** -/
theorem isListed_patch (initial current : Settings) (root : Value) (t : KeyType) :
    isListed t (keysOf (root.patch initial current))
      = (isListed t (keysOf root) || decide (current.enabled t ≠ initial.enabled t)) := by
  have hwritten : Field.enabled t ∈ initial.written current
      ↔ current.enabled t ≠ initial.enabled t := by
    rw [Settings.mem_written_of_not_isKeywordField rfl]
    simp [Settings.get]
  rw [patch_eq_foldl, isListed_foldl_write]
  simp only [hwritten]

/-- A field that a patch does not write reads as before. -/
theorem get_ofRoot_patch {initial : Settings} (root : Value) (h : ¬initial.Rewrites current f) :
    (Settings.ofRoot (root.patch initial current)).get f = (Settings.ofRoot root).get f := by
  have hsame : current.get f = initial.get f :=
    Decidable.byContradiction fun hne => h (.inl hne)
  have hlookup : (∀ g, current.get g ≠ initial.get g → f.place ≠ g.place) →
      (Settings.ofRoot (root.patch initial current)).get f = (Settings.ofRoot root).get f := by
    intro hplace
    refine Settings.get_ofRoot_congr ((changesOnly_patch initial current root).lookup _ ?_)
    intro q hq
    obtain ⟨g, hg, rfl⟩ := List.mem_map.1 hq
    exact Field.apart_place (hplace g (Settings.mem_changedFields.1 hg))
  induction f using Field.byPlace with
  | enabled t =>
    -- Other types share the place, so that only what is listed tells this one.
    have htype : current.enabled t = initial.enabled t := by simpa [Settings.get] using hsame
    rw [Settings.get, Settings.get, Settings.enabled_ofRoot, Settings.enabled_ofRoot,
      isListed_patch]
    simp [htype]
  | flag f hf =>
    refine hlookup fun g hg hplace => hg ?_
    rw [Field.eq_of_place_eq hf hplace.symm, hsame]
  | keyword f hf =>
    refine hlookup fun g hg hplace => h (.inr ⟨hf, g, ?_, hg⟩)
    exact Field.isKeywordField_of_place_eq hf hplace.symm

end Value
end LoginSettings
