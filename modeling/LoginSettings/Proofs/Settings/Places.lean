import LoginSettings.Proofs.Settings.Fields
import LoginSettings.Proofs.Settings.Keys
import LoginSettings.Settings.Derive

/-!
# The places of fields

Every field stands at one path of keys. The three flags that enable types share the list of keys,
the two fields for keywords share the list of keywords, and each other flag has a place to itself;
no place leads on from another one.

* `Field.place` — the paths, written out
* `Field.apart_place` — places that differ are apart
* `get_ofRoot_congr` — a field is read from its place only
* `changesOnly_writeField`, `changesOnly_writeKeywords` — a field is written at its place only
-/

namespace LoginSettings

/-- The path to a location. -/
def Location.place (l : Location) : List String := l.path ++ [l.member]

/-- Finding a location is looking it up at its place. -/
theorem Location.find?_eq_at? (l : Location) (v : Value) : l.find? v = v.at? l.place := by
  rw [find?, place, Value.at?_append]
  congr 1
  funext w
  exact (Value.at?_singleton l.member w).symm

/-! ## The table -/

namespace Field

/-- The path at which a field stands in a document. -/
def place : Field → List String
  | enabled _ => ["identity", "login_id", "keys"]
  | excludedKeywords | excludeKeywords =>
    ["identity", "login_id", "types", "username", "excluded_keywords"]
  | blockReserved => ["identity", "login_id", "types", "username", "block_reserved_usernames"]
  | usernameCaseSensitive => ["identity", "login_id", "types", "username", "case_sensitive"]
  | asciiOnly => ["identity", "login_id", "types", "username", "ascii_only"]
  | emailCaseSensitive => ["identity", "login_id", "types", "email", "case_sensitive"]
  | ignoreDot => ["identity", "login_id", "types", "email", "ignore_dot_sign"]
  | allowPlus => ["identity", "login_id", "types", "email", "block_plus_sign"]

/-- The flags with a place to themselves. -/
def flags : List Field :=
  [blockReserved, usernameCaseSensitive, asciiOnly, emailCaseSensitive, ignoreDot, allowPlus]

/-- The value that stands for a flag: allowing a plus sign is stored as not blocking it. -/
def stored : Field → Bool → Bool
  | allowPlus, b => !b
  | _, b => b

/-- A flag that is stored the other way round is read the other way round. -/
theorem stored_stored (f : Field) (b : Bool) : f.stored (f.stored b) = b := by
  cases f <;> cases b <;> rfl

theorem forall_flags {P : Field → Prop} :
    (∀ f ∈ flags, P f) ↔ P blockReserved ∧ P usernameCaseSensitive ∧ P asciiOnly
      ∧ P emailCaseSensitive ∧ P ignoreDot ∧ P allowPlus := by
  simp [flags]

/-- A field enables a type, is a flag with a place to itself, or is about keywords. -/
@[elab_as_elim]
theorem byPlace {motive : Field → Prop} (enabled : ∀ t, motive (enabled t))
    (flag : ∀ f ∈ flags, motive f) (keyword : ∀ f, f.isKeywordField = true → motive f)
    (f : Field) : motive f := by
  cases f with
  | enabled t => exact enabled t
  | excludedKeywords => exact keyword _ rfl
  | excludeKeywords => exact keyword _ rfl
  | _ => exact flag _ (by decide)

theorem enabled_not_mem_flags (t : KeyType) : enabled t ∉ flags := by
  cases t <;> decide

theorem not_isKeywordField_of_mem_flags {f : Field} : f ∈ flags → ¬f.isKeywordField = true := by
  revert f
  decide

/-- Two fields are about keywords. -/
theorem eq_of_isKeywordField {f : Field} :
    f.isKeywordField = true → f = excludedKeywords ∨ f = excludeKeywords := by
  revert f
  decide

theorem place_enabled (t : KeyType) : (enabled t).place = keysLocation.place := rfl

/-- The fields about keywords share their place. -/
theorem place_of_isKeywordField {f : Field} :
    f.isKeywordField = true → f.place = keywordsLocation.place := by
  revert f
  decide

/-- The flags stand where they are read and written, in the form that the table gives them. -/
theorem exists_flagLocation {f : Field} (h : f ∈ flags) :
    ∃ l, f.flagLocation? = some l ∧ l.place = f.place ∧ ∀ b, (b != l.inverted) = f.stored b := by
  revert f
  rw [forall_flags]
  refine ⟨?_, ?_, ?_, ?_, ?_, ?_⟩ <;> exact ⟨_, rfl, rfl, by decide⟩

/-! ## Which places are the same -/

/-- Places that differ are apart. -/
theorem apart_place {f g : Field} : f.place ≠ g.place → Apart f.place g.place := by
  revert f g
  decide

/-- A flag with a place to itself shares it with no other field. -/
theorem eq_of_place_eq {f g : Field} : f ∈ flags → g.place = f.place → g = f := by
  revert f g
  decide

/-- No other field has the place of the keywords. -/
theorem isKeywordField_of_place_eq {f g : Field} :
    f.isKeywordField = true → g.place = f.place → g.isKeywordField = true := by
  revert f g
  decide

/-- A proper part of a path to a field does not reach the place of any field. -/
theorem not_place_prefix {f g : Field} {p : List String} (hp : p <+: f.place)
    (hne : p ≠ f.place) : ¬g.place <+: p := by
  intro hg
  by_cases hplace : g.place = f.place
  · rw [hplace] at hg
    exact not_prefix_of_proper hp hne hg
  · exact (apart_place hplace).1 (hg.trans hp)

end Field

/-! ## Reading -/

/-- The list of keys is what stands at the place of each type. -/
theorem keysOf_eq (t : KeyType) (v : Value) :
    keysOf v = ((v.at? (Field.enabled t).place).bind Value.items?).getD [] := by
  rw [keysOf, Location.find?_eq_at?, Field.place_enabled]

theorem keysOf_of_at? {v : Value} {keys : List Value} (t : KeyType)
    (h : v.at? (Field.enabled t).place = some (.array keys)) : keysOf v = keys := by
  rw [keysOf_eq t, h, Option.bind_some, Value.items?, Option.getD_some]

/-- The list of keys depends on its place only. -/
theorem keysOf_congr {v w : Value} (t : KeyType)
    (h : v.at? (Field.enabled t).place = w.at? (Field.enabled t).place) : keysOf v = keysOf w := by
  rw [keysOf_eq t, keysOf_eq t, h]

namespace Settings

/-- The flag in a field; a list counts as a flag that is not set. -/
def flag (s : Settings) (f : Field) : Bool :=
  match s.get f with
  | .bool b => b
  | .list _ => false

theorem get_eq_bool_flag {f : Field} (h : f ∈ Field.flags) (s : Settings) :
    s.get f = .bool (s.flag f) := by
  revert f
  rw [Field.forall_flags]
  exact ⟨rfl, rfl, rfl, rfl, rfl, rfl⟩

/-- A type is read as enabled if it is listed. -/
theorem enabled_ofRoot (t : KeyType) (v : Value) :
    (ofRoot v).enabled t = isListed t (keysOf v) := by
  cases t <;> rfl

/-- A flag is read from its place, and what is no boolean counts as false. -/
theorem flag_ofRoot {f : Field} (h : f ∈ Field.flags) (v : Value) :
    (ofRoot v).flag f = f.stored (((v.at? f.place).bind Value.bool?).getD false) := by
  have hof : ∀ f ∈ Field.flags, (ofRoot v).flag f = flagOf v f := by
    rw [Field.forall_flags]
    exact ⟨rfl, rfl, rfl, rfl, rfl, rfl⟩
  obtain ⟨l, hl, hplace, hstored⟩ := Field.exists_flagLocation h
  rw [hof f h, flagOf, hl, Option.any_some, flagAt, Location.find?_eq_at?, hplace, hstored]

/-- Keywords are the strings of the list at their place. -/
theorem excludedKeywords_ofRoot (v : Value) :
    (ofRoot v).excludedKeywords
      = (((v.at? keywordsLocation.place).bind Value.items?).getD []).filterMap Value.string? := by
  rw [← Location.find?_eq_at?]
  rfl

theorem excludeKeywords_ofRoot (v : Value) :
    (ofRoot v).excludeKeywords = !(ofRoot v).excludedKeywords.isEmpty := rfl

/-- A field is read from its place only. -/
theorem get_ofRoot_congr {f : Field} {v w : Value} (h : v.at? f.place = w.at? f.place) :
    (ofRoot v).get f = (ofRoot w).get f := by
  induction f using Field.byPlace with
  | enabled t => rw [get, get, enabled_ofRoot, enabled_ofRoot, keysOf_congr t h]
  | flag f hf => rw [get_eq_bool_flag hf, get_eq_bool_flag hf, flag_ofRoot hf, flag_ofRoot hf, h]
  | keyword f hf =>
    rw [Field.place_of_isKeywordField hf] at h
    have hkeywords : (ofRoot v).excludedKeywords = (ofRoot w).excludedKeywords := by
      rw [excludedKeywords_ofRoot, excludedKeywords_ofRoot, h]
    rcases Field.eq_of_isKeywordField hf with rfl | rfl
    · rw [get, get, hkeywords]
    · rw [get, get, excludeKeywords_ofRoot, excludeKeywords_ofRoot, hkeywords]

end Settings

/-! ## Writing -/

namespace Value

/-- A toggle writes the list of keys at its place. -/
theorem toggle_eq_amend (t : KeyType) (b : Bool) (root : Value) :
    root.toggle t b
      = amend (fun o => array (toggled t b ((o.bind items?).getD []))) (Field.enabled t).place
          (some root) :=
  updateAt_insert (fun o => array (toggled t b ((o.bind items?).getD []))) _ _ root

theorem writeField_enabled (current : Settings) (root : Value) (t : KeyType) :
    root.writeField current (.enabled t) = root.toggle t (current.enabled t) := rfl

/-- A flag is written as a boolean at its place. -/
theorem writeField_flag (current : Settings) (root : Value) {f : Field} (h : f ∈ Field.flags) :
    root.writeField current f
      = amend (fun _ => bool (f.stored (current.flag f))) f.place (some root) := by
  have htype : ∀ f ∈ Field.flags, f.keyType? = none := by decide
  obtain ⟨l, hl, hplace, hstored⟩ := Field.exists_flagLocation h
  rw [writeField, Settings.get_eq_bool_flag h, htype f h, hl, ← hplace, ← hstored]
  exact updateAt_insert (fun _ => bool (current.flag f != l.inverted)) _ _ root

/-- The fields about keywords are not written one by one. -/
theorem writeField_keyword (current : Settings) (root : Value) {f : Field}
    (h : f.isKeywordField = true) : root.writeField current f = root := by
  rcases Field.eq_of_isKeywordField h with rfl | rfl <;> rfl

/-- Without keywords their list is erased. -/
theorem writeKeywords_nil (root : Value) :
    root.writeKeywords [] = root.eraseAt keywordsLocation.member keywordsLocation.path := rfl

/-- Keywords are written as a list at their place. -/
theorem writeKeywords_of_ne_nil {texts : List String} (h : texts ≠ []) (root : Value) :
    root.writeKeywords texts
      = amend (fun _ => ofStrings texts) keywordsLocation.place (some root) := by
  rw [writeKeywords, if_neg (by simpa using h)]
  exact updateAt_insert (fun _ => ofStrings texts) _ _ root

/-- A field is written at its place only. -/
theorem changesOnly_writeField (current : Settings) (root : Value) (f : Field) :
    ChangesOnly [f.place] root (root.writeField current f) := by
  induction f using Field.byPlace with
  | enabled t =>
    rw [writeField_enabled, toggle_eq_amend]
    exact changesOnly_amend _ _ root
  | flag f hf =>
    rw [writeField_flag current root hf]
    exact changesOnly_amend _ _ root
  | keyword f hf =>
    rw [writeField_keyword current root hf]
    exact .refl _ root

/-- Keywords are written at their place only. -/
theorem changesOnly_writeKeywords (texts : List String) (root : Value) :
    ChangesOnly [keywordsLocation.place] root (root.writeKeywords texts) := by
  by_cases h : texts = []
  · subst h
    exact changesOnly_eraseAt _ _ root
  · rw [writeKeywords_of_ne_nil h]
    exact changesOnly_amend _ _ root

end Value
end LoginSettings
