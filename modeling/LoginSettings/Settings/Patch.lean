import LoginSettings.Document
import LoginSettings.Log.Event
import LoginSettings.Settings.Basic
import LoginSettings.Settings.Keywords
import LoginSettings.Settings.Location

/-!
# Patches

Writing changed settings into a document. Only the fields in which the current settings differ from
the initial ones are written; all else stays as it is. Writing makes objects where they are missing,
but taking away the keywords makes none. Enabling a type puts an entry for it into the list of keys
if there is none; no entry is ever taken out.
-/

namespace LoginSettings

namespace Value

/-! ## The list of keys -/

/-- The entry with a type verified or not. -/
def withVerification (enabled : Bool) (entry : Value) : Value :=
  let verification := ((entry.member? "verification").getD null).members
  object (Members.insert "verification"
    (object (Members.insert "enabled" (bool enabled) verification)) entry.members)

/-- The keys with the first entry for a type verified or not. -/
def setFirst (type : KeyType) (enabled : Bool) : List Value → List Value
  | [] => []
  | entry :: keys =>
    if isEntryOf type entry then entry.withVerification enabled :: keys
    else entry :: setFirst type enabled keys

/-- An entry with nothing but its type. -/
def bareEntry (type : KeyType) : Value := object [("type", string type.name)]

/-- The keys with a type turned on or off; an entry is put at the end if there is none. -/
def toggled (type : KeyType) (enabled : Bool) (keys : List Value) : List Value :=
  setFirst type enabled (if isListed type keys then keys else keys ++ [bareEntry type])

/-- The members with a type turned on or off in their list of keys; anything else that stands there
gives way to a list. -/
def toggleIn (type : KeyType) (enabled : Bool) (ms : List (String × Value)) :
    List (String × Value) :=
  let keys := ((Members.find? keysLocation.member ms).bind items?).getD []
  Members.insert keysLocation.member (array (toggled type enabled keys)) ms

/-! ## Changes -/

/-- The value with a type turned on or off. -/
def toggle (type : KeyType) (enabled : Bool) (root : Value) : Value :=
  root.updateAt (toggleIn type enabled) keysLocation.path

/-- The value with a flag at its location. -/
def writeFlag (l : FlagLocation) (b : Bool) (root : Value) : Value :=
  root.updateAt (Members.insert l.member (bool (b != l.inverted))) l.path

/-- The value with keywords, or without any where there are none. -/
def writeKeywords (texts : List String) (root : Value) : Value :=
  if texts.isEmpty then root.eraseAt keywordsLocation.member keywordsLocation.path
  else
    root.updateAt (Members.insert keywordsLocation.member (ofStrings texts)) keywordsLocation.path

/-- The value with a flag of a field taken from settings. The fields for keywords are no flags. -/
def writeField (current : Settings) (root : Value) (f : Field) : Value :=
  match current.get f, f.keyType?, f.flagLocation? with
  | .bool b, some type, _ => root.toggle type b
  | .bool b, none, some l => root.writeFlag l b
  | _, _, _ => root

end Value

/-- Holds of the fields that decide about keywords. -/
def Field.isKeywordField (f : Field) : Bool := f = .excludedKeywords || f = .excludeKeywords

namespace Settings

/-- The keywords that count. -/
def keywords (s : Settings) : List String := effectiveList s.excludedKeywords s.excludeKeywords

end Settings

/-- The value with the changes from one snapshot to another: first the flags, in the order of the
fields, then the keywords. -/
def Value.patch (initial current : Settings) (root : Value) : Value :=
  let changed := current.changedFields initial
  let root := changed.foldl (Value.writeField current) root
  if changed.any Field.isKeywordField then root.writeKeywords current.keywords else root

/-! ## Order -/

namespace Value

theorem ordered_withVerification {entry : Value} (h : entry.Ordered) (enabled : Bool) :
    (entry.withVerification enabled).Ordered := by
  have hv : ((entry.member? "verification").getD Value.null).Ordered := by
    cases hm : entry.member? "verification" with
    | none => exact .null
    | some w => exact h.member hm
  obtain ⟨hi, ho⟩ := Ordered.insert hv.members.1 hv.members.2 "enabled" (.bool enabled)
  obtain ⟨hi, ho⟩ := Ordered.insert h.members.1 h.members.2 "verification" (.object hi ho)
  exact .object hi ho

theorem ordered_setFirst {keys : List Value} (h : ∀ v ∈ keys, Ordered v) (type : KeyType)
    (enabled : Bool) : ∀ v ∈ setFirst type enabled keys, Ordered v := by
  induction keys with
  | nil => simp [setFirst]
  | cons entry keys ih =>
    simp only [List.mem_cons, forall_eq_or_imp] at h
    simp only [setFirst]
    split
    · simp only [List.mem_cons, forall_eq_or_imp]
      exact ⟨ordered_withVerification h.1 enabled, h.2⟩
    · simp only [List.mem_cons, forall_eq_or_imp]
      exact ⟨h.1, ih h.2⟩

theorem ordered_bareEntry (type : KeyType) : (bareEntry type).Ordered :=
  .object (List.pairwise_singleton _ _) fun m hm => by
    cases List.mem_singleton.1 hm
    exact .string _

theorem ordered_toggled {keys : List Value} (h : ∀ v ∈ keys, Ordered v) (type : KeyType)
    (enabled : Bool) : ∀ v ∈ toggled type enabled keys, Ordered v := by
  refine ordered_setFirst (fun v hv => ?_) type enabled
  split at hv
  · exact h v hv
  · rcases List.mem_append.1 hv with hv | hv
    · exact h v hv
    · cases List.mem_singleton.1 hv
      exact ordered_bareEntry type

/-- Toggling a type keeps members in order. -/
theorem keepsOrder_toggleIn (type : KeyType) (enabled : Bool) :
    KeepsOrder (toggleIn type enabled) := by
  intro ms hi ho
  refine Ordered.insert hi ho _ (.array (ordered_toggled ?_ type enabled))
  cases hm : Members.find? keysLocation.member ms with
  | none => simp
  | some v =>
    have hv := ho _ (Members.mem_of_find? hm)
    cases hv with
    | array h => simpa [items?] using h
    | _ => simp [items?]

theorem ordered_ofStrings (texts : List String) : (ofStrings texts).Ordered := by
  refine .array fun v hv => ?_
  obtain ⟨s, _, rfl⟩ := List.mem_map.1 hv
  exact .string s

/-- Writing keywords keeps a document in order. -/
theorem Ordered.writeKeywords {root : Value} (h : root.Ordered) (texts : List String) :
    (root.writeKeywords texts).Ordered := by
  simp only [Value.writeKeywords]
  split
  · exact h.eraseAt
  · exact h.updateAt (keepsOrder_insert _ (ordered_ofStrings texts))

/-- Writing a field keeps a document in order. -/
theorem Ordered.writeField {root : Value} (h : root.Ordered) (current : Settings) (f : Field) :
    (root.writeField current f).Ordered := by
  simp only [Value.writeField]
  split
  · exact h.updateAt (keepsOrder_toggleIn _ _)
  · exact h.updateAt (keepsOrder_insert _ (.bool _))
  · exact h

theorem Ordered.writeFields {root : Value} (h : root.Ordered) (current : Settings)
    (fields : List Field) : (fields.foldl (Value.writeField current) root).Ordered := by
  induction fields generalizing root with
  | nil => exact h
  | cons f fields ih => exact ih (h.writeField current f)

/-- A patched document is in order. -/
theorem Ordered.patch {root : Value} (h : root.Ordered) (initial current : Settings) :
    (root.patch initial current).Ordered := by
  simp only [Value.patch]
  split
  · exact (h.writeFields current _).writeKeywords _
  · exact h.writeFields current _

end Value

/-- The document with the changes from one snapshot to another. -/
def Document.patch (d : Document) (initial current : Settings) : Document :=
  ⟨d.root.patch initial current, d.ordered.patch initial current⟩

/-! ## The log of a patch -/

namespace Settings

/-- The part of the program that patches. -/
def patchTarget : String := "portal_settings::loginid::patch"

/-- What is logged on writing a field. -/
def fieldEvent? (current : Settings) (f : Field) : Option Log.Event :=
  match current.get f, f.keyType?, f.flagLocation? with
  | .bool b, some type, _ =>
    some ⟨.debug, patchTarget, "toggling login ID key",
      [("key_type", .text type.name), ("enabled", .bool b)]⟩
  | .bool b, none, some l =>
    some ⟨.debug, patchTarget, "writing flag",
      [("path", .text (String.intercalate "." l.path)), ("field", .quoted l.member),
        ("value", .bool (b != l.inverted))]⟩
  | _, _, _ => none

/-- What is logged on a patch: nothing if nothing changes. -/
def patchEvents (initial current : Settings) : List Log.Event :=
  let changed := current.changedFields initial
  if changed.isEmpty then []
  else
    changed.filterMap (fieldEvent? current)
      ++ (if changed.any Field.isKeywordField then
        [⟨.debug, patchTarget, "writing excluded_keywords",
          [("count", .count current.keywords.length)]⟩]
      else [])
      ++ [⟨.debug, patchTarget, "applied login ID settings patch",
        [("changed", .text (Text.quotedList (changed.map Field.name)))]⟩]

end Settings
end LoginSettings
