import LoginSettings.Proofs.Settings.PatchReading

/-!
# The list of keys after a patch

What a patch makes of the list of keys, entry by entry. It turns types on and off one after another
in the same list, and each of them only touches the first entry for its type or puts one at the end;
so every entry keeps its place, and of those that are there nothing but the verification of some
first entries changes. Values that are no entries at all, entries for other types and repeated ones
stay as they are.

* `keysOf_foldl_write` — writing fields toggles the types among them, and no other field counts
* `Value.Verifies`, `Settings.TogglesKeys` — what changes in an entry, and what in the list
* `Document.keys_patch` — a patch leaves the list alone, or it does just this
-/

namespace LoginSettings

namespace Value

variable {current : Settings} {root : Value}

/-! ## Types among the fields -/

theorem keysOf_write_of_keyType?_eq_none (root : Value) {f : Field} (h : f.keyType? = none) :
    keysOf (root.write current f) = keysOf root := by
  have hplace : ∀ f : Field, f.keyType? = none → (Field.enabled .username).place ≠ f.place := by
    decide
  exact keysOf_congr .username (at?_write_of_place_ne (hplace f h))

/-- Writing fields toggles the types among them, one after another. -/
theorem keysOf_foldl_write (current : Settings) (root : Value) (fields : List Field) :
    keysOf (fields.foldl (Value.write current) root)
      = toggledAll current.enabled (fields.filterMap Field.keyType?) (keysOf root) := by
  induction fields generalizing root with
  | nil => rfl
  | cons f fields ih =>
    rw [List.foldl_cons, ih]
    cases hf : f.keyType? with
    | none => rw [List.filterMap_cons_none hf, keysOf_write_of_keyType?_eq_none root hf]
    | some t =>
      obtain rfl : f = .enabled t := by
        cases f <;> simp_all [Field.keyType?]
      rw [List.filterMap_cons_some hf, keysOf_write_enabled]
      rfl

end Value

namespace Settings

variable {initial current : Settings} {t : KeyType}

/-- The types that are turned on or off from one snapshot to another. -/
def toggledTypes (initial current : Settings) : List KeyType :=
  KeyType.all.filter fun t => current.enabled t ≠ initial.enabled t

/-- The toggled types are those that differ. -/
theorem mem_toggledTypes :
    t ∈ initial.toggledTypes current ↔ current.enabled t ≠ initial.enabled t := by
  have ht : t ∈ KeyType.all := by cases t <;> decide
  simp [toggledTypes, ht]

theorem nodup_toggledTypes (initial current : Settings) : (initial.toggledTypes current).Nodup :=
  List.Pairwise.filter _ (by decide)

theorem filterMap_keyType?_filter (p : Field → Bool) (fields : List Field) :
    (fields.filter p).filterMap Field.keyType?
      = (fields.filterMap Field.keyType?).filter fun t => p (.enabled t) := by
  rw [List.filterMap_filter, List.filter_filterMap]
  congr 1
  funext f
  cases f <;> simp [Field.keyType?, Option.filter]

/-- The types among the fields that a patch writes are those that are toggled, in the order of all
types. -/
theorem filterMap_keyType?_written (initial current : Settings) :
    (initial.written current).filterMap Field.keyType? = initial.toggledTypes current := by
  have hkeywords : ∀ b : Bool,
      (if b = true then [Field.excludedKeywords] else []).filterMap Field.keyType? = [] := by
    decide
  rw [written, List.filterMap_append, hkeywords, List.append_nil, changedFields,
    filterMap_keyType?_filter, filterMap_keyType?_filter, List.filter_filter]
  show KeyType.all.filter _ = KeyType.all.filter _
  congr 1
  funext t
  simp [Field.isKeywordField, get]

end Settings

/-! ## What a patch does to the list -/

namespace Value

/-- Holds of two entries that differ in their verification only. It is an object afterwards, whose
flag is as given and whose other members are those that it had before, if it was an object. -/
structure Verifies (enabled : Bool) (before after : Value) : Prop where
  others : ∀ key, key ≠ "verification" → after.member? key = before.member? key
  object : after.isObjectAt ["verification"] = true
  flag : after.at? ["verification", "enabled"] = some (.bool enabled)
  rest : ∀ key, key ≠ "enabled" →
    after.at? ["verification", key] = before.at? ["verification", key]

theorem verifies_withVerification (b : Bool) (entry : Value) :
    Verifies b entry (entry.withVerification b) where
  others := fun _ hkey => member?_withVerification hkey b entry
  object := by
    rw [isObjectAt, at?, member?_verification_withVerification]
    rfl
  flag := by
    rw [at?_pair, member?_verification_withVerification, Option.bind_some, member?_object,
      Members.find?_insert_self]
  rest := by
    intro key hkey
    rw [at?_pair, at?_pair, member?_verification_withVerification, Option.bind_some,
      member?_object, Members.find?_insert_ne hkey, ← member?_eq_find?]
    cases entry.member? "verification" with
    | none => rfl
    | some v => rfl

end Value

/-- What the types that are turned on and off from one snapshot to another make of a list of keys.
Its entries become those in `kept`, each in its place, and those in `added` stand behind them: one
for each toggled type without an entry. An entry for a type is an object that names it. -/
structure Settings.TogglesKeys (initial current : Settings) (before kept added : List Value) :
    Prop where
  length : kept.length = before.length
  first : ∀ t, current.enabled t ≠ initial.enabled t → ∀ n entry,
    before.findIdx? (fun e => e.member? "type" = some (.string t.name)) = some n →
      before[n]? = some entry →
        ∃ after, kept[n]? = some after ∧ entry.Verifies (current.enabled t) after
  other : ∀ n, (∀ t, current.enabled t ≠ initial.enabled t →
      before.findIdx? (fun e => e.member? "type" = some (.string t.name)) ≠ some n) →
    kept[n]? = before[n]?
  added : added = ([KeyType.username, .email, .phone].filter fun t =>
      current.enabled t ≠ initial.enabled t
        ∧ ∀ e ∈ before, e.member? "type" ≠ some (.string t.name)).map fun t =>
    .object [("type", .string t.name), ("verification", .object [("enabled", .bool true)])]

namespace Value

variable {initial current : Settings}

/-- A patch toggles the types that differ, one after another. -/
theorem keysOf_patch (initial current : Settings) (root : Value) :
    keysOf (root.patch initial current)
      = toggledAll current.enabled (initial.toggledTypes current) (keysOf root) := by
  rw [patch_eq_foldl, keysOf_foldl_write, Settings.filterMap_keyType?_written]

/-- The list of keys stays as it is if no type is toggled. -/
theorem at?_patch_of_not_toggled (root : Value)
    (h : ∀ t, current.enabled t = initial.enabled t) :
    (root.patch initial current).at? keysLocation.place = root.at? keysLocation.place := by
  -- A field that stands in the list enables a type, and none of those differs.
  have htype : ∀ f : Field, (Field.enabled .username).place = f.place →
      ∃ t, f = .enabled t := by
    intro f hplace
    cases f with
    | enabled t => exact ⟨t, rfl⟩
    | _ => exact absurd hplace (by decide)
  refine (changesOnly_patch initial current root).lookup _ fun q hq => ?_
  obtain ⟨f, hf, rfl⟩ := List.mem_map.1 hq
  rw [← Field.place_enabled .username]
  refine Field.apart_place fun hplace => ?_
  obtain ⟨t, rfl⟩ := htype f hplace
  exact Settings.mem_changedFields.1 hf (by rw [Settings.get, Settings.get, h t])

theorem at?_patch_of_toggled (root : Value) {t : KeyType}
    (h : current.enabled t ≠ initial.enabled t) :
    (root.patch initial current).at? keysLocation.place
      = some (array (keysOf (root.patch initial current))) := by
  have hrewrites : initial.Rewrites current (.enabled t) :=
    .inl (by simpa [Settings.get] using h)
  cases holds_patch root hrewrites with
  | enabled stands _ =>
    rw [← Field.place_enabled t, stands, keysOf_of_at? t stands]
  | flag isFlag _ => exact absurd isFlag (Field.enabled_not_mem_flags t)
  | keyword isKeyword _ => cases isKeyword

end Value

namespace Document

variable {d : Document} {initial current : Settings}

/-- Toggled types, of which those that are turned off are listed, do to a list of keys what is said
of them. -/
theorem togglesKeys_toggledAll (h : d.ListsDisabled initial current) :
    initial.TogglesKeys current (keysOf d.root)
      (Value.setFirsts current.enabled (initial.toggledTypes current) (keysOf d.root))
      (((initial.toggledTypes current).filter fun t => !isListed t (keysOf d.root)).map
        fun t => Value.newEntry (current.enabled t) t) where
  length := Value.length_setFirsts _ _ _
  first := by
    intro t ht n entry hn hentry
    refine ⟨entry.withVerification (current.enabled t), ?_, Value.verifies_withVerification _ _⟩
    rw [Value.getElem?_setFirsts (Settings.nodup_toggledTypes initial current)
      (Settings.mem_toggledTypes.2 ht) hn, hentry, Option.map_some]
  other := by
    intro n hn
    exact Value.getElem?_setFirsts_of_ne fun t ht => hn t (Settings.mem_toggledTypes.1 ht)
  added := by
    have hsame : ∀ t, (!isListed t (keysOf d.root)
        && decide (current.enabled t ≠ initial.enabled t))
          = decide (current.enabled t ≠ initial.enabled t
            ∧ ∀ e ∈ keysOf d.root, e.member? "type" ≠ some (.string t.name)) := by
      intro t
      rw [Bool.eq_iff_iff]
      simp [isListed, isEntryOf, and_comm]
    rw [Settings.toggledTypes, List.filter_filter, KeyType.all]
    simp only [hsame]
    refine List.map_congr_left fun t ht => ?_
    obtain ⟨hdiffers, hunlisted⟩ := of_decide_eq_true (List.mem_filter.1 ht).2
    -- A type without an entry is not turned off, so it is turned on.
    have hon : current.enabled t = true := by
      cases hoff : current.enabled t with
      | true => rfl
      | false =>
        have hinitial : initial.enabled t = true := by simpa [hoff] using hdiffers
        obtain ⟨e, he, hentry⟩ := List.any_eq_true.1 (h t hinitial hoff)
        exact absurd (of_decide_eq_true hentry) (hunlisted e he)
    rw [hon]
    rfl

/-- **A patch leaves the list of keys alone if it toggles no type.** Otherwise, where every type
that is turned off has an entry, all entries keep their places and the first ones for toggled types
are verified or not; toggled types without an entry get one at the end. -/
theorem keys_patch (d : Document) (initial current : Settings) :
    ((∀ t, current.enabled t = initial.enabled t) →
      (d.patch initial current).root.at? ["identity", "login_id", "keys"]
        = d.root.at? ["identity", "login_id", "keys"])
    ∧ (d.ListsDisabled initial current → (∃ t, current.enabled t ≠ initial.enabled t) →
      ∃ kept added, (d.patch initial current).root.at? ["identity", "login_id", "keys"]
          = some (.array (kept ++ added))
        ∧ initial.TogglesKeys current (keysOf d.root) kept added) := by
  constructor
  · intro h
    exact Value.at?_patch_of_not_toggled d.root h
  · rintro hlisted ⟨t, ht⟩
    refine ⟨_, _, ?_, togglesKeys_toggledAll hlisted⟩
    show (d.root.patch initial current).at? keysLocation.place = _
    rw [Value.at?_patch_of_toggled d.root ht, Value.keysOf_patch,
      Value.toggledAll_eq_append _ (Settings.nodup_toggledTypes initial current)]

/-- User names and phone numbers are turned on, e-mail addresses off. The list has a string, an
entry whose verification is none, a second entry for the same type and one for a type of another
kind. -/
theorem keys_patch_among_others :
    let d := Document.ofValue (.object [("identity", .object [("login_id", .object [("keys", .array
      [.string "email",
        .object [("max_length", .number (.integer 320)), ("type", .string "email"),
          ("verification", .string "yes")],
        .object [("type", .string "email")], .object [("type", .string "badge")]])])])])
    let initial : Settings := { emailEnabled := true }
    let current : Settings := { usernameEnabled := true, phoneEnabled := true }
    let entry (name : String) : Value :=
      .object [("type", .string name), ("verification", .object [("enabled", .bool true)])]
    d.ListsDisabled initial current
    ∧ (∃ t, current.enabled t ≠ initial.enabled t)
    ∧ ∃ kept, (d.patch initial current).root.at? ["identity", "login_id", "keys"]
        = some (.array (kept ++ [entry "username", entry "phone"]))
      ∧ kept.length = 4
      ∧ kept[0]? = some (.string "email")
      ∧ kept[2]? = some (.object [("type", .string "email")])
      ∧ ∃ after, kept[1]? = some after
        ∧ after.member? "max_length" = some (.number (.integer 320))
        ∧ after.at? ["verification", "enabled"] = some (.bool false) := by
  intro d initial current entry
  have hlisted : d.ListsDisabled initial current := by
    intro t
    cases t <;> decide
  have htoggled : ∃ t, current.enabled t ≠ initial.enabled t := ⟨.email, by decide⟩
  obtain ⟨kept, added, hstands, hkeys⟩ := (keys_patch d initial current).2 hlisted htoggled
  have hadded : added = [entry "username", entry "phone"] := by
    rw [hkeys.added]
    decide
  have hplace : ∀ t : KeyType,
      (keysOf d.root).findIdx? (fun e => e.member? "type" = some (.string t.name))
        = if t = .email then some 1 else none := by
    intro t
    cases t <;> decide
  have hother : ∀ n, n ≠ 1 → kept[n]? = (keysOf d.root)[n]? := by
    intro n hn
    refine hkeys.other n fun t _ hfirst => hn ?_
    rw [hplace t] at hfirst
    split at hfirst
    · exact (Option.some.inj hfirst).symm
    · cases hfirst
  obtain ⟨after, hafter, hverifies⟩ := hkeys.first .email (by decide) 1 _ (hplace .email) rfl
  rw [hadded] at hstands
  refine ⟨hlisted, htoggled, kept, hstands, hkeys.length, ?_, ?_, after, hafter, ?_, ?_⟩
  · rw [hother 0 (by decide)]
    decide
  · rw [hother 2 (by decide)]
    decide
  · rw [hverifies.others _ (by decide)]
    decide
  · exact hverifies.flag

end Document
end LoginSettings
