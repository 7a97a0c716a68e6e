import Mathlib.Data.List.Induction
import LoginSettings.Proofs.Document.Lookup
import LoginSettings.Settings.Patch

/-!
# The list of keys

What turning types on and off does to a list of keys. An entry is found by its type, and
verification is all that changes in it, so that it stays an entry of the same type; hence the lists
that have an entry for a type are told by the types that have been toggled.

* `isListed_toggled` — a toggled type is listed, and so is what was listed before
* `toggled_toggled` — of two toggles of one type the last counts
* `toggled_comm_of_isListed` — a type that is listed can be toggled before or after another one
* `getElem?_setFirst`, `findIdx?_setFirst` — entries keep their places, and one of them changes
* `toggledAll_eq_append` — of several types those without an entry get one behind all others
-/

namespace LoginSettings

/-- Different key types have different names. -/
theorem KeyType.name_injective {s t : KeyType} : s.name = t.name → s = t := by
  cases s <;> cases t <;> decide

namespace Value

/-! ## Entries -/

/-- The verification is the only member of an entry that is set. -/
theorem member?_withVerification {key : String} (h : key ≠ "verification") (b : Bool)
    (entry : Value) : (entry.withVerification b).member? key = entry.member? key := by
  rw [withVerification, member?_object, Members.find?_insert_ne h, member?_eq_find?]

/-- The verification of an entry gets the flag and keeps its other members. -/
theorem member?_verification_withVerification (b : Bool) (entry : Value) :
    (entry.withVerification b).member? "verification"
      = some (object (Members.insert "enabled" (bool b)
          ((entry.member? "verification").getD null).members)) := by
  rw [withVerification, member?_object, Members.find?_insert_self]

/-- Of two flags that are set for an entry the second one counts. -/
theorem withVerification_withVerification (a b : Bool) (entry : Value) :
    (entry.withVerification a).withVerification b = entry.withVerification b := by
  rw [withVerification, member?_verification_withVerification]
  simp only [withVerification, Option.getD_some, members, Members.insert_insert]

/-- An entry with its flag set is still one for its type. -/
@[simp] theorem isEntryOf_withVerification (type : KeyType) (b : Bool) (entry : Value) :
    isEntryOf type (entry.withVerification b) = isEntryOf type entry := by
  rw [isEntryOf, isEntryOf, member?_withVerification (by decide)]

theorem isEntryOf_bareEntry (s t : KeyType) : isEntryOf s (bareEntry t) = decide (s = t) := by
  cases s <;> cases t <;> decide

/-- An entry is of one type only. -/
theorem eq_of_isEntryOf {s t : KeyType} {entry : Value} (hs : isEntryOf s entry = true)
    (ht : isEntryOf t entry = true) : s = t := by
  rw [isEntryOf, decide_eq_true_eq] at hs ht
  rw [hs, Option.some.injEq, string.injEq] at ht
  exact KeyType.name_injective ht

/-! ## The first entry for a type -/

@[simp] theorem isListed_cons (type : KeyType) (entry : Value) (keys : List Value) :
    isListed type (entry :: keys) = (isEntryOf type entry || isListed type keys) := rfl

theorem isListed_append (type : KeyType) (keys more : List Value) :
    isListed type (keys ++ more) = (isListed type keys || isListed type more) :=
  List.any_append

@[simp] theorem isListed_setFirst (s t : KeyType) (b : Bool) (keys : List Value) :
    isListed s (setFirst t b keys) = isListed s keys := by
  induction keys with
  | nil => rfl
  | cons entry keys ih =>
    rw [setFirst]
    split
    · simp
    · simp [ih]

/-- Of two flags that are set for a type the second one counts. -/
theorem setFirst_setFirst (t : KeyType) (a b : Bool) (keys : List Value) :
    setFirst t b (setFirst t a keys) = setFirst t b keys := by
  induction keys with
  | nil => rfl
  | cons entry keys ih =>
    by_cases h : isEntryOf t entry = true
    · simp [setFirst, h, withVerification_withVerification]
    · simp [setFirst, h, ih]

/-- The flags of different types may be set in either order. -/
theorem setFirst_comm {s t : KeyType} (h : s ≠ t) (a b : Bool) (keys : List Value) :
    setFirst s a (setFirst t b keys) = setFirst t b (setFirst s a keys) := by
  induction keys with
  | nil => rfl
  | cons entry keys ih =>
    by_cases hs : isEntryOf s entry = true
    · have ht : ¬isEntryOf t entry = true := fun ht => h (eq_of_isEntryOf hs ht)
      simp [setFirst, hs, ht]
    · by_cases ht : isEntryOf t entry = true
      · simp [setFirst, hs, ht]
      · simp [setFirst, hs, ht, ih]

/-- Where a type is listed, entries behind the list do not count. -/
theorem setFirst_append {type : KeyType} {keys : List Value} (h : isListed type keys = true)
    (b : Bool) (more : List Value) :
    setFirst type b (keys ++ more) = setFirst type b keys ++ more := by
  induction keys with
  | nil => simp [isListed] at h
  | cons entry keys ih =>
    rw [List.cons_append, setFirst, setFirst]
    by_cases he : isEntryOf type entry = true
    · rw [if_pos he, if_pos he, List.cons_append]
    · have hkeys : isListed type keys = true := by simpa [he] using h
      rw [if_neg he, if_neg he, ih hkeys, List.cons_append]

/-- For a type that is not listed nothing is set. -/
theorem setFirst_of_not_isListed {type : KeyType} {keys : List Value}
    (h : isListed type keys = false) (b : Bool) : setFirst type b keys = keys := by
  induction keys with
  | nil => rfl
  | cons entry keys ih =>
    rw [isListed_cons, Bool.or_eq_false_iff] at h
    rw [setFirst, if_neg (by simp [h.1]), ih h.2]

/-- A list without entries for a type is passed over. -/
theorem setFirst_append_of_not_isListed {type : KeyType} {keys : List Value}
    (h : isListed type keys = false) (b : Bool) (more : List Value) :
    setFirst type b (keys ++ more) = keys ++ setFirst type b more := by
  induction keys with
  | nil => rfl
  | cons entry keys ih =>
    rw [isListed_cons, Bool.or_eq_false_iff] at h
    rw [List.cons_append, setFirst, if_neg (by simp [h.1]), ih h.2, List.cons_append]

/-! ## Places of entries -/

/-- The first entry for a type stays where it is. -/
@[simp] theorem findIdx?_setFirst (s t : KeyType) (b : Bool) (keys : List Value) :
    (setFirst t b keys).findIdx? (isEntryOf s) = keys.findIdx? (isEntryOf s) := by
  induction keys with
  | nil => rfl
  | cons entry keys ih =>
    rw [setFirst]
    split
    · rw [List.findIdx?_cons, List.findIdx?_cons, isEntryOf_withVerification]
    · rw [List.findIdx?_cons, List.findIdx?_cons, ih]

@[simp] theorem length_setFirst (t : KeyType) (b : Bool) (keys : List Value) :
    (setFirst t b keys).length = keys.length := by
  induction keys with
  | nil => rfl
  | cons entry keys ih =>
    rw [setFirst]
    split
    · rfl
    · rw [List.length_cons, ih, List.length_cons]

/-- Only the first entry for the type changes. -/
theorem getElem?_setFirst (t : KeyType) (b : Bool) (keys : List Value) (n : Nat) :
    (setFirst t b keys)[n]?
      = if keys.findIdx? (isEntryOf t) = some n then keys[n]?.map (withVerification b)
        else keys[n]? := by
  induction keys generalizing n with
  | nil => rfl
  | cons entry keys ih =>
    rw [setFirst, List.findIdx?_cons]
    by_cases h : isEntryOf t entry = true
    · rw [if_pos h, if_pos h]
      cases n with
      | zero => rfl
      | succ n => rw [if_neg (by simp)]; rfl
    · rw [if_neg h, if_neg h]
      cases n with
      | zero => simp
      | succ n =>
        rw [List.getElem?_cons_succ, List.getElem?_cons_succ, ih]
        simp

/-- Entries for different types stand at different places. -/
theorem eq_of_findIdx?_isEntryOf {s t : KeyType} {keys : List Value} {n : Nat}
    (hs : keys.findIdx? (isEntryOf s) = some n) (ht : keys.findIdx? (isEntryOf t) = some n) :
    s = t := by
  obtain ⟨_, hs, -⟩ := List.findIdx?_eq_some_iff_getElem.1 hs
  obtain ⟨_, ht, -⟩ := List.findIdx?_eq_some_iff_getElem.1 ht
  exact eq_of_isEntryOf hs ht

/-! ## Toggling -/

/-- A type that is listed is toggled where it stands. -/
theorem toggled_of_isListed {type : KeyType} {keys : List Value} (h : isListed type keys = true)
    (b : Bool) : toggled type b keys = setFirst type b keys := by
  rw [toggled, if_pos h]

/-- A type that is not listed is toggled in a new entry at the end. -/
theorem toggled_of_not_isListed {type : KeyType} {keys : List Value}
    (h : isListed type keys = false) (b : Bool) :
    toggled type b keys = setFirst type b (keys ++ [bareEntry type]) := by
  rw [toggled, if_neg (by simp [h])]

/-- **A toggled type is listed, and so is what was listed before.** -/
theorem isListed_toggled (s t : KeyType) (b : Bool) (keys : List Value) :
    isListed s (toggled t b keys) = (isListed s keys || decide (s = t)) := by
  cases h : isListed t keys with
  | true =>
    rw [toggled_of_isListed h, isListed_setFirst]
    by_cases hst : s = t
    · subst hst
      simp [h]
    · simp [hst]
  | false =>
    rw [toggled_of_not_isListed h, isListed_setFirst, isListed_append, isListed_cons,
      isEntryOf_bareEntry]
    simp [isListed]

/-- A type that has been toggled is listed. -/
theorem isListed_toggled_self (type : KeyType) (b : Bool) (keys : List Value) :
    isListed type (toggled type b keys) = true := by
  simp [isListed_toggled]

/-- Of two toggles of the same type the second one counts. -/
theorem toggled_toggled (type : KeyType) (a b : Bool) (keys : List Value) :
    toggled type b (toggled type a keys) = toggled type b keys := by
  rw [toggled_of_isListed (isListed_toggled_self type a keys), toggled, toggled, setFirst_setFirst]

/-- Types may be toggled in either order as soon as one of them is listed. -/
theorem toggled_comm_of_isListed {s t : KeyType} (h : s ≠ t) {keys : List Value}
    (hs : isListed s keys = true) (a b : Bool) :
    toggled s a (toggled t b keys) = toggled t b (toggled s a keys) := by
  have hs' : isListed s (toggled t b keys) = true := by rw [isListed_toggled, hs, Bool.true_or]
  rw [toggled_of_isListed hs', toggled_of_isListed hs]
  cases ht : isListed t keys with
  | true =>
    rw [toggled_of_isListed ht, toggled_of_isListed (by rwa [isListed_setFirst]),
      setFirst_comm h]
  | false =>
    -- The entry put in for `t` stands behind the one for `s`, which is found as before.
    rw [toggled_of_not_isListed ht, toggled_of_not_isListed (by rwa [isListed_setFirst]),
      setFirst_comm h, setFirst_append hs]

/-- A type that is toggled already stays so when another one is toggled. -/
theorem toggled_eq_self_of_toggled {s t : KeyType} (hst : s ≠ t) {a : Bool} {keys : List Value}
    (h : toggled s a keys = keys) (b : Bool) :
    toggled s a (toggled t b keys) = toggled t b keys := by
  have hs : isListed s keys = true := by
    rw [← h]
    exact isListed_toggled_self s a keys
  rw [toggled_comm_of_isListed hst hs, h]

/-! ## Several types -/

/-- The keys with the first entries for some types verified or not. -/
def setFirsts (on : KeyType → Bool) (types : List KeyType) (keys : List Value) : List Value :=
  types.foldl (fun keys t => setFirst t (on t) keys) keys

/-- The keys with some types turned on or off, one after another. -/
def toggledAll (on : KeyType → Bool) (types : List KeyType) (keys : List Value) : List Value :=
  types.foldl (fun keys t => toggled t (on t) keys) keys

theorem isListed_setFirsts (s : KeyType) (on : KeyType → Bool) (types : List KeyType)
    (keys : List Value) : isListed s (setFirsts on types keys) = isListed s keys := by
  induction types generalizing keys with
  | nil => rfl
  | cons t types ih =>
    show isListed s (setFirsts on types (setFirst t (on t) keys)) = isListed s keys
    rw [ih, isListed_setFirst]

theorem length_setFirsts (on : KeyType → Bool) (types : List KeyType) (keys : List Value) :
    (setFirsts on types keys).length = keys.length := by
  induction types generalizing keys with
  | nil => rfl
  | cons t types ih =>
    show (setFirsts on types (setFirst t (on t) keys)).length = keys.length
    rw [ih, length_setFirst]

/-- Entries that are the first one for none of the types stay as they are. -/
theorem getElem?_setFirsts_of_ne {on : KeyType → Bool} {types : List KeyType} {keys : List Value}
    {n : Nat} (h : ∀ t ∈ types, keys.findIdx? (isEntryOf t) ≠ some n) :
    (setFirsts on types keys)[n]? = keys[n]? := by
  induction types generalizing keys with
  | nil => rfl
  | cons t types ih =>
    show (setFirsts on types (setFirst t (on t) keys))[n]? = keys[n]?
    rw [ih, getElem?_setFirst, if_neg (h t List.mem_cons_self)]
    intro s hs
    rw [findIdx?_setFirst]
    exact h s (List.mem_cons_of_mem t hs)

/-- The first entry for each of the types has its flag set. -/
theorem getElem?_setFirsts {on : KeyType → Bool} {types : List KeyType} (hnodup : types.Nodup)
    {keys : List Value} {t : KeyType} (ht : t ∈ types) {n : Nat}
    (hn : keys.findIdx? (isEntryOf t) = some n) :
    (setFirsts on types keys)[n]? = keys[n]?.map (withVerification (on t)) := by
  induction types generalizing keys with
  | nil => cases ht
  | cons s types ih =>
    obtain ⟨hs, hnodup⟩ := List.nodup_cons.1 hnodup
    show (setFirsts on types (setFirst s (on s) keys))[n]? = _
    rcases List.mem_cons.1 ht with rfl | ht
    · -- No other type has its first entry here, so that this one is changed just once.
      rw [getElem?_setFirsts_of_ne, getElem?_setFirst, if_pos hn]
      intro u hu hfirst
      rw [findIdx?_setFirst] at hfirst
      exact hs (eq_of_findIdx?_isEntryOf hn hfirst ▸ hu)
    · have hne : keys.findIdx? (isEntryOf s) ≠ some n := by
        intro hfirst
        exact hs (eq_of_findIdx?_isEntryOf hn hfirst ▸ ht)
      rw [ih hnodup ht (by rwa [findIdx?_setFirst]), getElem?_setFirst, if_neg hne]

/-- The entry that is put in for a type that is turned on or off without one. -/
def newEntry (b : Bool) (t : KeyType) : Value :=
  object [("type", string t.name), ("verification", object [("enabled", bool b)])]

theorem withVerification_bareEntry (b : Bool) (t : KeyType) :
    (bareEntry t).withVerification b = newEntry b t := by
  cases t <;> cases b <;> decide

theorem isEntryOf_newEntry (s t : KeyType) (b : Bool) :
    isEntryOf s (newEntry b t) = decide (s = t) := by
  rw [← withVerification_bareEntry, isEntryOf_withVerification, isEntryOf_bareEntry]

/-- New entries list the types that they have been made for. -/
theorem isListed_map_newEntry (t : KeyType) (on : KeyType → Bool) (types : List KeyType) :
    isListed t (types.map fun s => newEntry (on s) s) = decide (t ∈ types) := by
  induction types with
  | nil => rfl
  | cons s types ih =>
    rw [List.map_cons, isListed_cons, isEntryOf_newEntry, ih]
    simp

/-- **Toggling changes first entries in place and puts new entries behind all others,** in the order
in which the types are toggled. -/
theorem toggledAll_eq_append (on : KeyType → Bool) {types : List KeyType} (h : types.Nodup)
    (keys : List Value) :
    toggledAll on types keys
      = setFirsts on types keys
        ++ (types.filter fun t => !isListed t keys).map fun t => newEntry (on t) t := by
  induction types using List.reverseRecOn with
  | nil => simp [toggledAll, setFirsts]
  | append_singleton types t ih =>
    rw [List.nodup_append] at h
    obtain ⟨hnodup, -, hdisjoint⟩ := h
    have ht : t ∉ types := fun hmem => hdisjoint t hmem t List.mem_cons_self rfl
    have hall : toggledAll on (types ++ [t]) keys
        = toggled t (on t) (toggledAll on types keys) := List.foldl_append
    have hfirsts : setFirsts on (types ++ [t]) keys
        = setFirst t (on t) (setFirsts on types keys) := List.foldl_append
    have hnew : isListed t ((types.filter fun t => !isListed t keys).map
        fun t => newEntry (on t) t) = false := by
      rw [isListed_map_newEntry, decide_eq_false_iff_not]
      exact fun hmem => ht (List.mem_filter.1 hmem).1
    rw [hall, hfirsts, ih hnodup, List.filter_append]
    cases hlisted : isListed t keys with
    | true =>
      have hfound : isListed t (setFirsts on types keys) = true := by
        rw [isListed_setFirsts, hlisted]
      rw [toggled_of_isListed (by rw [isListed_append, hfound, Bool.true_or]),
        setFirst_append hfound]
      simp [hlisted]
    | false =>
      have hkeys : isListed t (setFirsts on types keys) = false := by
        rw [isListed_setFirsts, hlisted]
      have hmissing : isListed t (setFirsts on types keys
          ++ (types.filter fun t => !isListed t keys).map fun t => newEntry (on t) t) = false := by
        rw [isListed_append, hkeys, hnew, Bool.or_false]
      rw [toggled_of_not_isListed hmissing, setFirst_append_of_not_isListed hmissing,
        setFirst_of_not_isListed hkeys, setFirst, if_pos (by simp [isEntryOf_bareEntry]),
        withVerification_bareEntry]
      simp [hlisted]

end Value
end LoginSettings
