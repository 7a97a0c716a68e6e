import LoginSettings.Settings.Basic

/-!
# Fields read and set

Settings are determined by the values of their fields, and setting a field is known by what is read
afterwards: the new value there, and the old ones elsewhere.

* `ofName_name`, `ofName_of_forall_ne` — fields are found by their names and by no others
* `ext_get`, `changedFields_eq_nil_iff` — settings with the same fields are the same
* `exists_set`, `set_of_kind_ne`, `get_of_set` — when a field can be set, and what is read then
* `kind_of_parse` — the values that a text spells for a field can be set in it
* `lastGiven_cons` — of several values given one after another the last one counts
-/

namespace LoginSettings

/-! ## Names -/

namespace Field

/-- What holds of the fields listed holds of all. -/
instance (P : Field → Prop) [DecidablePred P] : Decidable (∀ f, P f) :=
  decidable_of_iff (∀ f ∈ all, P f) ⟨fun h f => h f (mem_all f), fun h f _ => h f⟩

/-- Fields are known by their names. -/
theorem ofName_name (f : Field) : ofName f.name = .ok f := by
  cases f with
  | enabled t => cases t <;> rfl
  | _ => rfl

/-- No other names are known. -/
theorem ofName_of_forall_ne {name : String} (h : ∀ f : Field, f.name ≠ name) :
    ofName name = .error (.unknown name) := by
  have hfind : all.find? (fun f => f.name = name) = none := by
    rw [List.find?_eq_none]
    exact fun f _ => by simpa using h f
  rw [ofName, hfind]

end Field

/-! ## Values -/

namespace Settings

variable {s s' t : Settings} {f g : Field} {v : FieldValue}

/-- Settings with the same value in each field are the same. -/
theorem ext_get (h : ∀ f, s.get f = t.get f) : s = t := by
  have husername := h (.enabled .username)
  have hemail := h (.enabled .email)
  have hphone := h (.enabled .phone)
  have hkeywords := h .excludedKeywords
  have hreserved := h .blockReserved
  have hexclude := h .excludeKeywords
  have husernameCase := h .usernameCaseSensitive
  have hascii := h .asciiOnly
  have hemailCase := h .emailCaseSensitive
  have hdot := h .ignoreDot
  have hplus := h .allowPlus
  cases s
  cases t
  simp_all [get, enabled]

/-- Settings without a changed field are the same. -/
theorem changedFields_eq_nil_iff : s.changedFields t = [] ↔ s = t := by
  constructor
  · intro h
    refine ext_get fun f => Decidable.byContradiction fun hne => ?_
    have hf : f ∈ s.changedFields t := mem_changedFields.2 hne
    rw [h] at hf
    cases hf
  · rintro rfl
    simp [changedFields]

theorem kind_get (s : Settings) (f : Field) : (s.get f).kind = f.kind := by
  cases f <;> rfl

/-- A value of the kind of a field can be set in it. -/
theorem exists_set (s : Settings) (h : v.kind = f.kind) : ∃ s', s.set f v = .ok s' := by
  cases v with
  | bool b =>
    cases f with
    | excludedKeywords => cases h
    | _ => exact ⟨_, rfl⟩
  | list texts =>
    cases f with
    | excludedKeywords => exact ⟨_, rfl⟩
    | _ => cases h

/-- A value of the other kind cannot be set. -/
theorem set_of_kind_ne (s : Settings) (h : v.kind ≠ f.kind) :
    s.set f v = .error (.kindMismatch f f.kind) := by
  cases v with
  | bool b =>
    cases f with
    | excludedKeywords => rfl
    | _ => exact absurd rfl h
  | list texts =>
    cases f with
    | excludedKeywords => exact absurd rfl h
    | _ => rfl

/-- Setting a field changes this field only. -/
theorem get_of_set (h : s.set f v = .ok s') (g : Field) :
    s'.get g = if g = f then v else s.get g := by
  cases f with
  | enabled t =>
    cases v with
    | list texts => cases h
    | bool b =>
      cases h
      cases g with
      | enabled u => cases t <;> cases u <;> rfl
      | _ => cases t <;> rfl
  | excludedKeywords =>
    cases v with
    | bool b => cases h
    | list texts =>
      cases h
      cases g <;> rfl
  | _ =>
    cases v with
    | list texts => cases h
    | bool b =>
      cases h
      cases g <;> rfl

end Settings

/-- A text spells values of the field's kind only. -/
theorem Field.kind_of_parse {f : Field} {text : String} {v : FieldValue}
    (h : f.parse text = .ok v) : v.kind = f.kind := by
  unfold Field.parse at h
  split at h
  · rename_i hkind
    cases h
    exact hkind.symm
  · rename_i hkind
    split at h
    · cases h
      exact hkind.symm
    · split at h
      · cases h
        exact hkind.symm
      · cases h

/-! ## Values given one after another -/

/-- The value that the last of some things gives that give one, and the old value if none does. -/
def lastGiven {α β : Type} (gives : α → Option β) (old : β) (things : List α) : β :=
  (things.reverse.findSome? gives).getD old

@[simp] theorem lastGiven_nil {α β : Type} (gives : α → Option β) (old : β) :
    lastGiven gives old [] = old := rfl

theorem lastGiven_cons {α β : Type} (gives : α → Option β) (old : β) (a : α) (things : List α) :
    lastGiven gives old (a :: things) = lastGiven gives ((gives a).getD old) things := by
  rw [lastGiven, lastGiven, List.reverse_cons, List.findSome?_append]
  cases things.reverse.findSome? gives with
  | some b => rfl
  | none => cases h : gives a <;> simp [h]

end LoginSettings
