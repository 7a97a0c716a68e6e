import LoginSettings.Proofs.Document.Lookup

/-!
# Values without a member

What it means that a value is another one without the member at a path, told by lookups alone. In a
value in order there is just one such value, so that this says as much as an equation; erasing along
a path gives it.

* `TakesAway` — nothing at the place, all else as before, and the objects above it still there
* `TakesAway.eq` — where something stood at the place, only one value in order is left
* `takesAway_eraseAt` — erasing takes away
-/

namespace LoginSettings

/-! ## Paths -/

theorem Apart.cons {p q : List String} (h : Apart p q) (key : String) :
    Apart (key :: p) (key :: q) :=
  ⟨fun hp => h.1 (List.cons_prefix_cons.1 hp).2, fun hq => h.2 (List.cons_prefix_cons.1 hq).2⟩

theorem apart_singleton {step key : String} (h : step ≠ key) (path : List String) :
    Apart [step] (key :: path) :=
  ⟨fun hp => h (List.cons_prefix_cons.1 hp).1, fun hq => h (List.cons_prefix_cons.1 hq).1.symm⟩

namespace Value

/-- Holds of two values of which the second one is the first one without the member at a place. -/
structure TakesAway (place : List String) (v w : Value) : Prop where
  gone : w.at? place = none
  lookup : ∀ p, Apart p place → w.at? p = v.at? p
  above : ∀ p, p <+: place → p ≠ place → v.isObjectAt p = true → w.isObjectAt p = true

theorem takesAway_eraseAt (key : String) (path : List String) (v : Value) :
    TakesAway (path ++ [key]) v (eraseAt key path v) where
  gone := at?_eraseAt_self key path v
  lookup := fun _ hp => at?_eraseAt_of_apart hp v
  above := fun _ hp hne hv => isObjectAt_eraseAt (not_prefix_of_proper hp hne) hv

/-! ## Only one value is left -/

theorem exists_object {v : Value} (h : v.isObjectAt [] = true) : ∃ ms, v = object ms := by
  cases v with
  | object ms => exact ⟨ms, rfl⟩
  | _ => cases h

theorem isObjectAt_cons_of_find? {key : String} {path : List String} {ms : List (String × Value)}
    {v : Value} (h : Members.find? key ms = some v) :
    (object ms).isObjectAt (key :: path) = v.isObjectAt path := by
  rw [isObjectAt, at?_cons_of_find? h]
  rfl

/-- What a path leads to stands below the member of an object. -/
theorem exists_member_of_at?_ne_none {key : String} {path : List String} {v : Value}
    (h : v.at? (key :: path) ≠ none) :
    ∃ ms u, v = object ms ∧ Members.find? key ms = some u ∧ u.at? path ≠ none := by
  cases v with
  | object ms =>
    cases hu : Members.find? key ms with
    | none =>
      rw [at?, member?_object, hu] at h
      exact absurd rfl h
    | some u =>
      rw [at?_cons_of_find? hu] at h
      exact ⟨ms, u, rfl, hu, h⟩
  | _ => exact absurd rfl h

/-- What is taken away below a member is taken away from the member. -/
theorem TakesAway.member {key step : String} {path : List String}
    {ms ns : List (String × Value)} {u : Value}
    (h : TakesAway (key :: step :: path) (object ms) (object ns))
    (hu : Members.find? key ms = some u) (hobject : u.isObjectAt [] = true) :
    ∃ w, Members.find? key ns = some w ∧ TakesAway (step :: path) u w := by
  have hnext : (object ns).isObjectAt [key] = true := by
    refine h.above [key] (List.cons_prefix_cons.2 ⟨rfl, List.nil_prefix⟩) (by simp) ?_
    rwa [isObjectAt_cons_of_find? hu]
  cases hw : Members.find? key ns with
  | none =>
    rw [isObjectAt, at?_singleton, member?_object, hw] at hnext
    cases hnext
  | some w =>
    refine ⟨w, rfl, ?_, ?_, ?_⟩
    · rw [← at?_cons_of_find? hw]
      exact h.gone
    · intro p hp
      rw [← at?_cons_of_find? hw, ← at?_cons_of_find? hu]
      exact h.lookup _ (hp.cons key)
    · intro p hp hne hv
      rw [← isObjectAt_cons_of_find? hw]
      refine h.above _ (List.cons_prefix_cons.2 ⟨rfl, hp⟩) (by simpa using hne) ?_
      rwa [isObjectAt_cons_of_find? hu]

/-- **Only one value in order is left** when a member that is there is taken away. -/
theorem TakesAway.eq {place : List String} {v w w' : Value} (hw : w.Ordered) (hw' : w'.Ordered)
    (h : TakesAway place v w) (h' : TakesAway place v w') (hplace : v.at? place ≠ none) :
    w = w' := by
  induction place generalizing v w w' with
  | nil => cases h.gone
  | cons key path ih =>
    obtain ⟨ms, u, rfl, hu, hbelow⟩ := exists_member_of_at?_ne_none hplace
    obtain ⟨ns, rfl⟩ := exists_object (h.above [] List.nil_prefix (by simp) rfl)
    obtain ⟨ns', rfl⟩ := exists_object (h'.above [] List.nil_prefix (by simp) rfl)
    have hkey : Members.find? key ns = Members.find? key ns' := by
      cases path with
      | nil =>
        rw [← member?_object, ← member?_object, ← at?_singleton, ← at?_singleton, h.gone, h'.gone]
      | cons step path =>
        obtain ⟨_, _, rfl, -, -⟩ := exists_member_of_at?_ne_none hbelow
        obtain ⟨x, hx, htakes⟩ := h.member hu rfl
        obtain ⟨x', hx', htakes'⟩ := h'.member hu rfl
        rw [hx, hx', ih (hw.member hx) (hw'.member hx') htakes htakes' hbelow]
    have hother : ∀ other, other ≠ key → Members.find? other ns = Members.find? other ns' := by
      intro other hne
      have hsame : (object ns).at? [other] = (object ns').at? [other] :=
        (h.lookup _ (apart_singleton hne path)).trans (h'.lookup _ (apart_singleton hne path)).symm
      rwa [at?_singleton, at?_singleton, member?_object, member?_object] at hsame
    refine congrArg Value.object (Members.ext_of_find? hw.members.1 hw'.members.1 fun other => ?_)
    by_cases hne : other = key
    · rw [hne, hkey]
    · exact hother other hne

end Value
end LoginSettings
