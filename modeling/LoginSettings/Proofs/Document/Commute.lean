import LoginSettings.Proofs.Document.Lookup

/-!
# Edits that commute

Edits at places that are apart can be made in either order: both may make the same objects on their
way, and what one of them makes the other one finds there. Members have to be in order, since it is
by their order that two members put in one after the other do not show which was the first.

* `amend_comm` — two places written
* `eraseAt_amend` — one place written and another one erased; erasing makes no objects, whichever
  of the two comes first
* `amend_amend` — one place written twice
-/

namespace LoginSettings

theorem Apart.symm {p q : List String} (h : Apart p q) : Apart q p := ⟨h.2, h.1⟩

theorem Apart.head_ne {key other : String} {p : List String} (h : Apart (key :: p) [other]) :
    key ≠ other := by
  rintro rfl
  exact not_apart_nil p h.tail

namespace Members

variable {α : Type} {members : List (String × α)}

/-- Insertions under different keys may be made in either order. -/
theorem insert_comm {key other : String} (h : key ≠ other) (v w : α)
    (increasing : Increasing members) :
    insert key v (insert other w members) = insert other w (insert key v members) := by
  refine ext_of_find? (increasing_insert (increasing_insert increasing other w) key v)
    (increasing_insert (increasing_insert increasing key v) other w) fun k => ?_
  by_cases hk : k = key
  · subst hk
    rw [find?_insert_self, find?_insert_ne h, find?_insert_self]
  · rw [find?_insert_ne hk]
    by_cases ho : k = other
    · subst ho
      rw [find?_insert_self, find?_insert_self]
    · rw [find?_insert_ne ho, find?_insert_ne ho, find?_insert_ne hk]

/-- Erasing and inserting under different keys may be done in either order. -/
theorem erase_insert_ne {key other : String} (h : other ≠ key) (v : α)
    (increasing : Increasing members) :
    erase key (insert other v members) = insert other v (erase key members) := by
  refine ext_of_find? (increasing_erase (increasing_insert increasing other v) key)
    (increasing_insert (increasing_erase increasing key) other v) fun k => ?_
  by_cases hk : k = key
  · subst hk
    rw [find?_erase_self, find?_insert_ne (Ne.symm h), find?_erase_self]
  · rw [find?_erase_ne hk]
    by_cases ho : k = other
    · subst ho
      rw [find?_insert_self, find?_insert_self]
    · rw [find?_insert_ne ho, find?_insert_ne ho, find?_erase_ne hk]

end Members

namespace Value

theorem members_object (ms : List (String × Value)) : (object ms).members = ms := rfl

theorem amend_cons (g : Option Value → Value) (key : String) (path : List String)
    (o : Option Value) :
    amend g (key :: path) o
      = object (Members.insert key (amend g path (Members.find? key (o.getD .null).members))
          (o.getD .null).members) := rfl

theorem Ordered.child {v : Value} (h : v.Ordered) (key : String) :
    ((Members.find? key v.members).getD Value.null).Ordered := by
  cases hm : Members.find? key v.members with
  | none => exact .null
  | some w => exact h.members.2 _ (Members.mem_of_find? hm)

/-! ## Writing -/

/-- What is written at a place depends on nothing but what stands there. -/
theorem amend_congr {g g' : Option Value → Value} {path : List String} {o : Option Value}
    (h : g (o.bind (at? path)) = g' (o.bind (at? path))) : amend g path o = amend g' path o := by
  induction path generalizing o with
  | nil => cases o <;> exact h
  | cons key path ih =>
    rw [bind_at?_cons] at h
    rw [amend_cons, amend_cons, ih h]

/-- Writing at a place twice is writing there once. -/
theorem amend_amend (g g' : Option Value → Value) (path : List String) (o : Option Value) :
    amend g path (some (amend g' path o)) = amend (fun o => g (some (g' o))) path o := by
  induction path generalizing o with
  | nil => rfl
  | cons key path ih =>
    rw [amend_cons, amend_cons, amend_cons, Option.getD_some, members_object,
      Members.find?_insert_self, Members.insert_insert, ih]

/-- **Two places that are apart can be written in either order.** -/
theorem amend_comm (g g' : Option Value → Value) {p q : List String} (h : Apart p q)
    {o : Option Value} (ho : (o.getD Value.null).Ordered) :
    amend g p (some (amend g' q o)) = amend g' q (some (amend g p o)) := by
  induction p generalizing q o with
  | nil => exact absurd h (not_nil_apart q)
  | cons key p ih =>
    cases q with
    | nil => exact absurd h (not_apart_nil _)
    | cons other q =>
      simp only [amend_cons, Option.getD_some, members_object]
      by_cases hkey : key = other
      · subst hkey
        rw [Members.find?_insert_self, Members.find?_insert_self, Members.insert_insert,
          Members.insert_insert, ih h.tail (ho.child key)]
      · rw [Members.find?_insert_ne hkey, Members.find?_insert_ne (Ne.symm hkey),
          Members.insert_comm hkey _ _ ho.members.1]

/-! ## Erasing -/

section Erasing

variable {key step : String} {path : List String} {v w : Value}

theorem members_eraseAt_nil (key : String) (v : Value) :
    (eraseAt key [] v).members = Members.erase key v.members := by
  cases v <;> rfl

theorem eraseAt_eq_of_find?_none (h : Members.find? step v.members = none) :
    eraseAt key (step :: path) v = v := by
  cases v with
  | object ms => exact eraseAt_cons_of_find?_none h
  | _ => rfl

theorem eraseAt_eq_of_find? (h : Members.find? step v.members = some w) :
    eraseAt key (step :: path) v
      = object (Members.insert step (eraseAt key path w) v.members) := by
  cases v with
  | object ms => exact eraseAt_cons_of_find? h
  | _ => simp [members] at h

/-- Erasing from nothing is erasing from null: no object is made. -/
theorem getD_map_eraseAt (key : String) (path : List String) (o : Option Value) :
    (o.map (eraseAt key path)).getD Value.null = eraseAt key path (o.getD Value.null) := by
  cases o with
  | none => cases path <;> rfl
  | some v => rfl

end Erasing

/-- **A place can be written before or after another one is erased.** -/
theorem eraseAt_amend (g : Option Value → Value) {key : String} {p path : List String}
    (h : Apart p (path ++ [key])) {o : Option Value} (ho : (o.getD Value.null).Ordered) :
    eraseAt key path (amend g p o) = amend g p (o.map (eraseAt key path)) := by
  induction path generalizing p o with
  | nil =>
    cases p with
    | nil => exact absurd h (not_nil_apart _)
    | cons step p =>
      have hstep : step ≠ key := h.head_ne
      rw [amend_cons, amend_cons, getD_map_eraseAt, members_eraseAt_nil,
        Members.find?_erase_ne hstep, ← Members.erase_insert_ne hstep _ ho.members.1]
      rfl
  | cons next path ih =>
    cases p with
    | nil => exact absurd h (not_nil_apart _)
    | cons step p =>
      rw [amend_cons, amend_cons, getD_map_eraseAt]
      generalize o.getD Value.null = v at ho
      by_cases hstep : next = step
      · -- What is erased stands in the member that is written, be it there already or not.
        subst hstep
        rw [eraseAt_eq_of_find? (Members.find?_insert_self _ _ _), members_object,
          Members.insert_insert, ih h.tail (ho.child next)]
        cases hm : Members.find? next v.members with
        | none => rw [eraseAt_eq_of_find?_none hm, hm, Option.map_none]
        | some w =>
          rw [eraseAt_eq_of_find? hm, members_object, Members.find?_insert_self,
            Members.insert_insert, Option.map_some]
      · cases hm : Members.find? next v.members with
        | none =>
          rw [eraseAt_eq_of_find?_none hm, eraseAt_eq_of_find?_none]
          rw [members_object, Members.find?_insert_ne hstep, hm]
        | some w =>
          rw [eraseAt_eq_of_find? hm, eraseAt_eq_of_find? (w := w), members_object, members_object,
            Members.find?_insert_ne (Ne.symm hstep), Members.insert_comm hstep _ _ ho.members.1]
          rw [members_object, Members.find?_insert_ne hstep, hm]

end Value
end LoginSettings
