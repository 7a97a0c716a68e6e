import LoginSettings.Document.Edit

/-!
# Lookups after edits

What stands where once a value has been edited along a path of keys. All writing has one form,
`Value.amend`, and together with `Value.eraseAt` it is all that edits do.

* `at?_amend_self`, `at?_eraseAt_self` — what stands at the place of the edit
* `at?_amend_of_apart`, `at?_eraseAt_of_apart` — all that is apart from the place stays
* `isObjectAt_amend`, `isObjectAt_eraseAt` — objects above the place stay objects
* `amend_eq_self`, `eraseAt_eq_self` — an edit that is there already changes nothing

The last two need the value to be in order: a member that is written again keeps its place only
where keys increase.
-/

namespace LoginSettings

/-! ## Paths -/

/-- Holds of two paths neither of which leads on from the other. -/
def Apart (p q : List String) : Prop := ¬p <+: q ∧ ¬q <+: p

instance (p q : List String) : Decidable (Apart p q) := inferInstanceAs (Decidable (_ ∧ _))

theorem not_apart_nil (p : List String) : ¬Apart p [] := fun h => h.2 List.nil_prefix

theorem not_nil_apart (p : List String) : ¬Apart [] p := fun h => h.1 List.nil_prefix

/-- Places that are apart and share their first key are apart below it. -/
theorem Apart.tail {key : String} {p q : List String} (h : Apart (key :: p) (key :: q)) :
    Apart p q :=
  ⟨fun hp => h.1 (List.cons_prefix_cons.2 ⟨rfl, hp⟩),
    fun hq => h.2 (List.cons_prefix_cons.2 ⟨rfl, hq⟩)⟩

/-- A path does not lead on from the paths that it leads on from. -/
theorem not_prefix_of_proper {p q : List String} (h : p <+: q) (hne : p ≠ q) : ¬q <+: p :=
  fun hq => hne (h.eq_of_length_le hq.length_le)

/-! ## Members that are there already -/

namespace Members

variable {α : Type}

/-- Inserting what is there already changes nothing. -/
theorem insert_eq_self {key : String} {value : α} {members : List (String × α)}
    (increasing : Increasing members) (h : find? key members = some value) :
    insert key value members = members := by
  induction members with
  | nil => simp at h
  | cons member rest ih =>
    obtain ⟨k, v⟩ := member
    obtain ⟨hk, hrest⟩ := List.pairwise_cons.1 increasing
    by_cases hkey : key = k
    · subst hkey
      have hv : v = value := by simpa [find?] using h
      simp [insert, hv]
    · have hfind : find? key rest = some value := by simpa [find?, hkey] using h
      -- What is found further on has a greater key, so the place to insert is not reached here.
      have hlt : ¬key < k :=
        fun hlt => String.lt_irrefl _ (String.lt_trans hlt (hk _ (mem_of_find? hfind)))
      simp [insert, hkey, hlt, ih hrest hfind]

/-- Of two insertions under the same key the second one counts. -/
theorem insert_insert (key : String) (value old : α) (members : List (String × α)) :
    insert key value (insert key old members) = insert key value members := by
  induction members with
  | nil => simp [insert]
  | cons member rest ih =>
    obtain ⟨k, v⟩ := member
    by_cases hkey : key = k
    · simp [insert, hkey]
    · by_cases hlt : key < k
      · simp [insert, hkey, hlt]
      · simp [insert, hkey, hlt, ih]

/-- Erasing what is not there changes nothing. -/
theorem erase_eq_self {key : String} {members : List (String × α)}
    (h : find? key members = none) : erase key members = members := by
  induction members with
  | nil => rfl
  | cons member rest ih =>
    obtain ⟨k, v⟩ := member
    by_cases hkey : key = k
    · simp [find?, hkey] at h
    · have hrest : erase key rest = rest := ih (by simpa [find?, hkey] using h)
      simpa [erase, Ne.symm hkey] using hrest

end Members

namespace Value

theorem member?_eq_find? (key : String) (v : Value) :
    v.member? key = Members.find? key v.members := by
  cases v <;> rfl

theorem member?_object (key : String) (ms : List (String × Value)) :
    (object ms).member? key = Members.find? key ms := rfl

theorem at?_singleton (key : String) (v : Value) : v.at? [key] = v.member? key := by
  rw [at?]
  cases v.member? key <;> rfl

theorem at?_pair (first second : String) (v : Value) :
    v.at? [first, second] = (v.member? first).bind (member? second) := by
  rw [at?]
  congr 1
  funext w
  exact at?_singleton second w

/-- A path through a member leads on in the value of that member. -/
theorem at?_cons_of_find? {key : String} {path : List String} {ms : List (String × Value)}
    {v : Value} (h : Members.find? key ms = some v) :
    (object ms).at? (key :: path) = v.at? path := by
  rw [at?, member?_object, h, Option.bind_some]

/-- Holds where an object stands at a path. -/
def isObjectAt (p : List String) (v : Value) : Bool := (v.at? p).any isObject

/-! ## Writing -/

/-- What is made of a value, or of nothing, by changing what stands at a path; what is not an object
on the way becomes one. -/
def amend (g : Option Value → Value) : List String → Option Value → Value
  | [], o => g o
  | key :: path, o =>
    let ms := (o.getD null).members
    object (Members.insert key (amend g path (Members.find? key ms)) ms)

theorem bind_at?_cons (key : String) (path : List String) (o : Option Value) :
    o.bind (at? (key :: path)) = (Members.find? key (o.getD null).members).bind (at? path) := by
  cases o with
  | none => rfl
  | some v => simp only [Option.bind_some, at?, member?_eq_find?, Option.getD_some]

/-- Writing into what is not there is writing into null. -/
theorem amend_getD (g : Option Value → Value) (path : List String) (member : String)
    (o : Option Value) :
    amend g (path ++ [member]) (some (o.getD null)) = amend g (path ++ [member]) o := by
  cases path <;> cases o <;> rfl

/-- Putting in one member of the object at a path is an amendment. -/
theorem updateAt_insert (g : Option Value → Value) (member : String) (path : List String)
    (v : Value) :
    updateAt (fun ms => Members.insert member (g (Members.find? member ms)) ms) path v
      = amend g (path ++ [member]) (some v) := by
  induction path generalizing v with
  | nil => rfl
  | cons key path ih =>
    rw [updateAt, ih, amend_getD, member?_eq_find?]
    rfl

/-- What has been written is found at its place. -/
theorem at?_amend_self (g : Option Value → Value) (path : List String) (o : Option Value) :
    (amend g path o).at? path = some (g (o.bind (at? path))) := by
  induction path generalizing o with
  | nil => cases o <;> rfl
  | cons key path ih =>
    rw [bind_at?_cons, amend, at?, member?_object, Members.find?_insert_self, Option.bind_some, ih]

/-- Writing changes nothing at places apart from the one that is written. -/
theorem at?_amend_of_apart (g : Option Value → Value) {path p : List String} (h : Apart p path)
    (o : Option Value) : (amend g path o).at? p = o.bind (at? p) := by
  induction path generalizing p o with
  | nil => exact absurd h (not_apart_nil p)
  | cons key path ih =>
    cases p with
    | nil => exact absurd h (not_nil_apart _)
    | cons step p =>
      rw [bind_at?_cons, amend, at?, member?_object]
      by_cases hstep : step = key
      · subst hstep
        rw [Members.find?_insert_self, Option.bind_some, ih h.tail]
      · rw [Members.find?_insert_ne hstep]

/-- Objects stay objects, except at the place that is written and below it. -/
theorem isObjectAt_amend (g : Option Value → Value) {path p : List String} (h : ¬path <+: p)
    {o : Option Value} (ho : (o.bind (at? p)).any isObject = true) :
    (amend g path o).isObjectAt p = true := by
  induction path generalizing p o with
  | nil => exact absurd List.nil_prefix h
  | cons key path ih =>
    cases p with
    | nil => rfl -- What is written into is an object afterwards, whatever it was.
    | cons step p =>
      rw [bind_at?_cons] at ho
      rw [isObjectAt, amend, at?, member?_object]
      by_cases hstep : step = key
      · subst hstep
        rw [Members.find?_insert_self]
        exact ih (fun hp => h (List.cons_prefix_cons.2 ⟨rfl, hp⟩)) ho
      · rw [Members.find?_insert_ne hstep]
        exact ho

/-- Writing what is there already changes nothing. -/
theorem amend_eq_self {g : Option Value → Value} {path : List String} {v w : Value}
    (hv : v.Ordered) (h : v.at? path = some w) (hg : g (some w) = w) :
    amend g path (some v) = v := by
  induction path generalizing v with
  | nil =>
    obtain rfl : v = w := by simpa [at?] using h
    exact hg
  | cons key path ih =>
    rw [at?, Option.bind_eq_some_iff] at h
    obtain ⟨u, hu, hw⟩ := h
    cases hv with
    | object increasing hall =>
      -- The member that the path goes through is written back, and at the place it had.
      rw [member?_object] at hu
      have hamend : amend g path (some u) = u := ih (hall _ (Members.mem_of_find? hu)) hw
      simp only [amend, Option.getD_some, members]
      rw [hu, hamend, Members.insert_eq_self increasing hu]
    | _ => simp [member?] at hu

/-! ## Erasing -/

/-- Erasing along a path through a member erases in the value of that member. -/
theorem eraseAt_cons_of_find? {key step : String} {path : List String}
    {ms : List (String × Value)} {v : Value} (h : Members.find? step ms = some v) :
    eraseAt key (step :: path) (object ms)
      = object (Members.insert step (eraseAt key path v) ms) := by
  rw [eraseAt, h]

/-- Along a path that leads nowhere there is nothing to erase. -/
theorem eraseAt_cons_of_find?_none {key step : String} {path : List String}
    {ms : List (String × Value)} (h : Members.find? step ms = none) :
    eraseAt key (step :: path) (object ms) = object ms := by
  rw [eraseAt, h]

/-- What has been erased is not found any more. -/
theorem at?_eraseAt_self (key : String) (path : List String) (v : Value) :
    (eraseAt key path v).at? (path ++ [key]) = none := by
  induction path generalizing v with
  | nil =>
    cases v with
    | object ms => simp [eraseAt, at?, member?_object, Members.find?_erase_self]
    | _ => rfl
  | cons step path ih =>
    cases v with
    | object ms =>
      cases hm : Members.find? step ms with
      | none =>
        rw [eraseAt_cons_of_find?_none hm, List.cons_append, at?, member?_object, hm]
        rfl
      | some u =>
        rw [eraseAt_cons_of_find? hm, List.cons_append, at?, member?_object,
          Members.find?_insert_self, Option.bind_some, ih]
    | _ => rfl

/-- Erasing changes nothing at places apart from the one that is erased. -/
theorem at?_eraseAt_of_apart {key : String} {path p : List String} (h : Apart p (path ++ [key]))
    (v : Value) : (eraseAt key path v).at? p = v.at? p := by
  induction path generalizing p v with
  | nil =>
    cases p with
    | nil => exact absurd h (not_nil_apart _)
    | cons step p =>
      have hstep : step ≠ key := by
        rintro rfl
        exact not_apart_nil p h.tail
      cases v with
      | object ms => rw [eraseAt, at?, at?, member?_object, member?_object,
          Members.find?_erase_ne hstep]
      | _ => rfl
  | cons step path ih =>
    cases p with
    | nil => exact absurd h (not_nil_apart _)
    | cons next p =>
      cases v with
      | object ms =>
        cases hm : Members.find? step ms with
        | none => rw [eraseAt_cons_of_find?_none hm]
        | some u =>
          rw [eraseAt_cons_of_find? hm, at?, at?, member?_object, member?_object]
          by_cases hnext : next = step
          · subst hnext
            rw [Members.find?_insert_self, hm, Option.bind_some, Option.bind_some, ih h.tail]
          · rw [Members.find?_insert_ne hnext]
      | _ => rfl

/-- Objects stay objects, except at the place that is erased and below it. -/
theorem isObjectAt_eraseAt {key : String} {path p : List String} (h : ¬path ++ [key] <+: p)
    {v : Value} (hv : v.isObjectAt p = true) : (eraseAt key path v).isObjectAt p = true := by
  induction path generalizing p v with
  | nil =>
    cases v with
    | object ms =>
      cases p with
      | nil => rfl
      | cons step p =>
        have hstep : step ≠ key := by
          rintro rfl
          exact h (List.cons_prefix_cons.2 ⟨rfl, List.nil_prefix⟩)
        rw [isObjectAt, at?, member?_object] at hv
        rw [eraseAt, isObjectAt, at?, member?_object, Members.find?_erase_ne hstep]
        exact hv
    | _ => exact hv
  | cons step path ih =>
    cases v with
    | object ms =>
      cases hm : Members.find? step ms with
      | none => rwa [eraseAt_cons_of_find?_none hm]
      | some u =>
        rw [eraseAt_cons_of_find? hm]
        cases p with
        | nil => rfl
        | cons next p =>
          rw [isObjectAt, at?, member?_object] at hv ⊢
          by_cases hnext : next = step
          · subst hnext
            rw [hm] at hv
            rw [Members.find?_insert_self]
            exact ih (fun hp => h (List.cons_prefix_cons.2 ⟨rfl, hp⟩)) hv
          · rw [Members.find?_insert_ne hnext]
            exact hv
    | _ => exact hv

/-- Erasing what is not there changes nothing. -/
theorem eraseAt_eq_self {key : String} {path : List String} {v : Value} (hv : v.Ordered)
    (h : v.at? (path ++ [key]) = none) : eraseAt key path v = v := by
  induction path generalizing v with
  | nil =>
    cases v with
    | object ms =>
      have hm : Members.find? key ms = none := by simpa [at?, member?_object] using h
      rw [eraseAt, Members.erase_eq_self hm]
    | _ => rfl
  | cons step path ih =>
    cases hv with
    | @object ms increasing hall =>
      cases hm : Members.find? step ms with
      | none => rw [eraseAt_cons_of_find?_none hm]
      | some u =>
        rw [List.cons_append, at?, member?_object, hm, Option.bind_some] at h
        rw [eraseAt_cons_of_find? hm, ih (hall _ (Members.mem_of_find? hm)) h,
          Members.insert_eq_self increasing hm]
    | _ => rfl

/-! ## Changes at some places only -/

/-- Holds of two values that differ at some places at most: what is apart from all of them stays,
and what is an object stays one unless it stands at or below one of them. -/
structure ChangesOnly (places : List (List String)) (v w : Value) : Prop where
  lookup : ∀ p, (∀ q ∈ places, Apart p q) → w.at? p = v.at? p
  object : ∀ p, (∀ q ∈ places, ¬q <+: p) → v.isObjectAt p = true → w.isObjectAt p = true

theorem ChangesOnly.refl (places : List (List String)) (v : Value) : ChangesOnly places v v :=
  ⟨fun _ _ => rfl, fun _ _ h => h⟩

/-- Two changes at the same places, one after the other, are changes at these places. -/
theorem ChangesOnly.trans {places : List (List String)} {u v w : Value}
    (h : ChangesOnly places u v) (h' : ChangesOnly places v w) : ChangesOnly places u w where
  lookup := fun p hp => (h'.lookup p hp).trans (h.lookup p hp)
  object := fun p hp hu => h'.object p hp (h.object p hp hu)

theorem ChangesOnly.mono {places more : List (List String)} {v w : Value}
    (h : ChangesOnly places v w) (hsub : ∀ q ∈ places, q ∈ more) : ChangesOnly more v w where
  lookup := fun p hp => h.lookup p fun q hq => hp q (hsub q hq)
  object := fun p hp => h.object p fun q hq => hp q (hsub q hq)

/-- Writing changes the written place only. -/
theorem changesOnly_amend (g : Option Value → Value) (path : List String) (v : Value) :
    ChangesOnly [path] v (amend g path (some v)) where
  lookup := fun _ hp => at?_amend_of_apart g (hp path List.mem_cons_self) (some v)
  object := fun _ hp hv => isObjectAt_amend g (hp path List.mem_cons_self) hv

/-- Erasing changes the erased place only. -/
theorem changesOnly_eraseAt (key : String) (path : List String) (v : Value) :
    ChangesOnly [path ++ [key]] v (eraseAt key path v) where
  lookup := fun _ hp => at?_eraseAt_of_apart (hp _ List.mem_cons_self) v
  object := fun _ hp hv => isObjectAt_eraseAt (hp _ List.mem_cons_self) hv

end Value
end LoginSettings
