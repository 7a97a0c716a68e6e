import LoginSettings.Document.Order

/-!
# Edits of values

Two ways of changing a value along a path of keys. Writing makes an object of whatever stands on the
path; erasing goes only through objects that are there and makes none. Both keep values in order.
-/

namespace LoginSettings.Value

/-- The members of an object; other values have none. -/
def members : Value → List (String × Value)
  | object ms => ms
  | _ => []

/-- The value with the members changed of what stands at a path; what is not an object there or on
the way becomes one. -/
def updateAt (f : List (String × Value) → List (String × Value)) : List String → Value → Value
  | [], v => object (f v.members)
  | key :: path, v =>
    object (Members.insert key (updateAt f path ((v.member? key).getD null)) v.members)

/-- The value without the member `key` of the object at a path, if objects lead there. -/
def eraseAt (key : String) : List String → Value → Value
  | [], object ms => object (Members.erase key ms)
  | step :: path, object ms =>
    match Members.find? step ms with
    | some v => object (Members.insert step (eraseAt key path v) ms)
    | none => object ms
  | _, v => v

/-! ## Order -/

/-- The members of a value in order are in order, and so are their values. -/
theorem Ordered.members {v : Value} (h : v.Ordered) :
    Members.Increasing v.members ∧ ∀ m ∈ v.members, Ordered m.2 := by
  cases h with
  | object increasing h => exact ⟨increasing, h⟩
  | _ => exact ⟨List.Pairwise.nil, by simp [Value.members]⟩

/-- Holds of changes that keep members in order. -/
def KeepsOrder (f : List (String × Value) → List (String × Value)) : Prop :=
  ∀ ms, Members.Increasing ms → (∀ m ∈ ms, Ordered m.2) →
    Members.Increasing (f ms) ∧ ∀ m ∈ f ms, Ordered m.2

/-- Members stay in order when one is inserted. -/
theorem Ordered.insert {ms : List (String × Value)} (increasing : Members.Increasing ms)
    (h : ∀ m ∈ ms, Ordered m.2) (key : String) {v : Value} (hv : v.Ordered) :
    Members.Increasing (Members.insert key v ms)
      ∧ ∀ m ∈ Members.insert key v ms, Ordered m.2 := by
  refine ⟨Members.increasing_insert increasing key v, fun m hm => ?_⟩
  rcases Members.mem_insert hm with rfl | hm
  · exact hv
  · exact h m hm

/-- Members stay in order when one is erased. -/
theorem Ordered.erase {ms : List (String × Value)} (increasing : Members.Increasing ms)
    (h : ∀ m ∈ ms, Ordered m.2) (key : String) :
    Members.Increasing (Members.erase key ms) ∧ ∀ m ∈ Members.erase key ms, Ordered m.2 :=
  ⟨Members.increasing_erase increasing key, fun m hm => h m (List.mem_filter.1 hm).1⟩

theorem keepsOrder_insert (key : String) {v : Value} (hv : v.Ordered) :
    KeepsOrder (Members.insert key v) :=
  fun _ increasing h => Ordered.insert increasing h key hv

/-- A change that keeps members in order may be made at any path. -/
theorem Ordered.updateAt {f : List (String × Value) → List (String × Value)} (hf : KeepsOrder f)
    {path : List String} {v : Value} (hv : v.Ordered) : (updateAt f path v).Ordered := by
  induction path generalizing v with
  | nil =>
    obtain ⟨increasing, h⟩ := hf _ hv.members.1 hv.members.2
    exact .object increasing h
  | cons key path ih =>
    have hchild : ((v.member? key).getD Value.null).Ordered := by
      cases h : v.member? key with
      | none => exact .null
      | some w => exact hv.member h
    obtain ⟨increasing, h⟩ := Ordered.insert hv.members.1 hv.members.2 key (ih hchild)
    exact .object increasing h

/-- A value stays in order when a member is erased somewhere in it. -/
theorem Ordered.eraseAt {key : String} {path : List String} {v : Value} (hv : v.Ordered) :
    (eraseAt key path v).Ordered := by
  induction path generalizing v with
  | nil =>
    cases hv with
    | object increasing h =>
      obtain ⟨increasing, h⟩ := Ordered.erase increasing h key
      exact .object increasing h
    | null => exact .null
    | bool b => exact .bool b
    | number n => exact .number n
    | string s => exact .string s
    | array h => exact .array h
  | cons step path ih =>
    cases hv with
    | object increasing h =>
      simp only [Value.eraseAt]
      split
      · rename_i w hw
        obtain ⟨increasing, h⟩ :=
          Ordered.insert increasing h step (ih (h _ (Members.mem_of_find? hw)))
        exact .object increasing h
      · exact .object increasing h
    | null => exact .null
    | bool b => exact .bool b
    | number n => exact .number n
    | string s => exact .string s
    | array h => exact .array h

end LoginSettings.Value
