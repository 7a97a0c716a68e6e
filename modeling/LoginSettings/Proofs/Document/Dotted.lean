import LoginSettings.Document
import LoginSettings.Proofs.Document.InOrder
import LoginSettings.Proofs.Document.Lookup
import LoginSettings.Proofs.Text.Splitting

/-!
# Dotted paths

A path whose keys are joined by dots leads through objects from the root of a document, one key
after another. Keys may be empty, so that every text is such a path, and a dot in front, at the end
or behind another one means a key without characters. Only what stands under a key with a dot in it
cannot be reached by such a path.

* `Leads`, `Stops` — the way that a path takes through a value, member by member
* `at?_eq_some_iff`, `at?_eq_none_iff` — a lookup goes this way to its end, or has no result
* `get_dotted` — dotted paths do the same, one part of them after another
-/

namespace LoginSettings

namespace Value

/-- Holds of a path, a value and what the path leads to from there: each key in turn is that of a
member of an object. -/
inductive Leads : List String → Value → Value → Prop where
  | here (v : Value) : Leads [] v v
  | member {key : String} {path : List String} {ms : List (String × Value)} {v w : Value}
      (mem : (key, v) ∈ ms) (rest : Leads path v w) : Leads (key :: path) (object ms) w

/-- Holds of a path that comes to an end before its last key, at a value that is no object or has no
member with the next key. -/
inductive Stops : List String → Value → Prop where
  | noObject {key : String} {path : List String} {v : Value} (h : v.isObject = false) :
      Stops (key :: path) v
  | noMember {key : String} {path : List String} {ms : List (String × Value)}
      (h : ∀ v, (key, v) ∉ ms) : Stops (key :: path) (object ms)
  | member {key : String} {path : List String} {ms : List (String × Value)} {v : Value}
      (mem : (key, v) ∈ ms) (rest : Stops path v) : Stops (key :: path) (object ms)

variable {path : List String} {v w : Value}

/-- **A lookup gives what the path leads to.** -/
theorem at?_eq_some_iff (hv : v.Ordered) : v.at? path = some w ↔ Leads path v w := by
  induction path generalizing v with
  | nil =>
    rw [at?, Option.some.injEq]
    constructor
    · rintro rfl
      exact .here v
    · intro h
      cases h
      rfl
  | cons key path ih =>
    rw [at?, Option.bind_eq_some_iff]
    cases hv with
    | @object ms increasing hall =>
      simp only [member?_object, Members.find?_eq_some_iff increasing]
      constructor
      · rintro ⟨u, hu, hw⟩
        exact .member hu ((ih (hall _ hu)).1 hw)
      · intro h
        cases h with
        | member hu hrest => exact ⟨_, hu, (ih (hall _ hu)).2 hrest⟩
    | _ =>
      constructor
      · rintro ⟨u, hu, -⟩
        cases hu
      · intro h
        cases h

/-- **A lookup has no result where the path stops.** -/
theorem at?_eq_none_iff (hv : v.Ordered) : v.at? path = none ↔ Stops path v := by
  induction path generalizing v with
  | nil =>
    constructor
    · intro h
      cases h
    · intro h
      cases h
  | cons key path ih =>
    cases hv with
    | @object ms increasing hall =>
      cases hu : Members.find? key ms with
      | none =>
        have hno : ∀ v, (key, v) ∉ ms := by
          intro v hv
          rw [(Members.find?_eq_some_iff increasing).2 hv] at hu
          cases hu
        rw [at?, member?_object, hu]
        exact iff_of_true rfl (.noMember hno)
      | some u =>
        have hmem : (key, u) ∈ ms := Members.mem_of_find? hu
        rw [at?_cons_of_find? hu, ih (hall _ hmem)]
        constructor
        · exact .member hmem
        · intro h
          cases h with
          | noObject hobject => cases hobject
          | noMember hno => exact absurd hmem (hno u)
          | member hother hrest =>
            rw [(Members.find?_eq_some_iff increasing).2 hother] at hu
            cases hu
            exact hrest
    | _ => exact iff_of_true rfl (.noObject rfl)

end Value

namespace Document

/-- **A dotted path is followed key by key.** The keys are its parts between the dots, which may be
empty, and the rest of a path is looked up in what its front part leads to. -/
theorem get_dotted (d : Document) :
    (∀ keys : List String, keys ≠ [] → (∀ key ∈ keys, '.' ∉ key.toList) →
      (∀ v, d.get (".".intercalate keys) = some v ↔ Value.Leads keys d.root v)
      ∧ (d.get (".".intercalate keys) = none ↔ Value.Stops keys d.root))
    ∧ ∀ p q : String, d.get (p ++ "." ++ q) = (d.get p).bind fun v => (ofValue v).get q := by
  constructor
  · intro keys hne hfree
    have hsplit : Text.split '.' (".".intercalate keys) = keys := Text.split_intercalate hne hfree
    rw [get, hsplit]
    exact ⟨fun v => Value.at?_eq_some_iff d.ordered, Value.at?_eq_none_iff d.ordered⟩
  · intro p q
    have hsplit : Text.split '.' (p ++ "." ++ q) = Text.split '.' p ++ Text.split '.' q :=
      Text.split_append '.' p q
    rw [get, hsplit, Value.at?_append, get]
    cases hp : d.root.at? (Text.split '.' p) with
    | none => rfl
    | some v =>
      have hv : (ofValue v).root = v := Value.inOrder_eq_self (d.ordered.at hp)
      rw [Option.bind_some, Option.bind_some, get, hv]

/-- Keys without characters at both ends of a path, and a path that goes on into an array. -/
theorem get_dotted_empty_keys :
    let d := ofValue (.object
      [("", .object [("a", .object [("", .bool true)]), ("b", .array [.null])])])
    d.get ".a." = some (.bool true)
    ∧ Value.Leads ["", "a", ""] d.root (.bool true)
    ∧ (d.get ".a").bind (fun v => (ofValue v).get "") = some (.bool true)
    ∧ d.get ".b.0" = none
    ∧ Value.Stops ["", "b", "0"] d.root := by
  intro d
  obtain ⟨hkeys, happend⟩ := get_dotted d
  have hfound : d.get ".a." = some (.bool true) := by decide
  have hmissing : d.get ".b.0" = none := by decide
  refine ⟨hfound, ?_, ?_, hmissing, ?_⟩
  · exact ((hkeys ["", "a", ""] (by decide) (by decide)).1 _).1 hfound
  · exact (happend ".a" "").symm.trans hfound
  · exact (hkeys ["", "b", "0"] (by decide) (by decide)).2.1 hmissing

end Document
end LoginSettings
