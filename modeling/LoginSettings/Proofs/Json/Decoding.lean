import LoginSettings.Document.Order
import LoginSettings.Json.Decode

/-!
# Decoding what has been read

A decoder succeeds on a node as soon as the node stands for the right value, wherever the node comes
from: what it meets on the way is known from the value alone.

* `cases_of_value` — what a node is that stands for a value
* `decodeBool_of_value`, `decodeString_of_value`, `decodeList_of_value` — simple data
* `fields_of_value` — records, whatever the order of their members
-/

namespace LoginSettings.Json

namespace Node

variable {n : Node}

/-! ## Nodes that stand for a value -/

theorem bind_eq_ok_iff {ε α β : Type} {x : Except ε α} {f : α → Except ε β} {b : β} :
    x >>= f = .ok b ↔ ∃ a, x = .ok a ∧ f a = .ok b := by
  cases x <;> simp [bind, Except.bind]

theorem noDamage_eq_ok_iff {damage : Option Damage} {u : Unit} :
    noDamage damage = .ok u ↔ damage = none := by
  cases damage <;> simp [noDamage]

/-- The scalar of the nodes that stand for a value, which for arrays and objects there is not. -/
def scalarOf? : Value → Option Scalar
  | .null => some .null
  | .bool b => some (.bool b)
  | .number x => some (.number (.ok x))
  | .string s => some (.string (.ok s))
  | .array _ => none
  | .object _ => none

theorem scalarOf?_of_value {extent : Option Extent} {s : Scalar} {v : Value}
    (h : (scalar extent s).value = .ok v) : scalarOf? v = some s := by
  cases s with
  | null =>
    cases h
    rfl
  | bool b =>
    cases h
    rfl
  | number x =>
    cases x <;> cases h
    rfl
  | string x =>
    cases x <;> cases h
    rfl

/-- A node that stands for a value is the scalar of it, or an array or an object without damage that
is not nested too deep. -/
theorem cases_of_value {v : Value} (h : n.value = .ok v) :
    (∃ extent s, n = .scalar extent s ∧ scalarOf? v = some s) ∨
    (∃ extent tooDeep nodes items, n = .array extent tooDeep nodes none ∧
      notTooDeep tooDeep extent = .ok () ∧ itemValues nodes = .ok items ∧ v = .array items) ∨
    ∃ extent tooDeep inside nodes members, n = .object extent tooDeep inside nodes none ∧
      notTooDeep tooDeep extent = .ok () ∧ memberValues nodes = .ok members ∧
      v = .object members := by
  cases n with
  | scalar extent s => exact .inl ⟨extent, s, rfl, scalarOf?_of_value h⟩
  | array extent tooDeep nodes damage =>
    simp only [value, bind_eq_ok_iff, noDamage_eq_ok_iff] at h
    obtain ⟨⟨⟩, hdepth, items, hitems, -, rfl, hv⟩ := h
    cases hv
    exact .inr (.inl ⟨extent, tooDeep, nodes, items, rfl, hdepth, hitems, rfl⟩)
  | object extent tooDeep inside nodes damage =>
    simp only [value, bind_eq_ok_iff, noDamage_eq_ok_iff] at h
    obtain ⟨⟨⟩, hdepth, members, hmembers, -, rfl, hv⟩ := h
    cases hv
    exact .inr (.inr ⟨extent, tooDeep, inside, nodes, members, rfl, hdepth, hmembers, rfl⟩)
  | broken start stands damage => cases h

/-- A node that stands for a scalar value is that scalar. -/
theorem eq_scalar_of_value {v : Value} {s : Scalar} (h : n.value = .ok v)
    (hs : scalarOf? v = some s) : ∃ extent, n = .scalar extent s := by
  obtain ⟨extent, s', rfl, hs'⟩ | ⟨_, _, _, _, _, _, _, rfl⟩ | ⟨_, _, _, _, _, _, _, _, rfl⟩ :=
    cases_of_value h
  · rw [hs] at hs'
    cases hs'
    exact ⟨extent, rfl⟩
  · cases hs
  · cases hs

/-- A node that stands for an array is an array without damage. -/
theorem eq_array_of_value {items : List Value} (h : n.value = .ok (.array items)) :
    ∃ extent tooDeep nodes, n = .array extent tooDeep nodes none ∧
      notTooDeep tooDeep extent = .ok () ∧ itemValues nodes = .ok items := by
  obtain ⟨_, _, _, hs⟩ | ⟨_, _, _, _, rfl, hdepth, hitems, ⟨⟩⟩ | ⟨_, _, _, _, _, _, _, _, hv⟩ :=
    cases_of_value h
  · cases hs
  · exact ⟨_, _, _, rfl, hdepth, hitems⟩
  · cases hv

/-- A node that stands for an object is an object without damage. -/
theorem eq_object_of_value {members : List (String × Value)} (h : n.value = .ok (.object members)) :
    ∃ extent tooDeep inside nodes, n = .object extent tooDeep inside nodes none ∧
      notTooDeep tooDeep extent = .ok () ∧ memberValues nodes = .ok members := by
  obtain ⟨_, _, _, hs⟩ | ⟨_, _, _, _, _, _, _, hv⟩ | ⟨_, _, _, _, _, rfl, hdepth, hmembers, ⟨⟩⟩ :=
    cases_of_value h
  · cases hs
  · cases hv
  · exact ⟨_, _, _, _, rfl, hdepth, hmembers⟩

/-! ## Simple data -/

theorem decodeBool_of_value {b : Bool} (h : n.value = .ok (.bool b)) : n.decodeBool = .ok b := by
  obtain ⟨extent, rfl⟩ := eq_scalar_of_value h rfl
  rfl

theorem decodeString_of_value {s : String} (h : n.value = .ok (.string s)) :
    n.decodeString = .ok s := by
  obtain ⟨extent, rfl⟩ := eq_scalar_of_value h rfl
  rfl

section

variable {α : Type} {decode : Node → Decoded α} {encode : α → Value}
  (hdecode : ∀ {n a}, n.value = .ok (encode a) → decode n = .ok a)

include hdecode

/-- Items are decoded one by one. -/
theorem decodeItems_of_values {nodes : List Node} {as : List α}
    (h : itemValues nodes = .ok (as.map encode)) : decodeItems decode nodes = .ok as := by
  induction nodes generalizing as with
  | nil =>
    cases as with
    | nil => rfl
    | cons a as => cases h
  | cons n nodes ih =>
    simp only [itemValues, bind_eq_ok_iff] at h
    obtain ⟨v, hv, vs, hvs, hcons⟩ := h
    cases as with
    | nil => cases hcons
    | cons a as =>
      cases hcons
      rw [decodeItems, hdecode hv, ih hvs]
      rfl

/-- The list of what is decoded item by item. -/
theorem decodeList_of_value {as : List α} (h : n.value = .ok (.array (as.map encode))) :
    n.decodeList decode = .ok as := by
  obtain ⟨extent, tooDeep, nodes, rfl, hdepth, hitems⟩ := eq_array_of_value h
  rw [decodeList, hdepth, decodeItems_of_values hdecode hitems]
  rfl

end

/-! ## Records -/

theorem find?_append_singleton {α : Type} (key name : String) (members : List (String × α))
    (a : α) : Members.find? key (members ++ [(name, a)])
      = (Members.find? key members).or (if key = name then some a else none) := by
  induction members with
  | nil => rfl
  | cons m ms ih =>
    obtain ⟨k, b⟩ := m
    by_cases hk : key = k
    · simp [Members.find?, hk]
    · simpa [Members.find?, hk] using ih

/-- Members of an object with known and distinct keys, whose values pass their checks, are all
found. -/
theorem knownMembers_of_values {shapes : List FieldShape} (met : List (String × Node))
    {nodes : List (Key × Node)} {members : List (String × Value)}
    (h : memberValues nodes = .ok members) (hkeys : (members.map (·.1)).Nodup)
    (hfresh : ∀ m ∈ members, Members.find? m.1 met = none)
    (hknown : ∀ m ∈ members, ∃ shape, shapes.find? (fun s => s.name = m.1) = some shape ∧
      ∀ node : Node, node.value = .ok m.2 → shape.check node = .ok ()) :
    ∃ found, knownMembers shapes met nodes = .ok found ∧
      (∀ key node, Members.find? key met = some node → Members.find? key found = some node) ∧
      ∀ m ∈ members, ∃ node, Members.find? m.1 found = some node ∧ node.value = .ok m.2 := by
  induction nodes generalizing met members with
  | nil =>
    cases h
    exact ⟨met, rfl, fun _ _ h => h, by simp⟩
  | cons entry nodes ih =>
    obtain ⟨key, n⟩ := entry
    simp only [memberValues, bind_eq_ok_iff] at h
    obtain ⟨name, hname, v, hv, rest, hrest, hcons⟩ := h
    cases hcons
    obtain ⟨⟨shape, hshape, hcheck⟩, hknown⟩ := List.forall_mem_cons.1 hknown
    obtain ⟨hmet, hfresh⟩ := List.forall_mem_cons.1 hfresh
    rw [List.map_cons, List.nodup_cons] at hkeys
    have hfresh' : ∀ m ∈ rest, Members.find? m.1 (met ++ [(name, n)]) = none := by
      intro m hm
      have hne : m.1 ≠ name := by
        intro heq
        exact hkeys.1 (List.mem_map.2 ⟨m, hm, heq⟩)
      rw [find?_append_singleton, hfresh m hm, if_neg hne]
      rfl
    obtain ⟨found, hfound, hkept, hmembers⟩ := ih _ hrest hkeys.2 hfresh' hknown
    have hhead : Members.find? name found = some n := by
      refine hkept name n ?_
      rw [find?_append_singleton, hmet, if_pos rfl]
      rfl
    refine ⟨found, ?_, fun key' node hnode => hkept key' node ?_, ?_⟩
    · rw [knownMembers, hname]
      simp only [ofReading, bind, Except.bind, hshape, hmet, hcheck n hv, Option.isSome_none]
      exact hfound
    · rw [find?_append_singleton, hnode]
      rfl
    · intro m hm
      rcases List.mem_cons.1 hm with rfl | hm
      · exact ⟨n, hhead, hv⟩
      · exact hmembers m hm

/-- **The fields of an object with known members are its members**, whatever their order. -/
theorem fields_of_value (title : String) (shapes : List FieldShape)
    {members : List (String × Value)} (h : n.value = .ok (.object members))
    (hkeys : (members.map (·.1)).Nodup)
    (hknown : ∀ m ∈ members, ∃ shape, shapes.find? (fun s => s.name = m.1) = some shape ∧
      ∀ node : Node, node.value = .ok m.2 → shape.check node = .ok ()) :
    ∃ fs, n.fields title shapes = .ok fs ∧
      ∀ m ∈ members, ∃ node, Members.find? m.1 fs.nodes = some node ∧ node.value = .ok m.2 := by
  obtain ⟨extent, tooDeep, inside, nodes, rfl, hdepth, hmembers⟩ := eq_object_of_value h
  obtain ⟨found, hfound, -, hfind⟩ := knownMembers_of_values [] hmembers hkeys
    (fun _ _ => rfl) hknown
  refine ⟨⟨found, extent.map Extent.stop⟩, ?_, hfind⟩
  rw [fields, hdepth, hfound]
  rfl

end Node
end LoginSettings.Json
