import LoginSettings.Proofs.Document.InOrder
import LoginSettings.Proofs.Json.Decoding
import Mathlib.Data.List.Nodup

/-!
# Records decoded from memory

What decoding a record comes to where the record is an object in memory: it succeeds exactly if its
known members pass their checks and none is missing, whatever other members there are.

* `fields_ofValue_ok_iff` — when the fields of an object are found
* `required_of_fields`, `optional_of_fields` — what each of them is decoded as
-/

namespace LoginSettings

namespace Json.Node

variable {shapes : List FieldShape} {ms : List (String × Value)} {met found : List (String × Node)}
  {name title : String}

/-! ## Unknown members -/

mutual

/-- Nothing is wrong with the form of a value in memory. -/
theorem passOver_ofValue : (v : Value) → (ofValue v).passOver = .ok ()
  | .null | .bool _ | .number _ | .string _ => rfl
  | .array items => by
    rw [ofValue, passOver, passOverItems_ofItems items]
    rfl
  | .object members => by
    rw [ofValue, passOver, passOverMembers_ofMembers members]
    rfl

theorem passOverItems_ofItems : (vs : List Value) → passOverItems (ofItems vs) = .ok ()
  | [] => rfl
  | v :: vs => by
    rw [ofItems, passOverItems, passOver_ofValue v]
    exact passOverItems_ofItems vs

theorem passOverMembers_ofMembers : (ms : List (String × Value)) →
    passOverMembers (ofMembers ms) = .ok ()
  | [] => rfl
  | (_, v) :: ms => by
    rw [ofMembers, passOverMembers, passOver_ofValue v]
    exact passOverMembers_ofMembers ms

end

/-! ## Known members -/

/-- Holds of members that are unknown or pass their check. -/
def Passes (shapes : List FieldShape) (m : String × Value) : Prop :=
  ∀ shape, shapes.find? (fun s => s.name = m.1) = some shape → shape.check (ofValue m.2) = .ok ()

/-- A member that is not known is passed over. -/
theorem knownMembers_cons_of_unknown {key : String} (v : Value)
    (h : shapes.find? (fun s => s.name = key) = none) :
    knownMembers shapes met (ofMembers ((key, v) :: ms))
      = knownMembers shapes met (ofMembers ms) := by
  rw [ofMembers, knownMembers]
  simp only [ofReading, bind, Except.bind, h, passOver_ofValue]

/-- A member that is known is checked and kept. -/
theorem knownMembers_cons_of_known {key : String} {shape : FieldShape} (v : Value)
    (h : shapes.find? (fun s => s.name = key) = some shape)
    (hfresh : Members.find? key met = none) :
    knownMembers shapes met (ofMembers ((key, v) :: ms)) = (shape.check (ofValue v) >>= fun _ =>
      knownMembers shapes (met ++ [(key, ofValue v)]) (ofMembers ms)) := by
  rw [ofMembers, knownMembers]
  simp only [ofReading, bind, Except.bind, h, hfresh]
  rfl

theorem fresh_append {key : String} {n : Node} (hkey : key ∉ ms.map (·.1))
    (hfresh : ∀ m ∈ ms, Members.find? m.1 met = none) :
    ∀ m ∈ ms, Members.find? m.1 (met ++ [(key, n)]) = none := by
  intro m hm
  have hne : m.1 ≠ key := by
    intro heq
    exact hkey (List.mem_map.2 ⟨m, hm, heq⟩)
  rw [find?_append_singleton, hfresh m hm, if_neg hne]
  rfl

/-- The members of an object are accepted if each of the known ones passes its check. -/
theorem knownMembers_ofMembers_ok_iff (hkeys : (ms.map (·.1)).Nodup)
    (hfresh : ∀ m ∈ ms, Members.find? m.1 met = none) :
    (∃ found, knownMembers shapes met (ofMembers ms) = .ok found) ↔ ∀ m ∈ ms, Passes shapes m := by
  induction ms generalizing met with
  | nil => simp [ofMembers, knownMembers]
  | cons m ms ih =>
    obtain ⟨key, v⟩ := m
    rw [List.map_cons, List.nodup_cons] at hkeys
    obtain ⟨hmet, hfresh⟩ := List.forall_mem_cons.1 hfresh
    rw [List.forall_mem_cons]
    cases h : shapes.find? (fun s => s.name = key) with
    | none =>
      have hpasses : Passes shapes (key, v) := by simp [Passes, h]
      rw [knownMembers_cons_of_unknown v h, ih hkeys.2 hfresh]
      simp [hpasses]
    | some shape =>
      have hpasses : Passes shapes (key, v) ↔ shape.check (ofValue v) = .ok () := by
        simp [Passes, h]
      have hrest := ih hkeys.2 (fresh_append (n := ofValue v) hkeys.1 hfresh)
      simp only [knownMembers_cons_of_known v h hmet, bind_eq_ok_iff]
      rw [hpasses, ← hrest]
      constructor
      · rintro ⟨found, ⟨⟩, hcheck, hfound⟩
        exact ⟨hcheck, found, hfound⟩
      · rintro ⟨hcheck, found, hfound⟩
        exact ⟨found, (), hcheck, hfound⟩

/-- What is found under a known name is the member with this name. -/
theorem find?_of_knownMembers (hkeys : (ms.map (·.1)).Nodup)
    (hfresh : ∀ m ∈ ms, Members.find? m.1 met = none)
    (h : knownMembers shapes met (ofMembers ms) = .ok found)
    (hname : (shapes.find? fun s => s.name = name).isSome) :
    Members.find? name found
      = (Members.find? name met).or ((Members.find? name ms).map ofValue) := by
  induction ms generalizing met with
  | nil =>
    cases h
    simp
  | cons m ms ih =>
    obtain ⟨key, v⟩ := m
    rw [List.map_cons, List.nodup_cons] at hkeys
    obtain ⟨hmet, hfresh⟩ := List.forall_mem_cons.1 hfresh
    cases hkey : shapes.find? (fun s => s.name = key) with
    | none =>
      have hne : name ≠ key := by
        rintro rfl
        simp [hkey] at hname
      rw [knownMembers_cons_of_unknown v hkey] at h
      rw [ih hkeys.2 hfresh h]
      simp [Members.find?, hne]
    | some shape =>
      rw [knownMembers_cons_of_known v hkey hmet, bind_eq_ok_iff] at h
      obtain ⟨⟨⟩, -, h⟩ := h
      rw [ih hkeys.2 (fresh_append hkeys.1 hfresh) h, find?_append_singleton]
      by_cases hne : name = key
      · subst hne
        simp [hmet, Members.find?]
      · simp [Members.find?, hne]

/-- The members of an object pass their checks exactly if what is found under each known name
does. -/
theorem forall_passes_iff (hkeys : (ms.map (·.1)).Nodup)
    (hnames : (shapes.map FieldShape.name).Nodup) :
    (∀ m ∈ ms, Passes shapes m) ↔ ∀ shape ∈ shapes, ∀ w,
      Members.find? shape.name ms = some w → shape.check (ofValue w) = .ok () := by
  constructor
  · intro h shape hshape w hw
    refine h _ (Members.mem_of_find? hw) shape ?_
    obtain ⟨other, hother⟩ : ∃ other, shapes.find? (fun s => s.name = shape.name) = some other := by
      rw [← Option.isSome_iff_exists, List.find?_isSome]
      exact ⟨shape, hshape, by simp⟩
    have hname : other.name = shape.name := by simpa using List.find?_some hother
    rw [hother, List.inj_on_of_nodup_map hnames (List.mem_of_find?_eq_some hother) hshape hname]
  · intro h m hm shape hshape
    have hname : shape.name = m.1 := by simpa using List.find?_some hshape
    refine h shape (List.mem_of_find?_eq_some hshape) m.2 ?_
    rw [hname]
    exact Members.find?_of_mem hkeys hm

/-- **The fields of an object in memory are found exactly if its known members pass their
checks.** -/
theorem fields_ofValue_ok_iff (title : String) (shapes : List FieldShape)
    (hkeys : (ms.map (·.1)).Nodup) (hnames : (shapes.map FieldShape.name).Nodup) :
    (∃ fs, (ofValue (.object ms)).fields title shapes = .ok fs) ↔ ∀ shape ∈ shapes, ∀ w,
      Members.find? shape.name ms = some w → shape.check (ofValue w) = .ok () := by
  have hknown : (∃ found, knownMembers shapes [] (ofMembers ms) = .ok found) ↔
      ∀ m ∈ ms, Passes shapes m := knownMembers_ofMembers_ok_iff hkeys fun _ _ => rfl
  rw [← forall_passes_iff hkeys hnames, ← hknown, ofValue]
  simp only [fields, notTooDeep, ofReading, noDamage, bind_eq_ok_iff]
  constructor
  · rintro ⟨fs, -, -, found, hfound, -⟩
    exact ⟨found, hfound⟩
  · rintro ⟨found, hfound⟩
    exact ⟨⟨found, none⟩, (), trivial, found, hfound, (), trivial, rfl⟩

/-- A known field is the member of its name, if there is one. -/
theorem find?_of_fields (hkeys : (ms.map (·.1)).Nodup) {fs : Fields}
    (h : (ofValue (.object ms)).fields title shapes = .ok fs)
    (hname : name ∈ shapes.map FieldShape.name) :
    Members.find? name fs.nodes = (Members.find? name ms).map ofValue := by
  have hsome : (shapes.find? fun s => s.name = name).isSome := by
    obtain ⟨shape, hshape, rfl⟩ := List.mem_map.1 hname
    exact List.find?_isSome.2 ⟨shape, hshape, by simp⟩
  rw [ofValue] at h
  simp only [fields, notTooDeep, ofReading, noDamage, bind_eq_ok_iff] at h
  obtain ⟨-, -, found, hfound, -, -, hfs⟩ := h
  cases hfs
  exact find?_of_knownMembers hkeys (fun _ _ => rfl) hfound hsome

/-! ## Single fields -/

variable {α : Type} {decode : Node → Decoded α} {fs : Fields}

/-- A field passes its check if it can be decoded. -/
theorem check_field_eq_ok_iff (name : String) (n : Node) :
    (field name decode).check n = .ok () ↔ ∃ a, decode n = .ok a := by
  cases h : decode n <;> simp [field, h, Except.map]

theorem check_optionalField_eq_ok_iff (name : String) (n : Node) :
    (optionalField name decode).check n = .ok () ↔ ∃ a, decode n = .ok a :=
  check_field_eq_ok_iff name n

/-- Holds of members among which there is one with the name, whose value is decoded as `a`. -/
def MemberDecodes (decode : Node → Decoded α) (name : String) (ms : List (String × Value)) (a : α) :
    Prop :=
  ∃ w, Members.find? name ms = some w ∧ decode (ofValue w) = .ok a

theorem MemberDecodes.exists_ok {a : α} (h : MemberDecodes decode name ms a) {w : Value}
    (hw : Members.find? name ms = some w) : ∃ a, decode (ofValue w) = .ok a := by
  obtain ⟨w', hw', ha⟩ := h
  rw [hw] at hw'
  cases hw'
  exact ⟨a, ha⟩

/-- What a member that is there is decoded to. -/
theorem memberDecodes_of_find? {a : α} {w : Value} (h : Members.find? name ms = some w) :
    MemberDecodes decode name ms a ↔ decode (ofValue w) = .ok a := by
  simp [MemberDecodes, h]

/-- Holds of members among which there is none with the name, and nothing is decoded, or one whose
value is decoded as `a`. -/
def OptionDecodes (decode : Node → Decoded α) (name : String) (ms : List (String × Value))
    (a : Option α) : Prop :=
  (Members.find? name ms = none ∧ a = none) ∨ MemberDecodes (decodeOption decode) name ms a

theorem OptionDecodes.exists_ok {a : Option α} (h : OptionDecodes decode name ms a) {w : Value}
    (hw : Members.find? name ms = some w) : ∃ a, decodeOption decode (ofValue w) = .ok a := by
  rcases h with ⟨hnone, -⟩ | h
  · rw [hw] at hnone
    cases hnone
  · exact h.exists_ok hw

/-- A field that may not be missing is decoded from its member. -/
theorem required_of_fields {a : α} (hkeys : (ms.map (·.1)).Nodup)
    (h : (ofValue (.object ms)).fields title shapes = .ok fs)
    (hname : name ∈ shapes.map FieldShape.name) :
    fs.required name decode = .ok a ↔ MemberDecodes decode name ms a := by
  rw [Fields.required, find?_of_fields hkeys h hname, MemberDecodes]
  cases Members.find? name ms <;> simp

/-- A field that may be missing is decoded from its member if there is one. -/
theorem optional_of_fields {a : Option α} (hkeys : (ms.map (·.1)).Nodup)
    (h : (ofValue (.object ms)).fields title shapes = .ok fs)
    (hname : name ∈ shapes.map FieldShape.name) :
    fs.optional name decode = .ok a ↔ OptionDecodes decode name ms a := by
  rw [Fields.optional, find?_of_fields hkeys h hname, OptionDecodes, MemberDecodes]
  cases Members.find? name ms <;> simp [eq_comm]

/-! ## Simple data -/

/-- Strings are decoded from strings and nothing else. -/
theorem decodeString_ofValue_ok_iff {v : Value} {s : String} :
    (ofValue v).decodeString = .ok s ↔ v = .string s := by
  cases v <;> simp [ofValue, decodeString, decodeText]

/-- Booleans are decoded from booleans and nothing else. -/
theorem decodeBool_ofValue_ok_iff {v : Value} {b : Bool} :
    (ofValue v).decodeBool = .ok b ↔ v = .bool b := by
  cases v <;> simp [ofValue, decodeBool]

theorem memberDecodes_string_iff {s : String} :
    MemberDecodes decodeString name ms s ↔ Members.find? name ms = some (.string s) := by
  simp [MemberDecodes, decodeString_ofValue_ok_iff]

theorem memberDecodes_bool_iff {b : Bool} :
    MemberDecodes decodeBool name ms b ↔ Members.find? name ms = some (.bool b) := by
  simp [MemberDecodes, decodeBool_ofValue_ok_iff]

/-- Null is decoded to nothing, and all else as it is without the choice. -/
theorem decodeOption_ofValue_ok_iff {v : Value} {a : Option α} :
    (ofValue v).decodeOption decode = .ok a ↔ (v = .null ∧ a = none)
      ∨ (v ≠ .null ∧ ∃ x, decode (ofValue v) = .ok x ∧ a = some x) := by
  cases v with
  | null => simp [ofValue, decodeOption, eq_comm]
  | _ =>
    simp only [ofValue, decodeOption, reduceCtorEq, false_and, ne_eq, not_false_eq_true, true_and,
      false_or]
    cases decode _ <;> simp [Except.map, eq_comm]

/-- A string that may be missing is missing without a member, or with null as its value. -/
theorem optionDecodes_string_iff {a : Option String} :
    OptionDecodes decodeString name ms a ↔
      ((Members.find? name ms = none ∨ Members.find? name ms = some .null) ∧ a = none)
        ∨ ∃ s, Members.find? name ms = some (.string s) ∧ a = some s := by
  rw [OptionDecodes, MemberDecodes]
  simp only [decodeOption_ofValue_ok_iff, decodeString_ofValue_ok_iff]
  cases Members.find? name ms with
  | none => simp
  | some v => cases v <;> simp

/-- A name in memory is a text, unless it is the key of an object. -/
theorem decodeName_ofValue_ok_iff {variants : List (String × α)} {v : Value} {a : α}
    (hv : v.isObject = false) : (ofValue v).decodeName variants = .ok a ↔
      ∃ s, v = .string s ∧ Members.find? s variants = some a := by
  cases v with
  | string s =>
    have hvariant : variant variants none s = .ok a ↔ Members.find? s variants = some a := by
      unfold variant
      cases Members.find? s variants <;> simp
    simpa [ofValue, decodeName, decodeVariant, decodeText, bind, Except.bind, stop?, extent?]
      using hvariant
  | object ms => cases hv
  | _ => simp [ofValue, decodeName]

end Json.Node
end LoginSettings
