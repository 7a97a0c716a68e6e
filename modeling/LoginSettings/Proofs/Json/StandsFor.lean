import LoginSettings.Proofs.Document.Reordering
import LoginSettings.Proofs.Json.Decoding
import LoginSettings.Proofs.Json.Reading

/-!
# Values that stand for data

A value stands for a datum if the datum is decoded from all nodes that come from the value, with the
members of its objects in any order. A record stands for what it is made of as soon as its members
do; from there it is one step to the texts of the value.

* `StandsFor.string`, `StandsFor.bool`, `StandsFor.strings`, `StandsFor.name` — simple data
* `StandsFor.record`, `Fields.Of.required`, `Fields.Of.optional` — records
* `StandsFor.decodeOfText_of_spells`, `StandsFor.decodeOfText` — texts
-/

namespace LoginSettings

namespace Members

variable {α : Type} {key : String} {members : List (String × α)}

theorem find?_eq_none_iff : find? key members = none ↔ key ∉ members.map (·.1) := by
  induction members with
  | nil => simp
  | cons m ms ih =>
    obtain ⟨k, a⟩ := m
    by_cases hk : key = k
    · simp [find?, hk]
    · simp [find?, hk, ih]

/-- Without the key there is left what has other keys. -/
theorem erase_cons_self (a : α) (h : key ∉ members.map (·.1)) :
    erase key ((key, a) :: members) = members := by
  have hhead : erase key ((key, a) :: members) = erase key members :=
    List.filter_cons_of_neg (by simp)
  rw [hhead, erase_eq_self (find?_eq_none_iff.2 h)]

theorem erase_cons_of_ne {k : String} (h : k ≠ key) (a : α) (members : List (String × α)) :
    erase key ((k, a) :: members) = (k, a) :: erase key members :=
  List.filter_cons_of_pos (by simpa using h)

theorem erase_perm (key : String) {others : List (String × α)} (h : members.Perm others) :
    (erase key members).Perm (erase key others) :=
  h.filter _

end Members

/-! ## Lists of strings -/

section

variable (texts : List String)

theorem Value.plain_ofStrings : Plain (ofStrings texts) := by
  refine .array fun v hv => ?_
  obtain ⟨text, -, rfl⟩ := List.mem_map.1 hv
  exact .string text

theorem Json.whole_ofStrings : Whole (.ofStrings texts) := by
  refine .array fun v hv => ?_
  obtain ⟨text, -, rfl⟩ := List.mem_map.1 hv
  exact .string text

theorem Json.nesting_ofStrings_le : nesting (.ofStrings texts) ≤ 1 := by
  refine Nat.succ_le_succ (itemsNesting_le_iff.2 fun v hv => ?_)
  obtain ⟨text, -, rfl⟩ := List.mem_map.1 hv
  exact Nat.le_refl 0

end

namespace Json

open Value (Plain Reordered)

variable {α : Type} {decode : Node → Decoded α} {depth : Nat} {v w : Value} {a : α}

/-- Holds if a datum is decoded from all nodes that stand for a value with the members of its
objects in any order. The value can be spelled, and is nested at most so deep. -/
structure StandsFor (depth : Nat) (decode : Node → Decoded α) (v : Value) (a : α) : Prop where
  whole : Whole v
  nesting_le : nesting v ≤ depth
  decodes : ∀ (n : Node) (w : Value), Reordered v w → n.value = .ok w → decode n = .ok a

namespace StandsFor

/-! ## Simple data -/

/-- Nothing can be reordered in a value without objects. -/
theorem of_plain (hv : Plain v) (hwhole : Whole v) (hdepth : nesting v ≤ depth)
    (h : ∀ n : Node, n.value = .ok v → decode n = .ok a) : StandsFor depth decode v a where
  whole := hwhole
  nesting_le := hdepth
  decodes n w hw hn := by
    rw [hw.eq_of_plain hv] at hn
    exact h n hn

theorem string (depth : Nat) (s : String) : StandsFor depth Node.decodeString (.string s) s :=
  .of_plain (.string s) (.string s) (Nat.zero_le depth) fun _ => Node.decodeString_of_value

theorem bool (depth : Nat) (b : Bool) : StandsFor depth Node.decodeBool (.bool b) b :=
  .of_plain (.bool b) (.bool b) (Nat.zero_le depth) fun _ => Node.decodeBool_of_value

/-- A list of strings stands for its texts. -/
theorem strings (depth : Nat) (texts : List String) :
    StandsFor (depth + 1) (Node.decodeList Node.decodeString) (.ofStrings texts) texts :=
  .of_plain (Value.plain_ofStrings texts) (whole_ofStrings texts)
    (Nat.le_trans (nesting_ofStrings_le texts) (Nat.le_add_left 1 depth))
    fun _ => Node.decodeList_of_value Node.decodeString_of_value

end StandsFor

/-- A name is decoded to what is listed under it. -/
theorem Node.decodeVariant_of_value {variants : List (String × α)} {n : Node} {name : String}
    (h : n.value = .ok (.string name)) (hfind : Members.find? name variants = some a) :
    n.decodeVariant variants = .ok a := by
  obtain ⟨extent, rfl⟩ := Node.eq_scalar_of_value h rfl
  simp only [decodeVariant, decodeText, bind, Except.bind, variant, hfind]

/-- Names stand for what is listed under them. -/
theorem StandsFor.name (depth : Nat) {variants : List (String × α)} {name : String}
    (hfind : Members.find? name variants = some a) :
    StandsFor depth (Node.decodeName variants) (.string name) a := by
  refine .of_plain (.string name) (.string name) (Nat.zero_le depth) fun n hn => ?_
  obtain ⟨extent, rfl⟩ := Node.eq_scalar_of_value hn rfl
  rw [Node.decodeName]
  exact Node.decodeVariant_of_value hn hfind

/-- A text stands for itself where there may be none. -/
theorem StandsFor.some_string (depth : Nat) (s : String) :
    StandsFor depth (Node.decodeOption Node.decodeString) (.string s) (some s) := by
  refine .of_plain (.string s) (.string s) (Nat.zero_le depth) fun n hn => ?_
  obtain ⟨extent, rfl⟩ := Node.eq_scalar_of_value hn rfl
  rfl

/-! ## Records -/

/-- Holds of members that are known and pass their check in any order. -/
def Known (depth : Nat) (shapes : List FieldShape) (m : String × Value) : Prop :=
  ∃ shape, shapes.find? (fun s => s.name = m.1) = some shape ∧ StandsFor depth shape.check m.2 ()

/-- A member is known under its name if its value stands for something, whether the field may be
left out or not. -/
theorem StandsFor.known {shapes : List FieldShape} {name : String} {optional : Bool}
    (h : StandsFor depth decode v a)
    (hshape : shapes.find? (fun s => s.name = name) = some { field name decode with optional }) :
    Known depth shapes (name, v) := by
  refine ⟨_, hshape, h.whole, h.nesting_le, fun n w hw hn => ?_⟩
  simp only [field, h.decodes n w hw hn, Except.map]

/-- Holds of the fields that are found in an object with certain members in any order. -/
structure Fields.Of (fs : Fields) (ms : List (String × Value)) : Prop where
  present : ∀ m ∈ ms, ∃ node w, Members.find? m.1 fs.nodes = some node ∧ Reordered m.2 w ∧
    node.value = .ok w
  absent : ∀ name, name ∉ ms.map (·.1) → Members.find? name fs.nodes = none

namespace Node

/-- Members that stand for some begin with one that stands for the first. -/
theorem exists_of_memberValues_cons {key : Key} {n : Node} {nodes : List (Key × Node)}
    {ms : List (String × Value)} (h : memberValues ((key, n) :: nodes) = .ok ms) :
    ∃ name v rest, key.text = .ok name ∧ n.value = .ok v ∧ memberValues nodes = .ok rest ∧
      ms = (name, v) :: rest := by
  simp only [memberValues, bind_eq_ok_iff] at h
  obtain ⟨name, hname, v, hv, rest, hrest, hcons⟩ := h
  cases hcons
  exact ⟨name, v, rest, hname, hv, hrest, rfl⟩

/-- What is not among the members is not among those that have been found. -/
theorem find?_knownMembers_eq_none {shapes : List FieldShape} {met found : List (String × Node)}
    {nodes : List (Key × Node)} {ms : List (String × Value)} {name : String}
    (h : memberValues nodes = .ok ms) (hfound : knownMembers shapes met nodes = .ok found)
    (hmet : Members.find? name met = none) (hname : name ∉ ms.map (·.1)) :
    Members.find? name found = none := by
  induction nodes generalizing met ms with
  | nil =>
    cases hfound
    exact hmet
  | cons entry nodes ih =>
    obtain ⟨key, n⟩ := entry
    obtain ⟨k, v, rest, hkey, -, hrest, rfl⟩ := exists_of_memberValues_cons h
    rw [List.map_cons, List.mem_cons, not_or] at hname
    simp only [knownMembers, hkey, ofReading, bind_eq_ok_iff] at hfound
    obtain ⟨_, hk, hfound⟩ := hfound
    cases hk
    have hmet' : Members.find? name (met ++ [(k, n)]) = none := by
      rw [find?_append_singleton, hmet, if_neg hname.1]
      rfl
    cases hshape : shapes.find? fun s => s.name = k with
    | none =>
      simp only [hshape, bind_eq_ok_iff] at hfound
      obtain ⟨-, -, hfound⟩ := hfound
      exact ih hrest hfound hmet hname.2
    | some shape =>
      simp only [hshape] at hfound
      split at hfound
      · cases hfound
      · obtain ⟨-, -, hfound⟩ := bind_eq_ok_iff.1 hfound
        exact ih hrest hfound hmet' hname.2

/-- **The fields of an object with known members in any order are its members.** -/
theorem fields_of_reordered (title : String) {shapes : List FieldShape}
    {ms : List (String × Value)} {n : Node} (hw : Reordered (.object ms) w) (hn : n.value = .ok w)
    (hkeys : (ms.map (·.1)).Nodup) (hknown : ∀ m ∈ ms, Known depth shapes m) :
    ∃ fs, n.fields title shapes = .ok fs ∧ fs.Of ms := by
  obtain ⟨ns, rfl, hns⟩ := hw.members
  have hknown' : ∀ m ∈ ns, ∃ shape, shapes.find? (fun s => s.name = m.1) = some shape ∧
      ∀ node : Node, node.value = .ok m.2 → shape.check node = .ok () := by
    intro m hm
    obtain ⟨v, hv, hreordered⟩ := hns.back m hm
    obtain ⟨shape, hshape, hstands⟩ := hknown _ hv
    exact ⟨shape, hshape, fun node hnode => hstands.decodes node m.2 hreordered hnode⟩
  obtain ⟨fs, hfs, hfind⟩ :=
    fields_of_value title shapes hn (hns.keys.nodup_iff.2 hkeys) hknown'
  refine ⟨fs, hfs, fun m hm => ?_, fun name hname => ?_⟩
  · obtain ⟨w, hw, hreordered⟩ := hns.forth m hm
    obtain ⟨node, hnode, hvalue⟩ := hfind _ hw
    exact ⟨node, w, hnode, hreordered, hvalue⟩
  · obtain ⟨extent, tooDeep, inside, nodes, rfl, hdepth, hmembers⟩ := eq_object_of_value hn
    simp only [fields, bind_eq_ok_iff] at hfs
    obtain ⟨-, -, found, hfound, -, -, hfs⟩ := hfs
    cases hfs
    exact find?_knownMembers_eq_none hmembers hfound rfl
      fun hmem => hname (hns.keys.mem_iff.1 hmem)

end Node

/-- **A record stands for what is made from its fields**, if each of its members is known. -/
theorem StandsFor.record {title : String} {shapes : List FieldShape} {ms : List (String × Value)}
    {make : Fields → Decoded α} (hkeys : (ms.map (·.1)).Nodup)
    (hknown : ∀ m ∈ ms, Known depth shapes m)
    (hmake : ∀ fs : Fields, fs.Of ms → make fs = .ok a) :
    StandsFor (depth + 1) (fun n => n.fields title shapes >>= make) (.object ms) a where
  whole := .object fun m hm => by
    obtain ⟨shape, -, hstands⟩ := hknown m hm
    exact hstands.whole
  nesting_le := Nat.succ_le_succ <| membersNesting_le_iff.2 fun m hm => by
    obtain ⟨shape, -, hstands⟩ := hknown m hm
    exact hstands.nesting_le
  decodes n w hw hn := by
    obtain ⟨fs, hfs, hof⟩ := Node.fields_of_reordered title hw hn hkeys hknown
    show n.fields title shapes >>= make = .ok a
    rw [hfs]
    exact hmake fs hof

namespace Fields.Of

variable {fs : Fields} {ms : List (String × Value)} {name : String}

/-- A field that may not be missing is decoded from a member that stands for it. -/
theorem required (h : fs.Of ms) (hfind : Members.find? name ms = some v)
    (hstands : StandsFor depth decode v a) : fs.required name decode = .ok a := by
  obtain ⟨node, w, hnode, hw, hvalue⟩ := h.present _ (Members.mem_of_find? hfind)
  rw [Fields.required, hnode]
  exact hstands.decodes node w hw hvalue

/-- A text that is left out if there is none. -/
theorem optional (h : fs.Of ms) {text : Option String}
    (hfind : Members.find? name ms = text.map .string) :
    fs.optional name Node.decodeString = .ok text := by
  cases text with
  | none => rw [Fields.optional, h.absent name (Members.find?_eq_none_iff.1 hfind)]
  | some s =>
    obtain ⟨node, w, hnode, hw, hvalue⟩ := h.present _ (Members.mem_of_find? hfind)
    rw [Fields.optional, hnode]
    exact (StandsFor.some_string 0 s).decodes node w hw hvalue

end Fields.Of

/-! ## Texts -/

/-- **A datum is decoded from all texts of a value that stands for it**, with the members of its
objects in any order, and with or without blanks at the end. -/
theorem StandsFor.decodeOfText_of_spells (h : StandsFor depth decode v a)
    (hdepth : depth ≤ greatestDepth) (hw : Reordered v w) {cs blanks : List Char}
    (hspells : Spells w cs) (hblanks : Blanks blanks) :
    Json.decodeOfText decode (String.ofList (cs ++ blanks)) = .ok a := by
  have hnesting : nesting w ≤ greatestDepth := by
    rw [nesting_reordered hw]
    exact Nat.le_trans h.nesting_le hdepth
  obtain ⟨node, hnode, hvalue⟩ :=
    ofText_of_spells hspells (h.whole.reordered hw) hnesting hblanks
  rw [Json.decodeOfText, hnode]
  simp only [h.decodes node w hw hvalue]
  rfl

/-- A datum is decoded from the compact text of such a value. -/
theorem StandsFor.decodeOfText (h : StandsFor depth decode v a) (hdepth : depth ≤ greatestDepth)
    (hw : Reordered v w) : decodeOfText decode (compact w) = .ok a := by
  have hdecode := h.decodeOfText_of_spells hdepth hw (spells_compactChars (h.whole.reordered hw))
    blanks_nil
  rwa [List.append_nil] at hdecode

end Json
end LoginSettings
