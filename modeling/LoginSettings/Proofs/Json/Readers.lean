import LoginSettings.Json.Node
import LoginSettings.Proofs.Json.Spelling
import Mathlib.Tactic.SplitIfs

/-!
# What the readers do

The readers of JSON go on from a position as far as a text is well-formed, and keep what is wrong
where it is not. Here each of them is described once by what it does on the way through a
well-formed text: at the character that has to stand there it finds a part, and goes on.

* `readNode_scalar`, `readNode_array`, `readNode_object` — a value
* `readItems_nil`, `readItems_cons`, `readMoreItems_last`, `readMoreItems_more` — items
* `readMembers_nil`, `readMembers_cons`, `readMoreMembers_last`, `readMoreMembers_more` — members
-/

namespace LoginSettings.Json

open Text (Place)

/-! ## Positions -/

/-- The position that has been reached, if reading goes on at all. -/
def After.cursor? {c : Cursor} (after : After c) : Option Cursor := after.map (·.1)

@[simp] theorem cursor?_widen {c d : Cursor} (h : d.rest.length ≤ c.rest.length) (after : After d) :
    After.cursor? (Cursor.widen h after) = after.cursor? := by
  cases after <;> rfl

theorem cursor?_onward {c d : Cursor} (h : d.rest.length < c.rest.length) :
    After.cursor? (c.onward d) = some d := by
  simp [After.cursor?, Cursor.onward, h]

/-- Blanks are passed over. -/
theorem skip_append {blanks : List Char} (hblanks : Blanks blanks) (rest : List Char)
    (hrest : ∀ c ∈ rest.head?, isSpace c = false) (p : Place) :
    (⟨blanks ++ rest, p⟩ : Cursor).skip = ⟨rest, p.pastAll blanks⟩ := by
  induction blanks generalizing p with
  | nil =>
    cases rest with
    | nil => rfl
    | cons c rest =>
      have hc : isSpace c = false := hrest c rfl
      simp [Cursor.skip, skipFrom, hc, Place.pastAll]
  | cons b blanks ih =>
    obtain ⟨hb, hblanks⟩ := List.forall_mem_cons.1 hblanks
    have hskip := ih hblanks (p.past b)
    simp only [Cursor.skip] at hskip ⊢
    rw [List.cons_append, skipFrom, if_pos hb, hskip]
    rfl

/-- Blanks are skipped up to the next character that is none. -/
theorem skip_append_cons {blanks : List Char} (hblanks : Blanks blanks) {c : Char}
    (hc : isSpace c = false) (rest : List Char) (p : Place) :
    (⟨blanks ++ c :: rest, p⟩ : Cursor).skip = ⟨c :: rest, p.pastAll blanks⟩ := by
  refine skip_append hblanks (c :: rest) ?_ p
  rintro _ ⟨⟩
  exact hc

theorem skip_cons {c : Char} (hc : isSpace c = false) (rest : List Char) (p : Place) :
    (⟨c :: rest, p⟩ : Cursor).skip = ⟨c :: rest, p⟩ :=
  skip_append_cons blanks_nil hc rest p

/-! ## What the readers do -/

/-- Reading comes to `d` and has found a value. -/
structure ReadsValue {c : Cursor} (r : Node × After c) (v : Value) (d : Cursor) : Prop where
  node : r.1.value = .ok v
  after : r.2.cursor? = some d

/-- A reader that reads a value gives a node that stands for it, and the place behind it. -/
theorem ReadsValue.exists_eq {c d : Cursor} {r : Node × After c} {v : Value}
    (h : ReadsValue r v d) : ∃ node hd, r = (node, some ⟨d, hd⟩) ∧ node.value = .ok v := by
  obtain ⟨node, after⟩ := r
  obtain ⟨hvalue, hafter⟩ := h
  cases after with
  | none => cases hafter
  | some e =>
    cases hafter
    exact ⟨node, e.2, rfl, hvalue⟩

/-- Reading comes to `d` and has found items. -/
structure ReadsItems {c : Cursor} (ps : Parts Node c) (items : List Value) (d : Cursor) : Prop where
  parts : Node.itemValues ps.parts = .ok items
  damage : ps.damage = none
  after : ps.after.cursor? = some d

/-- Reading comes to `d` and has found members. -/
structure ReadsMembers {c : Cursor} (ps : Parts (Key × Node) c) (members : List (String × Value))
    (d : Cursor) : Prop where
  parts : Node.memberValues ps.parts = .ok members
  damage : ps.damage = none
  after : ps.after.cursor? = some d

variable {depth : Nat} {c₀ d e : Cursor} {x : Char} {xs ys : List Char} {q : Place} {v : Value}
  {items : List Value} {members : List (String × Value)}

/-- The scalar at a position, told by the character that stands there. -/
def scalarAt (c : Cursor) : Option ScalarReading :=
  match c.rest with
  | [] => none
  | x :: _ =>
    if x = 'n' then some (readLiteral .null ['u', 'l', 'l'] c.next)
    else if x = 't' then some (readLiteral (.bool true) ['r', 'u', 'e'] c.next)
    else if x = 'f' then some (readLiteral (.bool false) ['a', 'l', 's', 'e'] c.next)
    else if x = '-' ∨ x.isDigit then some (readNumber c)
    else if x = '"' then some (readString ⟨[], none⟩ (c.place.past '"') c.next.rest)
    else none

/-- The value of a scalar does not depend on where it stands. -/
theorem value_scalar (extent extent' : Option Extent) (scalar : Scalar) :
    (Node.scalar extent scalar).value = (Node.scalar extent' scalar).value := by
  cases scalar <;> rfl

/-- A sign or a digit starts a number. -/
theorem scalarAt_number {x : Char} (hx : x = '-' ∨ x.isDigit = true) (xs : List Char) (p : Place) :
    scalarAt ⟨x :: xs, p⟩ = some (readNumber ⟨x :: xs, p⟩) := by
  have hn : x ≠ 'n' := by
    rintro rfl
    simp at hx
  have ht : x ≠ 't' := by
    rintro rfl
    simp at hx
  have hf : x ≠ 'f' := by
    rintro rfl
    simp at hx
  simp only [scalarAt, hn, ht, hf, hx, if_true, if_false]

/-- A scalar is read as a value. -/
theorem readNode_scalar {scalar : Scalar} (hfound : scalarAt c₀.skip = some (.found scalar d))
    (hlength : d.rest.length < c₀.skip.rest.length)
    (hvalue : (Node.scalar none scalar).value = .ok v) : ReadsValue (readNode depth c₀) v d := by
  have hscalar : ∀ found (h : c₀.skip.rest.length ≤ c₀.rest.length), found = .found scalar d →
      ReadsValue ((ofScalar c₀.skip found).1, Cursor.widen h (ofScalar c₀.skip found).2) v d := by
    rintro _ h rfl
    refine ⟨?_, by rw [cursor?_widen]; exact cursor?_onward hlength⟩
    rw [← hvalue]
    exact value_scalar _ _ scalar
  unfold scalarAt at hfound
  rw [readNode]
  dsimp only
  split
  · simp_all
  · rename_i x tail hrest
    simp only [hrest] at hfound
    split_ifs at hfound ⊢
    all_goals exact hscalar _ _ (Option.some.inj hfound)

/-- An array is read if its items are read one level deeper. -/
theorem readNode_array (hskip : c₀.skip = ⟨'[' :: xs, q⟩) (hdepth : depth < greatestDepth)
    (hread : ReadsItems (readItems (depth + 1) ⟨xs, q.past '['⟩) items d) :
    ReadsValue (readNode depth c₀) (.array items) d := by
  have hnext : c₀.skip.next = ⟨xs, q.past '['⟩ := by rw [hskip]; rfl
  rw [← hnext] at hread
  rw [readNode]
  dsimp only
  split
  · simp_all
  · rename_i x tail hrest
    obtain ⟨rfl, rfl⟩ : '[' = x ∧ xs = tail := by simpa [hskip] using hrest
    constructor
    · simp [Node.value, Node.notTooDeep, hdepth, hread.parts, hread.damage, Node.noDamage]
      rfl
    · simpa using hread.after

/-- An object is read if its members are read one level deeper. -/
theorem readNode_object (hskip : c₀.skip = ⟨'{' :: xs, q⟩) (hdepth : depth < greatestDepth)
    (hread : ReadsMembers (readMembers (depth + 1) ⟨xs, q.past '{'⟩) members d) :
    ReadsValue (readNode depth c₀) (.object members) d := by
  have hnext : c₀.skip.next = ⟨xs, q.past '{'⟩ := by rw [hskip]; rfl
  rw [← hnext] at hread
  rw [readNode]
  dsimp only
  split
  · simp_all
  · rename_i x tail hrest
    obtain ⟨rfl, rfl⟩ : '{' = x ∧ xs = tail := by simpa [hskip] using hrest
    constructor
    · simp [Node.value, Node.notTooDeep, hdepth, hread.parts, hread.damage, Node.noDamage]
      rfl
    · simpa using hread.after

/-- An array that is closed at once has no items. -/
theorem readItems_nil (hskip : c₀.skip = ⟨']' :: xs, q⟩) :
    ReadsItems (readItems depth c₀) [] ⟨xs, q.past ']'⟩ := by
  rw [readItems]
  dsimp only
  split
  · simp_all
  · rename_i tail hrest
    have hnext : c₀.skip.next = ⟨xs, q.past ']'⟩ := by rw [hskip]; rfl
    refine ⟨rfl, rfl, ?_⟩
    rw [cursor?_widen, hnext, cursor?_onward (by simp [hskip])]
  · simp_all

theorem readItems_cons (hskip : c₀.skip = ⟨x :: xs, q⟩) (hx : x ≠ ']')
    (hread : ReadsItems (readMoreItems depth ⟨x :: xs, q⟩) items d) :
    ReadsItems (readItems depth c₀) items d := by
  rw [← hskip] at hread
  rw [readItems]
  dsimp only
  split
  · simp_all
  · simp_all
  · exact ⟨hread.parts, hread.damage, by rw [cursor?_widen]; exact hread.after⟩

/-- The last item is followed by the end of the array. -/
theorem readMoreItems_last (hread : ReadsValue (readNode depth c₀) v e)
    (hskip : e.skip = ⟨']' :: xs, q⟩) :
    ReadsItems (readMoreItems depth c₀) [v] ⟨xs, q.past ']'⟩ := by
  obtain ⟨node, he, hnode, hvalue⟩ := hread.exists_eq
  have hnext : e.skip.next = ⟨xs, q.past ']'⟩ := by rw [hskip]; rfl
  have hlength : xs.length < c₀.rest.length := by
    have := e.length_skip_le
    simp only [hskip, List.length_cons] at this
    omega
  rw [readMoreItems, hnode]
  dsimp only
  split
  · simp_all
  · refine ⟨?_, rfl, ?_⟩
    · simp only [Node.itemValues, hvalue]
      rfl
    · rw [hnext, cursor?_onward hlength]
  · rename_i hrest
    simp [hskip] at hrest
  · simp_all

/-- An item with a comma behind it is followed by others. -/
theorem readMoreItems_more (hread : ReadsValue (readNode depth c₀) v e)
    (hcomma : e.skip = ⟨',' :: xs, q⟩) {q' : Place}
    (hskip : (⟨xs, q.past ','⟩ : Cursor).skip = ⟨x :: ys, q'⟩) (hx : x ≠ ']')
    (hmore : ReadsItems (readMoreItems depth ⟨x :: ys, q'⟩) items d) :
    ReadsItems (readMoreItems depth c₀) (v :: items) d := by
  obtain ⟨node, he, hnode, hvalue⟩ := hread.exists_eq
  have hnext : e.skip.next.skip = ⟨x :: ys, q'⟩ := by rw [hcomma, ← hskip]; rfl
  rw [← hnext] at hmore
  rw [readMoreItems, hnode]
  dsimp only
  split
  · simp_all
  · simp_all
  · split
    · simp_all
    · simp_all
    · refine ⟨?_, hmore.damage, ?_⟩
      · simp only [Parts.prepend, Node.itemValues, hvalue, hmore.parts]
        rfl
      · simpa [Parts.prepend] using hmore.after
  · simp_all

/-- An object that is closed at once has no members. -/
theorem readMembers_nil (hskip : c₀.skip = ⟨'}' :: xs, q⟩) :
    ReadsMembers (readMembers depth c₀) [] ⟨xs, q.past '}'⟩ := by
  rw [readMembers]
  dsimp only
  split
  · simp_all
  · have hnext : c₀.skip.next = ⟨xs, q.past '}'⟩ := by rw [hskip]; rfl
    refine ⟨rfl, rfl, ?_⟩
    rw [cursor?_widen, hnext, cursor?_onward (by simp [hskip])]
  · rename_i hrest
    simp [hskip] at hrest
  · simp_all

theorem readMembers_cons (hskip : c₀.skip = ⟨'"' :: xs, q⟩)
    (hread : ReadsMembers (readMoreMembers depth ⟨'"' :: xs, q⟩) members d) :
    ReadsMembers (readMembers depth c₀) members d := by
  rw [← hskip] at hread
  rw [readMembers]
  dsimp only
  split
  · simp_all
  · rename_i hrest
    simp [hskip] at hrest
  · exact ⟨hread.parts, hread.damage, by rw [cursor?_widen]; exact hread.after⟩
  · simp_all

section

variable {key : String} {k : Cursor}
  (hkey : readString ⟨[], none⟩ (c₀.place.past '"') c₀.next.rest = .found (.string (.ok key)) k)
  (hlength : k.rest.length < c₀.rest.length) (hcolon : k.skip = ⟨':' :: xs, q⟩)
  (hread : ReadsValue (readNode depth ⟨xs, q.past ':'⟩) v e) {q' : Place}

include hkey hlength hcolon hread

/-- The last member is followed by the end of the object. -/
theorem readMoreMembers_last (hskip : e.skip = ⟨'}' :: ys, q'⟩) :
    ReadsMembers (readMoreMembers depth c₀) [(key, v)] ⟨ys, q'.past '}'⟩ := by
  have hvalueAt : k.skip.next = ⟨xs, q.past ':'⟩ := by rw [hcolon]; rfl
  rw [← hvalueAt] at hread
  obtain ⟨node, he, hnode, hvalue⟩ := hread.exists_eq
  have hnext : e.skip.next = ⟨ys, q'.past '}'⟩ := by rw [hskip]; rfl
  have hforward : c₀.onward k = some ⟨k, hlength⟩ := by simp [Cursor.onward, hlength]
  have hend : ys.length < c₀.rest.length := by
    have hk := k.length_skip_le
    have hskipped := e.length_skip_le
    rw [hvalueAt] at he
    simp only [hcolon, hskip, List.length_cons] at hk hskipped he
    omega
  rw [readMoreMembers, hkey]
  dsimp only
  rw [hforward]
  dsimp only
  split
  · simp_all
  · rw [hnode]
    dsimp only
    split
    · simp_all
    · refine ⟨?_, rfl, ?_⟩
      · simp only [Node.memberValues, hvalue]
        rfl
      · rw [hnext, cursor?_onward hend]
    · rename_i hrest
      simp [hskip] at hrest
    · simp_all
  · simp_all

/-- A member with a comma behind it is followed by others. -/
theorem readMoreMembers_more (hcomma : e.skip = ⟨',' :: ys, q'⟩) {zs : List Char} {q'' : Place}
    (hskip : (⟨ys, q'.past ','⟩ : Cursor).skip = ⟨'"' :: zs, q''⟩)
    (hmore : ReadsMembers (readMoreMembers depth ⟨'"' :: zs, q''⟩) members d) :
    ReadsMembers (readMoreMembers depth c₀) ((key, v) :: members) d := by
  have hvalueAt : k.skip.next = ⟨xs, q.past ':'⟩ := by rw [hcolon]; rfl
  rw [← hvalueAt] at hread
  obtain ⟨node, he, hnode, hvalue⟩ := hread.exists_eq
  have hnext : e.skip.next.skip = ⟨'"' :: zs, q''⟩ := by rw [hcomma, ← hskip]; rfl
  have hforward : c₀.onward k = some ⟨k, hlength⟩ := by simp [Cursor.onward, hlength]
  rw [← hnext] at hmore
  rw [readMoreMembers, hkey]
  dsimp only
  rw [hforward]
  dsimp only
  split
  · simp_all
  · rw [hnode]
    dsimp only
    split
    · simp_all
    · rename_i hrest
      simp [hcomma] at hrest
    · split
      · simp_all
      · refine ⟨?_, hmore.damage, ?_⟩
        · simp only [Parts.prepend, Node.memberValues, hvalue, hmore.parts]
          rfl
        · simpa [Parts.prepend] using hmore.after
      · rename_i hrest
        simp [hnext] at hrest
      · simp_all
    · simp_all
  · simp_all

end

end LoginSettings.Json
