import LoginSettings.Json.Canonical
import LoginSettings.Proofs.Decimal.Whole
import LoginSettings.Proofs.Document.InOrder
import LoginSettings.Proofs.Document.Reordering
import LoginSettings.Proofs.Json.Reading
import LoginSettings.Proofs.Text.Units

/-!
# Canonical text read back

As long as its numbers are whole and have at most fifty-three bits, the canonical text of a value
is the compact text of the same value with its members in the order of units. It is read back as
that, with the members where they stand in the text.

* `unitsIncrease_byUnits` — the order of the members in it
* `canonicalChars_eq_compactChars` — what is written
* `readValue_canonical` — what is read
-/

namespace LoginSettings.Json

open Value (Ordered Reordered)

variable {v : Value} {items : List Value} {members : List (String × Value)}

/-- Holds of values all of whose numbers are whole and at most `2 ^ 53` in size. -/
inductive Exact : Value → Prop where
  | null : Exact .null
  | bool (b : Bool) : Exact (.bool b)
  | number {n : Int} (h : n.natAbs ≤ 2 ^ 53) : Exact (.number (.integer n))
  | string (s : String) : Exact (.string s)
  | array {items : List Value} (h : ∀ v ∈ items, Exact v) : Exact (.array items)
  | object {members : List (String × Value)} (h : ∀ m ∈ members, Exact m.2) :
    Exact (.object members)

theorem Exact.whole (h : Exact v) : Whole v := by
  induction h with
  | null => exact .null
  | bool b => exact .bool b
  | number h =>
    refine .number ?_ ?_
    · simp only [leastInteger]
      omega
    · simp only [greatestInteger]
      omega
  | string s => exact .string s
  | array _ ih => exact .array ih
  | object _ ih => exact .object ih

/-! ## Members sorted by units -/

section

variable {α β : Type}

theorem insertByUnits_perm (m : String × α) (ms : List (String × α)) :
    (insertByUnits m ms).Perm (m :: ms) := by
  induction ms with
  | nil => exact .refl _
  | cons n ms ih =>
    unfold insertByUnits
    split
    · exact .refl _
    · exact (ih.cons n).trans (.swap m n ms)

/-- Sorting neither adds nor loses a member. -/
theorem sortByUnits_perm (ms : List (String × α)) : (sortByUnits ms).Perm ms := by
  induction ms with
  | nil => exact .refl _
  | cons m ms ih => exact (insertByUnits_perm m (sortByUnits ms)).trans (ih.cons m)

theorem insertByUnits_pairwise (m : String × α) {ms : List (String × α)}
    (h : ms.Pairwise fun a b => Text.unitsLE a.1 b.1 = true) :
    (insertByUnits m ms).Pairwise fun a b => Text.unitsLE a.1 b.1 = true := by
  induction ms with
  | nil => exact List.pairwise_singleton _ m
  | cons n ms ih =>
    obtain ⟨hn, hms⟩ := List.pairwise_cons.1 h
    unfold insertByUnits
    split
    · rename_i hle
      refine List.pairwise_cons.2 ⟨fun x hx => ?_, h⟩
      rcases List.mem_cons.1 hx with rfl | hx
      · exact hle
      · exact Text.unitsLE_trans hle (hn x hx)
    · rename_i hgt
      refine List.pairwise_cons.2 ⟨fun x hx => ?_, ih hms⟩
      rcases List.mem_cons.1 ((insertByUnits_perm m ms).mem_iff.1 hx) with rfl | hx
      · exact (Text.unitsLE_total n.1 x.1).resolve_right hgt
      · exact hn x hx

/-- Sorted members are in the order of their units. -/
theorem sortByUnits_pairwise (ms : List (String × α)) :
    (sortByUnits ms).Pairwise fun a b => Text.unitsLE a.1 b.1 = true := by
  induction ms with
  | nil => exact .nil
  | cons m ms ih => exact insertByUnits_pairwise m ih

/-- Members with different keys are sorted strictly. -/
theorem sortByUnits_increasing {ms : List (String × α)} (h : (ms.map (·.1)).Nodup) :
    (sortByUnits ms).Pairwise fun a b => Text.UnitsLT a.1 b.1 := by
  have hnodup : ((sortByUnits ms).map (·.1)).Nodup :=
    ((sortByUnits_perm ms).map (·.1)).nodup_iff.2 h
  have hne : (sortByUnits ms).Pairwise fun a b => a.1 ≠ b.1 := List.pairwise_map.1 hnodup
  refine ((sortByUnits_pairwise ms).and hne).imp fun hab => ?_
  exact Text.unitsLT_of_unitsLE hab.1 hab.2

/-- The order depends on the keys alone. -/
theorem sortByUnits_map (f : α → β) (ms : List (String × α)) :
    sortByUnits (ms.map fun m => (m.1, f m.2)) = (sortByUnits ms).map fun m => (m.1, f m.2) := by
  have hinsert : ∀ (m : String × α) (ms : List (String × α)),
      insertByUnits (m.1, f m.2) (ms.map fun m => (m.1, f m.2))
        = (insertByUnits m ms).map fun m => (m.1, f m.2) := by
    intro m ms
    induction ms with
    | nil => rfl
    | cons n ms ih =>
      rw [List.map_cons, insertByUnits, insertByUnits, ih]
      split <;> rfl
  induction ms with
  | nil => rfl
  | cons m ms ih =>
    show insertByUnits (m.1, f m.2) (sortByUnits (ms.map fun m => (m.1, f m.2))) = _
    rw [ih, hinsert]
    rfl

end

/-! ## Values with their members in the order of units -/

mutual

/-- The value with the members of all its objects in the order of their units. -/
def byUnits : Value → Value
  | .array items => .array (itemsByUnits items)
  | .object members => .object (sortByUnits (membersByUnits members))
  | v => v

/-- The items, each with its members in the order of their units. -/
def itemsByUnits : List Value → List Value
  | [] => []
  | v :: vs => byUnits v :: itemsByUnits vs

/-- The members where they are, each value with its members in the order of their units. -/
def membersByUnits : List (String × Value) → List (String × Value)
  | [] => []
  | (key, v) :: ms => (key, byUnits v) :: membersByUnits ms

end

theorem itemsByUnits_eq_map (items : List Value) : itemsByUnits items = items.map byUnits := by
  induction items with
  | nil => rfl
  | cons v vs ih => rw [itemsByUnits, ih, List.map_cons]

theorem membersByUnits_eq_map (members : List (String × Value)) :
    membersByUnits members = members.map fun m => (m.1, byUnits m.2) := by
  induction members with
  | nil => rfl
  | cons m ms ih => rw [membersByUnits, ih, List.map_cons]

/-- Holds of values in whose objects the units of the keys increase. -/
inductive UnitsIncrease : Value → Prop where
  | null : UnitsIncrease .null
  | bool (b : Bool) : UnitsIncrease (.bool b)
  | number (n : Number) : UnitsIncrease (.number n)
  | string (s : String) : UnitsIncrease (.string s)
  | array {items : List Value} (h : ∀ v ∈ items, UnitsIncrease v) : UnitsIncrease (.array items)
  | object {members : List (String × Value)}
      (increasing : members.Pairwise fun a b => Text.UnitsLT a.1 b.1)
      (h : ∀ m ∈ members, UnitsIncrease m.2) : UnitsIncrease (.object members)

/-- **In the order of units the units of the keys increase.** -/
theorem unitsIncrease_byUnits (h : v.Ordered) : UnitsIncrease (byUnits v) := by
  induction h with
  | null => exact .null
  | bool b => exact .bool b
  | number n => exact .number n
  | string s => exact .string s
  | @array items _ ih =>
    rw [byUnits, itemsByUnits_eq_map]
    refine .array fun w hw => ?_
    obtain ⟨v, hv, rfl⟩ := List.mem_map.1 hw
    exact ih v hv
  | @object members increasing _ ih =>
    rw [byUnits, membersByUnits_eq_map, sortByUnits_map]
    have hsorted := sortByUnits_increasing increasing.nodup_keys
    refine .object (List.pairwise_map.2 hsorted) fun n hn => ?_
    obtain ⟨m, hm, rfl⟩ := List.mem_map.1 hn
    exact ih m ((sortByUnits_perm members).mem_iff.1 hm)

/-- A value with its members in the order of units has been reordered and nothing else. -/
theorem reordered_byUnits (h : v.Ordered) : Reordered v (byUnits v) := by
  induction h with
  | null => exact .refl _
  | bool b => exact .refl _
  | number n => exact .refl _
  | string s => exact .refl _
  | @array items _ ih =>
    rw [byUnits, itemsByUnits_eq_map]
    exact Value.reordered_map_items byUnits ih
  | @object members increasing _ ih =>
    rw [byUnits, membersByUnits_eq_map, sortByUnits_map]
    have hsorted := Value.reordered_of_perm (sortByUnits_perm members).symm increasing.nodup_keys
    exact hsorted.trans (Value.reordered_map_members byUnits fun m hm =>
      ih m ((sortByUnits_perm members).mem_iff.1 hm))

/-! ## What is written -/

theorem canonicalMembers_eq_map (members : List (String × Value)) :
    canonicalMembers members = members.map fun m => (m.1, canonicalChars m.2) := by
  induction members with
  | nil => rfl
  | cons m ms ih => rw [canonicalMembers, ih, List.map_cons]

theorem canonicalItems_eq (h : ∀ v ∈ items, canonicalChars v = compactChars (byUnits v)) :
    canonicalItems items = compactItems (items.map byUnits) := by
  induction items with
  | nil => rfl
  | cons v vs ih =>
    obtain ⟨hv, hvs⟩ := List.forall_mem_cons.1 h
    have hrest := ih hvs
    cases vs with
    | nil => exact hv
    | cons w vs =>
      rw [canonicalItems, hv, hrest]
      rfl

theorem joinMembers_eq (h : ∀ m ∈ members, canonicalChars m.2 = compactChars (byUnits m.2)) :
    joinMembers (members.map fun m => (m.1, canonicalChars m.2))
      = compactMembers (members.map fun m => (m.1, byUnits m.2)) := by
  induction members with
  | nil => rfl
  | cons m ms ih =>
    obtain ⟨hm, hms⟩ := List.forall_mem_cons.1 h
    have hrest := ih hms
    cases ms with
    | nil =>
      show stringText m.1 ++ ':' :: canonicalChars m.2 = _
      rw [hm]
      rfl
    | cons n ms =>
      show stringText m.1 ++ ':' :: canonicalChars m.2
        ++ ',' :: joinMembers ((n :: ms).map fun m => (m.1, canonicalChars m.2)) = _
      rw [hm, hrest]
      rfl

/-- **The canonical text of a value is the compact text of the value with its members in the order
of units.** -/
theorem canonicalChars_eq_compactChars (h : Exact v) :
    canonicalChars v = compactChars (byUnits v) := by
  induction h with
  | null => rfl
  | bool b => rfl
  | number h => exact canonicalNumber_integer h
  | string s => rfl
  | @array items _ ih =>
    rw [byUnits, itemsByUnits_eq_map, canonicalChars, compactChars, canonicalItems_eq ih]
  | @object members _ ih =>
    have hmembers : ∀ m ∈ sortByUnits members,
        canonicalChars m.2 = compactChars (byUnits m.2) :=
      fun m hm => ih m ((sortByUnits_perm members).mem_iff.1 hm)
    rw [byUnits, membersByUnits_eq_map, canonicalChars, compactChars, canonicalMembers_eq_map,
      sortByUnits_map, sortByUnits_map, joinMembers_eq hmembers]

/-! ## What is read -/

/-- **The canonical text of a value is read back as this value**, with its members in the order of
their units. -/
theorem readValue_canonical (hexact : Exact v) (hordered : v.Ordered)
    (hdepth : nesting v ≤ greatestDepth) : readValue (canonical v) = .ok (byUnits v) := by
  have hreordered := reordered_byUnits hordered
  have hwhole : Whole (byUnits v) := hexact.whole.reordered hreordered
  have hread := readValue_of_spells (spells_compactChars hwhole) hwhole
    (by rwa [nesting_reordered hreordered]) blanks_nil
  rwa [List.append_nil, ← canonicalChars_eq_compactChars hexact] at hread

end LoginSettings.Json
