import LoginSettings.Document.Value

/-!
# Ordered values

A value is ordered if in each of its objects the keys increase by code point, so that no key stands
twice. Ordered values are equal exactly if they have the same members, and this is the form in which
documents are kept. `Value.inOrder` brings any value into it; of members with the same key the last
one counts.
-/

namespace LoginSettings

namespace Members

variable {α : Type}

/-- Holds of members whose keys increase. -/
def Increasing (members : List (String × α)) : Prop :=
  members.Pairwise fun a b => a.1 < b.1

/-- After an insertion there is what has been inserted, and nothing new besides. -/
theorem mem_insert {key : String} {value : α} {members : List (String × α)} {m : String × α}
    (h : m ∈ insert key value members) : m = (key, value) ∨ m ∈ members := by
  induction members with
  | nil => simpa [insert] using h
  | cons member rest ih =>
    obtain ⟨k, v⟩ := member
    simp only [insert] at h
    split at h
    · rcases List.mem_cons.1 h with h | h
      · exact .inl h
      · exact .inr (List.mem_cons_of_mem _ h)
    · split at h
      · rcases List.mem_cons.1 h with h | h
        · exact .inl h
        · exact .inr h
      · rcases List.mem_cons.1 h with h | h
        · exact .inr (h ▸ List.mem_cons_self)
        · exact (ih h).imp id (List.mem_cons_of_mem _)

/-- An insertion keeps keys increasing. -/
theorem increasing_insert {members : List (String × α)} (h : Increasing members) (key : String)
    (value : α) : Increasing (insert key value members) := by
  induction members with
  | nil => simp [insert, Increasing]
  | cons member rest ih =>
    obtain ⟨k, v⟩ := member
    obtain ⟨hk, hrest⟩ := List.pairwise_cons.1 h
    simp only [insert]
    split
    · rename_i heq
      subst heq
      exact List.pairwise_cons.2 ⟨hk, hrest⟩
    · rename_i hne
      split
      · rename_i hlt
        refine List.pairwise_cons.2 ⟨fun m hm => ?_, h⟩
        rcases List.mem_cons.1 hm with rfl | hm
        · exact hlt
        · exact String.lt_trans hlt (hk m hm)
      · rename_i hnlt
        refine List.pairwise_cons.2 ⟨fun m hm => ?_, ih hrest⟩
        rcases mem_insert hm with rfl | hm
        · rcases String.le_total (a := key) (b := k) with hle | hle
          · exact absurd (String.le_antisymm hle (String.not_lt.1 hnlt)) hne
          · exact String.not_le.1 fun hle' => hne (String.le_antisymm hle' hle)
        · exact hk m hm

/-- Erasing keeps keys increasing. -/
theorem increasing_erase {members : List (String × α)} (h : Increasing members) (key : String) :
    Increasing (erase key members) :=
  List.Pairwise.filter _ h

theorem mem_of_find? {key : String} {members : List (String × α)} {value : α}
    (h : find? key members = some value) : (key, value) ∈ members := by
  induction members with
  | nil => simp at h
  | cons member rest ih =>
    obtain ⟨k, v⟩ := member
    simp only [find?] at h
    split at h
    · rename_i heq
      subst heq
      simp_all
    · exact List.mem_cons_of_mem _ (ih h)

theorem find?_eq_none_of_forall_lt {key : String} {members : List (String × α)}
    (h : ∀ m ∈ members, key < m.1) : find? key members = none := by
  induction members with
  | nil => rfl
  | cons member rest ih =>
    obtain ⟨k, v⟩ := member
    simp only [List.mem_cons, forall_eq_or_imp] at h
    have hk : key ≠ k := by
      rintro rfl
      exact String.lt_irrefl _ h.1
    simp [find?, hk, ih h.2]

/-- Members whose keys increase are determined by what is found under each key. -/
theorem ext_of_find? {members others : List (String × α)} (h : Increasing members)
    (ho : Increasing others) (same : ∀ key, find? key members = find? key others) :
    members = others := by
  induction members generalizing others with
  | nil =>
    cases others with
    | nil => rfl
    | cons other others => simpa [find?] using same other.1
  | cons member rest ih =>
    obtain ⟨k, v⟩ := member
    obtain ⟨hk, hrest⟩ := List.pairwise_cons.1 h
    cases others with
    | nil => simpa [find?] using same k
    | cons other others =>
      obtain ⟨l, w⟩ := other
      obtain ⟨hl, hothers⟩ := List.pairwise_cons.1 ho
      have found := mem_of_find? ((same k).symm.trans (if_pos rfl))
      have found' := mem_of_find? ((same l).trans (if_pos rfl))
      have hkl : k = l := by
        rcases List.mem_cons.1 found with e | e
        · exact (Prod.mk.inj e).1
        · rcases List.mem_cons.1 found' with e' | e'
          · exact (Prod.mk.inj e').1.symm
          · exact absurd (String.lt_trans (hl _ e) (hk _ e')) (String.lt_irrefl l)
      subst hkl
      have hv : v = w := by simpa [find?] using same k
      subst hv
      refine congrArg _ (ih hrest hothers fun key => ?_)
      by_cases e : key = k
      · subst e
        rw [find?_eq_none_of_forall_lt hk, find?_eq_none_of_forall_lt hl]
      · simpa [find?, e] using same key

/-- A greatest key is inserted at the end. -/
theorem insert_eq_append {key : String} {value : α} {members : List (String × α)}
    (h : ∀ m ∈ members, m.1 < key) : insert key value members = members ++ [(key, value)] := by
  induction members with
  | nil => rfl
  | cons member rest ih =>
    obtain ⟨k, v⟩ := member
    simp only [List.mem_cons, forall_eq_or_imp] at h
    have hne : key ≠ k := by
      rintro rfl
      exact String.lt_irrefl _ h.1
    have hlt : ¬key < k := fun e => String.lt_irrefl _ (String.lt_trans e h.1)
    simp [insert, hne, hlt, ih h.2]

end Members

namespace Value

/-- Holds of values in whose objects the keys increase. -/
inductive Ordered : Value → Prop where
  | null : Ordered .null
  | bool (b : Bool) : Ordered (.bool b)
  | number (n : Number) : Ordered (.number n)
  | string (s : String) : Ordered (.string s)
  | array {items : List Value} (h : ∀ v ∈ items, Ordered v) : Ordered (.array items)
  | object {members : List (String × Value)} (increasing : Members.Increasing members)
      (h : ∀ m ∈ members, Ordered m.2) : Ordered (.object members)

mutual

/-- The value with the keys of all its objects in increasing order. -/
def inOrder : Value → Value
  | array items => array (itemsInOrder items)
  | object members => object (membersInOrder [] members)
  | v => v

/-- The items, each in order. -/
def itemsInOrder : List Value → List Value
  | [] => []
  | v :: vs => inOrder v :: itemsInOrder vs

/-- The members put one after another into members that are in order already. -/
def membersInOrder (sorted : List (String × Value)) : List (String × Value) → List (String × Value)
  | [] => sorted
  | (key, v) :: rest => membersInOrder (Members.insert key (inOrder v) sorted) rest

end

mutual

/-- A value that has been brought into order is in order. -/
theorem ordered_inOrder : (v : Value) → Ordered (inOrder v)
  | .null => .null
  | .bool b => .bool b
  | .number n => .number n
  | .string s => .string s
  | .array items => by
    simp only [inOrder]
    exact .array (ordered_itemsInOrder items)
  | .object members => by
    simp only [inOrder]
    exact (ordered_membersInOrder members [] .nil (by simp)).elim .object

theorem ordered_itemsInOrder : (items : List Value) → ∀ v ∈ itemsInOrder items, Ordered v
  | [] => by simp [itemsInOrder]
  | w :: ws => by
    simp only [itemsInOrder, List.mem_cons]
    rintro v (rfl | hv)
    · exact ordered_inOrder w
    · exact ordered_itemsInOrder ws v hv

theorem ordered_membersInOrder : (members sorted : List (String × Value)) →
    Members.Increasing sorted → (∀ m ∈ sorted, Ordered m.2) →
    Members.Increasing (membersInOrder sorted members)
      ∧ ∀ m ∈ membersInOrder sorted members, Ordered m.2
  | [], _, hs, ho => by
    simp only [membersInOrder]
    exact ⟨hs, ho⟩
  | (key, v) :: rest, sorted, hs, ho => by
    simp only [membersInOrder]
    refine ordered_membersInOrder rest _ (Members.increasing_insert hs _ _) fun m hm => ?_
    rcases Members.mem_insert hm with rfl | hm
    · exact ordered_inOrder v
    · exact ho m hm

end

mutual

/-- A value that is in order stays as it is. -/
theorem inOrder_eq_self : {v : Value} → v.Ordered → v.inOrder = v
  | .null, _ | .bool _, _ | .number _, _ | .string _, _ => by simp only [inOrder]
  | .array items, .array h => by
    simp only [inOrder]
    rw [itemsInOrder_eq_self h]
  | .object members, .object increasing h => by
    simp only [inOrder]
    rw [membersInOrder_eq_append (by simpa using increasing) h]
    rfl

theorem itemsInOrder_eq_self : {items : List Value} → (∀ v ∈ items, Ordered v) →
    itemsInOrder items = items
  | [], _ => rfl
  | v :: vs, h => by
    simp only [List.mem_cons, forall_eq_or_imp] at h
    simp only [itemsInOrder]
    rw [inOrder_eq_self h.1, itemsInOrder_eq_self h.2]

/-- Members in order are put in order one after another. -/
theorem membersInOrder_eq_append : {members sorted : List (String × Value)} →
    Members.Increasing (sorted ++ members) → (∀ m ∈ members, Ordered m.2) →
    membersInOrder sorted members = sorted ++ members
  | [], sorted, _, _ => by simp [membersInOrder]
  | (key, v) :: rest, sorted, increasing, h => by
    simp only [List.mem_cons, forall_eq_or_imp] at h
    have last : ∀ m ∈ sorted, m.1 < key := fun m hm =>
      (List.pairwise_append.1 increasing).2.2 m hm (key, v) List.mem_cons_self
    simp only [membersInOrder]
    rw [inOrder_eq_self h.1, Members.insert_eq_append last,
      membersInOrder_eq_append (by simpa using increasing) h.2]
    simp

end

theorem Ordered.member {v w : Value} {key : String} (hv : Ordered v) (h : v.member? key = some w) :
    Ordered w := by
  cases hv with
  | object _ hall => exact hall _ (Members.mem_of_find? h)
  | _ => simp [member?] at h

/-- What stands at a path in a value in order is in order. -/
theorem Ordered.at {path : List String} {v w : Value} (hv : Ordered v) (h : v.at? path = some w) :
    Ordered w := by
  induction path generalizing v with
  | nil => simp only [at?, Option.some.injEq] at h; exact h ▸ hv
  | cons key path ih =>
    simp only [at?, Option.bind_eq_some_iff] at h
    obtain ⟨u, hu, hw⟩ := h
    exact ih (hv.member hu) hw

end Value
end LoginSettings
