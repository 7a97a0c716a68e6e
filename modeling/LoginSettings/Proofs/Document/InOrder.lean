import LoginSettings.Document.Order

/-!
# Members brought into order

Bringing members with different keys into order moves them and changes nothing else about them.
-/

namespace LoginSettings

namespace Members

variable {α : Type}

theorem Increasing.nodup_keys {members : List (String × α)} (h : Increasing members) :
    (members.map (·.1)).Nodup := by
  rw [List.nodup_iff_pairwise_ne, List.pairwise_map]
  refine h.imp fun hlt heq => ?_
  rw [heq] at hlt
  exact String.lt_irrefl _ hlt

theorem find?_of_mem {members : List (String × α)} {m : String × α}
    (hkeys : (members.map (·.1)).Nodup) (hm : m ∈ members) : find? m.1 members = some m.2 := by
  induction members with
  | nil => cases hm
  | cons first rest ih =>
    rw [List.map_cons, List.nodup_cons] at hkeys
    rcases List.mem_cons.1 hm with rfl | hm
    · simp [find?]
    · have hne : m.1 ≠ first.1 := fun heq => hkeys.1 (List.mem_map.2 ⟨m, hm, heq⟩)
      simpa [find?, hne] using ih hkeys.2 hm

/-- Where keys increase, what is found under a key is just the member with this key. -/
theorem find?_eq_some_iff {members : List (String × α)} (increasing : Increasing members)
    {key : String} {value : α} : find? key members = some value ↔ (key, value) ∈ members :=
  ⟨mem_of_find?, find?_of_mem increasing.nodup_keys⟩

/-- A member with a new key is put somewhere among the others. -/
theorem insert_perm {key : String} {members : List (String × α)} (h : key ∉ members.map (·.1))
    (value : α) : (insert key value members).Perm ((key, value) :: members) := by
  induction members with
  | nil => exact .refl _
  | cons m ms ih =>
    obtain ⟨k, v⟩ := m
    rw [List.map_cons, List.mem_cons, not_or] at h
    rw [insert, if_neg h.1]
    split
    · exact .refl _
    · exact ((ih h.2).cons (k, v)).trans (.swap (key, value) (k, v) ms)

end Members

namespace Value

/-- Members with different keys, whose values are in order, are only moved. -/
theorem membersInOrder_perm {members sorted : List (String × Value)}
    (hkeys : (members.map (·.1) ++ sorted.map (·.1)).Nodup) (h : ∀ m ∈ members, Ordered m.2) :
    (membersInOrder sorted members).Perm (members ++ sorted) := by
  induction members generalizing sorted with
  | nil =>
    rw [membersInOrder]
    exact .refl _
  | cons m ms ih =>
    obtain ⟨key, v⟩ := m
    obtain ⟨hv, hms⟩ := List.forall_mem_cons.1 h
    rw [List.map_cons, List.cons_append, List.nodup_cons, List.mem_append, not_or] at hkeys
    have hinsert := Members.insert_perm hkeys.1.2 v
    have hkeys' : (ms.map (·.1) ++ (Members.insert key v sorted).map (·.1)).Nodup := by
      rw [((hinsert.map (·.1)).append_left _).nodup_iff, List.map_cons,
        List.perm_middle.nodup_iff, List.nodup_cons, List.mem_append, not_or]
      exact ⟨hkeys.1, hkeys.2⟩
    rw [membersInOrder, inOrder_eq_self hv]
    exact (ih hkeys' hms).trans ((hinsert.append_left ms).trans List.perm_middle)

end Value
end LoginSettings
