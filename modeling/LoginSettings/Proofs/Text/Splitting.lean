import LoginSettings.Text.Split

/-!
# Texts split and joined

Splitting a text at a character and joining parts with that character undo each other. Every text is
joined from the parts that it is split into, and parts without the character come back from the text
that they are joined to. There has to be a part, since every text has one.

* `intercalate_split` — the parts of a text make the text
* `split_intercalate` — parts that are joined are the parts of the text
* `split_append` — a separator between two texts only puts their parts together
-/

namespace LoginSettings.Text

/-! ## Lists of characters -/

theorem splitAt_eq_splitOn (sep : Char) (cs : List Char) : splitAt sep cs = cs.splitOn sep := by
  induction cs with
  | nil => rfl
  | cons c cs ih =>
    rw [List.splitOn_cons_eq_if_modifyHead, ← ih]
    cases h : splitAt sep cs with
    | nil => exact absurd h (splitAt_ne_nil sep cs)
    | cons part parts => simp [splitAt, h]

theorem joinWith_eq_intercalate (sep : Char) (parts : List (List Char)) :
    joinWith sep parts = [sep].intercalate parts := by
  induction parts with
  | nil => rfl
  | cons part parts ih =>
    cases parts with
    | nil => exact List.intercalate_singleton.symm
    | cons next parts =>
      rw [joinWith_cons_cons, ih, List.intercalate_cons_cons, List.append_assoc,
        List.singleton_append]

theorem not_mem_of_mem_splitAt (sep : Char) (cs : List Char) :
    ∀ part ∈ splitAt sep cs, sep ∉ part := by
  induction cs with
  | nil => exact List.forall_mem_singleton.2 List.not_mem_nil
  | cons c cs ih =>
    cases hparts : splitAt sep cs with
    | nil => exact absurd hparts (splitAt_ne_nil sep cs)
    | cons first parts =>
      rw [hparts] at ih
      obtain ⟨hfirst, hrest⟩ := List.forall_mem_cons.1 ih
      by_cases hc : c = sep
      · simp only [splitAt, hparts, if_pos hc]
        exact List.forall_mem_cons.2 ⟨List.not_mem_nil, ih⟩
      · have hgrown : sep ∉ c :: first := by
          rw [List.mem_cons, not_or]
          exact ⟨Ne.symm hc, hfirst⟩
        simp only [splitAt, hparts, if_neg hc]
        exact List.forall_mem_cons.2 ⟨hgrown, hrest⟩

/-! ## Strings -/

theorem map_toList_split (sep : Char) (s : String) :
    (split sep s).map String.toList = splitAt sep s.toList := by
  have hparts : (splitAt sep s.toList).map (String.toList ∘ String.ofList)
      = (splitAt sep s.toList).map id := List.map_congr_left fun _ _ => String.toList_ofList
  rw [split, List.map_map, hparts, List.map_id]

theorem not_mem_of_mem_split (sep : Char) (s : String) :
    ∀ part ∈ split sep s, sep ∉ part.toList := by
  intro part hpart
  refine not_mem_of_mem_splitAt sep s.toList part.toList ?_
  rw [← map_toList_split]
  exact List.mem_map_of_mem hpart

/-- **The parts of a text make the text.** -/
theorem intercalate_split (sep : Char) (s : String) :
    (String.singleton sep).intercalate (split sep s) = s := by
  rw [← String.toList_inj, String.toList_intercalate, String.toList_singleton, map_toList_split,
    ← joinWith_eq_intercalate, joinWith_splitAt]

/-- **Parts that are joined are the parts of the text.** -/
theorem split_intercalate {sep : Char} {parts : List String} (hne : parts ≠ [])
    (hfree : ∀ part ∈ parts, sep ∉ part.toList) :
    split sep ((String.singleton sep).intercalate parts) = parts := by
  have hfree' : ∀ part ∈ parts.map String.toList, sep ∉ part := by
    intro part hpart
    obtain ⟨s, hs, rfl⟩ := List.mem_map.1 hpart
    exact hfree s hs
  have hparts : parts.map (String.ofList ∘ String.toList) = parts.map id :=
    List.map_congr_left fun _ _ => String.ofList_toList
  rw [split, String.toList_intercalate, String.toList_singleton, splitAt_eq_splitOn,
    List.splitOn_intercalate sep hfree' (by simpa using hne), List.map_map, hparts, List.map_id]

/-- A separator between two texts only puts their parts together. -/
theorem split_append (sep : Char) (s t : String) :
    split sep (s ++ String.singleton sep ++ t) = split sep s ++ split sep t := by
  rw [split, String.toList_append, String.toList_append, String.toList_singleton, List.append_assoc,
    List.singleton_append, splitAt_append_cons, List.map_append, split, split]

end LoginSettings.Text
