import Mathlib.Data.List.Forall2
import LoginSettings.Proofs.Text.Trimming
import LoginSettings.Settings.Keywords

/-!
# Keywords in normal form

The keywords that count have a normal form: none of them is empty, and none has a blank at either
end. Bringing a list into it looks at each item alone. An item that has anything but blanks gives
one keyword, the part of it between the blanks at its ends, and all other items give none.

* `effectiveList_eq` — the items that count, and what is left of them
* `effectiveList_eq_self` — a list in normal form stays as it is
* `effectiveList_normal` — all of this put together for any two lists
-/

namespace LoginSettings

open Text (Tidy Trims)

variable {raw : List String}

theorem effectiveList_eq (raw : List String) :
    effectiveList raw true
      = (raw.filter fun s => s.toList.any fun c => !Text.isBlank c).map Text.trimmed := by
  rw [effectiveList, if_pos rfl, List.filter_map]
  congr 1
  refine List.filter_congr fun s _ => ?_
  have hempty : (Text.trimmed s).isEmpty = Text.isAllBlank s := by
    rw [Bool.eq_iff_iff, String.isEmpty_iff, Text.trimmed_eq_empty_iff]
  rw [Function.comp_apply, hempty, Text.isAllBlank, List.not_all_eq_any_not]

/-- The keywords are what is left of the items that count, one of each and in their order. -/
theorem forall₂_trims (raw : List String) :
    List.Forall₂ (fun s t => Trims s.toList t.toList)
      (raw.filter fun s => s.toList.any fun c => !Text.isBlank c) (effectiveList raw true) := by
  rw [effectiveList_eq, List.forall₂_map_right_iff]
  exact List.forall₂_same.2 fun s _ => Text.trims_trimmed s

theorem tidy_of_mem_effectiveList {item : String} (h : item ∈ effectiveList raw true) :
    Tidy item := by
  rw [effectiveList, if_pos rfl, List.mem_filter, List.mem_map] at h
  obtain ⟨⟨s, -, rfl⟩, hne⟩ := h
  exact (Text.trims_trimmed s).tidy (by simpa using hne)

theorem effectiveList_eq_self (h : ∀ s ∈ raw, Tidy s) : effectiveList raw true = raw := by
  have hmap : raw.map Text.trimmed = raw.map id :=
    List.map_congr_left fun s hs => (h s hs).trimmed_eq
  rw [effectiveList, if_pos rfl, hmap, List.map_id, List.filter_eq_self]
  exact fun s hs => by simpa using (h s hs).nonempty

/-- **Keywords are brought into a normal form.** Lists are taken item by item, and what is left of
each item with anything but blanks is one keyword, which is the item without the blanks at its ends.
Doing this twice is the same as doing it once, and no list but those in normal form stays as it
is. -/
theorem effectiveList_normal (a b : List String) :
    effectiveList (a ++ b) true = effectiveList a true ++ effectiveList b true
    ∧ (∀ item ∈ effectiveList a true, Tidy item)
    ∧ List.Forall₂ (fun s t => Trims s.toList t.toList)
      (a.filter fun s => s.toList.any fun c => !Text.isBlank c) (effectiveList a true)
    ∧ effectiveList (effectiveList a true) true = effectiveList a true
    ∧ (effectiveList a true = a ↔ ∀ s ∈ a, Tidy s) := by
  have htidy : ∀ item ∈ effectiveList a true, Tidy item := fun _ => tidy_of_mem_effectiveList
  refine ⟨?_, htidy, forall₂_trims a, effectiveList_eq_self htidy, fun h => ?_,
    effectiveList_eq_self⟩
  · rw [effectiveList_eq, effectiveList_eq, effectiveList_eq, List.filter_append, List.map_append]
  · rw [← h]
    exact htidy

/-- Blanks beyond ASCII around a keyword and in place of one; those within a keyword stay. -/
theorem effectiveList_normal_wide_blanks :
    let raw := ["\u3000root\n", "", "\t\u00a0", "a b"]
    let kept := ["root", "a b"]
    effectiveList raw true = kept
    ∧ (∀ s ∈ kept, Tidy s)
    ∧ effectiveList kept true = kept
    ∧ ¬∀ s ∈ raw, Tidy s := by
  intro raw kept
  have hkept : effectiveList raw true = kept := by decide
  obtain ⟨-, htidy, -, hagain, hself⟩ := effectiveList_normal raw []
  rw [hkept] at htidy hagain hself
  exact ⟨hkept, htidy, hagain, fun h => absurd (hself.2 h) (by decide)⟩

end LoginSettings
