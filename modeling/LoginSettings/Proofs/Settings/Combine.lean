import LoginSettings.Proofs.Settings.Fields
import LoginSettings.Proofs.Settings.Written

/-!
# Edits that combine

Two people begin with the same settings and edit different fields. `Settings.combine` has the edits
of both, and a patch with these writes the fields that the two patches write, in one fixed order.

* `get_combine` — settings are combined field by field
* `combine_comm` — it does not matter which edit is named first
* `written_eq_filter` — the fields that a patch writes, in the order of all fields
* `filter_written_combine`, `filter_not_written_combine` — those of either edit among them
-/

namespace LoginSettings

namespace Settings

/-! ## The edits of two people -/

/-- What two edits make of a value: a change counts, the first one where both change it. -/
def edited {α : Type} [DecidableEq α] (old first second : α) : α :=
  if first ≠ old then first else if second ≠ old then second else old

/-- The settings with the changed fields of two edits taken from these, and all other fields as they
were initially. -/
def combine (initial first second : Settings) : Settings where
  usernameEnabled := edited initial.usernameEnabled first.usernameEnabled second.usernameEnabled
  emailEnabled := edited initial.emailEnabled first.emailEnabled second.emailEnabled
  phoneEnabled := edited initial.phoneEnabled first.phoneEnabled second.phoneEnabled
  excludedKeywords :=
    edited initial.excludedKeywords first.excludedKeywords second.excludedKeywords
  blockReserved := edited initial.blockReserved first.blockReserved second.blockReserved
  excludeKeywords := edited initial.excludeKeywords first.excludeKeywords second.excludeKeywords
  usernameCaseSensitive := edited initial.usernameCaseSensitive first.usernameCaseSensitive
    second.usernameCaseSensitive
  asciiOnly := edited initial.asciiOnly first.asciiOnly second.asciiOnly
  emailCaseSensitive :=
    edited initial.emailCaseSensitive first.emailCaseSensitive second.emailCaseSensitive
  ignoreDot := edited initial.ignoreDot first.ignoreDot second.ignoreDot
  allowPlus := edited initial.allowPlus first.allowPlus second.allowPlus

/-- An edit is the same seen through a function that keeps different things apart. -/
theorem map_edited {α β : Type} [DecidableEq α] [DecidableEq β] {g : α → β}
    (hg : ∀ x y, g x = g y ↔ x = y) (old first second : α) :
    g (edited old first second) = edited (g old) (g first) (g second) := by
  simp only [edited, ne_eq, hg, apply_ite g]

theorem bool_edited (old first second : Bool) :
    FieldValue.bool (edited old first second) = edited (.bool old) (.bool first) (.bool second) :=
  map_edited (fun x y => by rw [FieldValue.bool.injEq]) old first second

/-- Settings are combined field by field. -/
theorem get_combine (initial first second : Settings) (f : Field) :
    (initial.combine first second).get f = edited (initial.get f) (first.get f) (second.get f) := by
  cases f with
  | enabled t => cases t <;> exact bool_edited _ _ _
  | excludedKeywords => exact map_edited (fun x y => by rw [FieldValue.list.injEq]) _ _ _
  | _ => exact bool_edited _ _ _

variable {initial first second : Settings} {f : Field}

/-- A field differs after both edits if it differs after one of them. -/
theorem get_combine_ne_iff : (initial.combine first second).get f ≠ initial.get f
    ↔ first.get f ≠ initial.get f ∨ second.get f ≠ initial.get f := by
  rw [get_combine, edited]
  split
  · simp_all
  · split <;> simp_all

/-- A field that only the first one edits has the value of the first one. -/
theorem get_combine_first (h : second.get f = initial.get f) :
    (initial.combine first second).get f = first.get f := by
  rw [get_combine, edited]
  by_cases hf : first.get f = initial.get f
  · simp [hf, h]
  · simp [hf]

/-- A field that only the second one edits has the value of the second one. -/
theorem get_combine_second (h : first.get f = initial.get f) :
    (initial.combine first second).get f = second.get f := by
  rw [get_combine, edited]
  by_cases hs : second.get f = initial.get f
  · simp [hs, h]
  · simp [hs, h]

end Settings

/-! ## The fields that a patch writes -/

namespace Field

/-- What holds of one of the fields listed holds of some field. -/
instance (P : Field → Prop) [DecidablePred P] : Decidable (∃ f, P f) :=
  decidable_of_iff (∃ f ∈ all, P f) ⟨fun ⟨f, _, h⟩ => ⟨f, h⟩, fun ⟨f, h⟩ => ⟨f, mem_all f, h⟩⟩

/-- The fields in the order in which they are written, with one field for the keywords. -/
def writingOrder : List Field := all.filter (fun f => !f.isKeywordField) ++ [excludedKeywords]

end Field

namespace Settings

variable {initial first second current : Settings} {f : Field}

instance (initial current : Settings) (f : Field) : Decidable (initial.Rewrites current f) :=
  inferInstanceAs (Decidable (_ ∨ _ ∧ ∃ _ : Field, _ ∧ _))

/-- The fields about keywords are rewritten together. -/
theorem rewrites_of_isKeywordField {g : Field} (hf : f.isKeywordField = true)
    (hg : g.isKeywordField = true) (h : initial.Rewrites current g) :
    initial.Rewrites current f := by
  rw [rewrites_iff_of_isKeywordField hg] at h
  exact (rewrites_iff_of_isKeywordField hf).2 h

/-- Both edits rewrite what one of them does. -/
theorem rewrites_combine_iff : initial.Rewrites (initial.combine first second) f
    ↔ initial.Rewrites first f ∨ initial.Rewrites second f := by
  simp only [Rewrites, get_combine_ne_iff]
  grind

theorem any_isKeywordField_changedFields (initial current : Settings) :
    (current.changedFields initial).any Field.isKeywordField
      = decide (initial.Rewrites current .excludedKeywords) := by
  rw [Bool.eq_iff_iff, decide_eq_true_eq, any_changedFields_iff,
    rewrites_iff_of_isKeywordField rfl]

/-- The written fields are those that are rewritten, in the order of writing. -/
theorem written_eq_filter (initial current : Settings) :
    initial.written current
      = Field.writingOrder.filter fun f => decide (initial.Rewrites current f) := by
  rw [written, Field.writingOrder, List.filter_append, any_isKeywordField_changedFields,
    changedFields, List.filter_filter, List.filter_filter]
  congr 1
  · refine List.filter_congr fun f _ => ?_
    cases hf : f.isKeywordField with
    | true => simp
    | false => simp [rewrites_iff_of_not_isKeywordField hf]
  · by_cases h : initial.Rewrites current .excludedKeywords <;> simp [h]

/-- Two edits of different fields, where the fields for keywords count as one. -/
def DisjointEdits (initial first second : Settings) : Prop :=
  ∀ f, ¬(initial.Rewrites first f ∧ initial.Rewrites second f)

theorem DisjointEdits.symm (h : initial.DisjointEdits first second) :
    initial.DisjointEdits second first :=
  fun f hf => h f hf.symm

/-- Of the fields that one patch with all edits writes those of the first edit are the ones that
the patch of this edit writes. -/
theorem filter_written_combine (initial first second : Settings) :
    (initial.written (initial.combine first second)).filter
        (fun f => decide (initial.Rewrites first f)) = initial.written first := by
  rw [written_eq_filter, written_eq_filter, List.filter_filter]
  refine List.filter_congr fun f _ => ?_
  rw [Bool.eq_iff_iff, Bool.and_eq_true, decide_eq_true_eq, decide_eq_true_eq,
    rewrites_combine_iff]
  exact ⟨fun h => h.1, fun h => ⟨h, .inl h⟩⟩

/-- What both edits write and the first one does not is what the second one writes. -/
theorem filter_not_written_combine (h : initial.DisjointEdits first second) :
    (initial.written (initial.combine first second)).filter
        (fun f => !decide (initial.Rewrites first f)) = initial.written second := by
  rw [written_eq_filter, written_eq_filter, List.filter_filter]
  refine List.filter_congr fun f _ => ?_
  rw [Bool.eq_iff_iff, Bool.and_eq_true, Bool.not_eq_true', decide_eq_false_iff_not,
    decide_eq_true_eq, decide_eq_true_eq, rewrites_combine_iff]
  constructor
  · rintro ⟨hfirst, hfirst' | hsecond⟩
    · exact absurd hfirst' hfirst
    · exact hsecond
  · exact fun hsecond => ⟨fun hfirst => h f ⟨hfirst, hsecond⟩, .inr hsecond⟩

/-- It does not matter which of two edits is named first. -/
theorem combine_comm (h : initial.DisjointEdits first second) :
    initial.combine first second = initial.combine second first := by
  refine ext_get fun f => ?_
  by_cases hf : first.get f = initial.get f
  · rw [get_combine_second hf, get_combine_first hf]
  · have hs : second.get f = initial.get f :=
      Decidable.byContradiction fun hs => h f ⟨.inl hf, .inl hs⟩
    rw [get_combine_first hs, get_combine_second hs]

theorem rewrites_of_mem_written (h : f ∈ initial.written current) :
    initial.Rewrites current f := by
  rw [written_eq_filter, List.mem_filter, decide_eq_true_eq] at h
  exact h.2

end Settings
end LoginSettings
