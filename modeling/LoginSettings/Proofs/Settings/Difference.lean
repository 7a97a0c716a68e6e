import LoginSettings.Proofs.Session.Runs

/-!
# Differences between settings

Which fields differ between two records of settings, and what it takes to get from one to the other:
setting each field that differs, in any order. Reading, setting and comparing go through the same
eleven fields, so that neither can miss one that the others know.

A value of the wrong kind is refused, and what settings there are stays; a session shows this, since
it goes on after a failure.

* `changedFields_comm` — it does not matter which record is named first
* `foldlM_set` — fields set one after another, from the values of another record
* `changedFields_set` — the difference and the way to take it away
-/

namespace LoginSettings.Settings

variable {s s' : Settings} {f : Field} {v : FieldValue}

theorem changedFields_comm (a b : Settings) : a.changedFields b = b.changedFields a := by
  unfold changedFields
  refine List.filter_congr fun f _ => ?_
  rw [decide_eq_decide]
  exact ne_comm

/-- Setting fails exactly on values of the other kind. -/
theorem set_eq_error_iff (s : Settings) :
    (∃ e, s.set f v = .error e) ↔ v.kind ≠ f.kind := by
  constructor
  · rintro ⟨e, he⟩ hkind
    obtain ⟨s', hset⟩ := exists_set s hkind
    rw [hset] at he
    cases he
  · intro hkind
    exact ⟨_, set_of_kind_ne s hkind⟩

/-- Fields can be set one after another to the values that they have in other settings, and then
they have these. -/
theorem foldlM_set (source s : Settings) (fields : List Field) :
    ∃ s', fields.foldlM (fun s f => s.set f (source.get f)) s = .ok s'
      ∧ ∀ g, s'.get g = if g ∈ fields then source.get g else s.get g := by
  induction fields generalizing s with
  | nil => exact ⟨s, rfl, by simp⟩
  | cons f fields ih =>
    obtain ⟨next, hnext⟩ := exists_set s (kind_get source f)
    obtain ⟨s', hrest, hget⟩ := ih next
    refine ⟨s', ?_, fun g => ?_⟩
    · rw [List.foldlM_cons, hnext]
      exact hrest
    · rw [hget, get_of_set hnext]
      by_cases hg : g = f
      · simp [hg]
      · simp [hg]

/-- Settings whose differing fields have all been set from others are these others. -/
theorem foldlM_set_changedFields {source s : Settings} {fields : List Field}
    (h : fields.Perm (source.changedFields s)) :
    fields.foldlM (fun s f => s.set f (source.get f)) s = .ok source := by
  obtain ⟨s', hrun, hget⟩ := foldlM_set source s fields
  have hsource : s' = source := by
    refine ext_get fun g => ?_
    rw [hget]
    split
    · rfl
    · rename_i hg
      rw [h.mem_iff, mem_changedFields] at hg
      exact (Decidable.not_not.1 hg).symm
  rw [hrun, hsource]

/-- **Comparing and setting agree.** The fields in which two records differ are listed in the order
of all fields; without any the records are the same, and setting them in any order makes one record
the other. A field takes values of its kind only, and no other field changes with it; a session that
is asked for anything else stays as it is. -/
theorem changedFields_set (a b : Settings) :
    (a.changedFields b).Sublist Field.all
    ∧ (∀ f, f ∈ a.changedFields b ↔ a.get f ≠ b.get f)
    ∧ a.changedFields b = b.changedFields a
    ∧ (a.changedFields b = [] ↔ a = b)
    ∧ (∀ fields : List Field, fields.Perm (a.changedFields b) →
      fields.foldlM (fun s f => s.set f (a.get f)) b = .ok a)
    ∧ ∀ f v, ((∃ e, a.set f v = .error e) ↔ v.kind ≠ f.kind)
      ∧ (v.kind ≠ f.kind → ∀ h : Session.History, (h.step (.set f v)).2 = h)
      ∧ ∀ s', a.set f v = .ok s' → s'.get f = v ∧ ∀ g, g ≠ f → s'.get g = a.get g := by
  refine ⟨List.filter_sublist, fun f => mem_changedFields, changedFields_comm a b,
    changedFields_eq_nil_iff, fun fields h => foldlM_set_changedFields h, fun f v => ?_⟩
  refine ⟨set_eq_error_iff a, ?_, ?_⟩
  · intro hkind h
    rw [h.step_set_of_kind_ne hkind]
  · intro s' hset
    constructor
    · rw [get_of_set hset, if_pos rfl]
    · intro g hg
      rw [get_of_set hset, if_neg hg]

/-- The same keywords in another order, and plus signs. The last field is set first; what is no list
cannot be set as the keywords. -/
theorem changedFields_set_reordered :
    let a : Settings := { excludedKeywords := ["root", "staff"], allowPlus := false }
    let b : Settings := { excludedKeywords := ["staff", "root"] }
    [.allowPlus, .excludedKeywords].Perm (a.changedFields b)
    ∧ [Field.allowPlus, .excludedKeywords].foldlM (fun s f => s.set f (a.get f)) b = .ok a
    ∧ (FieldValue.bool true).kind ≠ Field.excludedKeywords.kind
    ∧ (∃ e, a.set .excludedKeywords (.bool true) = .error e)
    ∧ ∃ s', a.set .allowPlus (.bool true) = .ok s' ∧ s'.get .allowPlus = .bool true
      ∧ s'.get .excludedKeywords = .list ["root", "staff"] := by
  intro a b
  obtain ⟨-, -, -, -, hrun, hset⟩ := changedFields_set a b
  have hperm : [.allowPlus, .excludedKeywords].Perm (a.changedFields b) := by decide
  have hkind : (FieldValue.bool true).kind ≠ Field.excludedKeywords.kind := by decide
  obtain ⟨hallow, hother⟩ := (hset .allowPlus (.bool true)).2.2 _ rfl
  exact ⟨hperm, hrun _ hperm, hkind, (hset _ _).1.2 hkind, _, rfl, hallow,
    hother .excludedKeywords (by decide)⟩

end LoginSettings.Settings
