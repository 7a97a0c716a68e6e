import Mathlib.Data.List.Basic
import LoginSettings.Proofs.Document.Commute
import LoginSettings.Proofs.Settings.Combine

/-!
# Patches that combine

If two people begin with the same settings and edit different fields, then both edits are in the
document at the end, whichever patch goes in first, and it is the document that one patch with all
the edits makes.

A patch writes one field after another, and fields that stand at different places commute. So do two
types in the list of keys as long as one of them has an entry already: the entries that are put in
for new types stand in the order in which the types have been toggled, so this much is asked for.

* `write_comm` — two fields written in either order
* `foldl_eq_foldl_filter` — edits that commute with all others can be brought to the end
* `Document.patch_patch_eq_patch_combine` — the two orders and the one patch agree
-/

namespace LoginSettings

/-! ## Two fields in either order -/

namespace Value

variable {current : Settings} {root : Value} {f g : Field}

theorem Ordered.write (h : root.Ordered) (current : Settings) (f : Field) :
    (root.write current f).Ordered := by
  unfold Value.write
  split
  · exact h.writeKeywords _
  · exact h.writeField current f

/-- A field is written by putting something in at its place, unless keywords are taken away. -/
theorem write_eq (current : Settings) (f : Field) :
    (∃ g, ∀ root : Value, root.write current f = amend g f.place (some root))
    ∨ f.place = keywordsLocation.place ∧ ∀ root : Value, root.write current f
        = root.eraseAt keywordsLocation.member keywordsLocation.path := by
  induction f using Field.byPlace with
  | enabled t => exact .inl ⟨_, fun root => toggle_eq_amend t (current.enabled t) root⟩
  | flag f hf => exact .inl ⟨_, fun root => write_flag current root hf⟩
  | keyword f hf =>
    by_cases hnil : current.keywords = []
    · refine .inr ⟨Field.place_of_isKeywordField hf, fun root => ?_⟩
      rw [write_keyword current root hf, hnil, writeKeywords_nil]
    · refine .inl ⟨fun _ => ofStrings current.keywords, fun root => ?_⟩
      rw [write_keyword current root hf, writeKeywords_of_ne_nil hnil,
        Field.place_of_isKeywordField hf]

/-- Fields with different places may be written in either order. -/
theorem write_comm_of_place_ne (hroot : root.Ordered) (h : f.place ≠ g.place) :
    (root.write current f).write current g = (root.write current g).write current f := by
  have happart : Apart f.place g.place := Field.apart_place h
  rcases write_eq current f with ⟨writeF, hf⟩ | ⟨hplaceF, hf⟩ <;>
    rcases write_eq current g with ⟨writeG, hg⟩ | ⟨hplaceG, hg⟩
  · rw [hf, hg, hg, hf]
    exact amend_comm writeG writeF happart.symm hroot
  · rw [hplaceG] at happart
    rw [hf, hg, hg, hf]
    exact eraseAt_amend writeF happart hroot
  · rw [hplaceF] at happart
    rw [hf, hg, hg, hf]
    exact (eraseAt_amend writeG happart.symm (o := some root) hroot).symm
  · exact absurd (hplaceF.trans hplaceG.symm) h

/-- Two types can be toggled in either order if one of them has an entry. -/
theorem toggle_comm {s t : KeyType} (hst : s ≠ t) (a b : Bool)
    (h : isListed s (keysOf root) = true ∨ isListed t (keysOf root) = true) :
    (root.toggle s a).toggle t b = (root.toggle t b).toggle s a := by
  have hplace : (Field.enabled s).place = (Field.enabled t).place := rfl
  rw [toggle_eq_amend s, toggle_eq_amend t, toggle_eq_amend t, toggle_eq_amend s, hplace,
    amend_amend, amend_amend]
  refine amend_congr ?_
  have hkeys : (((some root).bind (at? (Field.enabled t).place)).bind items?).getD []
      = keysOf root := (keysOf_eq t root).symm
  simp only [Option.bind_some, items?, Option.getD_some, array.injEq] at hkeys ⊢
  rw [hkeys]
  rcases h with hs | ht
  · exact (toggled_comm_of_isListed hst hs a b).symm
  · exact toggled_comm_of_isListed hst.symm ht b a

/-- **Two fields can be written in either order,** except for the two fields about keywords and for
two types without an entry. -/
theorem write_comm (hroot : root.Ordered) (hne : f ≠ g)
    (hkeyword : ¬(f.isKeywordField = true ∧ g.isKeywordField = true))
    (hlisted : ∀ s t, f = .enabled s → g = .enabled t →
      isListed s (keysOf root) = true ∨ isListed t (keysOf root) = true) :
    (root.write current f).write current g = (root.write current g).write current f := by
  by_cases hplace : f.place = g.place
  · induction f using Field.byPlace with
    | enabled s =>
      induction g using Field.byPlace with
      | enabled t =>
        have hst : s ≠ t := fun h => hne (by rw [h])
        exact toggle_comm hst _ _ (hlisted s t rfl rfl)
      | flag g hg => exact absurd (Field.eq_of_place_eq hg hplace) hne
      | keyword g hg => cases Field.isKeywordField_of_place_eq hg hplace
    | flag f hf => exact absurd (Field.eq_of_place_eq hf hplace.symm).symm hne
    | keyword f hf => exact absurd ⟨hf, Field.isKeywordField_of_place_eq hf hplace.symm⟩ hkeyword
  · exact write_comm_of_place_ne hroot hplace

/-- What is written in a field depends on this field only, or on both fields for keywords. -/
theorem write_congr {other : Settings} (h : current.get f = other.get f)
    (hkeywords : f.isKeywordField = true → current.keywords = other.keywords) :
    root.write current f = root.write other f := by
  cases hf : f.isKeywordField with
  | true => rw [write_keyword current root hf, write_keyword other root hf, hkeywords hf]
  | false => rw [write, write, if_neg (by simp [hf]), if_neg (by simp [hf]), writeField,
      writeField, h]

/-! ## One edit after the other -/

section Folds

variable {op : Value → Field → Value} {P : Value → Prop}

/-- An edit that commutes with all others of a list can be made behind them. -/
theorem foldl_comm (keeps : ∀ v f, P v → P (op v f)) {fields : List Field} {g : Field}
    (comm : ∀ v, P v → ∀ f ∈ fields, op (op v g) f = op (op v f) g) {v : Value} (hv : P v) :
    fields.foldl op (op v g) = op (fields.foldl op v) g := by
  induction fields generalizing v with
  | nil => rfl
  | cons f fields ih =>
    rw [List.foldl_cons, List.foldl_cons, comm v hv f List.mem_cons_self]
    exact ih (fun v hv f hf => comm v hv f (List.mem_cons_of_mem _ hf)) (keeps v f hv)

/-- **Edits that commute with all others can be brought to the end.** -/
theorem foldl_eq_foldl_filter (keeps : ∀ v f, P v → P (op v f)) (first : Field → Bool)
    {fields : List Field}
    (comm : ∀ v, P v → ∀ f ∈ fields, ∀ g ∈ fields, first f = true → first g = false →
      op (op v g) f = op (op v f) g) {v : Value} (hv : P v) :
    fields.foldl op v
      = (fields.filter fun f => !first f).foldl op ((fields.filter first).foldl op v) := by
  induction fields generalizing v with
  | nil => rfl
  | cons g fields ih =>
    have hrest := fun v hv f hf g' hg' =>
      comm v hv f (List.mem_cons_of_mem g hf) g' (List.mem_cons_of_mem g hg')
    rw [List.foldl_cons, ih hrest (keeps v g hv)]
    cases hg : first g with
    | true => rw [List.filter_cons_of_pos hg, List.filter_cons_of_neg (by simp [hg]),
        List.foldl_cons]
    | false =>
      rw [List.filter_cons_of_neg (by simp [hg]), List.filter_cons_of_pos (by simp [hg]),
        List.foldl_cons, foldl_comm keeps (fun v hv f hf => ?_) hv]
      obtain ⟨hf, hfirst⟩ := List.mem_filter.1 hf
      exact comm v hv f (List.mem_cons_of_mem g hf) g List.mem_cons_self hfirst hg

end Folds

/-- Holds of values in order that have an entry for each type with one in `root`. This is what is
known while fields are written into it. -/
structure ListsAll (root v : Value) : Prop where
  ordered : v.Ordered
  listed : ∀ t, isListed t (keysOf root) = true → isListed t (keysOf v) = true

theorem ListsAll.write {v : Value} (h : ListsAll root v) (current : Settings) (f : Field) :
    ListsAll root (v.write current f) where
  ordered := h.ordered.write current f
  listed := fun t ht => by rw [isListed_write, h.listed t ht, Bool.true_or]

end Value

namespace Settings

variable {initial first second : Settings} {f : Field}

/-- A field of the first edit is written for all edits as it is for this one. -/
theorem write_combine_first (h : initial.DisjointEdits first second)
    (hf : initial.Rewrites first f) (root : Value) :
    root.write (initial.combine first second) f = root.write first f := by
  have hget : ∀ g, initial.Rewrites first g →
      (initial.combine first second).get g = first.get g := fun g hg =>
    get_combine_first (Decidable.byContradiction fun hne => h g ⟨hg, .inl hne⟩)
  refine Value.write_congr (hget f hf) fun hkeyword => ?_
  have htexts := hget .excludedKeywords (rewrites_of_isKeywordField rfl hkeyword hf)
  have hgate := hget .excludeKeywords (rewrites_of_isKeywordField rfl hkeyword hf)
  simp only [get, FieldValue.list.injEq, FieldValue.bool.injEq] at htexts hgate
  rw [keywords, keywords, htexts, hgate]

/-- What the second one rewrites is written as the second one says. -/
theorem write_combine_second (h : initial.DisjointEdits first second)
    (hf : initial.Rewrites second f) (root : Value) :
    root.write (initial.combine first second) f = root.write second f := by
  rw [combine_comm h, write_combine_first h.symm hf]

end Settings

namespace Document

/-- Holds of edits that turn on or off a type without an entry in the list of keys. -/
def TogglesUnlisted (d : Document) (initial current : Settings) : Prop :=
  ∃ t, current.enabled t ≠ initial.enabled t ∧ isListed t (keysOf d.root) = false

variable {d : Document} {initial first second : Settings}

theorem togglesUnlisted_of_rewrites {current : Settings} {t : KeyType}
    (h : initial.Rewrites current (.enabled t)) (ht : isListed t (keysOf d.root) = false) :
    d.TogglesUnlisted initial current := by
  rw [Settings.rewrites_iff_of_not_isKeywordField rfl] at h
  exact ⟨t, by simpa [Settings.get] using h, ht⟩

/-- A field of one edit and a field of the other one can be written in either order. -/
theorem write_comm_of_disjointEdits (disjoint : initial.DisjointEdits first second)
    (hlisted : ¬(d.TogglesUnlisted initial first ∧ d.TogglesUnlisted initial second))
    {f g : Field} (hf : initial.Rewrites first f) (hg : initial.Rewrites second g) {v : Value}
    (hv : Value.ListsAll d.root v) (current : Settings) :
    (v.write current g).write current f = (v.write current f).write current g := by
  refine (Value.write_comm hv.ordered ?_ ?_ ?_).symm
  · rintro rfl
    exact disjoint f ⟨hf, hg⟩
  · rintro ⟨hkeyF, hkeyG⟩
    exact disjoint g ⟨Settings.rewrites_of_isKeywordField hkeyG hkeyF hf, hg⟩
  · rintro s t rfl rfl
    cases hs : isListed s (keysOf d.root) with
    | true => exact .inl (hv.listed s hs)
    | false =>
      cases ht : isListed t (keysOf d.root) with
      | true => exact .inr (hv.listed t ht)
      | false =>
        exact absurd ⟨togglesUnlisted_of_rewrites hf hs, togglesUnlisted_of_rewrites hg ht⟩ hlisted

/-- One patch with the edits of two people is a patch with those of the first one, and then one with
those of the second. -/
theorem patch_combine (disjoint : initial.DisjointEdits first second)
    (hlisted : ¬(d.TogglesUnlisted initial first ∧ d.TogglesUnlisted initial second)) :
    d.patch initial (initial.combine first second)
      = (d.patch initial first).patch initial second := by
  have comm : ∀ v, Value.ListsAll d.root v →
      ∀ f ∈ initial.written (initial.combine first second),
      ∀ g ∈ initial.written (initial.combine first second),
      decide (initial.Rewrites first f) = true → decide (initial.Rewrites first g) = false →
      (v.write (initial.combine first second) g).write (initial.combine first second) f
        = (v.write (initial.combine first second) f).write (initial.combine first second) g := by
    intro v hv f _ g hg hf hnot
    rw [decide_eq_false_iff_not] at hnot
    have hg := Settings.rewrites_combine_iff.1 (Settings.rewrites_of_mem_written hg)
    exact write_comm_of_disjointEdits disjoint hlisted (of_decide_eq_true hf)
      (hg.resolve_left hnot) hv _
  apply ext_root
  simp only [patch, Value.patch_eq_foldl]
  rw [Value.foldl_eq_foldl_filter (fun v f hv => hv.write _ f) _ comm ⟨d.ordered, fun _ h => h⟩,
    Settings.filter_written_combine, Settings.filter_not_written_combine disjoint]
  rw [List.foldl_ext _ _ _ fun v f hf => Settings.write_combine_second disjoint
      (Settings.rewrites_of_mem_written hf) v,
    List.foldl_ext _ (Value.write first) _ fun v f hf => Settings.write_combine_first disjoint
      (Settings.rewrites_of_mem_written hf) v]

/-- **Edits of different fields commute and combine.** If not both edits turn on or off a type
without an entry, the patches of the two give the same document in either order, and it is the
document that one patch with all the edits gives. -/
theorem patch_patch_eq_patch_combine (d : Document) {initial first second : Settings}
    (disjoint : initial.DisjointEdits first second)
    (hlisted : ¬(d.TogglesUnlisted initial first ∧ d.TogglesUnlisted initial second)) :
    (d.patch initial first).patch initial second = (d.patch initial second).patch initial first
    ∧ (d.patch initial first).patch initial second
      = d.patch initial (initial.combine first second) := by
  have hfirst := patch_combine disjoint hlisted
  have hsecond := patch_combine disjoint.symm fun h => hlisted h.symm
  rw [Settings.combine_comm disjoint.symm] at hsecond
  exact ⟨hfirst.symm.trans hsecond, hfirst.symm⟩

/-- One edit turns on phone numbers, which have no entry, and makes the section on user names; the
other one turns off e-mail addresses, which have one, and takes away keywords from a section that is
not there unless the first edit has been made. -/
theorem patch_phone_and_email :
    let d := Document.ofValue (.object [("identity", .object [("login_id", .object
      [("keys", .array [.object [("type", .string "email")]]), ("types", .null)])])])
    let initial : Settings :=
      { emailEnabled := true, excludedKeywords := ["root"], excludeKeywords := true }
    let first : Settings := { initial with phoneEnabled := true, asciiOnly := true }
    let second : Settings := { initial with emailEnabled := false, excludeKeywords := false }
    initial.DisjointEdits first second
    ∧ ¬(d.TogglesUnlisted initial first ∧ d.TogglesUnlisted initial second)
    ∧ (d.patch initial first).patch initial second = (d.patch initial second).patch initial first
    ∧ ((d.patch initial second).patch initial first).root
      = .object [("identity", .object [("login_id", .object
          [("keys", .array
            [.object [("type", .string "email"),
              ("verification", .object [("enabled", .bool false)])],
              .object [("type", .string "phone"),
                ("verification", .object [("enabled", .bool true)])]]),
            ("types", .object [("username", .object [("ascii_only", .bool true)])])])])] := by
  intro d initial first second
  have disjoint : initial.DisjointEdits first second := by
    unfold Settings.DisjointEdits
    decide
  have hlisted : ¬(d.TogglesUnlisted initial first ∧ d.TogglesUnlisted initial second) := by
    rintro ⟨-, t, htoggled, hunlisted⟩
    cases t with
    | email => exact absurd hunlisted (by decide)
    | _ => exact htoggled rfl
  obtain ⟨hcomm, hcombine⟩ := patch_patch_eq_patch_combine d disjoint hlisted
  refine ⟨disjoint, hlisted, hcomm, ?_⟩
  rw [← hcomm, hcombine]
  decide

end Document
end LoginSettings
