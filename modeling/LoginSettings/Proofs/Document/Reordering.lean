import LoginSettings.Proofs.Document.Commute
import LoginSettings.Proofs.Json.Spelling

/-!
# Members in another order

The same value can be written with the members of its objects in many orders. Reordering one into
another is a matter of exchanging neighbours; as long as these have different keys, the document
that is read stays the same.

* `Reordered.inOrder_eq` — brought into order, a value and a reordered one are the same
* `reordered_of_perm` — members with different keys may be put in any order
* `Reordered.members` — what is known of members that have been reordered
-/

namespace LoginSettings

namespace Value

/-- One value comes from another by exchanging neighbouring members with different keys, anywhere in
it and as often as one likes. Members with the same key keep their order, by which the last of them
counts. -/
inductive Reordered : Value → Value → Prop where
  | refl (v : Value) : Reordered v v
  | trans {u v w : Value} (h : Reordered u v) (h' : Reordered v w) : Reordered u w
  | item (front back : List Value) {v w : Value} (h : Reordered v w) :
    Reordered (.array (front ++ v :: back)) (.array (front ++ w :: back))
  | member (front back : List (String × Value)) (key : String) {v w : Value} (h : Reordered v w) :
    Reordered (.object (front ++ (key, v) :: back)) (.object (front ++ (key, w) :: back))
  | swap (front back : List (String × Value)) {m n : String × Value} (h : m.1 ≠ n.1) :
    Reordered (.object (front ++ m :: n :: back)) (.object (front ++ n :: m :: back))

variable {u v w : Value} {items : List Value} {ms : List (String × Value)}

/-! ## Bringing into order -/

theorem itemsInOrder_append (front back : List Value) :
    itemsInOrder (front ++ back) = itemsInOrder front ++ itemsInOrder back := by
  induction front with
  | nil => rfl
  | cons v front ih => rw [List.cons_append, itemsInOrder, itemsInOrder, ih, List.cons_append]

theorem membersInOrder_append (sorted front back : List (String × Value)) :
    membersInOrder sorted (front ++ back) = membersInOrder (membersInOrder sorted front) back := by
  induction front generalizing sorted with
  | nil => simp only [List.nil_append, membersInOrder]
  | cons m front ih =>
    obtain ⟨key, v⟩ := m
    rw [List.cons_append, membersInOrder, membersInOrder, ih]

/-- **Brought into order, a value and a reordered one are the same.** -/
theorem Reordered.inOrder_eq (h : Reordered v w) : v.inOrder = w.inOrder := by
  induction h with
  | refl v => rfl
  | trans _ _ ih ih' => exact ih.trans ih'
  | item front back _ ih =>
    rw [inOrder, inOrder, itemsInOrder_append, itemsInOrder_append, itemsInOrder, itemsInOrder, ih]
  | member front back key _ ih =>
    rw [inOrder, inOrder, membersInOrder_append, membersInOrder_append, membersInOrder,
      membersInOrder, ih]
  | @swap front back m n hne =>
    obtain ⟨key, v⟩ := m
    obtain ⟨key', w⟩ := n
    have increasing := (ordered_membersInOrder front [] .nil (by simp)).1
    rw [inOrder, inOrder, membersInOrder_append, membersInOrder_append]
    simp only [membersInOrder]
    rw [Members.insert_comm hne.symm _ _ increasing]

/-! ## Values that are reordered part by part -/

/-- An array is reordered item by item. -/
theorem reordered_map_items (f : Value → Value) (h : ∀ v ∈ items, Reordered v (f v)) :
    Reordered (.array items) (.array (items.map f)) := by
  suffices hfront : ∀ front : List Value,
      Reordered (.array (front ++ items)) (.array (front ++ items.map f)) from hfront []
  induction items with
  | nil => exact fun front => .refl _
  | cons v items ih =>
    obtain ⟨hv, hitems⟩ := List.forall_mem_cons.1 h
    intro front
    have hrest := ih hitems (front ++ [f v])
    rw [List.append_assoc, List.append_assoc] at hrest
    exact (Reordered.item front items hv).trans hrest

/-- An object is reordered member by member. -/
theorem reordered_map_members (f : Value → Value) (h : ∀ m ∈ ms, Reordered m.2 (f m.2)) :
    Reordered (.object ms) (.object (ms.map fun m => (m.1, f m.2))) := by
  suffices hfront : ∀ front : List (String × Value), Reordered (.object (front ++ ms))
      (.object (front ++ ms.map fun m => (m.1, f m.2))) from hfront []
  induction ms with
  | nil => exact fun front => .refl _
  | cons m ms ih =>
    obtain ⟨hm, hmembers⟩ := List.forall_mem_cons.1 h
    intro front
    have hrest := ih hmembers (front ++ [(m.1, f m.2)])
    rw [List.append_assoc, List.append_assoc] at hrest
    exact (Reordered.member front ms m.1 hm).trans hrest

/-- **Members with different keys may be put in any order.** -/
theorem reordered_of_perm {ns : List (String × Value)} (h : ms.Perm ns)
    (hkeys : (ms.map (·.1)).Nodup) : Reordered (.object ms) (.object ns) := by
  suffices hfront : ∀ front : List (String × Value),
      Reordered (.object (front ++ ms)) (.object (front ++ ns)) from hfront []
  induction h with
  | nil => exact fun front => .refl _
  | @cons m ms ns _ ih =>
    rw [List.map_cons, List.nodup_cons] at hkeys
    intro front
    have hrest := ih hkeys.2 (front ++ [m])
    rwa [List.append_assoc, List.append_assoc] at hrest
  | swap n m ms =>
    have hne : m.1 ≠ n.1 := by
      intro heq
      simp [heq] at hkeys
    exact fun front => .swap front ms hne
  | @trans ms ns more hperm _ ih ih' =>
    intro front
    exact (ih hkeys front).trans (ih' ((hperm.map _).nodup_iff.1 hkeys) front)

/-! ## What a reordered value is -/

/-- Values without objects, which there is nothing to reorder in. -/
inductive Plain : Value → Prop where
  | null : Plain .null
  | bool (b : Bool) : Plain (.bool b)
  | number (n : Number) : Plain (.number n)
  | string (s : String) : Plain (.string s)
  | array {items : List Value} (h : ∀ v ∈ items, Plain v) : Plain (.array items)

/-- Where there are no objects nothing can be reordered. -/
theorem Reordered.eq_of_plain (h : Reordered v w) (hv : Plain v) : w = v := by
  induction h with
  | refl v => rfl
  | trans _ _ ih ih' =>
    have heq := ih hv
    rw [heq] at ih'
    exact ih' hv
  | item front back _ ih =>
    cases hv with
    | array hitems => rw [ih (hitems _ (by simp))]
  | member => cases hv
  | swap => cases hv

/-- Members have been reordered: they have the same keys, and each of them is a member of before
with its value reordered. -/
structure MembersReordered (ms ns : List (String × Value)) : Prop where
  keys : (ns.map (·.1)).Perm (ms.map (·.1))
  forth : ∀ m ∈ ms, ∃ w, (m.1, w) ∈ ns ∧ Reordered m.2 w
  back : ∀ n ∈ ns, ∃ v, (n.1, v) ∈ ms ∧ Reordered v n.2

theorem MembersReordered.refl (ms : List (String × Value)) :
    MembersReordered ms ms where
  keys := .refl _
  forth m hm := ⟨m.2, hm, .refl _⟩
  back m hm := ⟨m.2, hm, .refl _⟩

theorem MembersReordered.trans {ns more : List (String × Value)}
    (h : MembersReordered ms ns) (h' : MembersReordered ns more) :
    MembersReordered ms more where
  keys := h'.keys.trans h.keys
  forth m hm := by
    obtain ⟨v, hv, hm⟩ := h.forth m hm
    obtain ⟨w, hw, hv⟩ := h'.forth _ hv
    exact ⟨w, hw, hm.trans hv⟩
  back n hn := by
    obtain ⟨v, hv, hn⟩ := h'.back n hn
    obtain ⟨u, hu, hv⟩ := h.back _ hv
    exact ⟨u, hu, hv.trans hn⟩

/-- **A reordered object is an object with reordered members.** -/
theorem Reordered.members (h : Reordered (.object ms) w) :
    ∃ ns, w = .object ns ∧ MembersReordered ms ns := by
  generalize hv : Value.object ms = v at h
  induction h generalizing ms with
  | refl v => exact ⟨ms, hv.symm, .refl ms⟩
  | trans _ _ ih ih' =>
    obtain ⟨ns, hothers, h⟩ := ih hv
    obtain ⟨more, hmore, h'⟩ := ih' hothers.symm
    exact ⟨more, hmore, h.trans h'⟩
  | item => cases hv
  | @member front back key v w h _ =>
    cases hv
    refine ⟨_, rfl, by simp, fun m hm => ?_, fun n hn => ?_⟩
    · simp only [List.mem_append, List.mem_cons] at hm ⊢
      rcases hm with hm | rfl | hm
      · exact ⟨m.2, .inl hm, .refl _⟩
      · exact ⟨w, .inr (.inl rfl), h⟩
      · exact ⟨m.2, .inr (.inr hm), .refl _⟩
    · simp only [List.mem_append, List.mem_cons] at hn ⊢
      rcases hn with hn | rfl | hn
      · exact ⟨n.2, .inl hn, .refl _⟩
      · exact ⟨v, .inr (.inl rfl), h⟩
      · exact ⟨n.2, .inr (.inr hn), .refl _⟩
  | @swap front back m n _ =>
    cases hv
    have hperm : (front ++ n :: m :: back).Perm (front ++ m :: n :: back) :=
      (List.Perm.swap m n back).append_left front
    exact ⟨_, rfl, hperm.map _, fun x hx => ⟨x.2, hperm.mem_iff.2 hx, .refl _⟩,
      fun x hx => ⟨x.2, hperm.mem_iff.1 hx, .refl _⟩⟩

/-- Where no member has an object in it, the members are the same in another order. -/
theorem Reordered.perm_of_plain (h : Reordered (.object ms) w) (hplain : ∀ m ∈ ms, Plain m.2) :
    ∃ ns, w = .object ns ∧ ns.Perm ms := by
  generalize hv : Value.object ms = v at h
  induction h generalizing ms with
  | refl v => exact ⟨ms, hv.symm, .refl ms⟩
  | trans _ _ ih ih' =>
    obtain ⟨ns, hothers, hperm⟩ := ih hplain hv
    obtain ⟨more, hmore, hperm'⟩ :=
      ih' (fun m hm => hplain m (hperm.mem_iff.1 hm)) hothers.symm
    exact ⟨more, hmore, hperm'.trans hperm⟩
  | item => cases hv
  | @member front back key v w h _ =>
    cases hv
    rw [h.eq_of_plain (hplain (key, v) (by simp))]
    exact ⟨_, rfl, .refl _⟩
  | swap front back _ =>
    cases hv
    exact ⟨_, rfl, (List.Perm.swap _ _ back).append_left front⟩

end Value

/-! ## Texts of reordered values -/

namespace Json

open Value (Reordered)

variable {v w : Value}

/-- A reordered value can be spelled, too. -/
theorem Whole.reordered (hv : Whole v) (h : Reordered v w) : Whole w := by
  induction h with
  | refl v => exact hv
  | trans _ _ ih ih' => exact ih' (ih hv)
  | item front back _ ih =>
    cases hv with
    | array hitems =>
      refine .array fun x hx => ?_
      simp only [List.mem_append, List.mem_cons] at hx
      rcases hx with hx | rfl | hx
      · exact hitems x (by simp [hx])
      · exact ih (hitems _ (by simp))
      · exact hitems x (by simp [hx])
  | member front back key _ ih =>
    cases hv with
    | object hmembers =>
      refine .object fun x hx => ?_
      simp only [List.mem_append, List.mem_cons] at hx
      rcases hx with hx | rfl | hx
      · exact hmembers x (by simp [hx])
      · exact ih (hmembers (key, _) (by simp))
      · exact hmembers x (by simp [hx])
  | swap front back _ =>
    cases hv with
    | object hmembers =>
      refine .object fun x hx => hmembers x ?_
      exact ((List.Perm.swap _ _ back).append_left front).mem_iff.1 hx

theorem itemsNesting_append (front back : List Value) :
    itemsNesting (front ++ back) = max (itemsNesting front) (itemsNesting back) := by
  induction front with
  | nil => simp [itemsNesting]
  | cons v front ih => rw [List.cons_append, itemsNesting, itemsNesting, ih, Nat.max_assoc]

theorem membersNesting_append (front back : List (String × Value)) :
    membersNesting (front ++ back) = max (membersNesting front) (membersNesting back) := by
  induction front with
  | nil => simp [membersNesting]
  | cons m front ih =>
    rw [List.cons_append, membersNesting, membersNesting, ih, Nat.max_assoc]

/-- Reordering changes nothing about the depth. -/
theorem nesting_reordered (h : Reordered v w) : nesting w = nesting v := by
  induction h with
  | refl v => rfl
  | trans _ _ ih ih' => exact ih'.trans ih
  | item front back _ ih =>
    rw [nesting, nesting, itemsNesting_append, itemsNesting_append, itemsNesting, itemsNesting, ih]
  | member front back key _ ih =>
    rw [nesting, nesting, membersNesting_append, membersNesting_append, membersNesting,
      membersNesting, ih]
  | @swap front back m n _ =>
    rw [nesting, nesting, membersNesting_append, membersNesting_append]
    simp only [membersNesting]
    rw [Nat.max_left_comm (nesting n.2)]

end Json
end LoginSettings
