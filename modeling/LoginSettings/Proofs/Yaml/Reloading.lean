import LoginSettings.Proofs.Yaml.KeptEnds
import LoginSettings.Proofs.Yaml.Nodes
import LoginSettings.Proofs.Yaml.Printable
import LoginSettings.Yaml.Reader

/-!
# Written values read back

The node of a value has no anchors, so nothing is linked and no steps along aliases are taken: it is
loaded as the value, if it is not nested too deep. With the tokens of the text this is a round trip.

* `loadsAs_of_whole` — nodes, by induction on the value
* `readValue_render`, `readValue_render_lineFeed` — whole texts
-/

namespace LoginSettings.Yaml

variable {v : Value} {text : List Char} {ts : Targets} {steps depth : Nat}

/-! ## Linking and loading -/

/-- Holds of values whose nodes are linked without anchors, and loaded as the values from there. -/
def LoadsAs (v : Value) : Prop :=
  ∃ l, (∀ as, link as (nodeOf v) = some ⟨l, as, []⟩) ∧
    ∀ ts steps depth, Json.nesting v ≤ depth → load ts steps depth l = some (v, steps)

theorem link_scalar (as : Anchors) (plain : Bool) (text : List Char) :
    link as (.scalar .none plain text) = some ⟨.scalar none plain text, as, []⟩ := by
  rw [link]
  rfl

theorem load_scalar {plain : Bool} (h : scalarValue none plain text = some v) :
    load ts steps depth (.scalar none plain text) = some (v, steps) := by
  rw [load, h]
  rfl

/-- The text of a string is not taken for anything else. -/
theorem scalarValue_textNode (text : List Char) :
    scalarValue none (styleOf text = .plain) text = some (.string (String.ofList text)) := by
  by_cases hstyle : styleOf text = .plain
  · rw [scalarValue, if_pos (decide_eq_true hstyle)]
    exact (standsPlain_of_styleOf hstyle).2
  · rw [scalarValue, if_neg (by simpa using hstyle)]

theorem loadsAs_of_scalar {plain : Bool} (hnode : nodeOf v = .scalar .none plain text)
    (h : scalarValue none plain text = some v) : LoadsAs v := by
  refine ⟨.scalar none plain text, fun as => ?_, fun _ _ _ _ => load_scalar h⟩
  rw [hnode]
  exact link_scalar as plain text

theorem loadItems_itemNodes {items : List Value} (h : ∀ v ∈ items, LoadsAs v) :
    ∃ ls, (∀ as, linkItems as (itemNodes items) = some ⟨ls, as, []⟩) ∧
      ∀ ts steps depth, Json.itemsNesting items ≤ depth →
        loadItems ts steps depth ls = some (items, steps) := by
  induction items with
  | nil => exact ⟨[], fun as => by rw [itemNodes, linkItems], fun _ _ _ _ => by rw [loadItems]⟩
  | cons v vs ih =>
    obtain ⟨hv, hvs⟩ := List.forall_mem_cons.1 h
    obtain ⟨l, hlink, hload⟩ := hv
    obtain ⟨ls, hlinks, hloads⟩ := ih hvs
    refine ⟨l :: ls, fun as => ?_, fun ts steps depth hdepth => ?_⟩
    · rw [itemNodes, linkItems, hlink]
      simp [hlinks]
    · rw [Json.itemsNesting, Nat.max_le] at hdepth
      rw [loadItems, hload ts steps depth hdepth.1]
      simp [hloads ts steps depth hdepth.2]

theorem loadPairs_memberNodes {members : List (String × Value)}
    (h : ∀ m ∈ members, LoadsAs m.2) :
    ∃ ls, (∀ as, linkPairs as (memberNodes members) = some ⟨ls, as, []⟩) ∧
      ∀ ts steps depth, Json.membersNesting members ≤ depth →
        loadPairs ts steps depth ls = some (members, steps) := by
  induction members with
  | nil => exact ⟨[], fun as => by rw [memberNodes, linkPairs], fun _ _ _ _ => by rw [loadPairs]⟩
  | cons m ms ih =>
    obtain ⟨key, v⟩ := m
    obtain ⟨hv, hms⟩ := List.forall_mem_cons.1 h
    obtain ⟨l, hlink, hload⟩ := hv
    obtain ⟨ls, hlinks, hloads⟩ := ih hms
    refine ⟨(.scalar none (styleOf key.toList = .plain) key.toList, l) :: ls, fun as => ?_,
      fun ts steps depth hdepth => ?_⟩
    · rw [memberNodes, linkPairs, textNode, link_scalar]
      simp [hlink, hlinks]
    · rw [Json.membersNesting, Nat.max_le] at hdepth
      rw [loadPairs, keyText]
      simp [hload ts steps depth hdepth.1, hloads ts steps depth hdepth.2]

/-- **The node of a value is loaded as the value.** -/
theorem loadsAs_of_whole (hwhole : Json.Whole v) : LoadsAs v := by
  induction hwhole with
  | null => exact loadsAs_of_scalar rfl plainValue_null
  | bool b => exact loadsAs_of_scalar rfl (plainValue_bool b)
  | number hleast hgreatest => exact loadsAs_of_scalar rfl (plainValue_intDigits hleast hgreatest)
  | string s =>
    have hstring := scalarValue_textNode s.toList
    rw [String.ofList_toList] at hstring
    exact loadsAs_of_scalar rfl hstring
  | @array items _ ih =>
    obtain ⟨ls, hlinks, hloads⟩ := loadItems_itemNodes ih
    refine ⟨.sequence none ls, fun as => ?_, fun ts steps depth hdepth => ?_⟩
    · rw [nodeOf, link, Properties.anchors]
      simp [hlinks, Linking.node, Properties.none]
    · -- One level of the depth that is left is for the array itself.
      obtain ⟨depth, rfl⟩ := Nat.exists_eq_add_of_le' (Nat.le_trans (Nat.le_add_left 1 _) hdepth)
      rw [load]
      simp [hloads ts steps depth (Nat.le_of_succ_le_succ hdepth)]
  | @object members _ ih =>
    obtain ⟨ls, hlinks, hloads⟩ := loadPairs_memberNodes ih
    refine ⟨.mapping none ls, fun as => ?_, fun ts steps depth hdepth => ?_⟩
    · rw [nodeOf, link, Properties.anchors]
      simp [hlinks, Linking.node, Properties.none]
    · obtain ⟨depth, rfl⟩ := Nat.exists_eq_add_of_le' (Nat.le_trans (Nat.le_add_left 1 _) hdepth)
      rw [load]
      simp [hloads ts steps depth (Nat.le_of_succ_le_succ hdepth)]

/-! ## Whole texts -/

theorem value?_nodeOf (hwhole : Json.Whole v) (hdepth : Json.nesting v ≤ greatestDepth) :
    (nodeOf v).value? = some v := by
  obtain ⟨l, hlink, hload⟩ := loadsAs_of_whole hwhole
  rw [Node.value?, hlink]
  simp [hload _ _ _ hdepth]

theorem readValue_of_tokens {text : String} (htokens : tokens text = some (valueTokens false v))
    (hwhole : Json.Whole v) (hdepth : Json.nesting v ≤ greatestDepth) :
    readValue text = some v := by
  rw [readValue, htokens]
  simp [ofTokens?_valueTokens, value?_nodeOf hwhole hdepth]

/-- **What is written for a value is read as the value.** -/
theorem readValue_render (hwhole : Json.Whole v) (hdepth : Json.nesting v ≤ greatestDepth) :
    readValue (render v) = some v :=
  readValue_of_tokens (tokens_render hwhole) hwhole hdepth

/-- **One more line feed, behind another line end, does not count just if the last line ends once.**
Behind a line that ends twice it becomes part of the last string. -/
theorem readValue_render_lineFeed (hwhole : Json.Whole v)
    (hdepth : Json.nesting v ≤ greatestDepth) (hlast : (render v).toList.getLast? ≠ some '\n') :
    ∃ w, readValue (render v ++ "\n") = some w ∧ (v.Ordered → w.Ordered) ∧
      (w = v ↔ endsTwice (render v).toList = false) := by
  cases htwice : endsTwice (render v).toList with
  | false =>
    exact ⟨v, readValue_of_tokens (tokens_render_lineFeed hwhole hlast htwice) hwhole hdepth, id,
      by simp⟩
  | true =>
    -- The text with the line feed is the one of another value, and so is read as that.
    rw [render_eq_body hlast, String.toList_ofList] at htwice
    obtain ⟨w, hw⟩ := exists_extends hwhole htwice
    refine ⟨w, ?_, hw.ordered, by simp [hw.ne]⟩
    rw [← hw.render_eq hlast]
    exact readValue_render hw.whole (hw.nesting ▸ hdepth)

end LoginSettings.Yaml
