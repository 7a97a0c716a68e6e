import LoginSettings.Proofs.Yaml.Lexing
import LoginSettings.Yaml.Node

/-!
# Values as nodes

The tokens of a value are read as the node of the value, whatever stands behind them. Only the items
of a sequence behind a key, which no token ends, ask for something else than another item there.

* `readsNode` — values, by induction on the value
* `ofTokens?_valueTokens` — values that are all of a document
-/

namespace LoginSettings

/-- Induction on values, with the parts of arrays and objects as members of their lists. -/
@[elab_as_elim]
theorem Value.induction_mem {motive : Value → Prop} (null : motive .null)
    (bool : ∀ b, motive (.bool b)) (number : ∀ n, motive (.number n))
    (string : ∀ s, motive (.string s))
    (array : ∀ items, (∀ v ∈ items, motive v) → motive (.array items))
    (object : ∀ members, (∀ m ∈ members, motive m.2) → motive (.object members)) (v : Value) :
    motive v :=
  @Value.rec motive (fun items => ∀ v ∈ items, motive v) (fun members => ∀ m ∈ members, motive m.2)
    (fun m => motive m.2) null bool number string array object nofun
    (fun _ _ hv hvs => List.forall_mem_cons.2 ⟨hv, hvs⟩) nofun
    (fun _ _ hm hms => List.forall_mem_cons.2 ⟨hm, hms⟩) (fun _ _ hv => hv) v

namespace Yaml

variable {hs : Handles} {context : Context} {absent : Token → Bool} {plain placed : Bool}
  {text : List Char} {v : Value} {ts rest : List Token}

/-! ## The nodes of values -/

/-- The node of a text. -/
def textNode (text : List Char) : Node := .scalar .none (styleOf text = .plain) text

mutual

/-- The node that is read for a value. -/
def nodeOf : Value → Node
  | .null => .scalar .none true "null".toList
  | .bool b => .scalar .none true (if b then "true".toList else "false".toList)
  | .number n => .scalar .none true (numberText n)
  | .string s => textNode s.toList
  | .array items => .sequence .none (itemNodes items)
  | .object members => .mapping .none (memberNodes members)

/-- The nodes of items. -/
def itemNodes : List Value → List Node
  | [] => []
  | v :: vs => nodeOf v :: itemNodes vs

/-- The nodes of keys and values. -/
def memberNodes : List (String × Value) → List (Node × Node)
  | [] => []
  | (key, v) :: ms => (textNode key.toList, nodeOf v) :: memberNodes ms

end

/-! ## Tokens that start nodes -/

@[simp] theorem readNode_scalar :
    readNode hs context (.scalar plain text :: rest) = some (.scalar .none plain text, rest) := by
  rw [readNode]
  rfl

@[simp] theorem readNode_sequenceStart :
    readNode hs context (.sequenceStart :: rest)
      = (readFlowItems hs true rest).map (.sequence .none) := by
  rw [readNode]
  rfl

@[simp] theorem readNode_mappingStart :
    readNode hs context (.mappingStart :: rest)
      = (readFlowPairs hs true rest).map (.mapping .none) := by
  rw [readNode]
  rfl

theorem readNode_blockSequenceStart (h : context ≠ .flow) :
    readNode hs context (.blockSequenceStart :: rest)
      = (readBlockItems hs rest).map (.sequence .none) := by
  rw [readNode]
  exact if_neg h

theorem readNode_blockMappingStart (h : context ≠ .flow) :
    readNode hs context (.blockMappingStart :: rest)
      = (readBlockPairs hs rest).map (.mapping .none) := by
  rw [readNode]
  exact if_neg h

theorem readNode_blockEntry :
    readNode hs .blockMember (.blockEntry :: rest)
      = (readEntries hs rest).map (.sequence .none) := by
  rw [readNode]
  rfl

theorem readFlowItems_sequenceEnd {first : Bool} :
    readFlowItems hs first (.sequenceEnd :: rest) = some ([], rest) := by
  rw [readFlowItems]

theorem readFlowPairs_mappingEnd {first : Bool} :
    readFlowPairs hs first (.mappingEnd :: rest) = some ([], rest) := by
  rw [readFlowPairs]

/-- The first token of a value. It is the sign of an item only where a sequence is `placed`. -/
theorem exists_valueTokens (placed : Bool) (v : Value) :
    ∃ t ts, valueTokens placed v = t :: ts ∧ startsExplicitly t = false ∧ endsMember t = false ∧
      (placed = false → endsEntry t = false) := by
  cases v with
  | array items =>
    cases items with
    | nil => exact ⟨.sequenceStart, _, rfl, rfl, rfl, fun _ => rfl⟩
    | cons v vs =>
      cases placed with
      | true => exact ⟨.blockEntry, _, rfl, rfl, rfl, nofun⟩
      | false => exact ⟨.blockSequenceStart, _, rfl, rfl, rfl, fun _ => rfl⟩
  | object members =>
    cases members with
    | nil => exact ⟨.mappingStart, _, rfl, rfl, rfl, fun _ => rfl⟩
    | cons m ms => exact ⟨.blockMappingStart, _, rfl, rfl, rfl, fun _ => rfl⟩
  | _ => exact ⟨_, _, rfl, rfl, rfl, fun _ => rfl⟩

/-- A value is not left out. -/
theorem readOptional_valueTokens (placed : Bool) (v : Value) (rest : List Token)
    (habsent : ∀ t, endsMember t = false → (placed = false → endsEntry t = false) →
      absent t = false) :
    readOptional hs context absent (valueTokens placed v ++ rest)
      = readNode hs context (valueTokens placed v ++ rest) := by
  obtain ⟨t, ts, htokens, -, hmember, hentry⟩ := exists_valueTokens placed v
  rw [htokens, List.cons_append, readOptional, habsent t hmember hentry]
  rfl

/-! ## Reading the tokens of values -/

/-- Holds of values that are read as their nodes, whatever follows. Behind a key no item may follow
a sequence. -/
def ReadsNode (hs : Handles) (v : Value) : Prop :=
  ∀ {context placed rest}, context ≠ .flow →
    (placed = true → context = .blockMember ∧ rest.head? ≠ some .blockEntry) →
    readNode hs context (valueTokens placed v ++ rest) = some (nodeOf v, rest)

theorem ReadsNode.readNode_of_not_placed (h : ReadsNode hs v) (hcontext : context ≠ .flow)
    (rest : List Token) :
    readNode hs context (valueTokens false v ++ rest) = some (nodeOf v, rest) :=
  h hcontext fun hplaced => absurd hplaced Bool.false_ne_true

/-- Items that are read up to the end of their block. -/
theorem readBlockItems_itemTokens {items : List Value} (h : ∀ v ∈ items, ReadsNode hs v) :
    readBlockItems hs (itemTokens items ++ .blockEnd :: rest) = some (itemNodes items, rest) := by
  induction items with
  | nil =>
    rw [itemTokens, List.nil_append, readBlockItems]
    rfl
  | cons v vs ih =>
    obtain ⟨hv, hvs⟩ := List.forall_mem_cons.1 h
    have hnode : readNode hs .block (valueTokens false v ++ (itemTokens vs ++ .blockEnd :: rest))
        = some (nodeOf v, itemTokens vs ++ .blockEnd :: rest) :=
      hv.readNode_of_not_placed (by decide) _
    rw [itemTokens, List.append_assoc, List.cons_append, readBlockItems,
      readOptional_valueTokens _ _ _ fun _ _ hentry => hentry rfl, hnode]
    simp [ih hvs, Read.map, itemNodes]

/-- Items that are read from behind the sign of the first one up to something that is no item. -/
theorem readEntries_itemTokens {vs : List Value} (hrest : rest.head? ≠ some .blockEntry)
    (hv : ReadsNode hs v) (h : ∀ w ∈ vs, ReadsNode hs w) :
    readEntries hs (valueTokens false v ++ (itemTokens vs ++ rest))
      = some (nodeOf v :: itemNodes vs, rest) := by
  have hnode : ∀ {v us}, ReadsNode hs v →
      readOptional hs .block endsPlacedEntry (valueTokens false v ++ us) = some (nodeOf v, us) := by
    intro v us hv
    rw [readOptional_valueTokens _ _ _ fun t hmember hentry => by
      simp [endsPlacedEntry, hmember, hentry]]
    exact hv.readNode_of_not_placed (by decide) _
  induction vs generalizing v with
  | nil =>
    rw [readEntries, hnode hv]
    cases rest with
    | nil => rfl
    | cons t ts =>
      have ht : t ≠ .blockEntry := fun ht => hrest (congrArg some ht)
      simp [itemTokens, itemNodes, ht]
  | cons w ws ih =>
    obtain ⟨hw, hws⟩ := List.forall_mem_cons.1 h
    have hlength : (valueTokens false w ++ (itemTokens ws ++ rest)).length
        < (valueTokens false v ++ (itemTokens (w :: ws) ++ rest)).length := by
      simp [itemTokens]
      omega
    rw [readEntries, hnode hv]
    simp only [itemTokens, List.cons_append, List.append_assoc] at hlength ⊢
    rw [if_pos hlength, ih hw hws]
    rfl

/-- Members that are read up to the end of their block. -/
theorem readBlockPairs_memberTokens {members : List (String × Value)}
    (h : ∀ m ∈ members, ReadsNode hs m.2) :
    readBlockPairs hs (memberTokens members ++ .blockEnd :: rest)
      = some (memberNodes members, rest) := by
  induction members with
  | nil =>
    rw [memberTokens, List.nil_append, readBlockPairs]
    rfl
  | cons m ms ih =>
    obtain ⟨key, v⟩ := m
    obtain ⟨hv, hms⟩ := List.forall_mem_cons.1 h
    -- what follows a member is another one or the end of the block
    have hnext : (memberTokens ms ++ .blockEnd :: rest).head? ≠ some .blockEntry := by
      cases ms <;> simp [memberTokens]
    have hvalue : readMember hs .blockMember endsMember
        (.value :: (valueTokens (isSimpleKey key) v ++ (memberTokens ms ++ .blockEnd :: rest)))
          = some (nodeOf v, memberTokens ms ++ .blockEnd :: rest) := by
      rw [readMember, readOptional_valueTokens _ _ _ fun _ hmember _ => hmember]
      exact hv (by decide) fun _ => ⟨rfl, hnext⟩
    have hkey : ∀ {us}, readOptional hs .blockMember endsMember (textToken key.toList :: us)
        = some (textNode key.toList, us) := by
      intro us
      rw [readOptional]
      exact readNode_scalar
    rw [memberTokens]
    simp only [List.cons_append, List.append_assoc]
    rw [readBlockPairs, hkey]
    simp [hvalue, ih hms, Read.map, memberNodes]
    omega

/-- **The tokens of a value are read as its node.** -/
theorem readsNode (hs : Handles) (v : Value) : ReadsNode hs v := by
  induction v using Value.induction_mem with
  | null | bool _ | number _ | string _ => exact fun _ _ => readNode_scalar
  | array items ih =>
    intro context placed rest hcontext hplaced
    cases items with
    | nil => simp [valueTokens, readFlowItems_sequenceEnd, Read.map, nodeOf, itemNodes]
    | cons v vs =>
      cases placed with
      | true =>
        -- Behind a key the items are no block, and end where no further item follows.
        obtain ⟨rfl, hrest⟩ := hplaced rfl
        obtain ⟨hv, hvs⟩ := List.forall_mem_cons.1 ih
        have hitems := readEntries_itemTokens hrest hv hvs
        simp [valueTokens, itemTokens, readNode_blockEntry, hitems, Read.map, nodeOf, itemNodes]
      | false =>
        simp [valueTokens, readNode_blockSequenceStart hcontext, readBlockItems_itemTokens ih,
          Read.map, nodeOf]
  | object members ih =>
    intro context placed rest hcontext hplaced
    cases members with
    | nil => simp [valueTokens, readFlowPairs_mappingEnd, Read.map, nodeOf, memberNodes]
    | cons m ms =>
      simp [valueTokens, readNode_blockMappingStart hcontext, readBlockPairs_memberTokens ih,
        Read.map, nodeOf]

/-- **The tokens of a value make its node** where they are all of a document. -/
theorem ofTokens?_valueTokens (v : Value) :
    Node.ofTokens? (valueTokens false v) = some (nodeOf v) := by
  obtain ⟨t, ts, htokens, hstart, -⟩ := exists_valueTokens false v
  have hread : readNode [] .block (valueTokens false v ++ []) = some (nodeOf v, []) :=
    ReadsNode.readNode_of_not_placed (readsNode [] v) (by decide) []
  rw [List.append_nil, htokens] at hread
  rw [htokens, Node.ofTokens?]
  simp [hstart, hread]

end Yaml
end LoginSettings
