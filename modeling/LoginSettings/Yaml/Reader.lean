import LoginSettings.Yaml.Node
import LoginSettings.Yaml.Resolution

/-!
# Reading YAML

From nodes to values. First anchors and aliases are linked: an alias means the last anchor of its
name before it. Anchors are numbered by how many names were known before them, so that an anchor
whose name is used again can get the number of a later one; a number means the last node that got
it.

Then the nodes become values. Following an alias can come back to where it started, so only so many
steps along aliases are allowed as the document's size permits, and only so deep a nesting.
-/

namespace LoginSettings.Yaml

/-! ## Linking -/

/-- A node in which aliases are numbers of anchors. -/
inductive Linked where
  | alias (number : Nat)
  | scalar (tag : Option (List UInt8)) (plain : Bool) (text : List Char)
  | sequence (tag : Option (List UInt8)) (items : List Linked)
  | mapping (tag : Option (List UInt8)) (pairs : List (Linked × Linked))

/-- The numbers that names of anchors mean. -/
abbrev Anchors := List (List Char × Nat)

/-- The number that a name means. -/
def Anchors.number? (as : Anchors) (name : List Char) : Option Nat :=
  (List.find? (fun a => a.1 = name) as).map (·.2)

/-- The numbers once another anchor has been met. -/
def Anchors.add (as : Anchors) (name : List Char) : Anchors :=
  (name, as.length) :: as.filter fun a => a.1 ≠ name

/-- The nodes that numbers were given to, in the order of the text. -/
abbrev Targets := List (Nat × Linked)

/-- The node that a number means. -/
def Targets.find? (ts : Targets) (number : Nat) : Option Linked :=
  (List.find? (fun t => t.1 = number) ts.reverse).map (·.2)

/-- What is linked, the numbers after it and the nodes in it that were given numbers. -/
structure Linking (α : Type) where
  linked : α
  anchors : Anchors
  targets : Targets

/-- The anchors known inside a node. -/
def Properties.anchors (p : Properties) (as : Anchors) : Anchors :=
  match p.anchor with
  | .none => as
  | .some name => as.add name

/-- The result for a node, from the result for its parts. -/
def Linking.node {α : Type} (p : Properties) (as : Anchors) (f : α → Linked) (l : Linking α) :
    Linking Linked :=
  let n := f l.linked
  ⟨n, l.anchors, if p.anchor.isSome then (as.length, n) :: l.targets else l.targets⟩

mutual

/-- Links a node. -/
def link (as : Anchors) : Node → Option (Linking Linked)
  | .alias name => (as.number? name).map fun n => ⟨.alias n, as, []⟩
  | .scalar p plain text =>
    some (Linking.node p as (fun _ => .scalar p.tag plain text) ⟨(), p.anchors as, []⟩)
  | .sequence p items => (linkItems (p.anchors as) items).map (Linking.node p as (.sequence p.tag))
  | .mapping p pairs => (linkPairs (p.anchors as) pairs).map (Linking.node p as (.mapping p.tag))

/-- Links items. -/
def linkItems (as : Anchors) : List Node → Option (Linking (List Linked))
  | [] => some ⟨[], as, []⟩
  | n :: ns => do
    let l ← link as n
    let ls ← linkItems l.anchors ns
    pure ⟨l.linked :: ls.linked, ls.anchors, l.targets ++ ls.targets⟩

/-- Links pairs, keys before values. -/
def linkPairs (as : Anchors) : List (Node × Node) → Option (Linking (List (Linked × Linked)))
  | [] => some ⟨[], as, []⟩
  | (key, value) :: rest => do
    let k ← link as key
    let v ← link k.anchors value
    let ls ← linkPairs v.anchors rest
    pure ⟨(k.linked, v.linked) :: ls.linked, ls.anchors, k.targets ++ v.targets ++ ls.targets⟩

end

mutual

/-- The size of a node: a scalar or an alias counts once, and all else once for either end. -/
def Node.size : Node → Nat
  | .alias _ => 1
  | .scalar _ _ _ => 1
  | .sequence _ items => 2 + sizeOfItems items
  | .mapping _ pairs => 2 + sizeOfPairs pairs

/-- The size of items. -/
def sizeOfItems : List Node → Nat
  | [] => 0
  | n :: ns => n.size + sizeOfItems ns

/-- The size of pairs. -/
def sizeOfPairs : List (Node × Node) → Nat
  | [] => 0
  | (key, value) :: rest => key.size + value.size + sizeOfPairs rest

end

/-! ## Values -/

/-- The deepest nesting of a document. -/
def greatestDepth : Nat := 128

/-- The text of a key, which is a scalar or an alias of one, and how many steps along aliases are
left. -/
def keyText (ts : Targets) (steps : Nat) : Linked → Option (String × Nat)
  | .scalar _ _ text => some (String.ofList text, steps)
  | .alias number =>
    match steps, ts.find? number with
    | steps + 1, some (.scalar _ _ text) => some (String.ofList text, steps)
    | _, _ => none
  | _ => none

mutual

/-- The value of a node, and how many of the steps along aliases are left. -/
def load (ts : Targets) (steps depth : Nat) : Linked → Option (Value × Nat)
  | .alias number =>
    match steps with
    | 0 => none
    | steps + 1 =>
      match ts.find? number with
      | none => none
      | some n => load ts steps depth n
  | .scalar tag plain text => (scalarValue tag plain text).map fun v => (v, steps)
  | .sequence tag items =>
    match depth with
    | 0 => none
    | depth + 1 =>
      if tag.any isLocal then none
      else (loadItems ts steps depth items).map fun (vs, left) => (.array vs, left)
  | .mapping tag pairs =>
    match depth with
    | 0 => none
    | depth + 1 =>
      if tag.any isLocal then none
      else (loadPairs ts steps depth pairs).map fun (ms, left) => (.object ms, left)
termination_by n => (steps, sizeOf n)

/-- The values of items. -/
def loadItems (ts : Targets) (steps depth : Nat) : List Linked → Option (List Value × Nat)
  | [] => some ([], steps)
  | n :: ns =>
    match load ts steps depth n with
    | none => none
    | some (v, left) =>
      if left ≤ steps then
        (loadItems ts left depth ns).map fun (vs, left) => (v :: vs, left)
      else none
termination_by ns => (steps, sizeOf ns)
decreasing_by
  · decreasing_tactic
  · rcases Nat.lt_or_eq_of_le ‹left ≤ steps› with h | h
    · exact Prod.Lex.left _ _ h
    · subst h; decreasing_tactic

/-- The keys and values of pairs. -/
def loadPairs (ts : Targets) (steps depth : Nat) :
    List (Linked × Linked) → Option (List (String × Value) × Nat)
  | [] => some ([], steps)
  | (key, n) :: rest =>
    match keyText ts steps key with
    | none => none
    | some (key, left) =>
      if left ≤ steps then
        match load ts left depth n with
        | none => none
        | some (v, left') =>
          if left' ≤ left then
            (loadPairs ts left' depth rest).map fun (ms, left) => ((key, v) :: ms, left)
          else none
      else none
termination_by pairs => (steps, sizeOf pairs)
decreasing_by
  · rcases Nat.lt_or_eq_of_le ‹left ≤ steps› with h | h
    · exact Prod.Lex.left _ _ h
    · subst h; decreasing_tactic
  · rcases Nat.lt_or_eq_of_le (Nat.le_trans ‹left' ≤ left› ‹left ≤ steps›) with h | h
    · exact Prod.Lex.left _ _ h
    · subst h; decreasing_tactic

end

/-- The value of the node of a document, with the members of mappings in the order of the text. -/
def Node.value? (n : Node) : Option Value := do
  let l ← link [] n
  let (v, _) ← load l.targets (100 * n.size) greatestDepth l.linked
  pure v

/-- The value that a text spells, if it is one document that can be read. -/
def readValue (text : String) : Option Value := do
  let ts ← tokens text
  let node ← Node.ofTokens? ts
  node.value?

end LoginSettings.Yaml
