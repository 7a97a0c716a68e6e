import LoginSettings.Json.Scalar

/-!
# Read JSON

A JSON text is read once, into a tree of nodes that keeps what decoding may ask for: where each
value starts and stops, the members of objects in the order of the text with repeated keys, and the
damage at the place where reading stopped. A decoder walks the tree in the order of the text and so
meets faults of the text and faults of the data in the order in which they stand there.

Nodes also come from values that are in memory; those have no places and no damage.
-/

namespace LoginSettings.Json

open Text (Place)

/-- Where a value starts, as reports name it, and where it stops. -/
structure Extent where
  start : Place
  stop : Place
deriving DecidableEq, Repr

/-- The key of a member; `stop` is where reading stands before the colon is looked for. -/
structure Key where
  text : Except SyntaxError String
  stop : Option Place

/-- A value on its way to being decoded. -/
inductive Node where
  | scalar (extent : Option Extent) (scalar : Scalar)
  | array (extent : Option Extent) (tooDeep : Bool) (items : List Node) (damage : Option Damage)
  /-- An object; `inside` is the position behind its opening brace. -/
  | object (extent : Option Extent) (tooDeep : Bool) (inside : Option Cursor)
      (members : List (Key × Node)) (damage : Option Damage)
  /-- A value that cannot be read; `stands` is the character that it starts with, if reading came
  to its start at all. -/
  | broken (start : Place) (stands : Option Char) (damage : Damage)

/-- The deepest nesting that is read. -/
def greatestDepth : Nat := 127

/-! ## Reading -/

/-- What is read of the parts of an array or object. -/
structure Parts (α : Type) (c : Cursor) where
  parts : List α
  damage : Option Damage
  after : After c

namespace Parts

/-- The parts with one more in front, from a position that is not before `c`. -/
def prepend {α : Type} {c d : Cursor} (h : d.rest.length ≤ c.rest.length) (part : α)
    (ps : Parts α d) : Parts α c :=
  ⟨part :: ps.parts, ps.damage, Cursor.widen h ps.after⟩

/-- Parts that end in damage. -/
def damaged {α : Type} {c : Cursor} (parts : List α) (damage : Damage) : Parts α c :=
  ⟨parts, some damage, none⟩

end Parts

/-- The node of a scalar that is read from `c`. -/
def ofScalar (c : Cursor) : ScalarReading → Node × After c
  | .found scalar after => (.scalar (some ⟨c.ahead, after.place⟩) scalar, c.onward after)
  | .damaged damage => (.broken c.ahead c.rest.head? damage, none)

mutual

/-- Reads a value that stands in `depth` arrays and objects. -/
def readNode (depth : Nat) (c₀ : Cursor) : Node × After c₀ :=
  let c := c₀.skip
  have hc : c.rest.length ≤ c₀.rest.length := c₀.length_skip_le
  let scalar (found : ScalarReading) : Node × After c₀ :=
    let (node, after) := ofScalar c found
    (node, Cursor.widen hc after)
  match hrest : c.rest with
  | [] => (.broken c.ahead none (.same .endInValue c.ahead), none)
  | x :: _ =>
    have hnext : c.next.rest.length < c₀.rest.length :=
      Nat.lt_of_lt_of_le (Cursor.length_next_lt (by simp [hrest])) hc
    if x = 'n' then scalar (readLiteral .null ['u', 'l', 'l'] c.next)
    else if x = 't' then scalar (readLiteral (.bool true) ['r', 'u', 'e'] c.next)
    else if x = 'f' then scalar (readLiteral (.bool false) ['a', 'l', 's', 'e'] c.next)
    else if x = '-' ∨ x.isDigit then scalar (readNumber c)
    else if x = '"' then scalar (readString ⟨[], none⟩ (c.place.past '"') c.next.rest)
    else if x = '[' then
      let items := readItems (depth + 1) c.next
      let stop := (items.after.map (·.1.place)).getD c.place
      (.array (some ⟨c.ahead, stop⟩) (greatestDepth ≤ depth) items.parts items.damage,
        Cursor.widen (Nat.le_of_lt hnext) items.after)
    else if x = '{' then
      let members := readMembers (depth + 1) c.next
      let stop := (members.after.map (·.1.place)).getD c.place
      (.object (some ⟨c.ahead, stop⟩) (greatestDepth ≤ depth) (some c.next) members.parts
        members.damage, Cursor.widen (Nat.le_of_lt hnext) members.after)
    else (.broken c.ahead (some x) (.same .expectedValue c.ahead), none)
termination_by 3 * c₀.rest.length + 0
decreasing_by all_goals first | omega | (simp +zetaDelta only at *; omega)

/-- Reads the items of an array from behind its opening bracket. -/
def readItems (depth : Nat) (c₀ : Cursor) : Parts Node c₀ :=
  let c := c₀.skip
  have hc : c.rest.length ≤ c₀.rest.length := c₀.length_skip_le
  match c.rest with
  | [] => .damaged [] (.same .endInArray c.ahead)
  | ']' :: _ => ⟨[], none, Cursor.widen hc (c.onward c.next)⟩
  | _ =>
    let items := readMoreItems depth c
    ⟨items.parts, items.damage, Cursor.widen hc items.after⟩
termination_by 3 * c₀.rest.length + 2
decreasing_by all_goals first | omega | (simp +zetaDelta only at *; omega)

/-- Reads an item and the items that follow it. -/
def readMoreItems (depth : Nat) (c₀ : Cursor) : Parts Node c₀ :=
  match readNode depth c₀ with
  | (node, none) => ⟨[node], none, none⟩
  | (node, some ⟨d, hd⟩) =>
    let c := d.skip
    have hc : c.rest.length < c₀.rest.length := Nat.lt_of_le_of_lt d.length_skip_le hd
    match hrest : c.rest with
    | [] => .damaged [node] (.same .endInArray c.ahead)
    | ']' :: _ => ⟨[node], none, c₀.onward c.next⟩
    | ',' :: _ =>
      let e := c.next.skip
      have he : e.rest.length < c₀.rest.length :=
        Nat.lt_of_le_of_lt c.next.length_skip_le
          (Nat.lt_trans (Cursor.length_next_lt (by simp [hrest])) hc)
      match e.rest with
      | [] => .damaged [node] (.same .endInValue e.ahead)
      | ']' :: _ => .damaged [node] ⟨⟨.trailingComma, e.ahead⟩, ⟨.expectedValue, e.ahead⟩⟩
      | _ => (readMoreItems depth e).prepend (Nat.le_of_lt he) node
    | _ => .damaged [node] (.same .expectedCommaOrBracket c.ahead)
termination_by 3 * c₀.rest.length + 1
decreasing_by all_goals first | omega | (simp +zetaDelta only at *; omega)

/-- Reads the members of an object from behind its opening brace. -/
def readMembers (depth : Nat) (c₀ : Cursor) : Parts (Key × Node) c₀ :=
  let c := c₀.skip
  have hc : c.rest.length ≤ c₀.rest.length := c₀.length_skip_le
  match c.rest with
  | [] => .damaged [] (.same .endInObject c.ahead)
  | '}' :: _ => ⟨[], none, Cursor.widen hc (c.onward c.next)⟩
  | '"' :: _ =>
    let members := readMoreMembers depth c
    ⟨members.parts, members.damage, Cursor.widen hc members.after⟩
  | _ => .damaged [] (.same .keyNotString c.ahead)
termination_by 3 * c₀.rest.length + 2
decreasing_by all_goals first | omega | (simp +zetaDelta only at *; omega)

/-- Reads a member from the opening quote of its key, and the members that follow it. -/
def readMoreMembers (depth : Nat) (c₀ : Cursor) : Parts (Key × Node) c₀ :=
  match readString ⟨[], none⟩ (c₀.place.past '"') c₀.next.rest with
  | .damaged damage => .damaged [] damage
  | .found (.string text) d =>
    match c₀.onward d with
    | none => .damaged [] (.same .endInObject d.ahead)
    | some ⟨d, hd⟩ =>
      let c := d.skip
      have hc : c.rest.length < c₀.rest.length := Nat.lt_of_le_of_lt d.length_skip_le hd
      let key : Key := ⟨text, some c.place⟩
      match hrest : c.rest with
      | [] => ⟨[(key, .broken c.ahead none (.same .endInObject c.ahead))], none, none⟩
      | ':' :: _ =>
        have hnext : c.next.rest.length < c₀.rest.length :=
          Nat.lt_trans (Cursor.length_next_lt (by simp [hrest])) hc
        match readNode depth c.next with
        | (node, none) => ⟨[(key, node)], none, none⟩
        | (node, some ⟨e, he⟩) =>
          let f := e.skip
          have hf : f.rest.length < c₀.rest.length :=
            Nat.lt_of_le_of_lt e.length_skip_le (Nat.lt_trans he hnext)
          match hrest' : f.rest with
          | [] => .damaged [(key, node)] (.same .endInObject f.ahead)
          | '}' :: _ => ⟨[(key, node)], none, c₀.onward f.next⟩
          | ',' :: _ =>
            let g := f.next.skip
            have hg : g.rest.length < c₀.rest.length :=
              Nat.lt_of_le_of_lt f.next.length_skip_le
                (Nat.lt_trans (Cursor.length_next_lt (by simp [hrest'])) hf)
            match g.rest with
            | [] => .damaged [(key, node)] ⟨⟨.endInValue, g.ahead⟩, ⟨.endInObject, g.ahead⟩⟩
            | '"' :: _ => (readMoreMembers depth g).prepend (Nat.le_of_lt hg) (key, node)
            | '}' :: _ =>
              .damaged [(key, node)] ⟨⟨.trailingComma, g.ahead⟩, ⟨.keyNotString, g.ahead⟩⟩
            | _ => .damaged [(key, node)] (.same .keyNotString g.ahead)
          | _ => .damaged [(key, node)] (.same .expectedCommaOrBrace f.ahead)
      | _ => ⟨[(key, .broken c.ahead none (.same .expectedColon c.ahead))], none, none⟩
  | .found _ d => .damaged [] (.same .keyNotString d.ahead)
termination_by 3 * c₀.rest.length + 1
decreasing_by all_goals first | omega | (simp +zetaDelta only at *; omega)

end

namespace Node

/-- The tree of a text and, where the reading came to the end of the value, the first place after it
that is not blank, unless the text ends there. -/
def ofText (text : String) : Node × Option SyntaxError :=
  match readNode 0 (Cursor.ofText text) with
  | (node, none) => (node, none)
  | (node, some ⟨d, _⟩) =>
    let c := d.skip
    (node, if c.rest.isEmpty then none else some ⟨.trailingCharacters, c.ahead⟩)

mutual

/-- The tree of a value in memory. -/
def ofValue : Value → Node
  | .null => .scalar none .null
  | .bool b => .scalar none (.bool b)
  | .number n => .scalar none (.number (.ok n))
  | .string s => .scalar none (.string (.ok s))
  | .array items => .array none false (ofItems items) none
  | .object members => .object none false none (ofMembers members) none

/-- The trees of items in memory. -/
def ofItems : List Value → List Node
  | [] => []
  | v :: vs => ofValue v :: ofItems vs

/-- The keys and trees of members in memory. -/
def ofMembers : List (String × Value) → List (Key × Node)
  | [] => []
  | (key, v) :: rest => (⟨.ok key, none⟩, ofValue v) :: ofMembers rest

end

/-- Where the node starts and stops, if it comes from a text. -/
def extent? : Node → Option Extent
  | scalar extent _ => extent
  | array extent _ _ _ => extent
  | object extent _ _ _ _ => extent
  | broken start _ _ => some ⟨start, start⟩

/-- Where the node stops, if it comes from a text. -/
def stop? (n : Node) : Option Place := n.extent?.map Extent.stop

/-- The damage as an error if there is any. -/
def noDamage : Option Damage → Except SyntaxError Unit
  | none => .ok ()
  | some d => .error d.wanted

/-- Fails if a node is nested too deep. -/
def notTooDeep (tooDeep : Bool) (extent : Option Extent) : Except SyntaxError Unit :=
  match tooDeep, extent with
  | true, some e => .error ⟨.tooDeep, e.start⟩
  | _, _ => .ok ()

mutual

/-- The value of a node all of which is wanted, with the members of objects in the order of the
text, or the first fault in that order. -/
def value : Node → Except SyntaxError Value
  | scalar _ .null => .ok .null
  | scalar _ (.bool b) => .ok (.bool b)
  | scalar _ (.number n) => n.map .number
  | scalar _ (.string s) => s.map .string
  | array extent tooDeep items damage => do
    notTooDeep tooDeep extent
    let items ← itemValues items
    noDamage damage
    pure (.array items)
  | object extent tooDeep _ members damage => do
    notTooDeep tooDeep extent
    let members ← memberValues members
    noDamage damage
    pure (.object members)
  | broken _ _ damage => .error damage.wanted

/-- The values of items. -/
def itemValues : List Node → Except SyntaxError (List Value)
  | [] => .ok []
  | n :: ns => do
    let v ← value n
    let vs ← itemValues ns
    pure (v :: vs)

/-- The keys and values of members. -/
def memberValues : List (Key × Node) → Except SyntaxError (List (String × Value))
  | [] => .ok []
  | (key, n) :: rest => do
    let key ← key.text
    let v ← value n
    let rest ← memberValues rest
    pure ((key, v) :: rest)

end

mutual

/-- Passes over a node; only damage to the form of the text is a fault. -/
def passOver : Node → Except SyntaxError Unit
  | scalar _ _ => .ok ()
  | array _ _ items damage => do
    passOverItems items
    match damage with
    | none => pure ()
    | some d => .error d.passed
  | object _ _ _ members damage => do
    passOverMembers members
    match damage with
    | none => pure ()
    | some d => .error d.passed
  | broken _ _ damage => .error damage.passed

/-- Passes over items. -/
def passOverItems : List Node → Except SyntaxError Unit
  | [] => .ok ()
  | n :: ns => do
    passOver n
    passOverItems ns

/-- Passes over members. -/
def passOverMembers : List (Key × Node) → Except SyntaxError Unit
  | [] => .ok ()
  | (_, n) :: rest => do
    passOver n
    passOverMembers rest

end

end Node

/-- The value that a text spells, with the members of objects in the order of the text. -/
def readValue (text : String) : Except SyntaxError Value := do
  let (node, trailing) := Node.ofText text
  let v ← node.value
  match trailing with
  | none => pure v
  | some e => .error e

end LoginSettings.Json
