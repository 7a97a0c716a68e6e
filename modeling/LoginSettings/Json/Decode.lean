import LoginSettings.Json.Node
import LoginSettings.Json.Printer
import LoginSettings.Text.Quoted

/-!
# Decoding

From nodes to data with a fixed shape: booleans, texts, lists of texts, records, choices between
names and tagged alternatives. A decoder meets the parts of a node in the order of the text and
stops at the first fault, be it one of the text or one of the data. Records may be written as
objects, whose unknown members are passed over, or as arrays of their fields in order.
-/

namespace LoginSettings.Json

open Text (Place)

/-! ## Faults -/

/-- What stands where something else was expected. -/
inductive Found where
  | null
  | bool (value : Bool)
  | number (value : Number)
  | string (value : String)
  | sequence
  | map
deriving DecidableEq, Repr

/-- How a report names what was found. -/
def Found.describe : Found → String
  | null => "null"
  | bool b => s!"boolean \x60{String.ofList (boolText b)}\x60"
  | number (.integer n) => s!"integer \x60{String.ofList (Decimal.intDigits n)}\x60"
  | number (.float x) => s!"floating point \x60{String.ofList (numberText (.float x))}\x60"
  | string s => "string " ++ Text.quoted s
  | sequence => "sequence"
  | map => "map"

/-- What is wrong with data whose text is right. -/
inductive DataFault where
  | mismatch (found : Found) (expected : String)
  | badValue (found : Found) (expected : String)
  | badLength (length : Nat) (expected : String)
  | missing (field : String)
  | duplicate (field : String)
  | unknownVariant (name : String) (variants : List String)
  | other (report : String)
deriving DecidableEq, Repr

/-- A name in a report. -/
def ticked (name : String) : String := "\x60" ++ name ++ "\x60"

/-- How a report lists the names that are known. -/
def expectedNames : List String → String
  | [] => "there are no variants"
  | [a] => "expected " ++ ticked a
  | [a, b] => s!"expected {ticked a} or {ticked b}"
  | names => "expected one of " ++ String.intercalate ", " (names.map ticked)

/-- How a fault is reported. -/
def DataFault.message : DataFault → String
  | mismatch found expected => s!"invalid type: {found.describe}, expected {expected}"
  | badValue found expected => s!"invalid value: {found.describe}, expected {expected}"
  | badLength length expected => s!"invalid length {length}, expected {expected}"
  | missing field => s!"missing field {ticked field}"
  | duplicate field => s!"duplicate field {ticked field}"
  | unknownVariant name variants => s!"unknown variant {ticked name}, {expectedNames variants}"
  | other report => report

/-- Why decoding fails: the text is wrong, or the data are. Data in memory have no place. -/
inductive DecodeError where
  | syntaxError (error : SyntaxError)
  | data (fault : DataFault) (place : Option Place)
deriving DecidableEq, Repr

/-- The report with the place, where there is one. -/
def DecodeError.message : DecodeError → String
  | syntaxError e => e.message
  | data fault place => fault.message ++ (place.map Place.describe).getD ""

/-- The report without the place of faults in data. -/
def DecodeError.brief : DecodeError → String
  | syntaxError e => e.message
  | data fault _ => fault.message

/-- The result of decoding. -/
abbrev Decoded (α : Type) := Except DecodeError α

/-- The result of reading as one of decoding. -/
def ofReading {α : Type} : Except SyntaxError α → Decoded α
  | .ok a => .ok a
  | .error e => .error (.syntaxError e)

namespace Node

/-- The place right before a node starts. -/
def beforeStart (extent : Option Extent) : Option Place :=
  extent.map fun e => ⟨e.start.line, e.start.column - 1⟩

/-- What is found where a scalar stands. -/
def foundScalar : Scalar → Except SyntaxError Found
  | .null => .ok .null
  | .bool b => .ok (.bool b)
  | .number n => n.map .number
  | .string s => s.map .string

/-- The fault that a node is not what was expected. A node that cannot be read is reported as
such. -/
def mismatch (n : Node) (expected : String) : DecodeError :=
  match n with
  | broken _ _ damage => .syntaxError damage.wanted
  | scalar extent s =>
    match foundScalar s with
    | .ok found => .data (.mismatch found expected) (extent.map Extent.stop)
    | .error e => .syntaxError e
  | array extent _ _ _ => .data (.mismatch .sequence expected) (beforeStart extent)
  | object extent _ _ _ _ => .data (.mismatch .map expected) (beforeStart extent)

/-! ## Simple data -/

/-- A boolean. -/
def decodeBool : Node → Decoded Bool
  | scalar _ (.bool b) => .ok b
  | n => .error (n.mismatch "a boolean")

/-- A text that is expected under a name. -/
def decodeText (expected : String) : Node → Decoded String
  | scalar _ (.string (.ok s)) => .ok s
  | n => .error (n.mismatch expected)

/-- A text. -/
def decodeString : Node → Decoded String := decodeText "a string"

/-- A number from zero on, of at most sixty-four bits. -/
def decodeSize : Node → Decoded UInt64
  | scalar extent (.number (.ok (.integer n))) =>
    if 0 ≤ n ∧ n < UInt64.size then .ok (.ofNat n.toNat)
    else .error (.data (.badValue (.number (.integer n)) "usize") (extent.map Extent.stop))
  | n => .error (n.mismatch "usize")

/-- Something or null. -/
def decodeOption {α : Type} (decode : Node → Decoded α) : Node → Decoded (Option α)
  | scalar _ .null => .ok none
  | n => (decode n).map some

/-- Items, one after another. -/
def decodeItems {α : Type} (decode : Node → Decoded α) : List Node → Decoded (List α)
  | [] => .ok []
  | n :: ns => do
    let a ← decode n
    let as ← decodeItems decode ns
    pure (a :: as)

/-- A list. -/
def decodeList {α : Type} (decode : Node → Decoded α) : Node → Decoded (List α)
  | array extent tooDeep items damage => do
    ofReading (notTooDeep tooDeep extent)
    let as ← decodeItems decode items
    ofReading (noDamage damage)
    pure as
  | n => .error (n.mismatch "a sequence")

/-- A value of any shape. -/
def decodeValue (n : Node) : Decoded Value := ofReading n.value

end Node

/-! ## Records -/

/-- A field of a record: its name, whether it may be left out of an array, and what is wrong with a
value for it. -/
structure FieldShape where
  name : String
  optional : Bool
  check : Node → Decoded Unit

/-- A field that has to be there. -/
def field {α : Type} (name : String) (decode : Node → Decoded α) : FieldShape :=
  ⟨name, false, fun n => (decode n).map fun _ => ()⟩

/-- A field that may be left out of an array. -/
def optionalField {α : Type} (name : String) (decode : Node → Decoded α) : FieldShape :=
  ⟨name, true, fun n => (decode n).map fun _ => ()⟩

/-- The nodes of a record's fields, and where the record stops. -/
structure Fields where
  nodes : List (String × Node)
  stop : Option Place

namespace Fields

/-- The data of a field that has to be there. -/
def required {α : Type} (fs : Fields) (name : String) (decode : Node → Decoded α) : Decoded α :=
  match Members.find? name fs.nodes with
  | some n => decode n
  | none => .error (.data (.missing name) fs.stop)

/-- The data of a field that may be missing or null. -/
def optional {α : Type} (fs : Fields) (name : String) (decode : Node → Decoded α) :
    Decoded (Option α) :=
  match Members.find? name fs.nodes with
  | some n => n.decodeOption decode
  | none => .ok none

end Fields

namespace Node

/-- The nodes of known fields among the members of an object, each met once. -/
def knownMembers (shapes : List FieldShape) (met : List (String × Node)) :
    List (Key × Node) → Decoded (List (String × Node))
  | [] => .ok met
  | (key, n) :: rest => do
    let name ← ofReading key.text
    match shapes.find? fun s => s.name = name with
    | none =>
      ofReading n.passOver
      knownMembers shapes met rest
    | some s =>
      if (Members.find? name met).isSome then throw (.data (.duplicate name) key.stop)
      s.check n
      knownMembers shapes (met ++ [(name, n)]) rest

/-- What is wrong with items that are left when all fields have theirs. -/
def leftOver (extent : Option Extent) (length : Nat) (damage : Option Damage) :
    List Node → Decoded Unit
  | [] =>
    match damage with
    | none => .ok ()
    | some d =>
      let e := d.wanted
      if e.fault = .expectedCommaOrBracket ∨ e.fault = .endInValue then
        .error (.syntaxError ⟨.trailingCharacters, e.place⟩)
      else .error (.syntaxError e)
  | n :: _ =>
    match extent, n.extent? with
    | some _, some e => .error (.syntaxError ⟨.trailingCharacters, e.start⟩)
    | _, _ => .error (.data (.badLength length "fewer elements in array") none)

/-- The nodes of fields in the order of an array; `done` of them have been met. -/
def fieldItems (expected : String) (stop : Option Place) (damage : Option Damage)
    (leftOver : List Node → Decoded Unit) (done : Nat) :
    List FieldShape → List Node → Decoded (List (String × Node))
  | [], items => do
    leftOver items
    pure []
  | s :: shapes, n :: items => do
    s.check n
    let rest ← fieldItems expected stop damage leftOver (done + 1) shapes items
    pure ((s.name, n) :: rest)
  | s :: shapes, [] => do
    ofReading (noDamage damage)
    if s.optional then fieldItems expected stop damage leftOver (done + 1) shapes []
    else throw (.data (.badLength done expected) stop)

/-- The fields of a record with a title. -/
def fields (title : String) (shapes : List FieldShape) (n : Node) : Decoded Fields :=
  match n with
  | object extent tooDeep _ members damage => do
    ofReading (notTooDeep tooDeep extent)
    let nodes ← knownMembers shapes [] members
    ofReading (noDamage damage)
    pure ⟨nodes, extent.map Extent.stop⟩
  | array extent tooDeep items damage => do
    ofReading (notTooDeep tooDeep extent)
    let stop := extent.map Extent.stop
    let expected := s!"struct {title} with {shapes.length} elements"
    let nodes ← fieldItems expected stop damage (leftOver extent items.length damage) 0 shapes items
    pure ⟨nodes, stop⟩
  | n => .error (n.mismatch ("struct " ++ title))

/-! ## Names -/

/-- One of the known names. -/
def variant {α : Type} (variants : List (String × α)) (place : Option Place) (name : String) :
    Decoded α :=
  match Members.find? name variants with
  | some a => .ok a
  | none => .error (.data (.unknownVariant name (variants.map (·.1))) place)

/-- One of the known names as a text. -/
def decodeVariant {α : Type} (variants : List (String × α)) (n : Node) : Decoded α := do
  let name ← n.decodeText "variant identifier"
  variant variants n.stop? name

/-- Nothing, written as null. -/
def decodeUnit : Node → Decoded Unit
  | scalar _ .null => .ok ()
  | n => .error (n.mismatch "unit")

/-- One of the known names as the key of an object with that key alone, whose value is null; `c`
stands before the key. -/
def variantAt {α : Type} (variants : List (String × α)) (c : Cursor) : Decoded α := do
  let (key, after) := readNode 0 c
  let a ← decodeVariant variants key
  match after with
  | none => throw (key.mismatch "variant identifier")
  | some ⟨d, _⟩ =>
    let d := d.skip
    match d.rest with
    | [] => throw (.syntaxError ⟨.endInObject, d.ahead⟩)
    | ':' :: _ =>
      let (value, after) := readNode 0 d.next
      value.decodeUnit
      match after with
      | none => throw (value.mismatch "unit")
      | some ⟨e, _⟩ =>
        let e := e.skip
        match e.rest with
        | [] => throw (.syntaxError ⟨.endInObject, e.ahead⟩)
        | '}' :: _ => pure a
        | _ => throw (.syntaxError ⟨.expectedValue, e.place⟩)
    | _ => throw (.syntaxError ⟨.expectedColon, d.ahead⟩)

/-- One of the known names as the only key of an object; `c` stands behind the opening brace. -/
def variantInside {α : Type} (variants : List (String × α)) (c : Cursor) : Decoded α :=
  let c := c.skip
  match c.rest with
  | [] => .error (.syntaxError ⟨.endInObject, c.ahead⟩)
  | '"' :: _ => variantAt variants c
  | '}' :: _ => .error (.syntaxError ⟨.expectedValue, c.ahead⟩)
  | _ => .error (.syntaxError ⟨.keyNotString, c.ahead⟩)

/-- One of the known names, as a text or as the only key of an object. -/
def decodeName {α : Type} (variants : List (String × α)) (n : Node) : Decoded α :=
  match n with
  | scalar _ (.string _) => decodeVariant variants n
  | scalar (some extent) _ => .error (.syntaxError ⟨.expectedValue, extent.start⟩)
  | array (some extent) _ _ _ => .error (.syntaxError ⟨.expectedValue, extent.start⟩)
  | broken start stands damage =>
    match stands with
    | none | some '"' => .error (.syntaxError damage.wanted)
    | some _ => .error (.syntaxError ⟨.expectedValue, start⟩)
  | object extent tooDeep (some inside) _ _ => do
    ofReading (notTooDeep tooDeep extent)
    variantInside variants inside
  | object _ _ none [(key, value)] _ => do
    let name ← ofReading key.text
    let a ← variant variants none name
    value.decodeUnit
    pure a
  | object _ _ none _ _ => .error (.data (.badValue .map "map with a single key") none)
  | n => .error (n.mismatch "string or map")

end Node

/-! ## Tagged alternatives -/

/-- An alternative with a tag: its fields, at most one of which there is, and what they make. -/
inductive Alternative (α : Type) where
  | bare (result : α)
  | single (field : String) (decode : Node → Decoded α)

namespace Alternative

variable {α : Type}

/-- How many fields an alternative has. -/
def size : Alternative α → Nat
  | bare _ => 0
  | single _ _ => 1

/-- The alternative from members that have been put aside. -/
def ofMembers (alternative : Alternative α) (members : List (String × Node)) : Decoded α :=
  match alternative with
  | bare a => .ok a
  | single field decode =>
    match members.filter fun m => m.1 = field with
    | [] => .error (.data (.missing field) none)
    | [(_, n)] => decode n
    | (_, n) :: _ => do
      let _ ← decode n
      throw (.data (.duplicate field) none)

/-- The alternative from the items behind its tag. -/
def ofItems (alternative : Alternative α) (title : String) (items : List Node) : Decoded α :=
  let tooMany (n : Nat) : DecodeError :=
    .data (.badLength items.length
      (if n = 1 then "1 element in sequence" else s!"{n} elements in sequence")) none
  match alternative, items with
  | bare a, [] => .ok a
  | bare _, _ => .error (tooMany 0)
  | single _ _, [] =>
    .error (.data (.badLength 0 s!"struct variant {title} with 1 element") none)
  | single _ decode, [n] => decode n
  | single _ decode, n :: _ => do
    let _ ← decode n
    throw (tooMany 1)

end Alternative

/-- A choice between alternatives: the names of the choice and of its tag, and for each alternative
its tag, its title and what it holds. -/
structure Choice (α : Type) where
  title : String
  tag : String
  alternatives : List (String × String × Alternative α)

namespace Choice

variable {α : Type}

/-- What a choice lists under its tags. -/
abbrev Entry (α : Type) := String × Alternative α

/-- The tag found so far and the members put aside. -/
structure Aside (α : Type) where
  chosen : Option (Entry α)
  members : List (String × Node)

/-- Puts members aside until the tag is known; all of them have to be readable. -/
def putAside (choice : Choice α) (decodeTag : Node → Decoded (Entry α)) (aside : Aside α) :
    List (Key × Node) → Decoded (Aside α)
  | [] => .ok aside
  | (key, n) :: rest => do
    let name ← ofReading key.text
    if name = choice.tag then
      if aside.chosen.isSome then throw (.data (.duplicate name) none)
      let entry ← decodeTag n
      choice.putAside decodeTag { aside with chosen := some entry } rest
    else
      let _ ← ofReading n.value
      choice.putAside decodeTag { aside with members := aside.members ++ [(name, n)] } rest

/-- The alternative once all members are aside. -/
def finish (choice : Choice α) (aside : Aside α) : Decoded α :=
  match aside.chosen with
  | none => .error (.data (.missing choice.tag) none)
  | some (_, alternative) => alternative.ofMembers aside.members

/-- One of the alternatives, as an object with the tag among its members, or as an array with the
tag in front. -/
def decode (choice : Choice α) (n : Node) : Decoded α :=
  match n with
  | .object extent tooDeep _ members damage => do
    ofReading (Node.notTooDeep tooDeep extent)
    let aside ← choice.putAside (Node.decodeVariant choice.alternatives) ⟨none, []⟩ members
    ofReading (Node.noDamage damage)
    choice.finish aside
  | .array extent tooDeep items damage => do
    ofReading (Node.notTooDeep tooDeep extent)
    match items with
    | [] =>
      ofReading (Node.noDamage damage)
      throw (.data (.missing choice.tag) none)
    | tag :: rest =>
      let (title, alternative) ← Node.decodeVariant choice.alternatives tag
      let _ ← ofReading (Node.itemValues rest)
      ofReading (Node.noDamage damage)
      alternative.ofItems title rest
  | n => .error (n.mismatch ("internally tagged enum " ++ choice.title))

end Choice

/-! ## Texts -/

/-- The data that a text spells. -/
def decodeOfText {α : Type} (decode : Node → Decoded α) (text : String) : Decoded α := do
  let (node, trailing) := Node.ofText text
  let a ← decode node
  match trailing with
  | none => pure a
  | some e => throw (.syntaxError e)

/-- The data that a value stands for. -/
def decodeOfValue {α : Type} (decode : Node → Decoded α) (v : Value) : Decoded α :=
  decode (Node.ofValue v)

end LoginSettings.Json
