import LoginSettings.Yaml.Lexer

/-!
# Nodes

The tree that the tokens of a YAML text make: scalars, sequences and mappings, with their anchors
and tags, and aliases that stand for nodes elsewhere. Tags are complete here: handles have been
replaced by what they stand for. Every reader gives back the tokens that are left, and there are
fewer of them.
-/

namespace LoginSettings.Yaml

/-- What may stand in front of a node. -/
structure Properties where
  anchor : Option (List Char)
  tag : Option (List UInt8)
deriving DecidableEq, Repr

/-- No properties. -/
def Properties.none : Properties := ⟨.none, .none⟩

/-- A node of a YAML document. -/
inductive Node where
  | alias (name : List Char)
  | scalar (properties : Properties) (plain : Bool) (text : List Char)
  | sequence (properties : Properties) (items : List Node)
  | mapping (properties : Properties) (pairs : List (Node × Node))

/-- The node that stands where nothing is written. -/
def Node.empty : Node := .scalar .none true []

/-! ## Tags -/

/-- What tag handles stand for, as far as the document says. -/
abbrev Handles := List (List Char × List UInt8)

/-- What handles stand for if the document does not say. -/
def Handles.standard : Handles :=
  [("!".toList, Text.encodeUtf8 "!".toList),
    ("!!".toList, Text.encodeUtf8 "tag:yaml.org,2002:".toList)]

/-- What a handle stands for. -/
def Handles.find? (hs : Handles) (handle : List Char) : Option (List UInt8) :=
  (List.find? (fun h => h.1 = handle) (hs ++ Handles.standard)).map (·.2)

/-- The tag with what its handle stands for; a tag without handle is complete. -/
def Handles.resolve (hs : Handles) (handle : List Char) (suffix : List UInt8) :
    Option (List UInt8) :=
  if handle.isEmpty then some suffix else (hs.find? handle).map (· ++ suffix)

/-! ## Reading nodes -/

/-- What is read, and the tokens left after it. -/
abbrev Read (α : Type) := Option (α × List Token)

/-- What is read, with something done to it. -/
def Read.map {α β : Type} (f : α → β) : Read α → Read β :=
  Option.map fun (a, rest) => (f a, rest)

/-- Reads an anchor and a tag in any order. -/
def readProperties (hs : Handles) : List Token → Read Properties
  | .anchor name :: .tag handle suffix :: rest =>
    (hs.resolve handle suffix).map fun tag => (⟨some name, some tag⟩, rest)
  | .tag handle suffix :: .anchor name :: rest =>
    (hs.resolve handle suffix).map fun tag => (⟨some name, some tag⟩, rest)
  | .anchor name :: rest => some (⟨some name, none⟩, rest)
  | .tag handle suffix :: rest =>
    (hs.resolve handle suffix).map fun tag => (⟨none, some tag⟩, rest)
  | ts => some (.none, ts)

theorem length_readProperties_le {hs : Handles} {ts rest : List Token} {p : Properties}
    (h : readProperties hs ts = some (p, rest)) : rest.length ≤ ts.length := by
  fun_cases readProperties hs ts <;>
    simp_all [readProperties, Option.map_eq_some_iff] <;>
    grind

/-- The node that has properties and nothing else, `rest` being what follows them. -/
def readEmpty (p : Properties) (rest : List Token) : Read Node :=
  if p = .none then none else some (.scalar p true [], rest)

/-- Where a node stands decides what it may be: blocks do not stand inside brackets, and only inside
a block mapping may a sequence start without indentation. -/
inductive Context where
  | flow
  | block
  | blockMember
deriving DecidableEq, Repr

/-- Holds of the tokens before which an item of a block sequence may be left out. -/
def endsEntry (t : Token) : Bool := t = .blockEntry || t = .blockEnd

/-- Holds of the tokens before which a key or value of a block mapping may be left out. -/
def endsMember (t : Token) : Bool := t = .key || t = .value || t = .blockEnd

/-- Holds of the tokens before which an item of a sequence without indentation may be left out. -/
def endsPlacedEntry (t : Token) : Bool := endsEntry t || endsMember t

/-- Holds of the tokens before which a value inside brackets may be left out. -/
def endsFlowValue (closing t : Token) : Bool := t = .separator || t = closing

/-- Holds of the tokens before which a key inside brackets may be left out. -/
def endsFlowKey (closing t : Token) : Bool := t = .value || endsFlowValue closing t

/-- The tokens behind the separator that has to stand before all parts but the first one. -/
def afterSeparator (first : Bool) (ts : List Token) : Option (List Token) :=
  if first then some ts
  else match ts with
    | .separator :: rest => some rest
    | _ => none

/-- The tokens left before the key of a single pair in a sequence, if the key is left out: the token
behind the sign of the key is passed over. -/
def afterNoKey : List Token → Option (List Token)
  | t :: rest => if endsFlowKey .sequenceEnd t then some rest else none
  | [] => none

mutual

/-- Reads a node. -/
def readNode (hs : Handles) (context : Context) (ts : List Token) : Read Node :=
  match _hp : readProperties hs ts with
  | none => none
  | some (p, .alias name :: rest) => if p = .none then some (.alias name, rest) else none
  | some (p, .scalar plain text :: rest) => some (.scalar p plain text, rest)
  | some (p, .sequenceStart :: rest) => (readFlowItems hs true rest).map (.sequence p)
  | some (p, .mappingStart :: rest) => (readFlowPairs hs true rest).map (.mapping p)
  | some (p, .blockSequenceStart :: rest) =>
    if context = .flow then none else (readBlockItems hs rest).map (.sequence p)
  | some (p, .blockMappingStart :: rest) =>
    if context = .flow then none else (readBlockPairs hs rest).map (.mapping p)
  | some (p, .blockEntry :: rest) =>
    if context = .blockMember then (readEntries hs rest).map (.sequence p)
    else readEmpty p (.blockEntry :: rest)
  | some (p, rest) => readEmpty p rest
termination_by 4 * ts.length
decreasing_by all_goals (have h := length_readProperties_le _hp; simp at h; omega)

/-- Reads a node that may be left out before some tokens. -/
def readOptional (hs : Handles) (context : Context) (absent : Token → Bool) (ts : List Token) :
    Read Node :=
  match ts with
  | [] => none
  | t :: rest =>
    if absent t then some (.empty, t :: rest) else readNode hs context (t :: rest)
termination_by 4 * ts.length + 1

/-- Reads the value of a key, if there is one. -/
def readMember (hs : Handles) (context : Context) (absent : Token → Bool) (ts : List Token) :
    Read Node :=
  match ts with
  | .value :: rest => readOptional hs context absent rest
  | ts => some (.empty, ts)
termination_by 4 * ts.length
decreasing_by all_goals (simp; omega)

/-- Reads the items of a block sequence. -/
def readBlockItems (hs : Handles) (ts : List Token) : Read (List Node) :=
  match ts with
  | .blockEnd :: rest => some ([], rest)
  | .blockEntry :: rest =>
    match readOptional hs .block endsEntry rest with
    | none => none
    | some (item, us) =>
      if us.length ≤ rest.length then (readBlockItems hs us).map (item :: ·) else none
  | _ => none
termination_by 4 * ts.length
decreasing_by all_goals (simp; omega)

/-- Reads the items of a sequence without indentation, from behind the sign of the first one. -/
def readEntries (hs : Handles) (ts : List Token) : Read (List Node) :=
  match readOptional hs .block endsPlacedEntry ts with
  | none => none
  | some (item, .blockEntry :: us) =>
    if us.length < ts.length then (readEntries hs us).map (item :: ·) else none
  | some (item, us) => some ([item], us)
termination_by 4 * ts.length + 2
decreasing_by all_goals omega

/-- Reads the pairs of a block mapping. -/
def readBlockPairs (hs : Handles) (ts : List Token) : Read (List (Node × Node)) :=
  match ts with
  | .blockEnd :: rest => some ([], rest)
  | .key :: rest =>
    match readOptional hs .blockMember endsMember rest with
    | none => none
    | some (key, us) =>
      if us.length ≤ rest.length then
        match readMember hs .blockMember endsMember us with
        | none => none
        | some (value, vs) =>
          if vs.length ≤ us.length then (readBlockPairs hs vs).map ((key, value) :: ·) else none
      else none
  | _ => none
termination_by 4 * ts.length
decreasing_by all_goals (simp; omega)

/-- Reads the items of a sequence in brackets. An item may be a single pair. -/
def readFlowItems (hs : Handles) (first : Bool) (ts : List Token) : Read (List Node) :=
  match ts with
  | .sequenceEnd :: rest => some ([], rest)
  | ts =>
    match afterSeparator first ts with
    | none => none
    | some (.sequenceEnd :: rest) => some ([], rest)
    | some us =>
      if us.length ≤ ts.length then
        match readFlowItem hs us with
        | none => none
        | some (item, vs) =>
          if vs.length < us.length then (readFlowItems hs false vs).map (item :: ·) else none
      else none
termination_by 4 * ts.length + 2
decreasing_by all_goals omega

/-- Reads an item of a sequence in brackets. -/
def readFlowItem (hs : Handles) (ts : List Token) : Read Node :=
  match ts with
  | .key :: us =>
    let key : Read Node := match afterNoKey us with
      | some rest => some (.empty, rest)
      | none => readNode hs .flow us
    match key with
    | none => none
    | some (key, vs) =>
      if vs.length ≤ us.length then
        (readMember hs .flow (endsFlowValue .sequenceEnd) vs).map fun value =>
          .mapping .none [(key, value)]
      else none
  | ts => readNode hs .flow ts
termination_by 4 * ts.length + 1
decreasing_by all_goals (first | omega | (simp only [List.length_cons] at *; omega))

/-- Reads the pairs of a mapping in brackets. A node without the sign of a key is a key without a
value. -/
def readFlowPairs (hs : Handles) (first : Bool) (ts : List Token) : Read (List (Node × Node)) :=
  match ts with
  | .mappingEnd :: rest => some ([], rest)
  | ts =>
    match afterSeparator first ts with
    | none => none
    | some (.mappingEnd :: rest) => some ([], rest)
    | some us =>
      if us.length ≤ ts.length then
        match readFlowPair hs us with
        | none => none
        | some (pair, vs) =>
          if vs.length < us.length then (readFlowPairs hs false vs).map (pair :: ·) else none
      else none
termination_by 4 * ts.length + 2
decreasing_by all_goals omega

/-- Reads a pair of a mapping in brackets. -/
def readFlowPair (hs : Handles) (ts : List Token) : Read (Node × Node) :=
  match ts with
  | .key :: us =>
    match readOptional hs .flow (endsFlowKey .mappingEnd) us with
    | none => none
    | some (key, vs) =>
      if vs.length ≤ us.length then
        (readMember hs .flow (endsFlowValue .mappingEnd) vs).map fun value => (key, value)
      else none
  | ts => (readNode hs .flow ts).map fun key => (key, .empty)
termination_by 4 * ts.length + 1
decreasing_by all_goals first | (simp; omega) | simp_all

end

/-! ## Documents -/

/-- What the directives of a document say about handles. The version has to be one that is known,
and neither the version nor a handle may be given twice. -/
def readDirectives (versioned : Bool) (hs : Handles) : List Token → Option (Handles × List Token)
  | .version major minor :: rest =>
    if versioned || major ≠ 1 || (minor ≠ 1 && minor ≠ 2) then none else readDirectives true hs rest
  | .tagDirective handle start :: rest =>
    if hs.any (·.1 = handle) then none else readDirectives versioned (hs ++ [(handle, start)]) rest
  | rest => some (hs, rest)

/-- Holds of the tokens that end the content of a document with a start marker, or stand where there
is none. -/
def endsContent : Token → Bool
  | .version .. | .tagDirective .. | .documentStart | .documentEnd => true
  | _ => false

/-- Reads the content of a document behind its start marker. -/
def readContent (hs : Handles) (ts : List Token) : Option (Node × List Token) :=
  match ts with
  | [] => some (.empty, [])
  | t :: rest =>
    if endsContent t then some (.empty, t :: rest)
    else readNode hs .block (t :: rest)

/-- Holds of the tokens that start a document with a start marker. -/
def startsExplicitly : Token → Bool
  | .version .. | .tagDirective .. | .documentStart => true
  | _ => false

/-- The node of the one document that tokens make; without tokens there is no document, and its node
is empty. -/
def Node.ofTokens? (ts : List Token) : Option Node :=
  match ts with
  | [] => some .empty
  | t :: _ =>
    let read : Option (Node × List Token) :=
      if startsExplicitly t then
        match readDirectives false [] ts with
        | some (hs, .documentStart :: rest) => readContent hs rest
        | _ => none
      else readNode [] .block ts
    match read with
    | none => none
    | some (node, rest) => if rest.all (· = .documentEnd) then some node else none

end LoginSettings.Yaml
