import LoginSettings.Toml.Scalar
import LoginSettings.Toml.Table

/-!
# Reading TOML

A text is read line by line: keys with values, headers of tables and headers of tables in arrays. A
key belongs to the table of the last header before it.
-/

namespace LoginSettings.Toml

/-! ## Keys -/

/-- How deep a value may be nested, and how many keys may be joined by dots. -/
def nestingLimit : Nat := 80

/-- Holds of the characters of keys without quotes. -/
def isKeyChar (c : Char) : Bool := c.isAlphanum || c = '_' || c = '-'

/-- Reads a key. -/
def readKey (cs : List Char) : Option (String × List Char) :=
  match readLineString cs with
  | some r => some r
  | none =>
    let (name, rest) := cs.span isKeyChar
    if name.isEmpty then none else some (String.ofList name, rest)

/-- Reads keys that are joined by dots, with the blanks around them; of at most `limit` keys. -/
def readKeys : Nat → List Char → Option (List String × List Char)
  | 0, _ => none
  | limit + 1, cs =>
    match readKey (skipBlanks cs) with
    | none => none
    | some (key, rest) =>
      match skipBlanks rest with
      | '.' :: rest => (readKeys limit rest).map fun (keys, rest) => (key :: keys, rest)
      | rest => some ([key], rest)

/-- Reads a path of keys. -/
def readPath (cs : List Char) : Option (List String × List Char) := readKeys (nestingLimit - 1) cs

/-- The last key of a path and those before it. -/
def splitPath (path : List String) : Option (List String × String) :=
  path.getLast?.map fun key => (path.dropLast, key)

/-! ## Values -/

/-- The text without blanks, comments and line ends in front; a comment has to end with its line. -/
def skipLines : List Char → Option (List Char)
  | [] => some []
  | c :: cs =>
    if isBlank c then skipLines cs
    else if c = '#' then
      match afterLineEnd (cs.dropWhile isInLine) with
      | some rest => if rest.length ≤ cs.length then skipLines rest else none
      | none => none
    else
      match afterLineEnd (c :: cs) with
      | some rest => if rest.length ≤ cs.length then skipLines rest else none
      | none => some (c :: cs)
termination_by cs => cs.length
decreasing_by all_goals (simp +zetaDelta at *; try omega)

mutual

/-- Reads a value that stands in `depth` others. -/
def readValue (depth : Nat) (cs : List Char) : Option (Value × List Char) :=
  match cs with
  | [] => none
  | c :: rest =>
    if c = '"' ∨ c = '\'' then (readString cs).map fun (s, rest) => (.string s, rest)
    else if c = '[' then
      if nestingLimit ≤ depth + 1 then none
      else
        match skipLines rest with
        | none => none
        | some us =>
          if us.length ≤ rest.length then
            (readItems (depth + 1) us).map fun (vs, rest) => (.array vs, rest)
          else none
    else if c = '{' then
      if nestingLimit ≤ depth + 1 then none
      else (readMembers (depth + 1) [] true rest).map fun (t, rest) => (Table.toValue t, rest)
    else if c = 't' then
      if cs.take 4 = "true".toList then some (.bool true, cs.drop 4) else none
    else if c = 'f' then
      if cs.take 5 = "false".toList then some (.bool false, cs.drop 5) else none
    else if c = 'i' ∨ c = 'n' then readNotFinite cs
    else if c = '+' ∨ c = '-' ∨ c.isDigit then readNumeric cs
    else none
termination_by 2 * cs.length
decreasing_by all_goals (simp +zetaDelta at *; omega)

/-- Reads the items of an array up to its end, from a place where blanks have been passed over. -/
def readItems (depth : Nat) (cs : List Char) : Option (List Value × List Char) :=
  match cs with
  | ']' :: rest => some ([], rest)
  | cs =>
    match readValue depth cs with
    | none => none
    | some (v, rest) =>
      match skipLines rest with
      | some (']' :: rest) => some ([v], rest)
      | some (',' :: rest) =>
        match skipLines rest with
        | none => none
        | some us =>
          if us.length < cs.length then
            (readItems depth us).map fun (vs, rest) => (v :: vs, rest)
          else none
      | _ => none
termination_by 2 * cs.length + 1
decreasing_by all_goals (simp +zetaDelta at *; try omega)

/-- Reads the members of a table in braces up to its end; between two of them stands a comma. -/
def readMembers (depth : Nat) (t : Table) (first : Bool) (cs : List Char) :
    Option (Table × List Char) :=
  match first, skipBlanks cs with
  | true, '}' :: rest => some (t, rest)
  | _, _ =>
    match readPath cs with
    | some (path, '=' :: rest) =>
      let us := skipBlanks rest
      if us.length < cs.length then
        match splitPath path, readValue depth us with
        | some (before, key), some (v, rest) =>
          match t.addDotted key v before, skipBlanks rest with
          | some t, '}' :: rest => some (t, rest)
          | some t, ',' :: rest =>
            if rest.length < cs.length then readMembers depth t false rest else none
          | _, _ => none
        | _, _ => none
      else none
    | _ => none
termination_by 2 * cs.length + 1
decreasing_by all_goals (simp +zetaDelta at *; omega)

end

/-! ## Lines -/

/-- The text after the rest of a line that may have a comment. -/
def afterLine (cs : List Char) : Option (List Char) :=
  match skipComment (skipBlanks cs) with
  | [] => some []
  | rest => afterLineEnd rest

/-- What has been read: the outermost table and the path of the table that keys now belong to. -/
structure Document where
  root : Table
  current : List String

/-- Reads a line with a key and a value. -/
def readPair (d : Document) (cs : List Char) : Option (Document × List Char) :=
  match readPath cs with
  | some (path, '=' :: rest) =>
    match splitPath path, readValue 0 (skipBlanks rest) with
    | some (before, key), some (v, rest) =>
      match d.root.updateAt (Table.addDotted key v before) d.current with
      | some root => some (⟨root, d.current⟩, rest)
      | none => none
    | _, _ => none
  | _ => none

/-- Reads a header from behind its opening brackets; `close` are the closing ones. -/
def readHeader (d : Document) (close : List Char) (mark : String → Table → Option Table)
    (cs : List Char) : Option (Document × List Char) :=
  match readPath cs with
  | some (path, rest) =>
    if rest.take close.length = close then
      match splitPath path with
      | some (before, key) =>
        (d.root.updateAt (mark key) before).map fun root =>
          (⟨root, path⟩, rest.drop close.length)
      | none => none
    else none
  | none => none

/-- Reads what a line holds before its comment. -/
def readLine (d : Document) (cs : List Char) : Option (Document × List Char) :=
  match cs with
  | [] => some (d, [])
  | '[' :: '[' :: rest => readHeader d [']', ']'] Table.openElement rest
  | '[' :: rest => readHeader d [']'] Table.openTable rest
  | c :: rest =>
    if c = '#' || c = '\n' || c = '\r' then some (d, c :: rest) else readPair d (c :: rest)

/-- Reads all lines. -/
def readLines (d : Document) (cs : List Char) : Option Document :=
  match cs with
  | [] => some d
  | c :: rest =>
    match readLine d (skipBlanks (c :: rest)) with
    | none => none
    | some (d, us) =>
      match afterLine us with
      | none => none
      | some vs => if vs.length ≤ rest.length then readLines d vs else none
termination_by cs.length
decreasing_by (simp; omega)

/-- The value that a text spells: an object. A byte order mark in front is passed over. -/
def readText (text : String) : Option Value :=
  let cs := match text.toList with
    | '\ufeff' :: cs => cs
    | cs => cs
  (readLines ⟨[], []⟩ cs).map fun d => d.root.toValue

end LoginSettings.Toml
