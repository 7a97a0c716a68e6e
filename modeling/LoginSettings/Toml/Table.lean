import LoginSettings.Document.Value

/-!
# Tables of TOML texts

A table can come into being in three ways: by a header of its own, because it stands on the way to
another table, or by dotted keys. A header makes a table once, though one that only stood on the way
can still get a header. Dotted keys go into tables made by dotted keys, never into one that has a
header.
-/

namespace LoginSettings.Toml

/-- How a table came into being. -/
inductive Origin where
  | header
  | passing
  | dotted
deriving DecidableEq, Repr

/-- What stands at a key: a value, a table, or an array of tables, the last one first. -/
inductive Item where
  | value (value : Value)
  | table (origin : Origin) (members : List (String × Item))
  | tables (elements : List (List (String × Item)))

/-- The members of a table. -/
abbrev Table := List (String × Item)

/-- A table with a value at a key that must be new. -/
def Table.addNew (key : String) (v : Value) (t : Table) : Option Table :=
  if (Members.find? key t).isSome then none else some (Members.insert key (.value v) t)

/-- A table with a value at dotted keys, `path` and `key`. -/
def Table.addDotted (key : String) (v : Value) : List String → Table → Option Table
  | [], t => t.addNew key v
  | step :: path, t =>
    let inner (origin : Origin) (members : Table) : Option Table :=
      if path.isEmpty && origin ≠ .dotted then none else Table.addDotted key v path members
    match Members.find? step t with
    | none =>
      (inner .dotted []).map fun u => Members.insert step (.table .dotted u) t
    | some (.table .header _) => none
    | some (.table origin members) =>
      (inner origin members).map fun u => Members.insert step (.table origin u) t
    | some (.tables (last :: others)) =>
      (inner .header last).map fun u => Members.insert step (.tables (u :: others)) t
    | _ => none

/-- A table with something done to the table that headers lead to by a path; of an array that is the
last table. -/
def Table.updateAt (f : Table → Option Table) : List String → Table → Option Table
  | [], t => f t
  | step :: path, t =>
    match Members.find? step t with
    | none =>
      (Table.updateAt f path []).map fun u => Members.insert step (.table .passing u) t
    | some (.table origin members) =>
      (Table.updateAt f path members).map fun u => Members.insert step (.table origin u) t
    | some (.tables (last :: others)) =>
      (Table.updateAt f path last).map fun u => Members.insert step (.tables (u :: others)) t
    | _ => none

/-- A table in which the header of a table has been met. -/
def Table.openTable (key : String) (t : Table) : Option Table :=
  match Members.find? key t with
  | none => some (Members.insert key (.table .header []) t)
  | some (.table .passing members) => some (Members.insert key (.table .header members) t)
  | _ => none

/-- A table in which the header of a table in an array has been met. -/
def Table.openElement (key : String) (t : Table) : Option Table :=
  match Members.find? key t with
  | none => some (Members.insert key (.tables [[]]) t)
  | some (.tables elements) => some (Members.insert key (.tables ([] :: elements)) t)
  | _ => none

mutual

/-- What stands at a key, as a value. -/
def Item.toValue : Item → Value
  | .value v => v
  | .table _ members => .object (tableMembers members)
  | .tables elements => .array (tableElements elements).reverse

/-- The members of a table as values. -/
def tableMembers : List (String × Item) → List (String × Value)
  | [] => []
  | (key, item) :: rest => (key, item.toValue) :: tableMembers rest

/-- The tables of an array as values, in their order. -/
def tableElements : List (List (String × Item)) → List Value
  | [] => []
  | t :: ts => .object (tableMembers t) :: tableElements ts

end

/-- A table as a value. -/
def Table.toValue (t : Table) : Value := .object (tableMembers t)

end LoginSettings.Toml
