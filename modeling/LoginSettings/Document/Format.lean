import LoginSettings.Text.Split

/-!
# Formats of documents

Documents are kept as JSON or as YAML. The extension of a path says which, in letters of either
case.
-/

namespace LoginSettings

/-- How a document is written in a file. -/
inductive Format where
  | json
  | yaml
deriving DecidableEq, Repr

namespace Format

/-- The parts of a path between slashes that count: empty ones do not, and neither does a dot behind
another part. -/
def pathParts (path : List Char) : List (List Char) :=
  ((Text.splitAt '/' path).zipIdx.filter fun (part, i) =>
    !part.isEmpty && (part ≠ ['.'] || i = 0)).map (·.1)

/-- The name of the file that a path leads to. -/
def fileName? (path : List Char) : Option (List Char) :=
  (pathParts path).getLast?.filter fun name => name ≠ ['.'] ∧ name ≠ ['.', '.']

/-- What stands behind the last dot of a file name, unless nothing stands before it. -/
def extension? (name : List Char) : Option (List Char) :=
  match (Text.splitAt '.' name).reverse with
  | extension :: before :: rest =>
    if rest.isEmpty && before.isEmpty then none else some extension
  | _ => none

/-- The format that the extension of a path names. -/
def ofPath? (path : String) : Option Format :=
  let extension := (fileName? path.toList).bind extension?
  match extension.map fun e => String.ofList (e.map Char.toLower) with
  | some "json" => some .json
  | some "yaml" => some .yaml
  | some "yml" => some .yaml
  | _ => none

/-- The name of a format. -/
def name : Format → String
  | json => "json"
  | yaml => "yaml"

/-- The name of a format in reports. -/
def title : Format → String
  | json => "Json"
  | yaml => "Yaml"

end Format
end LoginSettings
