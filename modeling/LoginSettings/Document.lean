import LoginSettings.Digest.Sha256
import LoginSettings.Document.Edit
import LoginSettings.Document.Format
import LoginSettings.Files.Tree
import LoginSettings.Json.Canonical
import LoginSettings.Json.Node
import LoginSettings.Text.Utf8
import LoginSettings.Yaml.Printer
import LoginSettings.Yaml.Reader

/-!
# Documents

A document is a tree of settings, any part of which may be missing. Its objects are kept in order,
so that two documents are equal exactly if they hold the same settings. It is read from JSON or
YAML, written as either, and identified by the hash of its canonical text.
-/

namespace LoginSettings

/-- Why a document cannot be read or written. -/
inductive DocumentError where
  | io (fault : Files.Fault)
  | json (error : Json.SyntaxError)
  | yaml
  | unsupportedFormat (path : String)
deriving DecidableEq, Repr

/-- How a failure is reported. The report on a YAML text says no more. -/
def DocumentError.message : DocumentError → String
  | io fault => "IO error: " ++ fault.message
  | json error => "JSON error: " ++ error.message
  | yaml => "YAML error"
  | unsupportedFormat path =>
    s!"Unsupported document format: {path} (expected .json, .yaml or .yml)"

/-- A tree of settings whose objects are in order. -/
structure Document where
  root : Value
  ordered : root.Ordered

namespace Document

/-- Documents with the same root are the same. -/
theorem ext_root {d e : Document} (h : d.root = e.root) : d = e := by
  cases d
  cases e
  cases h
  rfl

instance : DecidableEq Document := fun d e =>
  if h : d.root = e.root then isTrue (ext_root h) else isFalse fun he => h (he ▸ rfl)

/-- The document with nothing set. -/
def empty : Document := ⟨.null, .null⟩

/-- The document of a value; of members with the same key the last one counts. -/
def ofValue (v : Value) : Document := ⟨v.inOrder, v.ordered_inOrder⟩

/-- The value at a path whose keys are joined by dots. -/
def get (d : Document) (path : String) : Option Value := d.root.at? (Text.split '.' path)

/-! ## Text -/

/-- The document that a JSON text spells. -/
def ofJson (text : String) : Except DocumentError Document :=
  match Json.readValue text with
  | .ok v => .ok (ofValue v)
  | .error e => .error (.json e)

/-- The document that a YAML text spells. -/
def ofYaml (text : String) : Except DocumentError Document :=
  match Yaml.readValue text with
  | some v => .ok (ofValue v)
  | none => .error .yaml

/-- The document that a text in a format spells. -/
def ofText (format : Format) (text : String) : Except DocumentError Document :=
  match format with
  | .json => ofJson text
  | .yaml => ofYaml text

/-- The document as JSON on one line. -/
def toJson (d : Document) : String := Json.compact d.root

/-- The document as JSON with a line for each item and member. -/
def toPrettyJson (d : Document) : String := Json.pretty d.root

/-- The document as YAML. -/
def toYaml (d : Document) : String := Yaml.render d.root

/-- The text of the document in a format. -/
def toText (d : Document) (format : Format) (pretty : Bool) : String :=
  match format with
  | .json => if pretty then d.toPrettyJson else d.toJson
  | .yaml => d.toYaml

/-- The text with a line feed at its end. -/
def endLine (text : String) : String :=
  if text.toList.getLast? = some '\n' then text else text ++ "\n"

/-- What is written into a file of a format. -/
def toFileText (d : Document) (format : Format) : String := endLine (d.toText format true)

/-- The hash of the canonical text, in digits of base sixteen. -/
def digest (d : Document) : String :=
  Digest.hexDigest (Text.encodeUtf8 (Json.canonical d.root).toList)

end Document
end LoginSettings
