import LoginSettings.Document
import LoginSettings.Log.Event

/-!
# Documents in files

A document in a file has the format that the extension of the path names. A file ends with a line
feed.
-/

namespace LoginSettings.Document

open Files (Tree)

/-- The format of the file at a path. -/
def formatOf (path : String) : Except DocumentError Format :=
  match Format.ofPath? path with
  | some f => .ok f
  | none => .error (.unsupportedFormat path)

/-- The document in a file. -/
def load (t : Tree) (path : String) : Except DocumentError Document := do
  let format ← formatOf path
  match t.readText path with
  | .ok text => ofText format text
  | .error fault => throw (.io fault)

/-- What is logged once a document has been loaded. -/
def loadEvent (path : String) : Log.Event :=
  ⟨.debug, "portal_settings::document", "loaded config document",
    [("path", .text path), ("format", .text ((Format.ofPath? path).map Format.title |>.getD ""))]⟩

/-- The files with the document written into one of them. -/
def store (d : Document) (t : Tree) (path : String) : Except DocumentError Tree := do
  let format ← formatOf path
  match t.write path (Text.encodeUtf8 (d.toFileText format).toList) with
  | .ok t => pure t
  | .error fault => throw (.io fault)

/-- What is logged once a document has been written for a session. -/
def storeEvent (path : String) : Log.Event :=
  ⟨.info, "portal_settings::session", "wrote config document", [("path", .text path)]⟩

end LoginSettings.Document
