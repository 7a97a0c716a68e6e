import LoginSettings.Cli.Arguments
import LoginSettings.Cli.Assignment
import LoginSettings.Cli.Progress
import LoginSettings.Session
import LoginSettings.Tool.Config

/-!
# Commands on documents

Showing the settings of a document and changing them. A change is all or nothing: files are written,
and the standard output is printed on, only once nothing can fail any more.
-/

namespace LoginSettings.Cli

open Files (Tree)

/-- The document in a file. -/
def loadDocument (t : Tree) (path : String) : Progress Document := do
  let report (e : DocumentError) := s!"Error loading {path}: {e.message}"
  let d ← Progress.orFail report (Document.load t path)
  Progress.log [Document.loadEvent path]
  pure d

/-- A session on the document in a file, with settings read from another file if one is given. -/
def beginSession (t : Tree) (document : String) (effective : Option String) : Progress Session := do
  let raw ← loadDocument t document
  let filled ← match effective with
    | some path => (loadDocument t path).andThen fun d => pure (some d)
    | none => pure none
  let s := Session.start raw filled
  Progress.log [s.startEvent]
  pure s

/-! ## Showing settings -/

/-- The text of settings in the format of the tool, without blanks at its end. -/
def settingsText (c : Tool.Config) (s : Settings) : String :=
  Text.trimmedEnd ((Document.ofValue s.encode).toText c.output.format c.output.pretty)

/-- Prints the settings of a document. -/
def display (t : Tree) (c : Tool.Config) (document : String) (effective : Option String) :
    Progress Unit := do
  let s ← beginSession t document effective
  Progress.outLine (settingsText c s.initial)

/-! ## Changing settings -/

/-- Why there is no snapshot of settings. -/
inductive SnapshotError where
  | file (fault : Files.Fault)
  | content (error : Json.DecodeError)
deriving DecidableEq, Repr

/-- How a failure is reported. -/
def SnapshotError.message : SnapshotError → String
  | file fault => fault.message
  | content error => error.message

/-- The settings that a file holds as JSON, whatever its name. -/
def readSnapshot (t : Tree) (path : String) : Except SnapshotError Settings := do
  let text ← (t.readText path).mapError .file
  (Json.decodeOfText Settings.decode text).mapError .content

/-- The session with assignments carried out from left to right. -/
def assignAll (s : Session) : List String → Except String Session
  | [] => .ok s
  | text :: rest => do
    let (f, v) ← (parseAssignment text).mapError AssignmentError.message
    let s ← (s.set f v).mapError FieldError.message
    assignAll s rest

/-- The session with the edits that an order asks for: those of a snapshot, and then the
assignments. -/
def editSession (t : Tree) (order : Order) (s : Session) : Progress Session := do
  let s ← match order.snapshot with
    | some path =>
      let report (e : SnapshotError) := s!"Error reading snapshot {path}: {e.message}"
      (Progress.orFail report (readSnapshot t path)).andThen fun desired => pure (s.replace desired)
    | none => pure s
  Progress.orFail (fun e => "Invalid --set: " ++ e) (assignAll s order.assignments)

/-- What is logged if there are no edits. -/
def unchangedEvent : Log.Event :=
  ⟨.info, "portal_settings", "no login ID settings changed; document is written unchanged", []⟩

/-- What becomes of a saved document: it is written into a file, or it is printed. -/
def deliver (t : Tree) (c : Tool.Config) (target : Option String) (d : Document) :
    Except SaveError (List Effect) :=
  match target with
  | some path => do
    let after ← (d.store t path).mapError .document
    pure [.files after, .event (Document.storeEvent path)]
  | none => pure [.out (Document.endLine (d.toText c.output.format c.output.pretty))]

/-- A summary of what has been saved, as a document. -/
def summary (o : SaveOutcome) : Document :=
  .ofValue (.object
    [("changed_fields", .array (o.changedFields.map Field.encode)),
      ("base_digest", .string o.baseDigest),
      ("digest", .string o.digest)])

/-- How a saved file is reported: as JSON, or as the names of the changed fields. -/
def savedReport (json : Bool) (o : SaveOutcome) : String :=
  if json then (summary o).toPrettyJson
  else if o.changedFields.isEmpty then "No changes."
  else "Changed fields:" ++ String.join (o.changedFields.map fun f => "\n  " ++ f.name)

/-- Changes settings in a document. -/
def change (t : Tree) (c : Tool.Config) (order : Order) : Progress Unit := do
  let s ← beginSession t order.document order.effective
  let s ← editSession t order s
  Progress.log (if s.isDirty then [] else [unchangedEvent])
  Progress.log s.handingOnEvents
  match s.save (deliver t c order.target) with
  | .error e => do
    Progress.log [Session.failedEvent e]
    Progress.fail ("Error: Failed to save config: " ++ e.message)
  | .ok (o, effects) => do
    ⟨effects, some ()⟩
    Progress.log [Session.savedEvent o]
    if order.target.isSome then Progress.outLine (savedReport order.json o)

end LoginSettings.Cli
