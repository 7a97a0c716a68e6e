import LoginSettings.Document.Storage
import LoginSettings.Settings.Derive
import LoginSettings.Settings.Patch
import LoginSettings.Wire.Settings

/-!
# Edit sessions

A session keeps the document as it was loaded, the settings it began with and the settings as they
are edited. The settings may come from another document, in which defaults are filled in, but
changes are always patched into the document itself. Saving hands the patched document on and leaves
the session as it is, whether that succeeds or not, so that it can be tried again.
-/

namespace LoginSettings

/-- The state of an edit session. -/
structure Session where
  raw : Document
  baseDigest : String
  initial : Settings
  current : Settings
deriving DecidableEq

/-- Why a document is not saved. -/
inductive SaveError where
  | document (error : DocumentError)
  | rejected (report : String)
deriving DecidableEq, Repr

/-- How a failure is reported. -/
def SaveError.message : SaveError → String
  | document error => "Document error: " ++ error.message
  | rejected report => "Save rejected: " ++ report

/-- What has been saved. -/
structure SaveOutcome where
  document : Document
  changedFields : List Field
  baseDigest : String
  digest : String
deriving DecidableEq

/-- An outcome as an object. -/
def SaveOutcome.encode (o : SaveOutcome) : Value :=
  .object
    [("document", o.document.root),
      ("changed_fields", .array (o.changedFields.map Field.encode)),
      ("base_digest", .string o.baseDigest),
      ("digest", .string o.digest)]

namespace Session

/-- A session on a document, with settings read from another one if there is one. -/
def start (raw : Document) (effective : Option Document) : Session :=
  let initial := Settings.ofDocument (effective.getD raw)
  { raw, baseDigest := raw.digest, initial, current := initial }

/-- The session with a value set in a field. -/
def set (s : Session) (f : Field) (v : FieldValue) : Except FieldError Session :=
  (s.current.set f v).map fun current => { s with current }

/-- The session with other settings in place of the current ones. -/
def replace (s : Session) (current : Settings) : Session := { s with current }

/-- The session without the edits. -/
def reset (s : Session) : Session := { s with current := s.initial }

/-- Holds of sessions with edits. -/
def isDirty (s : Session) : Bool := s.current ≠ s.initial

/-- The fields that have been edited. -/
def changedFields (s : Session) : List Field := s.current.changedFields s.initial

/-- The document that would be saved. -/
def preview (s : Session) : Document := s.raw.patch s.initial s.current

/-- What is saved. -/
def outcome (s : Session) : SaveOutcome :=
  ⟨s.preview, s.changedFields, s.baseDigest, s.preview.digest⟩

/-- Hands the patched document on; `accept` gives what becomes of it there. -/
def save {α : Type} (s : Session) (accept : Document → Except SaveError α) :
    Except SaveError (SaveOutcome × α) :=
  (accept s.preview).map fun a => (s.outcome, a)

/-- The document as it was when the session began. -/
def cancel (s : Session) : Document := s.raw

/-! ## The log -/

/-- The part of the program that keeps sessions. -/
def target : String := "portal_settings::session"

/-- What is logged when a session begins. -/
def startEvent (s : Session) : Log.Event :=
  ⟨.debug, target, "edit session started", [("base_digest", .text s.baseDigest)]⟩

/-- What is logged when the patched document is computed. -/
def previewEvents (s : Session) : List Log.Event := Settings.patchEvents s.initial s.current

/-- What is logged before the patched document is handed on. -/
def handingOnEvents (s : Session) : List Log.Event :=
  s.previewEvents
    ++ [⟨.warn, target,
      "saving without a concurrency check; concurrent edits are last-write-wins",
      [("base_digest", .text s.baseDigest)]⟩]

/-- What is logged when the document has been taken. -/
def savedEvent (o : SaveOutcome) : Log.Event :=
  ⟨.info, target, "saved login ID settings",
    [("changed", .count o.changedFields.length), ("digest", .text o.digest)]⟩

/-- What is logged when the document has not been taken. -/
def failedEvent (e : SaveError) : Log.Event :=
  ⟨.error, target, "config save failed; edits kept for retry", [("error", .text e.message)]⟩

/-- What is logged when a session is given up. -/
def cancelEvent (s : Session) : Log.Event :=
  ⟨.debug, target, "edit session cancelled", [("dirty", .bool s.isDirty)]⟩

end Session
end LoginSettings
