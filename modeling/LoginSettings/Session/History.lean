import LoginSettings.Session

/-!
# Histories of sessions

An edit session step by step. The steps are data, and so is what they lead to: the session as it is
edited, the documents that have been saved, the files and the log. A step that fails leaves a line
in the log at most, and all else as it was.
-/

namespace LoginSettings.Session

/-- Where a patched document is handed on to: a place that keeps it, one that takes nothing and says
why, or a file. -/
inductive Destination where
  | memory
  | refusal (report : String)
  | file (path : String)
deriving DecidableEq, Repr

/-- A step of an edit session. -/
inductive Step where
  | set (field : Field) (value : FieldValue)
  | parse (field : Field) (text : String)
  | replace (settings : Settings)
  | reset
  | preview
  | save (destination : Destination)
deriving DecidableEq, Repr

/-- What a step gives back. -/
inductive Reply where
  | done
  | preview (document : Document)
  | saved (outcome : SaveOutcome)
deriving DecidableEq

/-- Why a step fails. -/
inductive StepError where
  | field (error : FieldError)
  | save (error : SaveError)
deriving DecidableEq, Repr

/-- A session and what has come of it. -/
structure History where
  session : Session
  saved : List Document
  files : Files.Tree
  log : List Log.Event

namespace History

/-- The history with more events in the log. -/
def note (h : History) (events : List Log.Event) : History := { h with log := h.log ++ events }

@[simp] theorem session_note (h : History) (events : List Log.Event) :
    (h.note events).session = h.session := rfl

@[simp] theorem saved_note (h : History) (events : List Log.Event) :
    (h.note events).saved = h.saved := rfl

@[simp] theorem files_note (h : History) (events : List Log.Event) :
    (h.note events).files = h.files := rfl

/-- A session that has just begun on a document, with settings read from another one if there is
one. -/
def start (raw : Document) (effective : Option Document) (files : Files.Tree) : History :=
  let s := Session.start raw effective
  ⟨s, [], files, [s.startEvent]⟩

/-- The history once a document has been handed on. -/
def accept (h : History) (d : Document) : Destination → Except SaveError History
  | .memory => .ok { h with saved := h.saved ++ [d] }
  | .refusal report => .error (.rejected report)
  | .file path =>
    match d.store h.files path with
    | .ok files => .ok ({ h with files }.note [Document.storeEvent path])
    | .error e => .error (.document e)

/-- What an edit leads to. -/
def edit (h : History) : Except FieldError Session → Except StepError Reply × History
  | .ok session => (.ok .done, { h with session })
  | .error e => (.error (.field e), h)

/-- What saving leads to. -/
def save (h : History) (destination : Destination) : Except StepError Reply × History :=
  let h := h.note h.session.handingOnEvents
  match h.session.save fun d => h.accept d destination with
  | .ok (o, h) => (.ok (.saved o), h.note [Session.savedEvent o])
  | .error e => (.error (.save e), h.note [Session.failedEvent e])

/-- What a step gives back, and the history after it. -/
def step (h : History) : Step → Except StepError Reply × History
  | .set f v => h.edit (h.session.set f v)
  | .parse f text => h.edit ((f.parse text).bind (h.session.set f))
  | .replace settings => h.edit (.ok (h.session.replace settings))
  | .reset => h.edit (.ok h.session.reset)
  | .preview => (.ok (.preview h.session.preview), h.note h.session.previewEvents)
  | .save destination => h.save destination

/-- The history after some steps, whether they fail or not. -/
def run (h : History) (steps : List Step) : History := steps.foldl (fun h s => (h.step s).2) h

/-- A new session on the patched document. -/
def reopen (h : History) : History :=
  let s := Session.start h.session.preview none
  { h.note (h.session.previewEvents ++ [s.startEvent]) with session := s }

/-- The session given up: the document as it was, and the log to its end. -/
def cancel (h : History) : Document × List Log.Event :=
  (h.session.cancel, h.log ++ [h.session.cancelEvent])

end History
end LoginSettings.Session
