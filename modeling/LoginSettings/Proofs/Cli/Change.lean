import LoginSettings.Proofs.Cli.Quiet
import LoginSettings.Proofs.Files.Write
import LoginSettings.Proofs.Settings.Fields

/-!
# Changes of documents, all or nothing

What an order asks for is known from the files alone: the document, the settings that are read from
it or from another one, and the settings that a snapshot and the assignments make of these. If any
of this cannot be had, or the target cannot be written, the run fails and leaves nothing behind.
Otherwise it leaves the patched document in its target and nothing else.

* `load_eq_ok_iff`, `readSnapshot_eq_ok_iff` — what is loaded from files and read from snapshots
* `assignAll_eq_ok_iff` — a list of assignments is carried out if each one is well-formed, and then
  the last one to a field counts
* `result_orderedSession_iff` — the session before it is saved
* `run_change` — the run as a whole
-/

namespace LoginSettings.Cli

open Files (Tree)

variable {t : Tree} {c : Tool.Config} {order : Order} {f : Field} {v : FieldValue}

/-! ## What files hold -/

/-- The file at a path holds a document: its text is read as the document in the format that the
extension of the path names. -/
def HoldsDocument (t : Tree) (path : String) (d : Document) : Prop :=
  ∃ format text, Format.ofPath? path = some format ∧ t.readText path = .ok text
    ∧ Document.ofText format text = .ok d

/-- The file at a path holds settings: its text is decoded strictly as JSON, whatever the extension
of the path. -/
def HoldsSettings (t : Tree) (path : String) (s : Settings) : Prop :=
  ∃ text, t.readText path = .ok text ∧ Json.decodeOfText Settings.decode text = .ok s

/-- **What is loaded from a path is the document that its file holds.** -/
theorem load_eq_ok_iff {path : String} {d : Document} :
    Document.load t path = .ok d ↔ HoldsDocument t path d := by
  unfold Document.load Document.formatOf HoldsDocument
  cases hformat : Format.ofPath? path with
  | none => simp [bind, Except.bind]
  | some format =>
    cases htext : t.readText path with
    | error fault => simp [bind, Except.bind]
    | ok text => simp [bind, Except.bind]

/-- **What is read as a snapshot are the settings that the file holds.** -/
theorem readSnapshot_eq_ok_iff {path : String} {s : Settings} :
    readSnapshot t path = .ok s ↔ HoldsSettings t path s := by
  unfold readSnapshot HoldsSettings
  cases htext : t.readText path with
  | error fault => simp [Except.mapError, bind, Except.bind]
  | ok text =>
    cases hdecode : Json.decodeOfText Settings.decode text with
    | error e => simp [hdecode, Except.mapError, bind, Except.bind]
    | ok s' => simp [hdecode, Except.mapError, bind, Except.bind]

/-- What may be given is had if it is not given, or if what is given for it is had. -/
theorem mapM_eq_ok_iff {ε α β : Type} {f : α → Except ε β} {given : Option α} {had : Option β} :
    given.mapM f = .ok had ↔ Option.Rel (fun a b => f a = .ok b) given had := by
  cases given with
  | none =>
    constructor
    · rintro ⟨⟩
      exact .none
    · rintro ⟨⟩
      rfl
  | some a =>
    rw [Option.mapM_some]
    constructor
    · intro h
      cases hb : f a with
      | error e =>
        rw [hb] at h
        cases h
      | ok b =>
        rw [hb] at h
        cases h
        exact .some hb
    · intro h
      cases h with
      | some hb =>
        rw [hb]
        rfl

/-! ## Assignments -/

/-- The value that an assignment gives to a field. -/
def assigned (f : Field) (text : String) : Option FieldValue :=
  match parseAssignment text with
  | .ok (g, v) => if g = f then some v else none
  | .error _ => none

/-- An assignment names values of the field's kind only. -/
theorem kind_of_parseAssignment {text : String} (h : parseAssignment text = .ok (f, v)) :
    v.kind = f.kind := by
  unfold parseAssignment at h
  split at h
  · cases h
  · rename_i name value hsplit
    cases hname : Field.ofName (String.ofList (Text.trim name)) with
    | error e => simp [hname, Except.mapError, bind, Except.bind] at h
    | ok g =>
      cases hparse : g.parse (String.ofList value) with
      | error e => simp [hname, hparse, Except.mapError, bind, Except.bind] at h
      | ok w =>
        simp only [hname, hparse, Except.mapError, bind, Except.bind, pure, Except.pure] at h
        cases h
        exact Field.kind_of_parse hparse

theorem assignAll_cons_of_ok {text : String} {s : Session}
    (hparse : parseAssignment text = .ok (f, v)) (rest : List String) :
    ∃ current, assignAll s (text :: rest) = assignAll (s.replace current) rest
      ∧ ∀ g, current.get g = (assigned g text).getD (s.current.get g) := by
  obtain ⟨current, hset⟩ := Settings.exists_set s.current (kind_of_parseAssignment hparse)
  refine ⟨current, ?_, fun g => ?_⟩
  · simp only [assignAll, hparse, Session.set, hset, Except.mapError, Except.map, bind, Except.bind]
    rfl
  · rw [Settings.get_of_set hset g, assigned, hparse]
    by_cases hg : g = f
    · simp [hg]
    · simp [hg, Ne.symm hg]

/-- **Assignments are carried out if each of them is well-formed, and the last one to a field
counts.** -/
theorem assignAll_eq_ok_iff {s s' : Session} {texts : List String} :
    assignAll s texts = .ok s' ↔
      (∀ text ∈ texts, ∃ f v, parseAssignment text = .ok (f, v)) ∧
      s' = s.replace s'.current ∧
      ∀ f, s'.current.get f = lastGiven (assigned f) (s.current.get f) texts := by
  induction texts generalizing s with
  | nil =>
    simp only [assignAll, Except.ok.injEq, lastGiven_nil]
    constructor
    · rintro rfl
      exact ⟨by simp, rfl, fun f => rfl⟩
    · rintro ⟨-, hs, hget⟩
      rw [hs, Settings.ext_get hget]
      rfl
  | cons text rest ih =>
    cases hparse : parseAssignment text with
    | error e =>
      have hfails : assignAll s (text :: rest) = .error e.message := by
        simp [assignAll, hparse, Except.mapError, bind, Except.bind]
      simp [hfails, hparse]
    | ok given =>
      obtain ⟨f, v⟩ := given
      obtain ⟨current, hrest, hget⟩ := assignAll_cons_of_ok (s := s) hparse rest
      rw [hrest, ih]
      simp only [List.forall_mem_cons, lastGiven_cons, ← hget]
      constructor
      · rintro ⟨hrest, hs, hcurrent⟩
        exact ⟨⟨⟨f, v, hparse⟩, hrest⟩, hs, hcurrent⟩
      · rintro ⟨⟨-, hrest⟩, hs, hcurrent⟩
        exact ⟨hrest, hs, hcurrent⟩

/-! ## What an order asks for -/

/-- What an order asks for, where all of it can be read: a change of a document from the initial
settings to others. The initial settings are those of the document, or of the one that is given to
read them from. The others are those of the snapshot, or the initial ones without a snapshot, with
the assignments carried out. -/
structure Asks (t : Tree) (order : Order) (raw : Document) (initial current : Settings) :
    Prop where
  document : HoldsDocument t order.document raw
  effective : ∃ effective, Option.Rel (HoldsDocument t) order.effective effective
    ∧ initial = Settings.ofDocument (effective.getD raw)
  assignments : ∀ text ∈ order.assignments, ∃ f v, parseAssignment text = .ok (f, v)
  snapshot : ∃ snapshot, Option.Rel (HoldsSettings t) order.snapshot snapshot
    ∧ ∀ f, current.get f
      = lastGiven (assigned f) ((snapshot.getD initial).get f) order.assignments

/-- The session of an order before it is saved. -/
def orderedSession (t : Tree) (order : Order) : Progress Session := do
  let s ← beginSession t order.document order.effective
  let s ← editSession t order s
  Progress.log (if s.isDirty then [] else [unchangedEvent])
  Progress.log s.handingOnEvents
  pure s

/-- The end of a change: the session is saved, and what has been saved is reported. -/
def saveOrdered (t : Tree) (c : Tool.Config) (order : Order) (s : Session) : Progress Unit :=
  match s.save (deliver t c order.target) with
  | .error e => do
    Progress.log [Session.failedEvent e]
    Progress.fail ("Error: Failed to save config: " ++ e.message)
  | .ok (o, effects) => do
    ⟨effects, some ()⟩
    Progress.log [Session.savedEvent o]
    if order.target.isSome then Progress.outLine (savedReport order.json o)

/-- A change is a session that is saved. -/
theorem change_eq_bind (t : Tree) (c : Tool.Config) (order : Order) :
    change t c order = orderedSession t order >>= saveOrdered t c order := by
  have hassoc : orderedSession t order >>= saveOrdered t c order = (do
      let s ← beginSession t order.document order.effective
      let s ← editSession t order s
      Progress.log (if s.isDirty then [] else [unchangedEvent])
      Progress.log s.handingOnEvents
      saveOrdered t c order s) := by
    simp only [orderedSession, bind_assoc, pure_bind]
  exact hassoc.symm

theorem quiet_orderedSession (t : Tree) (order : Order) : (orderedSession t order).Quiet :=
  (quiet_beginSession t _ _).bind fun s => (quiet_editSession t order s).bind fun _ =>
    (Progress.quiet_log _).bind fun _ => (Progress.quiet_log _).bind fun _ => Progress.quiet_pure _

/-- **The session before it is saved is what the order asks for**, and there is none if any part of
that cannot be had. -/
theorem result_orderedSession_iff {s : Session} :
    (orderedSession t order).result = some s ↔
      ∃ raw initial current, Asks t order raw initial current ∧
        s = { raw, baseDigest := raw.digest, initial, current } := by
  simp only [orderedSession, Progress.result_bind, result_beginSession, result_editSession,
    Progress.result_log, Progress.result_pure, Option.bind_eq_some_iff, Option.map_eq_some_iff,
    Progress.toOption_eq_some_iff, mapM_eq_ok_iff, load_eq_ok_iff, readSnapshot_eq_ok_iff,
    assignAll_eq_ok_iff, Option.some.injEq]
  constructor
  · rintro ⟨_, ⟨raw, hraw, effective, heffective, rfl⟩, edited,
      ⟨snapshot, hsnapshot, hwhole, hs, hget⟩, -, -, -, -, rfl⟩
    exact ⟨raw, _, edited.current,
      ⟨hraw, ⟨effective, heffective, rfl⟩, hwhole, snapshot, hsnapshot, hget⟩, hs⟩
  · rintro ⟨raw, _, current,
      ⟨hraw, ⟨effective, heffective, rfl⟩, hwhole, snapshot, hsnapshot, hget⟩, rfl⟩
    exact ⟨_, ⟨raw, hraw, effective, heffective, rfl⟩, _, ⟨snapshot, hsnapshot, hwhole, rfl, hget⟩,
      (), trivial, (), trivial, rfl⟩

/-! ## The run as a whole -/

/-- What a run leaves behind that has delivered what it saved. Without a target the document is
printed, and no file changes. Otherwise the file of the target holds the document, nothing else
changes, and what has been saved is reported. -/
structure Delivers (t : Tree) (c : Tool.Config) (order : Order) (o : SaveOutcome) (r : Outcome) :
    Prop where
  printed : order.target = none →
    r.files = t ∧ r.out = Document.endLine (o.document.toText c.output.format c.output.pretty)
  written : ∀ path, order.target = some path → ∃ format, Document.formatOf path = .ok format ∧
    t.Writes path (Text.encodeUtf8 (o.document.toFileText format).toList) r.files ∧
    r.out = savedReport order.json o ++ "\n"

/-- Only the files and the standard output count. -/
theorem Delivers.congr {o : SaveOutcome} {r r' : Outcome} (h : Delivers t c order o r)
    (hfiles : r'.files = r.files) (hout : r'.out = r.out) : Delivers t c order o r' where
  printed htarget := by
    rw [hfiles, hout]
    exact h.printed htarget
  written path htarget := by
    rw [hfiles, hout]
    exact h.written path htarget

/-- A document that has been stored is the only thing that has changed in the files. -/
theorem writes_of_store {d : Document} {path : String} {after : Tree}
    (h : d.store t path = .ok after) : ∃ format, Document.formatOf path = .ok format ∧
      t.Writes path (Text.encodeUtf8 (d.toFileText format).toList) after := by
  unfold Document.store at h
  cases hformat : Document.formatOf path with
  | error e => simp [hformat, bind, Except.bind] at h
  | ok format =>
    simp only [hformat, bind, Except.bind] at h
    split at h
    · rename_i written hwrite
      cases h
      exact ⟨format, rfl, Tree.writes_of_write hwrite⟩
    · cases h

/-! ### Saving, case by case -/

section Saving

variable {s : Session} {path : String}

/-- Without a target the document is printed. -/
theorem saveOrdered_of_no_target (c : Tool.Config) (s : Session) (htarget : order.target = none) :
    saveOrdered t c order s
      = ⟨[.out (Document.endLine (s.preview.toText c.output.format c.output.pretty)),
          .event (Session.savedEvent s.outcome)], some ()⟩ := by
  simp only [saveOrdered, Session.save, deliver, htarget]
  rfl

/-- A target that cannot be written is reported. -/
theorem saveOrdered_of_store_error (c : Tool.Config) {e : DocumentError}
    (htarget : order.target = some path) (hstore : s.preview.store t path = .error e) :
    saveOrdered t c order s = (do
      Progress.log [Session.failedEvent (.document e)]
      Progress.fail ("Error: Failed to save config: " ++ (SaveError.document e).message)) := by
  simp only [saveOrdered, Session.save, deliver, htarget, hstore]
  rfl

/-- A document that has been written is reported. -/
theorem saveOrdered_of_store (c : Tool.Config) {after : Tree}
    (htarget : order.target = some path) (hstore : s.preview.store t path = .ok after) :
    saveOrdered t c order s
      = ⟨[.files after, .event (Document.storeEvent path), .event (Session.savedEvent s.outcome),
          .out (savedReport order.json s.outcome ++ "\n")], some ()⟩ := by
  simp only [saveOrdered, Session.save, deliver, htarget, hstore]
  rfl

end Saving

/-- A session that cannot be saved leaves nothing behind, and one that is saved leaves the document
in its target. -/
theorem saveOrdered_cases (t : Tree) (c : Tool.Config) (order : Order) (filter : Log.Filter)
    (s : Session) :
    (saveOrdered t c order s).Quiet ∧ (saveOrdered t c order s).result = none ∧
      (∃ path e, order.target = some path ∧ s.preview.store t path = .error e) ∨
    (saveOrdered t c order s).result = some () ∧
      (∀ path, order.target = some path → ∃ after, s.preview.store t path = .ok after) ∧
      Delivers t c order s.outcome (.ofProgress t filter (saveOrdered t c order s)) := by
  cases htarget : order.target with
  | none =>
    right
    rw [saveOrdered_of_no_target c s htarget]
    refine ⟨rfl, by simp, fun _ => ⟨rfl, ?_⟩, fun path h => ?_⟩
    · simp [Outcome.ofProgress, Effect.onOut, Session.outcome]
    · rw [htarget] at h
      cases h
  | some path =>
    cases hstore : s.preview.store t path with
    | error e =>
      left
      rw [saveOrdered_of_store_error c htarget hstore]
      exact ⟨(Progress.quiet_log _).bind fun _ => Progress.quiet_fail _, rfl, path, e, rfl, hstore⟩
    | ok after =>
      right
      rw [saveOrdered_of_store c htarget hstore]
      refine ⟨rfl, ?_, fun h => ?_, ?_⟩
      · rintro _ ⟨⟩
        exact ⟨after, hstore⟩
      · rw [htarget] at h
        cases h
      · intro path' hpath
        rw [htarget] at hpath
        cases hpath
        obtain ⟨format, hformat, hwrites⟩ := writes_of_store hstore
        exact ⟨format, hformat, hwrites, by simp [Outcome.ofProgress, Effect.onOut]⟩

/-- An order that nothing stands in the way of: all that it asks for can be had, and the patched
document can be written into the target if there is one. -/
def Feasible (t : Tree) (order : Order) (raw : Document) (initial current : Settings) : Prop :=
  Asks t order raw initial current ∧ ∀ path, order.target = some path →
    ∃ after, (raw.patch initial current).store t path = .ok after

/-- What has been saved when an order has been carried out. -/
def savedBy (raw : Document) (initial current : Settings) : SaveOutcome :=
  { document := raw.patch initial current
    changedFields := current.changedFields initial
    baseDigest := raw.digest
    digest := (raw.patch initial current).digest }

/-- A run of the command leaves nothing behind, or it leaves what has been ordered. -/
theorem ofProgress_change (t : Tree) (c : Tool.Config) (order : Order) (filter : Log.Filter) :
    let r := Outcome.ofProgress t filter (change t c order)
    r.exitCode = 1 ∧ r.files = t ∧ r.out = "" ∧
        (¬ ∃ raw initial current, Feasible t order raw initial current) ∨
      r.exitCode = 0 ∧ ∃ raw initial current, Feasible t order raw initial current ∧
        Delivers t c order (savedBy raw initial current) r := by
  intro r
  have hquiet := quiet_orderedSession t order
  cases hresult : (orderedSession t order).result with
  | none =>
    left
    have hchange : change t c order = ⟨(orderedSession t order).effects, none⟩ := by
      rw [change_eq_bind, Progress.bind_of_result_none hresult]
    have hr : r = .ofProgress t filter ⟨(orderedSession t order).effects, none⟩ := by rw [← hchange]
    rw [hr]
    obtain ⟨hout, hfiles⟩ := Outcome.ofProgress_of_quiet t filter
      (p := ⟨(orderedSession t order).effects, none⟩) hquiet
    refine ⟨rfl, hfiles, hout, ?_⟩
    rintro ⟨raw, initial, current, hasks, -⟩
    rw [result_orderedSession_iff.2 ⟨raw, initial, current, hasks, rfl⟩] at hresult
    cases hresult
  | some s =>
    obtain ⟨hexit, hout, hfiles⟩ := Outcome.ofProgress_bind t filter hquiet hresult
      (saveOrdered t c order)
    rw [← change_eq_bind] at hexit hout hfiles
    obtain ⟨raw, initial, current, hasks, rfl⟩ := result_orderedSession_iff.1 hresult
    obtain ⟨hquiet, hnone, path, e, htarget, hfails⟩ | ⟨hsome, hstore, hdelivers⟩ :=
      saveOrdered_cases t c order filter { raw, baseDigest := raw.digest, initial, current }
    · left
      obtain ⟨houtNothing, hfilesSame⟩ := Outcome.ofProgress_of_quiet t filter hquiet
      refine ⟨hexit.trans ?_, hfiles.trans hfilesSame, hout.trans houtNothing, ?_⟩
      · simp [Outcome.ofProgress, hnone]
      · rintro ⟨raw', initial', current', hasks', hstore⟩
        -- The order asks for one thing only, and that could not be written.
        rw [result_orderedSession_iff.2 ⟨raw', initial', current', hasks', rfl⟩] at hresult
        cases hresult
        obtain ⟨after, hafter⟩ := hstore path htarget
        exact absurd (hfails.symm.trans hafter) (by simp)
    · right
      refine ⟨hexit.trans ?_, raw, initial, current, ⟨hasks, hstore⟩, hdelivers.congr hfiles hout⟩
      simp [Outcome.ofProgress, hsome]

/-- **A change of a document is all or nothing.** It succeeds exactly if all that the order asks for
can be had and can be written. If it fails, no file has changed and nothing has been printed.
Otherwise the target holds the patched document, and nothing else has changed. -/
theorem run_change (t : Tree) (env : Tool.Environment) (config logFilter : Option String)
    (order : Order) :
    let i : Invocation := { config, logFilter, command := .change order }
    let r := i.run t env
    (r.exitCode = 0 ↔ ∃ c raw initial current,
      i.settings t env = .ok c ∧ Feasible t order raw initial current) ∧
    (r.exitCode ≠ 0 → r.exitCode = 1 ∧ r.files = t ∧ r.out = "") ∧
    (r.exitCode = 0 → ∃ c raw initial current,
      i.settings t env = .ok c ∧ Asks t order raw initial current ∧
      Delivers t c order (savedBy raw initial current) r) := by
  intro i r
  cases hsettings : i.settings t env with
  | error e =>
    have hr : r = ⟨1, "", s!"Error loading config: {e.message}\n", t⟩ := by
      simp only [r, Invocation.run, hsettings]
    simp [hr]
  | ok c =>
    obtain ⟨hexit, hout, hfiles⟩ :=
      Outcome.ofProgress_bind t (.choose env.logFilter c.logFilter)
        (Progress.quiet_log [settingsEvent c]) rfl fun _ => change t c order
    have hr : r = .ofProgress t (.choose env.logFilter c.logFilter)
        (Progress.log [settingsEvent c] >>= fun _ => change t c order) := by
      simp only [r, Invocation.run, hsettings]
      rfl
    rw [← hr] at hexit hout hfiles
    obtain ⟨hone, hsame, hnothing, hinfeasible⟩ |
        ⟨hzero, raw, initial, current, hfeasible, hdelivers⟩ :=
      ofProgress_change t c order (.choose env.logFilter c.logFilter)
    · rw [hone] at hexit
      rw [hsame] at hfiles
      rw [hnothing] at hout
      refine ⟨?_, fun _ => ⟨hexit, hfiles, hout⟩, fun hzero => ?_⟩
      · simp only [hexit, Nat.one_ne_zero, false_iff]
        rintro ⟨_, raw, initial, current, -, hfeasible⟩
        exact hinfeasible ⟨raw, initial, current, hfeasible⟩
      · rw [hexit] at hzero
        cases hzero
    · rw [hzero] at hexit
      have hdelivered : Delivers t c order (savedBy raw initial current) r :=
        hdelivers.congr hfiles hout
      exact ⟨⟨fun _ => ⟨c, raw, initial, current, rfl, hfeasible⟩, fun _ => hexit⟩,
        fun hfails => absurd hexit hfails,
        fun _ => ⟨c, raw, initial, current, rfl, hfeasible.1, hdelivered⟩⟩

end LoginSettings.Cli
