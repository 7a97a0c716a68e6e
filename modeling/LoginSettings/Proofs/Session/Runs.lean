import LoginSettings.Proofs.Settings.Fields
import LoginSettings.Session.History

/-!
# Runs of sessions

What is known after any number of steps of an edit session, whether they fail or not. The document
and the settings that the session began with stay; each field has the value that was given to it
last, by setting it, by replacing all settings or by going back; and what has been saved are the
documents that were patched at the time of each save.

A step changes nothing of the session but its current settings (`session_step`), and of these what
it gives to a field (`get_current_step`). All that holds of runs follows by induction on the steps,
and is put together for a session from its beginning in `start_run_follows`.
-/

namespace LoginSettings.Session

namespace Step

/-- What a step puts into a field: a value of the field's kind that is set in it, the value that a
text spells, the value in the settings that replace all others, or the initial one on going back. -/
def gives (initial : Settings) (f : Field) : Step → Option FieldValue
  | set g v => if g = f ∧ v.kind = g.kind then some v else none
  | parse g text => if g = f then (g.parse text).toOption else none
  | replace settings => some (settings.get f)
  | reset => some (initial.get f)
  | preview => none
  | save _ => none

end Step

namespace History

variable {h : History} {f : Field} {v : FieldValue} {text path : String}

/-! ## Single steps -/

/-- A value of the right kind is set. -/
theorem step_set (h : History) (hkind : v.kind = f.kind) :
    ∃ current, h.step (.set f v) = (.ok .done, { h with session := { h.session with current } })
      ∧ ∀ g, current.get g = if g = f then v else h.session.current.get g := by
  obtain ⟨current, hset⟩ := Settings.exists_set h.session.current hkind
  refine ⟨current, ?_, Settings.get_of_set hset⟩
  rw [step, Session.set, hset]
  rfl

/-- A value of the wrong kind is refused, and nothing changes. -/
theorem step_set_of_kind_ne (h : History) (hkind : v.kind ≠ f.kind) :
    h.step (.set f v) = (.error (.field (.kindMismatch f f.kind)), h) := by
  rw [step, Session.set, Settings.set_of_kind_ne _ hkind]
  rfl

/-- A text that spells a value is as good as the value. -/
theorem step_parse (h : History) (hparse : f.parse text = .ok v) :
    h.step (.parse f text) = h.step (.set f v) := by
  rw [step, step, hparse]
  rfl

/-- A text that is no value of the field is refused, and nothing changes. -/
theorem step_parse_of_error (h : History) {e : FieldError} (hparse : f.parse text = .error e) :
    h.step (.parse f text) = (.error (.field e), h) := by
  rw [step, hparse]
  rfl

/-- A document that is kept in memory is added to those of before. -/
theorem step_save_memory (h : History) :
    ∃ log, h.step (.save .memory) = (.ok (.saved h.session.outcome),
      { h with saved := h.saved ++ [h.session.preview], log }) :=
  ⟨_, rfl⟩

/-- A save that is refused changes nothing but the log. -/
theorem step_save_refusal (h : History) (report : String) :
    ∃ log, h.step (.save (.refusal report))
      = (.error (.save (.rejected report)), { h with log }) :=
  ⟨_, rfl⟩

/-- A save into a file leaves the files as they are after the write. -/
theorem step_save_file (h : History) {files : Files.Tree}
    (hstore : h.session.preview.store h.files path = .ok files) :
    ∃ log, h.step (.save (.file path))
      = (.ok (.saved h.session.outcome), { h with files, log }) := by
  simp only [step, save, Session.save, accept, session_note, files_note, hstore]
  exact ⟨_, rfl⟩

/-- A save that cannot be written changes nothing but the log. -/
theorem step_save_file_of_error (h : History) {e : DocumentError}
    (hstore : h.session.preview.store h.files path = .error e) :
    ∃ log, h.step (.save (.file path)) = (.error (.save (.document e)), { h with log }) := by
  simp only [step, save, Session.save, accept, session_note, files_note, hstore]
  exact ⟨_, rfl⟩

/-- A save that succeeds changes what is kept outside the session and the log, and one that fails
the log only. -/
theorem step_save_cases (h : History) (destination : Destination) :
    (∃ files log, h.step (.save destination) = (.ok (.saved h.session.outcome),
      { h with
        saved := h.saved ++ if destination = .memory then [h.session.preview] else []
        files, log })) ∨
    ∃ e log, destination ≠ .memory ∧
      h.step (.save destination) = (.error (.save e), { h with log }) := by
  cases destination with
  | memory => exact .inl ⟨_, _, rfl⟩
  | refusal report =>
    obtain ⟨log, hstep⟩ := h.step_save_refusal report
    exact .inr ⟨_, log, by simp, hstep⟩
  | file path =>
    cases hstore : h.session.preview.store h.files path with
    | ok files =>
      obtain ⟨log, hstep⟩ := h.step_save_file hstore
      exact .inl ⟨files, log, by simp [hstep]⟩
    | error e =>
      obtain ⟨log, hstep⟩ := h.step_save_file_of_error hstore
      exact .inr ⟨_, log, by simp, hstep⟩

/-- Saving leaves the session as it is. -/
theorem session_step_save (h : History) (destination : Destination) :
    (h.step (.save destination)).2.session = h.session := by
  obtain ⟨files, log, hstep⟩ | ⟨e, log, -, hstep⟩ := h.step_save_cases destination
  · rw [hstep]
  · rw [hstep]

/-- **A step changes nothing of the session but its current settings.** -/
theorem session_step (h : History) (s : Step) :
    ∃ current, (h.step s).2.session = { h.session with current } := by
  have hset : ∀ f v, ∃ current, (h.step (.set f v)).2.session = { h.session with current } := by
    intro f v
    by_cases hkind : v.kind = f.kind
    · obtain ⟨current, hstep, -⟩ := h.step_set hkind
      exact ⟨current, by rw [hstep]⟩
    · exact ⟨h.session.current, by rw [h.step_set_of_kind_ne hkind]⟩
  cases s with
  | set f v => exact hset f v
  | parse f text =>
    cases hparse : f.parse text with
    | ok v =>
      rw [h.step_parse hparse]
      exact hset f v
    | error e => exact ⟨h.session.current, by rw [h.step_parse_of_error hparse]⟩
  | replace settings => exact ⟨settings, rfl⟩
  | reset => exact ⟨h.session.initial, rfl⟩
  | preview => exact ⟨h.session.current, rfl⟩
  | save destination => exact ⟨h.session.current, h.session_step_save destination⟩

/-- **After a step a field has the value that the step gives it, or else its old one.** -/
theorem get_current_step (h : History) (s : Step) (f : Field) :
    (h.step s).2.session.current.get f
      = (s.gives h.session.initial f).getD (h.session.current.get f) := by
  have hset : ∀ g v, (h.step (.set g v)).2.session.current.get f
      = ((Step.set g v).gives h.session.initial f).getD (h.session.current.get f) := by
    intro g v
    by_cases hkind : v.kind = g.kind
    · obtain ⟨current, hstep, hget⟩ := h.step_set hkind
      rw [hstep, hget f]
      by_cases hf : f = g
      · simp [Step.gives, hf, hkind]
      · simp [Step.gives, hf, Ne.symm hf]
    · rw [h.step_set_of_kind_ne hkind]
      simp [Step.gives, hkind]
  cases s with
  | set g v => exact hset g v
  | parse g text =>
    cases hparse : g.parse text with
    | ok v =>
      -- A text spells values of the right kind only, so the value can be set.
      rw [h.step_parse hparse, hset g v]
      simp [Step.gives, hparse, Field.kind_of_parse hparse, Except.toOption]
    | error e =>
      rw [h.step_parse_of_error hparse]
      simp [Step.gives, hparse, Except.toOption]
  | replace settings => rfl
  | reset => rfl
  | preview => rfl
  | save destination =>
    rw [h.session_step_save destination]
    rfl

@[simp] theorem saved_edit (h : History) (edited : Except FieldError Session) :
    (h.edit edited).2.saved = h.saved := by
  cases edited <;> rfl

/-- Only a save that is kept adds to what has been saved. -/
theorem saved_step (h : History) (s : Step) :
    (h.step s).2.saved = h.saved ++ if s = .save .memory then [h.session.preview] else [] := by
  cases s with
  | save destination =>
    obtain ⟨files, log, hstep⟩ | ⟨e, log, hmemory, hstep⟩ := h.step_save_cases destination
    · simp [hstep]
    · simp [hstep, hmemory]
  | _ => simp [step]

/-- A set or a parsed one that fails changes nothing. -/
theorem step_eq_self_of_field_error (h : History) {s : Step} {e : FieldError}
    (hfails : (h.step s).1 = .error (.field e)) : (h.step s).2 = h := by
  have hedit : ∀ edited : Except FieldError Session,
      (h.edit edited).1 = .error (.field e) → (h.edit edited).2 = h := by
    intro edited hfails
    cases edited with
    | ok session => cases hfails
    | error e => rfl
  cases s with
  | preview => cases hfails
  | save destination =>
    obtain ⟨files, log, hstep⟩ | ⟨e, log, -, hstep⟩ := h.step_save_cases destination
    · simp [hstep] at hfails
    · simp [hstep] at hfails
  | _ => exact hedit _ hfails

/-! ## Runs -/

@[simp] theorem run_nil (h : History) : h.run [] = h := rfl

theorem run_cons (h : History) (s : Step) (steps : List Step) :
    h.run (s :: steps) = (h.step s).2.run steps := rfl

/-- A run changes nothing of the session but its current settings. -/
theorem session_run (h : History) (steps : List Step) :
    ∃ current, (h.run steps).session = { h.session with current } := by
  induction steps generalizing h with
  | nil => exact ⟨h.session.current, rfl⟩
  | cons s steps ih =>
    obtain ⟨middle, hstep⟩ := h.session_step s
    obtain ⟨current, hrun⟩ := ih (h.step s).2
    refine ⟨current, ?_⟩
    rw [run_cons, hrun, hstep]

/-- **After a run a field has the value that was given to it last.** -/
theorem get_current_run (h : History) (steps : List Step) (f : Field) :
    (h.run steps).session.current.get f
      = lastGiven (Step.gives h.session.initial f) (h.session.current.get f) steps := by
  induction steps generalizing h with
  | nil => rfl
  | cons s steps ih =>
    obtain ⟨middle, hstep⟩ := h.session_step s
    have hinitial : (h.step s).2.session.initial = h.session.initial := by rw [hstep]
    rw [run_cons, ih, hinitial, get_current_step, lastGiven_cons]

/-- **What has been saved are the documents patched at the time of each save that is kept.** -/
theorem saved_run (h : History) (steps : List Step) :
    (h.run steps).saved = h.saved ++ (List.range steps.length).filterMap fun i =>
      if steps[i]? = some (.save .memory) then some (h.run (steps.take i)).session.preview
      else none := by
  induction steps generalizing h with
  | nil => simp
  | cons s steps ih =>
    rw [run_cons, ih, saved_step, List.append_assoc, List.length_cons, List.range_succ_eq_map,
      List.filterMap_cons, List.filterMap_map]
    congr 1
    by_cases hs : s = .save .memory
    · simp [hs]
      rfl
    · simp [hs]
      rfl

/-! ## Sessions from their beginning -/

/-- How a history goes on when it is saved. What is handed on, and only that, is the document of the
outcome, and the outcome is given back; where the document is not taken, all but the log stays. -/
structure Saves (h : History) (o : SaveOutcome) : Prop where
  sink : ∀ {α : Type} (accept : Document → Except SaveError α),
    h.session.save accept = (accept o.document).map fun a => (o, a)
  memory : ∃ log, h.step (.save .memory)
    = (.ok (.saved o), { h with saved := h.saved ++ [o.document], log })
  refusal : ∀ report, ∃ log, h.step (.save (.refusal report))
    = (.error (.save (.rejected report)), { h with log })
  stored : ∀ path files, o.document.store h.files path = .ok files →
    ∃ log, h.step (.save (.file path)) = (.ok (.saved o), { h with files, log })
  notStored : ∀ path e, o.document.store h.files path = .error e →
    ∃ log, h.step (.save (.file path)) = (.error (.save (.document e)), { h with log })

/-- What is known of a history after some steps of a session on a document with initial settings. -/
structure Follows (raw : Document) (initial : Settings) (steps : List Step) (h : History) :
    Prop where
  raw_eq : h.session.raw = raw
  initial_eq : h.session.initial = initial
  baseDigest_eq : h.session.baseDigest = raw.digest
  current : ∀ f, h.session.current.get f
    = lastGiven (Step.gives initial f) (initial.get f) steps
  dirty_iff_changed : h.session.isDirty = true ↔ h.session.changedFields ≠ []
  dirty_iff_ne : h.session.isDirty = true ↔ h.session.current ≠ initial
  set : ∀ f v, (h.step (.set f v)).1 = .ok .done ↔ v.kind = f.kind
  parse : ∀ f text, (h.step (.parse f text)).1 = .ok .done ↔ ∃ v, f.parse text = .ok v
  failed : ∀ s e, (h.step s).1 = .error (.field e) → (h.step s).2 = h
  preview : (h.step .preview).1 = .ok (.preview (raw.patch initial h.session.current))
  saves : h.Saves
    { document := raw.patch initial h.session.current
      changedFields := h.session.current.changedFields initial
      baseDigest := raw.digest
      digest := (raw.patch initial h.session.current).digest }

/-- A session reports what it saves. -/
theorem saves_outcome (h : History) : h.Saves h.session.outcome where
  sink _ := rfl
  memory := h.step_save_memory
  refusal := h.step_save_refusal
  stored _ _ := h.step_save_file
  notStored _ _ := h.step_save_file_of_error

/-- Setting succeeds exactly with values of the right kind. -/
theorem step_set_eq_done_iff (h : History) :
    (h.step (.set f v)).1 = .ok .done ↔ v.kind = f.kind := by
  by_cases hkind : v.kind = f.kind
  · obtain ⟨current, hstep, -⟩ := h.step_set hkind
    simp [hstep, hkind]
  · simp [h.step_set_of_kind_ne hkind, hkind]

/-- Setting from a text succeeds exactly with texts of values. -/
theorem step_parse_eq_done_iff (h : History) :
    (h.step (.parse f text)).1 = .ok .done ↔ ∃ v, f.parse text = .ok v := by
  cases hparse : f.parse text with
  | ok v => simp [h.step_parse hparse, step_set_eq_done_iff, Field.kind_of_parse hparse]
  | error e => simp [h.step_parse_of_error hparse]

/-- **Whatever the steps of a session are, the session follows them**: what it began with stays,
each field has the value given to it last, and each save hands on the document patched from these.
What has been saved are the documents of the saves that were kept, in their order, each with the
settings of its moment. -/
theorem start_run_follows (raw : Document) (effective : Option Document) (files : Files.Tree) :
    let initial := Settings.ofDocument (effective.getD raw)
    let after := (start raw effective files).run
    (∀ steps, Follows raw initial steps (after steps)) ∧
      ∀ steps, (after steps).saved = (List.range steps.length).filterMap fun i =>
        if steps[i]? = some (.save .memory) then
          some (raw.patch initial (after (steps.take i)).session.current)
        else none := by
  intro initial after
  have hsession : ∀ steps, ∃ current, (after steps).session
      = { raw, baseDigest := raw.digest, initial, current } :=
    (start raw effective files).session_run
  refine ⟨fun steps => ?_, fun steps => ?_⟩
  · obtain ⟨current, hrun⟩ := hsession steps
    have houtcome := (after steps).saves_outcome
    rw [hrun] at houtcome
    exact
      { raw_eq := by rw [hrun]
        initial_eq := by rw [hrun]
        baseDigest_eq := by rw [hrun]
        current := (start raw effective files).get_current_run steps
        dirty_iff_changed := by simp [isDirty, changedFields, Settings.changedFields_eq_nil_iff]
        dirty_iff_ne := by simp [isDirty, hrun]
        set := fun f v => step_set_eq_done_iff _
        parse := fun f text => step_parse_eq_done_iff _
        failed := fun s e => step_eq_self_of_field_error _
        preview := by simp [step, Session.preview, hrun]
        saves := by rw [hrun]; exact houtcome }
  · -- The document patched at a moment is the one of the session at that moment.
    have hpreview : ∀ i, (after (steps.take i)).session.preview
        = raw.patch initial (after (steps.take i)).session.current := by
      intro i
      obtain ⟨current, hrun⟩ := hsession (steps.take i)
      rw [hrun]
      rfl
    have hsaved : (start raw effective files).saved = [] := rfl
    simp only [after, saved_run, hsaved, List.nil_append] at hpreview ⊢
    simp only [hpreview]

end History
end LoginSettings.Session
