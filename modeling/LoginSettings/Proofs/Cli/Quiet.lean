import LoginSettings.Cli.Run

/-!
# Progress that leaves nothing behind

Most parts of a run read files, log and report failures, and do no more: they are quiet. What a run
leaves behind comes from the other parts. Putting parts together one after another keeps them
quiet, and what goes before the rest of a run quietly can be left out when it comes to files and
the standard output.

* `ofProgress_of_quiet`, `ofProgress_bind` — what a quiet run leaves behind, and a quiet beginning
* `Invocation.run_of_settings` — the run of a command
* `result_beginSession`, `quiet_beginSession` — beginning a session
* `result_editSession`, `quiet_editSession` — editing it as an order says
-/

namespace LoginSettings.Cli

open Files (Tree)

/-- Holds of effects that neither print on the standard output nor write a file. -/
def Effect.IsQuiet : Effect → Prop
  | err _ => True
  | event _ => True
  | out _ => False
  | files _ => False

namespace Progress

variable {α β ε : Type} {p : Progress α} {f : α → Progress β}

/-! ## Parts one after another -/

@[simp] theorem andThen_eq_bind (p : Progress α) (f : α → Progress β) : p.andThen f = p >>= f := rfl

/-- After a part that fails nothing else is done. -/
theorem bind_of_result_none (h : p.result = none) : p >>= f = ⟨p.effects, none⟩ := by
  simp only [bind, andThen, h]

/-- After a part that succeeds its continuation adds its own effects. -/
theorem bind_of_result_some {a : α} (h : p.result = some a) :
    p >>= f = ⟨p.effects ++ (f a).effects, (f a).result⟩ := by
  simp only [bind, andThen, h]

instance : LawfulMonad Progress := LawfulMonad.mk' Progress
  (by
    intro α p
    obtain ⟨effects, result⟩ := p
    cases result with
    | none => rfl
    | some a => exact congrArg (Progress.mk · _) (List.append_nil effects))
  (by
    intro α β a f
    rfl)
  (by
    intro α β γ p f g
    cases hp : p.result with
    | none => simp [bind_of_result_none, hp]
    | some a =>
      rw [bind_of_result_some hp, bind_of_result_some (p := p) hp]
      cases hf : (f a).result with
      | none => simp [bind_of_result_none, hf]
      | some b => simp [bind_of_result_some, hf])

@[simp] theorem result_map (g : α → β) (p : Progress α) : (g <$> p).result = p.result.map g := by
  rw [← bind_pure_comp, result_bind, Option.map_eq_bind]
  rfl

@[simp] theorem toOption_eq_some_iff {result : Except ε α} {a : α} :
    result.toOption = some a ↔ result = .ok a := by
  cases result <;> simp [Except.toOption]

@[simp] theorem result_log (events : List Log.Event) : (log events).result = some () := rfl

/-- What may fail goes on with its value, if there is one. -/
@[simp] theorem result_orFail (report : ε → String) (result : Except ε α) :
    (orFail report result).result = result.toOption := by
  cases result <;> rfl

/-! ## Quiet parts -/

/-- Holds of parts of a run that neither print on the standard output nor write a file. -/
def Quiet (p : Progress α) : Prop := ∀ e ∈ p.effects, e.IsQuiet

theorem quiet_pure (a : α) : (pure a : Progress α).Quiet := by
  intro e he
  cases he

theorem quiet_log (events : List Log.Event) : (log events).Quiet := by
  intro e he
  obtain ⟨event, -, rfl⟩ := List.mem_map.1 he
  trivial

theorem quiet_fail (report : String) : (fail report : Progress α).Quiet := by
  intro e he
  rw [List.mem_singleton.1 he]
  trivial

/-- A failure is reported on the error output only. -/
theorem quiet_orFail (report : ε → String) (result : Except ε α) :
    (orFail report result).Quiet := by
  cases result with
  | ok a => exact quiet_pure a
  | error e => exact quiet_fail _

/-- Quiet parts one after another are quiet. -/
theorem Quiet.bind (hp : p.Quiet) (hf : ∀ a, (f a).Quiet) : (p >>= f).Quiet := by
  intro e he
  cases hresult : p.result with
  | none =>
    rw [bind_of_result_none hresult] at he
    exact hp e he
  | some a =>
    rw [bind_of_result_some hresult] at he
    rcases List.mem_append.1 he with he | he
    · exact hp e he
    · exact hf a e he

end Progress

/-! ## What is left behind -/

/-- Quiet effects print nothing on the standard output. -/
theorem join_onOut_of_quiet {effects : List Effect} (h : ∀ e ∈ effects, e.IsQuiet) :
    String.join (effects.map Effect.onOut) = "" := by
  induction effects with
  | nil => rfl
  | cons e effects ih =>
    rw [List.map_cons, String.join_cons, ih fun d hd => h d (List.mem_cons_of_mem e hd)]
    have he := h e List.mem_cons_self
    cases e with
    | err text => rfl
    | event event => rfl
    | out text => cases he
    | files after => cases he

/-- Quiet effects leave the files as they are. -/
theorem foldl_onFiles_of_quiet (t : Tree) {effects : List Effect} (h : ∀ e ∈ effects, e.IsQuiet) :
    effects.foldl Effect.onFiles t = t := by
  induction effects with
  | nil => rfl
  | cons e effects ih =>
    have he := h e List.mem_cons_self
    have hrest := ih fun d hd => h d (List.mem_cons_of_mem e hd)
    cases e with
    | err text => exact hrest
    | event event => exact hrest
    | out text => cases he
    | files after => cases he

namespace Outcome

variable {α : Type} (t : Tree) (filter : Log.Filter)

/-- A quiet run prints nothing and leaves the files as they are. -/
theorem ofProgress_of_quiet {p : Progress Unit} (h : p.Quiet) :
    (ofProgress t filter p).out = "" ∧ (ofProgress t filter p).files = t :=
  ⟨join_onOut_of_quiet h, foldl_onFiles_of_quiet t h⟩

/-- A quiet beginning can be left out. -/
theorem ofProgress_bind {p : Progress α} {a : α} (h : p.Quiet) (hresult : p.result = some a)
    (f : α → Progress Unit) :
    (ofProgress t filter (p >>= f)).exitCode = (ofProgress t filter (f a)).exitCode
      ∧ (ofProgress t filter (p >>= f)).out = (ofProgress t filter (f a)).out
      ∧ (ofProgress t filter (p >>= f)).files = (ofProgress t filter (f a)).files := by
  rw [Progress.bind_of_result_some hresult]
  refine ⟨rfl, ?_, ?_⟩
  · simp [ofProgress, join_onOut_of_quiet h]
  · simp [ofProgress, foldl_onFiles_of_quiet t h]

/-- A printed line ends with a line feed. -/
theorem out_outLine (text : String) :
    (ofProgress t filter (Progress.outLine text)).out = text ++ "\n" := by
  simp [ofProgress, Progress.outLine, Progress.out, Effect.onOut]

end Outcome

/-- Once the settings of the tool are known, the command alone counts. -/
theorem Invocation.run_of_settings {t : Tree} {env : Tool.Environment} {i : Invocation}
    {c : Tool.Config} (h : i.settings t env = .ok c) :
    let r := Outcome.ofProgress t (.choose env.logFilter c.logFilter) (i.command.run t c)
    (i.run t env).exitCode = r.exitCode ∧ (i.run t env).out = r.out
      ∧ (i.run t env).files = r.files := by
  have hrun : i.run t env = .ofProgress t (.choose env.logFilter c.logFilter)
      (Progress.log [settingsEvent c] >>= fun _ => i.command.run t c) := by
    simp only [run, h]
    rfl
  rw [hrun]
  exact Outcome.ofProgress_bind t _ (Progress.quiet_log _) rfl _

/-! ## Sessions -/

section

variable (t : Tree) (order : Order) (s : Session)

/-- A document is there as soon as it can be loaded. -/
theorem result_loadDocument (path : String) :
    (loadDocument t path).result = (Document.load t path).toOption := by
  simp [loadDocument, Progress.result_bind]

theorem quiet_loadDocument (path : String) : (loadDocument t path).Quiet :=
  (Progress.quiet_orFail _ _).bind fun _ => (Progress.quiet_log _).bind fun _ =>
    Progress.quiet_pure _

/-- A session begins once the document is loaded, and the other one if it is given. -/
theorem result_beginSession (document : String) (effective : Option String) :
    (beginSession t document effective).result = (Document.load t document).toOption.bind fun raw =>
      (effective.mapM (Document.load t)).toOption.map (Session.start raw) := by
  cases effective with
  | none =>
    simp only [beginSession, Progress.result_bind, result_loadDocument]
    rfl
  | some path =>
    simp only [beginSession, Progress.result_bind, result_loadDocument, Progress.andThen_eq_bind,
      Option.mapM_some]
    cases Document.load t path with
    | ok filled => rfl
    | error e => rfl

theorem quiet_beginSession (document : String) (effective : Option String) :
    (beginSession t document effective).Quiet := by
  refine (quiet_loadDocument t document).bind fun raw => ?_
  have hrest : ∀ filled, (do
      Progress.log [(Session.start raw filled).startEvent]
      pure (Session.start raw filled) : Progress Session).Quiet := fun filled =>
    (Progress.quiet_log _).bind fun _ => Progress.quiet_pure _
  cases effective with
  | none => exact (Progress.quiet_pure none).bind hrest
  | some path =>
    exact ((quiet_loadDocument t path).bind fun d => Progress.quiet_pure _).bind hrest

/-- A session is edited by the snapshot first, and then by the assignments. -/
theorem result_editSession :
    (editSession t order s).result =
      (order.snapshot.mapM (readSnapshot t)).toOption.bind fun base =>
        (assignAll (s.replace (base.getD s.current)) order.assignments).toOption := by
  unfold editSession
  cases order.snapshot with
  | none =>
    simp only [Progress.result_bind, Progress.result_orFail]
    rfl
  | some path =>
    simp only [Progress.result_bind, Progress.andThen_eq_bind, Progress.result_orFail,
      Option.mapM_some]
    cases readSnapshot t path with
    | ok base => rfl
    | error e => rfl

theorem quiet_editSession : (editSession t order s).Quiet := by
  unfold editSession
  cases order.snapshot with
  | none => exact (Progress.quiet_pure s).bind fun _ => Progress.quiet_orFail _ _
  | some path =>
    exact ((Progress.quiet_orFail _ _).bind fun _ => Progress.quiet_pure _).bind fun _ =>
      Progress.quiet_orFail _ _

end

end LoginSettings.Cli
