import LoginSettings.Proofs.Widget.Runs

/-!
# What the log does not tell

Tokens let somebody in, and the log is read by many. Two runs that differ in the tokens only, of
which each is as long as the other one, or in what controllers are made of, have the same log.

The pages of two such runs are alike in what later events depend on: the color scheme, and how many
requests wait and how many widgets there are. A step keeps pages alike (`Alike.step`).
-/

namespace LoginSettings.Widget

/-- Two calls that differ at most in their tokens, which are as long in bytes. -/
inductive Call.Alike : Call → Call → Prop where
  | success {token token' : String} (h : token.utf8ByteSize = token'.utf8ByteSize) :
    Alike (.success token) (.success token')
  | error (code : String) : Alike (.error code) (.error code)
  | expired {token token' : String} (h : token.utf8ByteSize = token'.utf8ByteSize) :
    Alike (.expired token) (.expired token')

/-- Two steps that differ at most in the controller or in a token, which is as long in bytes. -/
inductive Step.Alike : Step → Step → Prop where
  | connect (c c' : Controller) (atOnce : Bool) : Alike (.connect c atOnce) (.connect c' atOnce)
  | ready : Alike .ready .ready
  | scheme (value : String) : Alike (.scheme value) (.scheme value)
  | call (widget : Nat) {call call' : Call} (h : call.Alike call') :
    Alike (.call widget call) (.call widget call')

/-- The event that is logged on a call has of a token its length only. -/
theorem Call.Alike.event_eq {call call' : Call} (h : call.Alike call') :
    call.report.event = call'.report.event := by
  cases h with
  | success h => simp only [report, Report.event, Report.name, h]
  | error code => rfl
  | expired h => simp only [report, Report.event, Report.name, h]

theorem Step.Alike.scheme?_eq {s s' : Step} (h : s.Alike s') : s.scheme? = s'.scheme? := by
  cases h <;> rfl

theorem Step.Alike.length_controller?_eq {s s' : Step} (h : s.Alike s') :
    s.controller?.toList.length = s'.controller?.toList.length := by
  cases h <;> rfl

namespace Page

variable {p p' : Page} {s s' : Step} {steps steps' : List Step}

/-- Two pages with the same log that are alike in all that later events depend on. -/
structure Alike (p p' : Page) : Prop where
  scheme : p.scheme = p'.scheme
  waiting : p.waiting.length = p'.waiting.length
  rendered : p.rendered.length = p'.rendered.length
  log : p.log = p'.log

theorem Alike.refl (p : Page) : Alike p p := ⟨rfl, rfl, rfl, rfl⟩

/-- Steps that are alike render as many widgets on pages that are alike. -/
theorem Alike.length_due_eq (h : Alike p p') (hs : s.Alike s') :
    (p.due s).length = (p'.due s').length := by
  cases hs with
  | connect c c' atOnce =>
    have hempty : p.waiting = [] ↔ p'.waiting = [] := by
      rw [← List.length_eq_zero_iff, h.waiting, List.length_eq_zero_iff]
    simp only [due, hempty]
    split <;> rfl
  | ready => exact h.waiting
  | scheme value => rfl
  | call widget hcall => rfl

/-- Steps that are alike report calls with the same events. -/
theorem Alike.events_eq (h : Alike p p') (hs : s.Alike s') :
    (p.called s).map (fun call => call.report.event)
      = (p'.called s').map fun call => call.report.event := by
  cases hs with
  | connect c c' atOnce => rfl
  | ready => rfl
  | scheme value => rfl
  | call widget hcall =>
    simp only [called, h.rendered]
    split
    · rw [List.map_singleton, List.map_singleton, hcall.event_eq]
    · rfl

/-- **Steps that are alike keep pages alike.** -/
theorem Alike.step (h : Alike p p') (hs : s.Alike s') : Alike (p.step s) (p'.step s') := by
  have hq := p.stepped_step s
  have hq' := p'.stepped_step s'
  have hdue := h.length_due_eq hs
  constructor
  · rw [hq.scheme, hq'.scheme, hs.scheme?_eq, h.scheme]
  · have hwaiting := congrArg List.length hq.waiting
    have hwaiting' := congrArg List.length hq'.waiting
    have hconnected := hs.length_controller?_eq
    have hbefore := h.waiting
    simp only [List.length_append] at hwaiting hwaiting'
    omega
  · rw [hq.rendered, hq'.rendered, List.length_append, List.length_append, List.length_map,
      List.length_map, h.rendered, hdue]
  · rw [hq.log, hq'.log, h.log, h.scheme, hdue, h.events_eq hs]

/-- Runs that are alike keep pages alike. -/
theorem Alike.run (h : Alike p p') (hs : List.Forall₂ Step.Alike steps steps') :
    Alike (p.run steps) (p'.run steps') := by
  induction hs generalizing p p' with
  | nil => exact h
  | cons hs _ ih => exact ih (h.step hs)

/-- **The log depends on no token but for its length**, and on nothing that controllers are made
of: runs that differ in these only write the same events. -/
theorem log_run_eq (scheme : String) (hs : List.Forall₂ Step.Alike steps steps') :
    ((start scheme).run steps).log = ((start scheme).run steps').log :=
  ((Alike.refl (start scheme)).run hs).log

/-- Two controllers, one of which waits, and all that their widgets may call. -/
def visit (siteKey language target token token' : String) : List Step :=
  [.connect ⟨siteKey, language, target⟩ true, .connect ⟨target, siteKey, language⟩ false,
    .scheme "dark", .call 0 (.success token), .ready, .call 1 (.error "110200"),
    .call 1 (.expired token')]

theorem log_run_eq_visit :
    let p := (start "light").run (visit "0x4A" "en" "login" "token-1" "sésame")
    let p' := (start "light").run (visit "0x4B" "de" "signup" "jeton-2" "letmein")
    p.log.length = 5 ∧ p.reports ≠ p'.reports ∧ p.log = p'.log := by
  have hs : List.Forall₂ Step.Alike (visit "0x4A" "en" "login" "token-1" "sésame")
      (visit "0x4B" "de" "signup" "jeton-2" "letmein") := by
    exact .cons (.connect _ _ true) (.cons (.connect _ _ false) (.cons (.scheme "dark")
      (.cons (.call 0 (.success (by decide))) (.cons .ready
        (.cons (.call 1 (.error "110200")) (.cons (.call 1 (.expired (by decide))) .nil))))))
  exact ⟨by decide, by decide, log_run_eq "light" hs⟩

end Page
end LoginSettings.Widget
