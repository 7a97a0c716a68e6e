import LoginSettings.Widget.Page
import Mathlib.Data.List.Forall2
import Mathlib.Data.List.Induction

/-!
# Runs of pages with widgets

What is known of a page after any number of steps. Each request that has been made is either still
waiting or has led to one widget, in the order of the requests. A widget has what its controller
had, and the theme for the color scheme at the moment when it was rendered. What is reported are the
calls of the widgets, one report for each call and with its text.

What is to be reported of a call, and which theme suits a color scheme, is said by relations of
their own: `Call.ReportedAs` and `Theme.Suits`.

All that a step can do to a page is said in `stepped_step`. What holds of runs follows by induction
on the steps, the last one first, and is put together in `follows_run`.
-/

namespace LoginSettings.Widget

/-! ## What steps ask for -/

/-- Holds of the calls that are made for errors. -/
def Call.isError : Call → Bool
  | error _ => true
  | _ => false

/-- What is to be reported of a call: a success as verified, an error as failed and an expiry as
expired, each with the text that it was called with. -/
inductive Call.ReportedAs : Call → Report → Prop where
  | success (token : String) : ReportedAs (.success token) (.verified token)
  | error (code : String) : ReportedAs (.error code) (.failed code)
  | expired (token : String) : ReportedAs (.expired token) (.expired token)

/-- Each call is reported as it is to be. -/
theorem Call.reportedAs_report (call : Call) : call.ReportedAs call.report := by
  cases call with
  | success token => exact .success token
  | error code => exact .error code
  | expired token => exact .expired token

/-- Each of some calls is reported as it is to be, in their order. -/
theorem Call.forall₂_reportedAs (calls : List Call) :
    List.Forall₂ ReportedAs calls (calls.map report) :=
  List.forall₂_map_right_iff.2 (List.forall₂_same.2 fun call _ => call.reportedAs_report)

/-- Errors, and only they, are answered as handled. -/
theorem Call.filterMap_answer? (calls : List Call) :
    calls.filterMap answer? = (calls.filter isError).map fun _ => true := by
  induction calls with
  | nil => rfl
  | cons c calls ih =>
    cases c <;> simp [List.filterMap_cons, List.filter_cons, answer?, isError, ih]

namespace Step

/-- The controller that is connected in a step. -/
def controller? : Step → Option Controller
  | connect c _ => some c
  | _ => none

/-- The color scheme that a page gets in a step. -/
def scheme? : Step → Option String
  | scheme value => some value
  | _ => none

end Step

/-- The controllers that are connected in some steps, in their order. -/
def connected (steps : List Step) : List Controller := steps.filterMap Step.controller?

/-- The color scheme after some steps: the last one that the page got. -/
def schemeAfter (scheme : String) (steps : List Step) : String :=
  (steps.filterMap Step.scheme?).getLast?.getD scheme

theorem connected_append (steps : List Step) (s : Step) :
    connected (steps ++ [s]) = connected steps ++ s.controller?.toList := by
  rw [connected, List.filterMap_append]
  cases h : s.controller? <;> simp [connected, h]

theorem schemeAfter_append (scheme : String) (steps : List Step) (s : Step) :
    schemeAfter scheme (steps ++ [s]) = s.scheme?.getD (schemeAfter scheme steps) := by
  rw [schemeAfter, List.filterMap_append]
  cases h : s.scheme? <;> simp [schemeAfter, h]

/-- The theme that suits a color scheme. -/
inductive Theme.Suits : String → Theme → Prop where
  | light : Suits "light" .light
  | dark : Suits "dark" .dark
  | other {scheme : String} (hlight : scheme ≠ "light") (hdark : scheme ≠ "dark") :
    Suits scheme .auto

/-- The theme for a color scheme suits it. -/
theorem Theme.suits_ofScheme (scheme : String) : Suits scheme (ofScheme scheme) := by
  by_cases hlight : scheme = "light"
  · rw [hlight]
    exact .light
  · by_cases hdark : scheme = "dark"
    · rw [hdark]
      exact .dark
    · rw [ofScheme, if_neg hlight, if_neg hdark]
      exact .other hlight hdark

/-- The widget of a controller under a color scheme. -/
def Controller.widget (c : Controller) (scheme : String) : Rendered where
  target := c.target
  options :=
    { siteKey := c.siteKey
      theme := Theme.ofScheme scheme
      language := c.language
      responseField := false
      size := .normal }

namespace Page

variable {p q : Page} {s : Step} {steps : List Step} {scheme : String}

/-! ## Single steps -/

/-- The controllers whose widgets are rendered in a step. -/
def due (p : Page) : Step → List Controller
  | .connect c atOnce => if atOnce ∧ p.waiting = [] then [c] else []
  | .ready => p.waiting
  | _ => []

/-- The call that is made in a step, if the widget that makes it is there. -/
def called (p : Page) : Step → List Call
  | .call widget call => if widget < p.rendered.length then [call] else []
  | _ => []

/-- What a page is after a step, field by field. -/
structure Stepped (p : Page) (s : Step) (q : Page) : Prop where
  scheme : q.scheme = s.scheme?.getD p.scheme
  waiting : p.waiting ++ s.controller?.toList = p.due s ++ q.waiting
  rendered : q.rendered = p.rendered ++ (p.due s).map fun c => c.widget p.scheme
  schemeReads : q.schemeReads = p.schemeReads + (p.due s).length
  reports : q.reports = p.reports ++ (p.called s).map Call.report
  answers : q.answers = p.answers ++ (p.called s).filterMap Call.answer?
  log : q.log = p.log ++ List.replicate (p.due s).length (renderEvent (Theme.ofScheme p.scheme))
    ++ (p.called s).map fun call => call.report.event

/-- What it does to a page that several widgets are rendered. -/
theorem foldl_render (p : Page) (cs : List Controller) :
    cs.foldl render p =
      { p with
        rendered := p.rendered ++ cs.map fun c => c.widget p.scheme
        schemeReads := p.schemeReads + cs.length
        log := p.log ++ List.replicate cs.length (renderEvent (Theme.ofScheme p.scheme)) } := by
  induction cs generalizing p with
  | nil => simp
  | cons c cs ih =>
    rw [List.foldl_cons, ih]
    simp [render, Controller.widget, List.replicate_succ, Nat.add_assoc, Nat.add_comm 1]

/-- **What a step does to a page.** -/
theorem stepped_step (p : Page) (s : Step) : p.Stepped s (p.step s) := by
  cases s with
  | connect c atOnce =>
    by_cases hnow : atOnce ∧ p.waiting = []
    · have hdue : p.due (.connect c atOnce) = [c] := if_pos hnow
      have hstep : p.step (.connect c atOnce) = p.render c := if_pos hnow
      constructor <;>
        simp [hdue, hstep, hnow.2, render, called, Controller.widget, Step.controller?,
          Step.scheme?]
    · have hdue : p.due (.connect c atOnce) = [] := if_neg hnow
      have hstep : p.step (.connect c atOnce) = { p with waiting := p.waiting ++ [c] } :=
        if_neg hnow
      constructor <;> simp [hdue, hstep, called, Step.controller?, Step.scheme?]
  | ready =>
    have hdue : p.due .ready = p.waiting := rfl
    have hstep : p.step .ready = p.waiting.foldl render { p with waiting := [] } := rfl
    rw [foldl_render] at hstep
    constructor <;> simp [hdue, hstep, called, Step.controller?, Step.scheme?]
  | scheme value => constructor <;> simp [step, due, called, Step.controller?, Step.scheme?]
  | call widget call =>
    by_cases hthere : widget < p.rendered.length
    · have hcalled : p.called (.call widget call) = [call] := if_pos hthere
      have hstep : p.step (.call widget call) = p.answer call := if_pos hthere
      constructor <;>
        simp [hcalled, hstep, answer, due, Step.controller?, Step.scheme?, List.filterMap_cons]
      cases call.answer? <;> rfl
    · have hcalled : p.called (.call widget call) = [] := if_neg hthere
      have hstep : p.step (.call widget call) = p := if_neg hthere
      constructor <;> simp [hcalled, hstep, due, Step.controller?, Step.scheme?]

/-! ## Runs -/

theorem run_append (p : Page) (steps : List Step) (s : Step) :
    p.run (steps ++ [s]) = (p.run steps).step s := by
  rw [run, List.foldl_append]
  rfl

/-- The calls that are made in some steps, by widgets that are there. -/
def calls (p : Page) : List Step → List Call
  | [] => []
  | s :: steps => p.called s ++ (p.step s).calls steps

/-- One more step adds the call that is made in it. -/
theorem calls_append (p : Page) (steps : List Step) (s : Step) :
    p.calls (steps ++ [s]) = p.calls steps ++ (p.run steps).called s := by
  induction steps generalizing p with
  | nil => simp [calls, run]
  | cons s' steps ih =>
    rw [List.cons_append, calls, calls, ih, List.append_assoc]
    rfl

/-- How a widget comes to its place among the rendered ones: it is that of the controller which was
connected at this place, and it is rendered in a certain step, with the theme that suits the color
scheme of the page at that moment. The step is the one in which the code becomes ready, or the one
that connects the controller. -/
structure RendersIn (scheme : String) (steps : List Step) (i place : Nat) (c : Controller)
    (w : Rendered) : Prop where
  connected : (connected steps)[place]? = some c
  step : steps[i]? = some .ready ∨
    steps[i]? = some (.connect c true) ∧ (Widget.connected (steps.take i)).length = place
  before : ((start scheme).run (steps.take i)).rendered.length ≤ place
  after : place < ((start scheme).run (steps.take (i + 1))).rendered.length
  target : w.target = c.target
  theme : Theme.Suits (schemeAfter scheme (steps.take i)) w.options.theme
  options : w.options =
    { siteKey := c.siteKey
      theme := Theme.ofScheme (schemeAfter scheme (steps.take i))
      language := c.language
      responseField := false
      size := .normal }

/-- Later steps change nothing about a widget that has been rendered. -/
theorem RendersIn.append {i place : Nat} {c : Controller} {w : Rendered}
    (h : RendersIn scheme steps i place c w) (s : Step) :
    RendersIn scheme (steps ++ [s]) i place c w := by
  have hlt : i < steps.length := by
    rcases h.step with hready | ⟨hconnect, -⟩
    · exact (List.getElem?_eq_some_iff.1 hready).1
    · exact (List.getElem?_eq_some_iff.1 hconnect).1
  have hplace := (List.getElem?_eq_some_iff.1 h.connected).1
  have hbefore : (steps ++ [s]).take i = steps.take i :=
    List.take_append_of_le_length (Nat.le_of_lt hlt)
  have hafter : (steps ++ [s]).take (i + 1) = steps.take (i + 1) :=
    List.take_append_of_le_length hlt
  have hstep : (steps ++ [s])[i]? = steps[i]? := List.getElem?_append_left hlt
  constructor
  · rw [connected_append, List.getElem?_append_left hplace, h.connected]
  · rw [hstep, hbefore]
    exact h.step
  · rw [hbefore]
    exact h.before
  · rw [hafter]
    exact h.after
  · exact h.target
  · rw [hbefore]
    exact h.theme
  · rw [hbefore]
    exact h.options

/-- What is known of a page after some steps. -/
structure Follows (scheme : String) (steps : List Step) (p : Page) : Prop where
  scheme_eq : p.scheme = schemeAfter scheme steps
  count : p.rendered.length + p.waiting.length = (connected steps).length
  waiting : p.waiting = (connected steps).drop p.rendered.length
  ready : steps.getLast? = some .ready → p.waiting = []
  rendered : ∀ n w, p.rendered[n]? = some w → ∃ i c, RendersIn scheme steps i n c w
  schemeReads : p.schemeReads = p.rendered.length
  reports : List.Forall₂ Call.ReportedAs ((start scheme).calls steps) p.reports
  answers : p.answers = (((start scheme).calls steps).filter Call.isError).map fun _ => true

theorem follows_start (scheme : String) : Follows scheme [] (start scheme) where
  scheme_eq := rfl
  count := rfl
  waiting := rfl
  ready := nofun
  rendered := nofun
  schemeReads := rfl
  reports := .nil
  answers := rfl

/-- A step renders the widgets of the controllers that were connected next. -/
theorem Follows.drop_connected (h : Follows scheme steps p) (hq : p.Stepped s q) :
    (connected (steps ++ [s])).drop p.rendered.length = p.due s ++ q.waiting := by
  have hle : p.rendered.length ≤ (connected steps).length := by
    rw [← h.count]
    exact Nat.le_add_right _ _
  rw [connected_append, List.drop_append_of_le_length hle, ← h.waiting, hq.waiting]

/-- Widgets come when the code is ready, or with a controller that waits for no other. -/
theorem eq_ready_or_eq_connect {c : Controller} (hc : c ∈ p.due s) :
    s = .ready ∨ s = .connect c true ∧ p.waiting = [] := by
  cases s with
  | connect c' atOnce =>
    rw [due] at hc
    split at hc
    · rename_i hnow
      rw [List.mem_singleton.1 hc, hnow.1]
      exact .inr ⟨rfl, hnow.2⟩
    · cases hc
  | ready => exact .inl rfl
  | scheme value => cases hc
  | call widget call => cases hc

/-- The widgets that come in a step are those of the controllers that were connected next. -/
theorem Follows.rendersIn (h : Follows scheme steps p) (hp : p = (start scheme).run steps)
    {k : Nat} {c : Controller} (hc : (p.due s)[k]? = some c) :
    RendersIn scheme (steps ++ [s]) steps.length (p.rendered.length + k) c (c.widget p.scheme) := by
  have hq := p.stepped_step s
  obtain ⟨hk, hget⟩ := List.getElem?_eq_some_iff.1 hc
  have hlast : (steps ++ [s])[steps.length]? = some s := List.getElem?_concat_length
  have hbefore : (steps ++ [s]).take steps.length = steps := List.take_left
  have hafter : (steps ++ [s]).take (steps.length + 1) = steps ++ [s] :=
    List.take_of_length_le (by simp)
  constructor
  · rw [← List.getElem?_drop, h.drop_connected hq, List.getElem?_append_left hk, hc]
  · rw [hlast, hbefore]
    rcases eq_ready_or_eq_connect (hget ▸ List.getElem_mem hk) with rfl | ⟨rfl, hempty⟩
    · exact .inl rfl
    · -- Nothing waits, so all that were connected before have been rendered.
      have hdue : p.due (.connect c true) = [c] := if_pos ⟨rfl, hempty⟩
      have hcount := h.count
      rw [hempty] at hcount
      rw [hdue] at hk
      simp only [List.length_cons, List.length_nil] at hcount hk
      exact .inr ⟨rfl, by omega⟩
  · rw [hbefore, ← hp]
    exact Nat.le_add_right _ _
  · rw [hafter, run_append, ← hp, hq.rendered, List.length_append, List.length_map]
    omega
  · rfl
  · rw [hbefore, ← h.scheme_eq]
    exact Theme.suits_ofScheme p.scheme
  · rw [hbefore, ← h.scheme_eq]
    rfl

/-- **What is known after some steps is known after one more.** -/
theorem Follows.step (h : Follows scheme steps p) (hp : p = (start scheme).run steps) (s : Step) :
    Follows scheme (steps ++ [s]) (p.step s) := by
  have hq := p.stepped_step s
  have hlength : (p.step s).rendered.length = p.rendered.length + (p.due s).length := by
    rw [hq.rendered, List.length_append, List.length_map]
  constructor
  · rw [hq.scheme, h.scheme_eq, schemeAfter_append]
  · have hcount := congrArg List.length hq.waiting
    rw [List.length_append, List.length_append] at hcount
    rw [hlength, connected_append, List.length_append, ← h.count]
    omega
  · rw [hlength, ← List.drop_drop, h.drop_connected hq, List.drop_left]
  · intro hlast
    rw [List.getLast?_concat, Option.some_inj] at hlast
    have hwaiting := hq.waiting
    rw [hlast] at hwaiting ⊢
    exact List.append_right_eq_self.1 (hwaiting.symm.trans (List.append_nil _))
  · intro n w hw
    rw [hq.rendered] at hw
    by_cases hn : n < p.rendered.length
    · rw [List.getElem?_append_left hn] at hw
      obtain ⟨i, c, hi⟩ := h.rendered n w hw
      exact ⟨i, c, hi.append s⟩
    · obtain ⟨k, rfl⟩ := Nat.exists_eq_add_of_le (Nat.le_of_not_lt hn)
      rw [List.getElem?_append_right (Nat.le_add_right _ _), Nat.add_sub_cancel_left,
        List.getElem?_map] at hw
      obtain ⟨c, hc, rfl⟩ := Option.map_eq_some_iff.1 hw
      exact ⟨steps.length, c, h.rendersIn hp hc⟩
  · rw [hq.schemeReads, h.schemeReads, hlength]
  · rw [hq.reports, calls_append, ← hp]
    exact List.rel_append h.reports (Call.forall₂_reportedAs _)
  · rw [hq.answers, h.answers, calls_append, List.filter_append, List.map_append, hp,
      Call.filterMap_answer?]

/-- **Whatever the steps on a page are, the page follows them**: of the controllers that were
connected the first ones have one widget each, in their order, and the others wait. Each widget has
what its controller had, and the theme for the color scheme in the step in which it was rendered.
The scheme was read once for each of them. The calls of the widgets were reported one by one, each
with its text, and nothing else was. All errors were answered as handled. -/
theorem follows_run (scheme : String) (steps : List Step) :
    Follows scheme steps ((start scheme).run steps) := by
  induction steps using List.reverseRecOn with
  | nil => exact follows_start scheme
  | append_singleton steps s ih =>
    rw [run_append]
    exact ih.step rfl s

/-- Three controllers: one gets its widget at once, one when the code is ready and the color scheme
another one, and one when the scheme has no theme of its own. The call of a widget that is not there
yet is none. -/
theorem follows_run_visit :
    let steps : List Step :=
      [.connect ⟨"0x4A", "en", "login"⟩ true, .connect ⟨"0x4B", "de", "signup"⟩ false,
        .scheme "dark", .call 0 (.success "token-1"), .call 1 (.error "early"), .ready,
        .call 1 (.error "110200"), .scheme "sepia", .connect ⟨"0x4C", "fr", "reset"⟩ true,
        .call 2 (.expired "token-2")]
    let p := (start "light").run steps
    Follows "light" steps p ∧ p.waiting = [] ∧ p.schemeReads = 3 ∧
    p.rendered =
      [⟨"login", { siteKey := "0x4A", theme := .light, language := "en" }⟩,
        ⟨"signup", { siteKey := "0x4B", theme := .dark, language := "de" }⟩,
        ⟨"reset", { siteKey := "0x4C", theme := .auto, language := "fr" }⟩] ∧
    p.reports = [.verified "token-1", .failed "110200", .expired "token-2"] ∧
    p.answers = [true] :=
  ⟨follows_run "light" _, by decide, by decide, by decide, by decide, by decide⟩

end Page
end LoginSettings.Widget
