import LoginSettings.Log.Event
import LoginSettings.Widget.Options

/-!
# Widgets on a page

A page has controllers, each of which renders a widget when it is connected. The widget's own code
may still be loading then; the request waits until the code is ready. The color scheme of the page
is looked up when the widget is rendered, not before. A widget that is there calls back, and what it
calls is reported. The steps that happen on a page are data, and so is what they lead to.
-/

namespace LoginSettings.Widget

/-- What a controller renders its widget with. -/
structure Controller where
  siteKey : String
  language : String
  target : String
deriving DecidableEq, Repr

/-- A widget where it has been rendered. -/
structure Rendered where
  target : String
  options : Options
deriving DecidableEq, Repr

/-- A call of one of the callbacks that a widget is rendered with. -/
inductive Call where
  | success (token : String)
  | error (code : String)
  | expired (token : String)
deriving DecidableEq, Repr

namespace Call

/-- What a call is reported as. -/
def report : Call → Report
  | success token => .verified token
  | error code => .failed code
  | expired token => .expired token

/-- What the widget is answered. An error counts as handled, so that the widget shows none of its
own; to the other calls there is no answer. -/
def answer? : Call → Option Bool
  | error _ => some true
  | _ => none

end Call

/-- The state of a page. -/
structure Page where
  scheme : String
  waiting : List Controller
  rendered : List Rendered
  reports : List Report
  answers : List Bool
  schemeReads : Nat
  log : List Log.Event
deriving DecidableEq, Repr

/-- Something that happens on a page. Whether a request is run at once is up to the widget's code;
if others are still waiting it waits as well, so that requests are run in their order. A call comes
from a widget by its place among the rendered ones. -/
inductive Step where
  | connect (controller : Controller) (atOnce : Bool)
  | ready
  | scheme (value : String)
  | call (widget : Nat) (call : Call)
deriving DecidableEq, Repr

/-- What is logged on rendering. -/
def renderEvent (theme : Theme) : Log.Event :=
  ⟨.debug, "portal_bot_protection::controller", "rendering bot protection widget",
    [("theme", .text theme.name)]⟩

/-- What is logged on a report. Tokens let somebody in, so only their length is. -/
def Report.event (r : Report) : Log.Event :=
  let target := "portal_bot_protection::event"
  let message := "bot protection event"
  match r with
  | verified token | expired token =>
    ⟨.info, target, message, [("event", .quoted r.name), ("token_len", .count token.utf8ByteSize)]⟩
  | failed code => ⟨.warn, target, message, [("event", .quoted r.name), ("error_code", .text code)]⟩

namespace Page

/-- A page on which nothing has happened. -/
def start (scheme : String) : Page := ⟨scheme, [], [], [], [], 0, []⟩

/-- The page with the widget of a controller rendered. -/
def render (p : Page) (c : Controller) : Page :=
  let theme := Theme.ofScheme p.scheme
  { p with
    rendered := p.rendered ++ [⟨c.target, { siteKey := c.siteKey, theme, language := c.language }⟩]
    schemeReads := p.schemeReads + 1
    log := p.log ++ [renderEvent theme] }

/-- The page with a call reported and answered. -/
def answer (p : Page) (call : Call) : Page :=
  { p with
    reports := p.reports ++ [call.report]
    answers := p.answers ++ call.answer?.toList
    log := p.log ++ [call.report.event] }

/-- The page after a step. A widget that is not there does not call. -/
def step (p : Page) : Step → Page
  | .connect c atOnce =>
    if atOnce ∧ p.waiting = [] then p.render c else { p with waiting := p.waiting ++ [c] }
  | .ready => p.waiting.foldl render { p with waiting := [] }
  | .scheme value => { p with scheme := value }
  | .call widget call => if widget < p.rendered.length then p.answer call else p

/-- The page after some steps. -/
def run (p : Page) (steps : List Step) : Page := steps.foldl step p

end Page
end LoginSettings.Widget
