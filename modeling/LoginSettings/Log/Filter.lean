import LoginSettings.Log.Directive

/-!
# Filters

Which events are written. A filter is a list of directives. Of the directives that apply to an event
the one with the longest target decides; of two with targets of one length the one that asks for a
value does, and of two that ask for the same the later one.
-/

namespace LoginSettings.Log

/-- A filter. -/
abbrev Filter := List Directive

/-- Reads a filter: directives between commas, of which empty ones do not count. -/
def Filter.ofText? (text : String) : Option Filter :=
  ((Text.splitAt ',' text.toList).filter fun d => !d.isEmpty).mapM Directive.ofText?

/-- Holds if an event has a value with a name; the message is one. -/
def Event.hasValue (e : Event) (name : String) : Bool :=
  name = "message" || e.data.any fun d => d.1 = name

/-- Holds of directives that apply to an event. -/
def Directive.appliesTo (e : Event) : Directive → Bool
  | events target value _ => target.toList.isPrefixOf e.target.toList && value.all e.hasValue
  | spans => false

/-- Holds if a directive is no less specific than another one. -/
def Directive.atLeastAs (d other : Directive) : Bool :=
  match d, other with
  | events t v _, events t' v' _ =>
    if t.length ≠ t'.length then t'.length < t.length
    else
      match v, v' with
      | some name, some name' => name' ≤ name
      | none, some _ => false
      | _, none => true
  | events _ _ _, spans => true
  | spans, _ => false

/-- The rank up to which a directive lets events through. -/
def Directive.rank : Directive → Nat
  | events _ _ rank => rank
  | spans => 0

/-- The rank up to which events like this one are written; without a directive for it none are. -/
def Filter.rankFor (f : Filter) (e : Event) : Nat :=
  let best := (f.filter fun d => d.appliesTo e).foldl
    (fun best d =>
      match best with
      | some b => if d.atLeastAs b then some d else some b
      | none => some d) (none : Option Directive)
  (best.map Directive.rank).getD 0

/-- Holds of events that are written. -/
def Filter.admits (f : Filter) (e : Event) : Bool := e.level.rank ≤ f.rankFor e

/-- The filter that is used if no other can be. -/
def Filter.standard : Filter := [.events "portal_settings" none 3]

/-- The filter in use: that of the environment if it can be read, else the configured one, else the
standard one. -/
def Filter.choose (environment : Option String) (configured : String) : Filter :=
  ((environment.bind Filter.ofText?).or (Filter.ofText? configured)).getD Filter.standard

end LoginSettings.Log
