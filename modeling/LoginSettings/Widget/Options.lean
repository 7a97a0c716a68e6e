/-!
# The bot protection widget

What the widget is rendered with and what it reports.
-/

namespace LoginSettings.Widget

/-- How the widget looks. -/
inductive Theme where
  | light
  | dark
  | auto
deriving DecidableEq, Repr

namespace Theme

/-- The name of a theme. -/
def name : Theme → String
  | light => "light"
  | dark => "dark"
  | auto => "auto"

/-- The theme for a color scheme; all but the two that have one of their own get the automatic
one. -/
def ofScheme (scheme : String) : Theme :=
  if scheme = "light" then light else if scheme = "dark" then dark else auto

end Theme

/-- How large the widget is. -/
inductive Size where
  | normal
  | compact
  | flexible
deriving DecidableEq, Repr

/-- The name of a size. -/
def Size.name : Size → String
  | normal => "normal"
  | compact => "compact"
  | flexible => "flexible"

/-- What the widget is rendered with. The token is reported and not put into a form, so as a rule
there is no response field. -/
structure Options where
  siteKey : String
  theme : Theme
  language : String
  responseField : Bool := false
  size : Size := .normal
deriving DecidableEq, Repr

/-- What the widget reports: a challenge was passed, failed, or was passed too long ago. -/
inductive Report where
  | verified (token : String)
  | failed (errorCode : String)
  | expired (token : String)
deriving DecidableEq, Repr

/-- The name under which listeners get a report. -/
def Report.name : Report → String
  | verified _ => "bot-protection:verified"
  | failed _ => "bot-protection:failed"
  | expired _ => "bot-protection:expired"

end LoginSettings.Widget
