import LoginSettings.Document.Format
import LoginSettings.Text.Blank
import LoginSettings.Text.Quoted

/-!
# Settings of the tool

What the tool itself can be told: which events are logged, how documents are printed and how the
widget looks. They come in layers, the first of which is built in.
-/

namespace LoginSettings.Tool

/-- How documents are printed. -/
structure OutputSettings where
  format : Format
  pretty : Bool
deriving DecidableEq, Repr

/-- What the widget is rendered with. -/
structure WidgetSettings where
  siteKey : Option String
  theme : String
  language : String
deriving DecidableEq, Repr

/-- The settings of the tool. -/
structure Config where
  logFilter : String
  output : OutputSettings
  widget : WidgetSettings
deriving DecidableEq, Repr

/-- The settings that are built in. -/
structure Defaults where
  logFilter : String := "portal_settings=info"
  format : Format := .json
  pretty : Bool := true
  theme : String := "auto"
  language : String := "auto"
deriving DecidableEq, Repr

/-- Where a layer comes from. -/
inductive Origin where
  | builtin
  | user
  | cli
deriving DecidableEq, Repr

/-- The name of an origin. -/
def Origin.name : Origin → String
  | builtin => "builtin"
  | user => "user"
  | cli => "cli"

/-- A layer that has contributed: where it comes from, and of a file its path and the hash of its
bytes. -/
structure Source where
  origin : Origin
  path : Option String
  digest : Option String
deriving DecidableEq, Repr

/-- What is wrong with settings that have the right shape. -/
inductive Invalid where
  | emptyLogFilter
  | blankSiteKey
  | emptyLanguage
deriving DecidableEq, Repr

/-- How invalid settings are reported. -/
def Invalid.message : Invalid → String
  | emptyLogFilter => "log_filter must not be empty"
  | blankSiteKey => "bot_protection.site_key must not be blank when set"
  | emptyLanguage => "bot_protection.language must not be empty"

/-- Fails if a setting that needs a text has none. -/
def Config.validate (c : Config) : Except Invalid Unit :=
  if Text.isAllBlank c.logFilter then .error .emptyLogFilter
  else if c.widget.siteKey.any Text.isAllBlank then .error .blankSiteKey
  else if Text.isAllBlank c.widget.language then .error .emptyLanguage
  else .ok ()

/-- How a text or nothing is shown in the log. -/
def shownOption : Option String → String
  | some text => s!"Some({Text.quoted text})"
  | none => "None"

/-- How a record is shown in the log: its title, and in braces its fields. -/
def shownRecord (title : String) (fields : List (String × String)) : String :=
  let shown := fields.map fun (name, value) => s!"{name}: {value}"
  title ++ " \x7b " ++ String.intercalate ", " shown ++ " \x7d"

/-- How the settings are shown in the log. -/
def Config.shown (c : Config) : String :=
  shownRecord "ToolConfig"
    [("log_filter", Text.quoted c.logFilter),
      ("output", shownRecord "OutputSettings"
        [("format", c.output.format.title),
          ("pretty", if c.output.pretty then "true" else "false")]),
      ("bot_protection", shownRecord "BotProtectionSettings"
        [("site_key", shownOption c.widget.siteKey),
          ("theme", Text.quoted c.widget.theme),
          ("language", Text.quoted c.widget.language)])]

end LoginSettings.Tool
