import LoginSettings.Cli.Edit
import LoginSettings.Log.Filter
import LoginSettings.Settings.Basic
import LoginSettings.Tool.Load
import LoginSettings.Wire.Role
import LoginSettings.Wire.Widget
import LoginSettings.Widget.Page

/-!
# Runs of the program

A run goes from the arguments, the surroundings and the files to what is printed, an exit code and
the files as they are afterwards.
-/

namespace LoginSettings.Cli

open Files (Tree)
open Tool (Config Environment)

/-! ## Commands without documents -/

/-- The text with blanks behind it up to a width. -/
def widened (width : Nat) (text : String) : String :=
  text ++ String.ofList (List.replicate (width - text.length) ' ')

/-- The line that describes a field. -/
def fieldLine (f : Field) : String :=
  let value := (({} : Settings).get f).text
  let (kind, value) := match f.kind with
    | .boolean => ("bool", value)
    | .list => ("list", s!"[{value}]")
  s!"{widened 28 f.name} {widened 5 kind} default={value}"

/-- Prints a line for each field. -/
def listFields : Progress Unit :=
  Progress.out (String.join (Field.all.map fun f => fieldLine f ++ "\n"))

/-- Prints the hash of a document. -/
def printDigest (t : Tree) (document : String) : Progress Unit := do
  let d ← loadDocument t document
  Progress.outLine d.digest

/-- A text or null. -/
def textOrNull : Option String → Value
  | some text => .string text
  | none => .null

/-- A role that has been checked, as a document. -/
def roleDocument (form : Role.Form) : Document :=
  .ofValue (.object
    [("valid", .bool true),
      ("key", .string form.key),
      ("name", textOrNull form.name),
      ("description", textOrNull form.description)])

/-- What is wrong with a role, as a document. -/
def findingsDocument (findings : List Role.Finding) : Document :=
  .ofValue (.object
    [("valid", .bool false), ("errors", .array (findings.map Role.Finding.encode))])

/-- Checks the form of a role; the run fails if something is wrong with it. -/
def checkRole (form : Role.Form) (json : Bool) : Progress Unit :=
  match Role.validate form with
  | .ok checked =>
    Progress.outLine
      (if json then (roleDocument checked).toPrettyJson else "Role valid: " ++ checked.key)
  | .error findings =>
    if json then ⟨[.out ((findingsDocument findings).toPrettyJson ++ "\n")], none⟩
    else Progress.fail ("Role invalid:" ++ String.join (findings.map fun f => "\n  " ++ f.message))

/-- Prints what the widget would be rendered with on a page. -/
def printWidget (c : Config) (siteKey colorScheme language : Option String) : Progress Unit :=
  match siteKey.or c.widget.siteKey with
  | none => Progress.fail "No site key: pass --site-key or set bot_protection.site_key in config"
  | some siteKey => do
    let page := Widget.Page.start (colorScheme.getD c.widget.theme)
    let page := page.step (.connect ⟨siteKey, language.getD c.widget.language, ""⟩ true)
    Progress.log page.log
    Progress.out (String.join (page.rendered.map fun w => Json.pretty w.options.encode ++ "\n"))

/-! ## Runs -/

/-- Carries out a command. -/
def Command.run (t : Tree) (c : Config) : Command → Progress Unit
  | display document effective => Cli.display t c document effective
  | change order => Cli.change t c order
  | digest document => printDigest t document
  | fields => listFields
  | role form json => checkRole form json
  | widget siteKey colorScheme language => printWidget c siteKey colorScheme language

/-- The settings of the tool for an invocation. -/
def Invocation.settings (t : Tree) (env : Environment) (i : Invocation) :
    Except Tool.ConfigError Config :=
  let overrides := i.logFilter.map fun filter => Value.object [("log_filter", .string filter)]
  (Tool.Effective.build t (Tool.userConfigPath t env i.config) overrides).map (·.config)

/-- What is logged once the settings are known. -/
def settingsEvent (c : Config) : Log.Event :=
  ⟨.debug, "portal_settings", "tool config loaded", [("tool_config", .text c.shown)]⟩

/-- What a run leaves behind: an exit code, what has been printed, and the files. -/
structure Outcome where
  exitCode : Nat
  out : String
  err : String
  files : Tree

/-- What of an effect goes to the standard output. -/
def Effect.onOut : Effect → String
  | out text => text
  | _ => ""

/-- What of an effect goes to the standard error output, where a filter lets events through. -/
def Effect.onErr (filter : Log.Filter) : Effect → String
  | err text => text
  | event e => if filter.admits e then e.line else ""
  | _ => ""

/-- The files after an effect. -/
def Effect.onFiles (t : Tree) : Effect → Tree
  | files after => after
  | _ => t

/-- The outcome of a run that has come to an end. -/
def Outcome.ofProgress (t : Tree) (filter : Log.Filter) (p : Progress Unit) : Outcome where
  exitCode := if p.result.isSome then 0 else 1
  out := String.join (p.effects.map Effect.onOut)
  err := String.join (p.effects.map (Effect.onErr filter))
  files := p.effects.foldl Effect.onFiles t

/-- Runs what the arguments ask for. -/
def Invocation.run (t : Tree) (env : Environment) (i : Invocation) : Outcome :=
  match i.settings t env with
  | .error e => ⟨1, "", s!"Error loading config: {e.message}\n", t⟩
  | .ok c =>
    .ofProgress t (.choose env.logFilter c.logFilter)
      ((Progress.log [settingsEvent c]).andThen fun _ => i.command.run t c)

/-! ## Files of a run -/

/-- The files that a command reads or writes. -/
def Command.paths : Command → List String
  | display document effective => document :: effective.toList
  | change order =>
    order.document :: order.effective.toList ++ order.snapshot.toList ++ order.target.toList
  | digest document => [document]
  | fields => []
  | role _ _ => []
  | widget _ _ _ => []

/-- The files that a run may read or write. -/
def Invocation.paths (env : Environment) (i : Invocation) : List String :=
  i.config.toList ++ env.configPath.toList
    ++ (env.home.map (Tool.joinPath · Tool.homeConfigPath)).toList ++ i.command.paths

/-- The files that arguments are about; none if they ask for no command. -/
def pathsFor (env : Environment) (arguments : List String) : List String :=
  match Invocation.ofArguments arguments with
  | .ok i => i.paths env
  | .error _ => []

/-! ## The program -/

/-- The name of the program and its version. -/
def versionLine : String := "portal-settings 0.1.0\n"

/-- How the program is used. -/
def usageText : String :=
  "Usage: portal-settings [--config PATH] [--log-filter FILTER] COMMAND

Commands:
  show DOCUMENT [--effective DOCUMENT]
  apply DOCUMENT [--effective DOCUMENT] [--set FIELD=VALUE]... [--snapshot FILE]
        [--output FILE | --in-place] [--json]
  digest DOCUMENT
  fields
  validate-role KEY [--name NAME] [--description TEXT] [--json]
  turnstile-options [--site-key KEY] [--color-scheme SCHEME] [--language LANGUAGE]
"

/-- Runs the program. -/
def run (t : Tree) (env : Environment) (arguments : List String) : Outcome :=
  match Invocation.ofArguments arguments with
  | .ok i => i.run t env
  | .error .version => ⟨0, versionLine, "", t⟩
  | .error .help => ⟨0, usageText, "", t⟩
  | .error .usage => ⟨2, "", usageText, t⟩

end LoginSettings.Cli
