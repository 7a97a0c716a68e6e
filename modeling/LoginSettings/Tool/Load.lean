import LoginSettings.Digest.Sha256
import LoginSettings.Document.Order
import LoginSettings.Files.Tree
import LoginSettings.Toml.Reader
import LoginSettings.Tool.Layers
import LoginSettings.Wire.Tool

/-!
# Loading the settings of the tool

The built-in settings, a user's file if there is one, and what is given on the command line are laid
one over the other. What results has to have the right shape and to be valid. The sources say which
layers there were.
-/

namespace LoginSettings.Tool

open Files (Tree)

/-- Why there are no settings. -/
inductive ConfigError where
  | io (path : String) (fault : Files.Fault)
  | notText (fault : Text.Utf8Fault)
  | notToml
  | shape (error : Json.DecodeError)
  | invalid (fault : Invalid)
deriving DecidableEq, Repr

/-- How a failure is reported. The report on a text that is no TOML says no more. -/
def ConfigError.message : ConfigError → String
  | io path fault => s!"IO error: {path}: {fault.message}"
  | notText fault => "Parse error: Invalid UTF-8: " ++ fault.message
  | notToml => "Parse error: TOML parse error"
  | shape error => "Parse error: Invalid settings: " ++ error.message
  | invalid fault => "Validation error: " ++ fault.message

/-- The settings, and the sources of the layers they were merged from. -/
structure Effective where
  config : Config
  sources : List Source
deriving DecidableEq, Repr

/-! ## The user's file -/

/-- What the surroundings say: environment variables that may be set. -/
structure Environment where
  configPath : Option String
  home : Option String
  logFilter : Option String
deriving DecidableEq, Repr

/-- Where the user's file is looked for below the home directory. -/
def homeConfigPath : String := ".config/portal-settings/config.toml"

/-- A path below a directory. -/
def joinPath (directory path : String) : String :=
  if directory.isEmpty then path
  else if directory.toList.getLast? = some '/' then directory ++ path
  else directory ++ "/" ++ path

/-- The path of the user's file: the one that is given, else the one of the environment unless it is
empty, else the one in the home directory if that exists. -/
def userConfigPath (t : Tree) (env : Environment) (given : Option String) : Option String :=
  match given, env.configPath.filter fun path => !path.isEmpty with
  | some path, _ => some path
  | none, some path => some path
  | none, none => (env.home.map (joinPath · homeConfigPath)).filter t.exists?

/-- The layer of the user's file, and the hash of its bytes. -/
def loadLayer (t : Tree) (path : String) : Except ConfigError (Value × String) := do
  let bytes ← (t.read path).mapError (.io path)
  let text ← (Text.decodeUtf8 bytes).mapError .notText
  match Toml.readText text with
  | some v => pure (v.inOrder, Digest.hexDigest bytes)
  | none => throw .notToml

/-! ## The settings -/

/-- The settings that layers make. -/
def Config.ofLayers (layers : List Value) : Except ConfigError Config := do
  let config ← (Json.decodeOfValue Config.decode (Value.mergeLayers layers)).mapError .shape
  config.validate.mapError .invalid
  pure config

/-- The settings from the built-in ones, a user's file and what overrides both. -/
def Effective.build (t : Tree) (userPath : Option String) (overrides : Option Value) :
    Except ConfigError Effective := do
  let user ← match userPath with
    | some path =>
      let (layer, digest) ← loadLayer t path
      pure [(layer, Source.mk .user (some path) (some digest))]
    | none => pure []
  let builtin : Value × Source := (({} : Defaults).layer, ⟨.builtin, none, none⟩)
  let cli := (overrides.map fun v => (v, Source.mk .cli none none)).toList
  let layers := builtin :: user ++ cli
  let config ← Config.ofLayers (layers.map (·.1))
  pure ⟨config, layers.map (·.2)⟩

end LoginSettings.Tool
