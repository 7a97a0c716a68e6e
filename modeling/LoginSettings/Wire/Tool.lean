import LoginSettings.Json.Decode
import LoginSettings.Tool.Config
import LoginSettings.Wire.Settings

/-!
# Settings of the tool on the wire

The settings of the tool, the built-in ones and the sources of layers as JSON. The built-in settings
are also a layer, in the shape of the settings themselves.
-/

namespace LoginSettings.Tool

open Json (Decoded FieldShape Node)

/-! ## Sources -/

/-- The names of origins. -/
def Origin.variants : List (String × Origin) := [builtin, user, cli].map fun o => (o.name, o)

/-- An origin as a value. -/
def Origin.encode (o : Origin) : Value := .string o.name

/-- The origin that a node stands for. -/
def Origin.decode : Node → Decoded Origin := Node.decodeName Origin.variants

/-- A member that is left out if there is nothing to write. -/
def optionalMember (name : String) : Option String → List (String × Value)
  | some text => [(name, .string text)]
  | none => []

namespace Source

/-- A source as an object. -/
def encode (s : Source) : Value :=
  .object (("origin", s.origin.encode) :: optionalMember "path" s.path
    ++ optionalMember "digest" s.digest)

/-- The fields of a source. -/
def shapes : List FieldShape :=
  [Json.field "origin" Origin.decode,
    Json.field "path" (Node.decodeOption Node.decodeString),
    Json.field "digest" (Node.decodeOption Node.decodeString)]

/-- The source that a node stands for. -/
def decode (n : Node) : Decoded Source := do
  let fs ← n.fields "ConfigSource" shapes
  pure {
    origin := ← fs.required "origin" Origin.decode
    path := ← fs.optional "path" Node.decodeString
    digest := ← fs.optional "digest" Node.decodeString }

end Source

/-! ## Settings -/

namespace OutputSettings

/-- Output settings as an object. -/
def encode (o : OutputSettings) : Value :=
  .object [("format", o.format.encode), ("pretty", .bool o.pretty)]

/-- The fields of output settings. -/
def shapes : List FieldShape :=
  [Json.field "format" Format.decode, Json.field "pretty" Node.decodeBool]

/-- The output settings that a node stands for. -/
def decode (n : Node) : Decoded OutputSettings := do
  let fs ← n.fields "OutputSettings" shapes
  pure {
    format := ← fs.required "format" Format.decode
    pretty := ← fs.required "pretty" Node.decodeBool }

end OutputSettings

namespace WidgetSettings

/-- Widget settings as an object. -/
def encode (w : WidgetSettings) : Value :=
  .object (optionalMember "site_key" w.siteKey
    ++ [("theme", .string w.theme), ("language", .string w.language)])

/-- The fields of widget settings. -/
def shapes : List FieldShape :=
  [Json.optionalField "site_key" (Node.decodeOption Node.decodeString),
    Json.field "theme" Node.decodeString,
    Json.field "language" Node.decodeString]

/-- The widget settings that a node stands for. -/
def decode (n : Node) : Decoded WidgetSettings := do
  let fs ← n.fields "BotProtectionSettings" shapes
  pure {
    siteKey := ← fs.optional "site_key" Node.decodeString
    theme := ← fs.required "theme" Node.decodeString
    language := ← fs.required "language" Node.decodeString }

end WidgetSettings

namespace Config

/-- The settings of the tool as an object. -/
def encode (c : Config) : Value :=
  .object
    [("log_filter", .string c.logFilter),
      ("output", c.output.encode),
      ("bot_protection", c.widget.encode)]

/-- The fields of the settings. -/
def shapes : List FieldShape :=
  [Json.field "log_filter" Node.decodeString,
    Json.field "output" OutputSettings.decode,
    Json.field "bot_protection" WidgetSettings.decode]

/-- The settings that a node stands for. -/
def decode (n : Node) : Decoded Config := do
  let fs ← n.fields "ToolConfig" shapes
  pure {
    logFilter := ← fs.required "log_filter" Node.decodeString
    output := ← fs.required "output" OutputSettings.decode
    widget := ← fs.required "bot_protection" WidgetSettings.decode }

end Config

namespace Defaults

/-- The built-in settings as a flat object. -/
def encode (d : Defaults) : Value :=
  .object
    [("log_filter", .string d.logFilter),
      ("output_format", d.format.encode),
      ("pretty", .bool d.pretty),
      ("bot_protection_theme", .string d.theme),
      ("bot_protection_language", .string d.language)]

/-- The fields of the built-in settings. -/
def shapes : List FieldShape :=
  [Json.field "log_filter" Node.decodeString,
    Json.field "output_format" Format.decode,
    Json.field "pretty" Node.decodeBool,
    Json.field "bot_protection_theme" Node.decodeString,
    Json.field "bot_protection_language" Node.decodeString]

/-- The built-in settings that a node stands for. -/
def decode (n : Node) : Decoded Defaults := do
  let fs ← n.fields "BuiltinDefaults" shapes
  pure {
    logFilter := ← fs.required "log_filter" Node.decodeString
    format := ← fs.required "output_format" Format.decode
    pretty := ← fs.required "pretty" Node.decodeBool
    theme := ← fs.required "bot_protection_theme" Node.decodeString
    language := ← fs.required "bot_protection_language" Node.decodeString }

/-- The built-in settings as a layer. -/
def layer (d : Defaults) : Value :=
  .object
    [("bot_protection", .object [("language", .string d.language), ("theme", .string d.theme)]),
      ("log_filter", .string d.logFilter),
      ("output", .object [("format", d.format.encode), ("pretty", .bool d.pretty)])]

end Defaults
end LoginSettings.Tool
