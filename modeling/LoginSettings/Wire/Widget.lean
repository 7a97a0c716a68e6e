import LoginSettings.Json.Decode
import LoginSettings.Widget.Options

/-!
# The widget on the wire

Render options under the names that the widget's own code knows, and reports with their kind as a
tag.
-/

namespace LoginSettings.Widget

open Json (Alternative Choice Decoded FieldShape Node)

/-! ## Options -/

/-- The names of themes. -/
def Theme.variants : List (String × Theme) := [light, dark, auto].map fun t => (t.name, t)

/-- A theme as a value. -/
def Theme.encode (t : Theme) : Value := .string t.name

/-- The theme that a node stands for. -/
def Theme.decode : Node → Decoded Theme := Node.decodeName Theme.variants

/-- The names of sizes. -/
def Size.variants : List (String × Size) := [normal, compact, flexible].map fun s => (s.name, s)

/-- A size as a value. -/
def Size.encode (s : Size) : Value := .string s.name

/-- The size that a node stands for. -/
def Size.decode : Node → Decoded Size := Node.decodeName Size.variants

namespace Options

/-- Options as an object. -/
def encode (o : Options) : Value :=
  .object
    [("sitekey", .string o.siteKey),
      ("theme", o.theme.encode),
      ("language", .string o.language),
      ("response-field", .bool o.responseField),
      ("size", o.size.encode)]

/-- The fields of options. -/
def shapes : List FieldShape :=
  [Json.field "sitekey" Node.decodeString,
    Json.field "theme" Theme.decode,
    Json.field "language" Node.decodeString,
    Json.field "response-field" Node.decodeBool,
    Json.field "size" Size.decode]

/-- The options that a node stands for. -/
def decode (n : Node) : Decoded Options := do
  let fs ← n.fields "WidgetOptions" shapes
  pure {
    siteKey := ← fs.required "sitekey" Node.decodeString
    theme := ← fs.required "theme" Theme.decode
    language := ← fs.required "language" Node.decodeString
    responseField := ← fs.required "response-field" Node.decodeBool
    size := ← fs.required "size" Size.decode }

end Options

/-! ## Reports -/

namespace Report

/-- A report as an object: its kind, and the token or the code. -/
def encode : Report → Value
  | verified token => .object [("type", .string "verified"), ("token", .string token)]
  | failed code => .object [("type", .string "failed"), ("error_code", .string code)]
  | expired token => .object [("type", .string "expired"), ("token", .string token)]

/-- The kinds of reports. -/
def choice : Choice Report where
  title := "BotProtectionEvent"
  tag := "type"
  alternatives :=
    [("verified", "BotProtectionEvent::Verified",
        .single "token" fun n => n.decodeString.map verified),
      ("failed", "BotProtectionEvent::Failed",
        .single "error_code" fun n => n.decodeString.map failed),
      ("expired", "BotProtectionEvent::Expired",
        .single "token" fun n => n.decodeString.map expired)]

/-- The report that a node stands for. -/
def decode : Node → Decoded Report := choice.decode

end Report
end LoginSettings.Widget
