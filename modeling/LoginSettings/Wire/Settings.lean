import LoginSettings.Document.Format
import LoginSettings.Json.Decode
import LoginSettings.Settings.Basic

/-!
# Settings on the wire

How settings, fields and their values are written as JSON, and how they are decoded. Members are
written in the order in which they are declared and may be read in any order.
-/

namespace LoginSettings

open Json (Decoded Node Fields FieldShape ofReading)

/-! ## Names -/

/-- The names of key types. -/
def KeyType.variants : List (String × KeyType) := KeyType.all.map fun t => (t.name, t)

/-- A key type as a value. -/
def KeyType.encode (t : KeyType) : Value := .string t.name

/-- The key type that a node stands for. -/
def KeyType.decode : Node → Decoded KeyType := Node.decodeName KeyType.variants

/-- The names of formats. -/
def Format.variants : List (String × Format) := [json, yaml].map fun f => (f.name, f)

/-- A format as a value. -/
def Format.encode (f : Format) : Value := .string f.name

/-- The format that a node stands for. -/
def Format.decode : Node → Decoded Format := Node.decodeName Format.variants

/-! ## Fields -/

/-- A field as a value: its name. -/
def Field.encode (f : Field) : Value := .string f.name

/-- The field that a node names. -/
def Field.decode (n : Node) : Decoded Field := do
  let name ← n.decodeString
  match Field.ofName name with
  | .ok f => pure f
  | .error e => throw (.data (.other e.message) n.stop?)

/-- The value of a field as a value of a document: a boolean or a list of texts. -/
def FieldValue.encode : FieldValue → Value
  | bool b => .bool b
  | list texts => .ofStrings texts

/-- The value of a field that a value of a document stands for. -/
def FieldValue.ofValue? : Value → Option FieldValue
  | .bool b => some (.bool b)
  | .array items => (items.mapM Value.string?).map .list
  | _ => none

/-- The value of a field that a node stands for. It is told by its form which kind it is. -/
def FieldValue.decode (n : Node) : Decoded FieldValue := do
  let v ← n.decodeValue
  match FieldValue.ofValue? v with
  | some value => pure value
  | none =>
    throw (.data (.other "data did not match any variant of untagged enum FieldValue") n.stop?)

/-! ## Settings -/

namespace Settings

/-- Settings as an object. -/
def encode (s : Settings) : Value :=
  .object
    [("username_enabled", .bool s.usernameEnabled),
      ("email_enabled", .bool s.emailEnabled),
      ("phone_number_enabled", .bool s.phoneEnabled),
      ("excluded_keywords", .ofStrings s.excludedKeywords),
      ("is_block_reserved_username", .bool s.blockReserved),
      ("is_exclude_keywords", .bool s.excludeKeywords),
      ("is_username_case_sensitive", .bool s.usernameCaseSensitive),
      ("is_ascii_only", .bool s.asciiOnly),
      ("is_email_case_sensitive", .bool s.emailCaseSensitive),
      ("is_ignore_dot_local", .bool s.ignoreDot),
      ("is_allow_plus", .bool s.allowPlus)]

/-- The fields of settings. -/
def shapes : List FieldShape :=
  [Json.field "username_enabled" Node.decodeBool,
    Json.field "email_enabled" Node.decodeBool,
    Json.field "phone_number_enabled" Node.decodeBool,
    Json.field "excluded_keywords" (Node.decodeList Node.decodeString),
    Json.field "is_block_reserved_username" Node.decodeBool,
    Json.field "is_exclude_keywords" Node.decodeBool,
    Json.field "is_username_case_sensitive" Node.decodeBool,
    Json.field "is_ascii_only" Node.decodeBool,
    Json.field "is_email_case_sensitive" Node.decodeBool,
    Json.field "is_ignore_dot_local" Node.decodeBool,
    Json.field "is_allow_plus" Node.decodeBool]

/-- The settings that a node stands for; none of them may be missing. -/
def decode (n : Node) : Decoded Settings := do
  let fs ← n.fields "LoginIdSettings" shapes
  pure {
    usernameEnabled := ← fs.required "username_enabled" Node.decodeBool
    emailEnabled := ← fs.required "email_enabled" Node.decodeBool
    phoneEnabled := ← fs.required "phone_number_enabled" Node.decodeBool
    excludedKeywords := ← fs.required "excluded_keywords" (Node.decodeList Node.decodeString)
    blockReserved := ← fs.required "is_block_reserved_username" Node.decodeBool
    excludeKeywords := ← fs.required "is_exclude_keywords" Node.decodeBool
    usernameCaseSensitive := ← fs.required "is_username_case_sensitive" Node.decodeBool
    asciiOnly := ← fs.required "is_ascii_only" Node.decodeBool
    emailCaseSensitive := ← fs.required "is_email_case_sensitive" Node.decodeBool
    ignoreDot := ← fs.required "is_ignore_dot_local" Node.decodeBool
    allowPlus := ← fs.required "is_allow_plus" Node.decodeBool }

end Settings
end LoginSettings
