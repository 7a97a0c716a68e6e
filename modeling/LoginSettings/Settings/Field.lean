import LoginSettings.Text.Quoted
import LoginSettings.Text.Split

/-!
# Fields

The settings of login IDs, one by one: their names, what kind of value each has, and how a value is
read from a command line.
-/

namespace LoginSettings

/-- What somebody can log in with. -/
inductive KeyType where
  | username
  | email
  | phone
deriving DecidableEq, Repr

namespace KeyType

/-- All types. -/
def all : List KeyType := [username, email, phone]

/-- The name of a type. -/
def name : KeyType → String
  | username => "username"
  | email => "email"
  | phone => "phone"

end KeyType

/-- A setting that can be edited. -/
inductive Field where
  | enabled (type : KeyType)
  | excludedKeywords
  | blockReserved
  | excludeKeywords
  | usernameCaseSensitive
  | asciiOnly
  | emailCaseSensitive
  | ignoreDot
  | allowPlus
deriving DecidableEq, Repr

/-- The two kinds of values that fields have. -/
inductive FieldKind where
  | boolean
  | list
deriving DecidableEq, Repr

/-- The name of a kind. -/
def FieldKind.name : FieldKind → String
  | boolean => "boolean"
  | list => "list"

/-- The value of a field. -/
inductive FieldValue where
  | bool (value : Bool)
  | list (texts : List String)
deriving DecidableEq, Repr

/-- The kind of a value. -/
def FieldValue.kind : FieldValue → FieldKind
  | bool _ => .boolean
  | list _ => .list

/-- Why a field cannot be found or set. -/
inductive FieldError where
  | unknown (name : String)
  | kindMismatch (field : Field) (expected : FieldKind)
  | invalidValue (field : Field) (text : String)
deriving DecidableEq, Repr

namespace Field

/-- All fields, in the order in which they are listed. -/
def all : List Field :=
  [enabled .username, enabled .email, enabled .phone, excludedKeywords, blockReserved,
    excludeKeywords, usernameCaseSensitive, asciiOnly, emailCaseSensitive, ignoreDot, allowPlus]

/-- No field is forgotten. -/
theorem mem_all (f : Field) : f ∈ all := by
  cases f with
  | enabled t => cases t <;> decide
  | _ => decide

/-- The name of a field. -/
def name : Field → String
  | enabled t => t.name ++ ".enabled"
  | excludedKeywords => "username.excluded_keywords"
  | blockReserved => "username.block_reserved"
  | excludeKeywords => "username.exclude_keywords"
  | usernameCaseSensitive => "username.case_sensitive"
  | asciiOnly => "username.ascii_only"
  | emailCaseSensitive => "email.case_sensitive"
  | ignoreDot => "email.ignore_dot_local"
  | allowPlus => "email.allow_plus"

/-- The type that a field turns on and off. -/
def keyType? : Field → Option KeyType
  | enabled t => some t
  | _ => none

/-- The kind of values that a field has. -/
def kind : Field → FieldKind
  | excludedKeywords => .list
  | _ => .boolean

/-- The field with a name. -/
def ofName (name : String) : Except FieldError Field :=
  match all.find? fun f => f.name = name with
  | some f => .ok f
  | none => .error (.unknown name)

/-- The value that a text spells for a field. A list is written with commas, and the empty text is
the empty list. -/
def parse (f : Field) (text : String) : Except FieldError FieldValue :=
  match f.kind with
  | .list => .ok (.list (if text.isEmpty then [] else Text.split ',' text))
  | .boolean =>
    if text = "true" then .ok (.bool true)
    else if text = "false" then .ok (.bool false)
    else .error (.invalidValue f text)

end Field

/-- How a failure is reported. -/
def FieldError.message : FieldError → String
  | unknown name => "Unknown field: " ++ name
  | kindMismatch field expected => s!"Field {field.name} expects a {expected.name} value"
  | invalidValue field text => s!"Invalid value for {field.name}: {Text.quoted text}"

end LoginSettings
