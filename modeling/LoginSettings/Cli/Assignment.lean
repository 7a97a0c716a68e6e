import LoginSettings.Settings.Field
import LoginSettings.Text.Blank

/-!
# Assignments

A value for a field on a command line: the name of the field, an equals sign and the value. Blanks
around the name do not count; all behind the first equals sign is the value.
-/

namespace LoginSettings

/-- How the value of a field is written on a command line. -/
def FieldValue.text : FieldValue → String
  | bool b => if b then "true" else "false"
  | list texts => String.ofList (Text.joinWith ',' (texts.map String.toList))

namespace Cli

/-- Why a text is no assignment. -/
inductive AssignmentError where
  | noEquals (text : String)
  | field (error : FieldError)
deriving DecidableEq, Repr

/-- How a failure is reported. -/
def AssignmentError.message : AssignmentError → String
  | noEquals text => s!"Expected FIELD=VALUE, got '{text}'"
  | field error => error.message

/-- The field and the value that an assignment names. -/
def parseAssignment (text : String) : Except AssignmentError (Field × FieldValue) :=
  match Text.splitFirst '=' text.toList with
  | none => .error (.noEquals text)
  | some (name, value) => do
    let f ← (Field.ofName (String.ofList (Text.trim name))).mapError .field
    let v ← (f.parse (String.ofList value)).mapError .field
    pure (f, v)

end Cli
end LoginSettings
