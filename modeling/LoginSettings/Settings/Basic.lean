import LoginSettings.Settings.Field

/-!
# Settings

The settings of login IDs as one flat record. Fields are read and set by name, and two records are
compared field by field.
-/

namespace LoginSettings

/-- The settings of login IDs. As a rule nothing is set, but a plus sign in an e-mail address is
allowed. -/
structure Settings where
  usernameEnabled : Bool := false
  emailEnabled : Bool := false
  phoneEnabled : Bool := false
  excludedKeywords : List String := []
  blockReserved : Bool := false
  excludeKeywords : Bool := false
  usernameCaseSensitive : Bool := false
  asciiOnly : Bool := false
  emailCaseSensitive : Bool := false
  ignoreDot : Bool := false
  allowPlus : Bool := true
deriving DecidableEq, Repr

namespace Settings

/-- Whether a type is enabled. -/
def enabled (s : Settings) : KeyType → Bool
  | .username => s.usernameEnabled
  | .email => s.emailEnabled
  | .phone => s.phoneEnabled

/-- The value of a field. -/
def get (s : Settings) : Field → FieldValue
  | .enabled t => .bool (s.enabled t)
  | .excludedKeywords => .list s.excludedKeywords
  | .blockReserved => .bool s.blockReserved
  | .excludeKeywords => .bool s.excludeKeywords
  | .usernameCaseSensitive => .bool s.usernameCaseSensitive
  | .asciiOnly => .bool s.asciiOnly
  | .emailCaseSensitive => .bool s.emailCaseSensitive
  | .ignoreDot => .bool s.ignoreDot
  | .allowPlus => .bool s.allowPlus

/-- The settings with a type enabled or not. -/
def setEnabled (s : Settings) (b : Bool) : KeyType → Settings
  | .username => { s with usernameEnabled := b }
  | .email => { s with emailEnabled := b }
  | .phone => { s with phoneEnabled := b }

/-- The settings with another value in a field, which has to be of the field's kind. -/
def set (s : Settings) (f : Field) (v : FieldValue) : Except FieldError Settings :=
  match f, v with
  | .enabled t, .bool b => .ok (s.setEnabled b t)
  | .excludedKeywords, .list texts => .ok { s with excludedKeywords := texts }
  | .blockReserved, .bool b => .ok { s with blockReserved := b }
  | .excludeKeywords, .bool b => .ok { s with excludeKeywords := b }
  | .usernameCaseSensitive, .bool b => .ok { s with usernameCaseSensitive := b }
  | .asciiOnly, .bool b => .ok { s with asciiOnly := b }
  | .emailCaseSensitive, .bool b => .ok { s with emailCaseSensitive := b }
  | .ignoreDot, .bool b => .ok { s with ignoreDot := b }
  | .allowPlus, .bool b => .ok { s with allowPlus := b }
  | f, _ => .error (.kindMismatch f f.kind)

/-- The fields in which the settings differ from others. -/
def changedFields (s other : Settings) : List Field :=
  Field.all.filter fun f => s.get f ≠ other.get f

/-- The changed fields are those with different values. -/
theorem mem_changedFields {s other : Settings} {f : Field} :
    f ∈ s.changedFields other ↔ s.get f ≠ other.get f := by
  simp [changedFields, Field.mem_all]

end Settings
end LoginSettings
