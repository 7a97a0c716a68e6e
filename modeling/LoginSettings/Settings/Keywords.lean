import LoginSettings.Text.Blank

/-!
# Keywords

The list of keywords that counts: nothing while the list is off, and else its items without blanks
at either end, the blank ones left out.
-/

namespace LoginSettings

/-- The keywords that count. -/
def effectiveList (raw : List String) (enabled : Bool) : List String :=
  if enabled then (raw.map Text.trimmed).filter fun item => !item.isEmpty else []

end LoginSettings
