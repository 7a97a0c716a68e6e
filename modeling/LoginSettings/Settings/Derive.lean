import LoginSettings.Document
import LoginSettings.Settings.Basic
import LoginSettings.Settings.Location

/-!
# Settings of a document

Reading the settings out of a document. What is missing or of another kind counts as not set, so
this never fails.
-/

namespace LoginSettings.Settings

/-- The flag at a location, as it is set; where none is, it is stored as false. -/
def flagAt (root : Value) (l : FlagLocation) : Bool :=
  (((l.find? root).bind Value.bool?).getD false) != l.inverted

/-- The flag of a field; fields without a location have none. -/
def flagOf (root : Value) (f : Field) : Bool := f.flagLocation?.any (flagAt root)

/-- The strings among the items at a location. -/
def textsAt (root : Value) (l : Location) : List String :=
  (((l.find? root).bind Value.items?).getD []).filterMap Value.string?

/-- The settings of a value. -/
def ofRoot (root : Value) : Settings :=
  let keys := keysOf root
  let keywords := textsAt root keywordsLocation
  { usernameEnabled := isListed .username keys
    emailEnabled := isListed .email keys
    phoneEnabled := isListed .phone keys
    excludedKeywords := keywords
    blockReserved := flagOf root .blockReserved
    excludeKeywords := !keywords.isEmpty
    usernameCaseSensitive := flagOf root .usernameCaseSensitive
    asciiOnly := flagOf root .asciiOnly
    emailCaseSensitive := flagOf root .emailCaseSensitive
    ignoreDot := flagOf root .ignoreDot
    allowPlus := flagOf root .allowPlus }

/-- The settings of a document. -/
def ofDocument (d : Document) : Settings := ofRoot d.root

end LoginSettings.Settings
