import LoginSettings.Document.Value
import LoginSettings.Settings.Field

/-!
# Where settings stand in documents

Flags are members of the section of their type, keywords are a list there, and which types are
enabled shows at the list of keys: a type is enabled if the list has an entry for it. Reading and
writing settings both go by these locations.
-/

namespace LoginSettings

/-- A member of the object that a path leads to. -/
structure Location where
  path : List String
  member : String
deriving DecidableEq, Repr

/-- Where a flag stands. An inverted flag is stored as its opposite. -/
structure FlagLocation extends Location where
  inverted : Bool
deriving DecidableEq, Repr

/-- The path of all that concerns login IDs. -/
def loginIdPath : List String := ["identity", "login_id"]

/-- The path of the section on usernames. -/
def usernamePath : List String := ["identity", "login_id", "types", "username"]

/-- The path of the section on e-mail addresses. -/
def emailPath : List String := ["identity", "login_id", "types", "email"]

/-- Where the list of keys stands. -/
def keysLocation : Location := ⟨loginIdPath, "keys"⟩

/-- Where the keywords stand. -/
def keywordsLocation : Location := ⟨usernamePath, "excluded_keywords"⟩

/-- Where the flag of a field stands, for the fields that are flags of a section. -/
def Field.flagLocation? : Field → Option FlagLocation
  | .blockReserved => some ⟨⟨usernamePath, "block_reserved_usernames"⟩, false⟩
  | .usernameCaseSensitive => some ⟨⟨usernamePath, "case_sensitive"⟩, false⟩
  | .asciiOnly => some ⟨⟨usernamePath, "ascii_only"⟩, false⟩
  | .emailCaseSensitive => some ⟨⟨emailPath, "case_sensitive"⟩, false⟩
  | .ignoreDot => some ⟨⟨emailPath, "ignore_dot_sign"⟩, false⟩
  | .allowPlus => some ⟨⟨emailPath, "block_plus_sign"⟩, true⟩
  | _ => none

/-- The value at a location. -/
def Location.find? (l : Location) (v : Value) : Option Value :=
  (v.at? l.path).bind (·.member? l.member)

/-- Holds of the entries for a type. -/
def isEntryOf (type : KeyType) (entry : Value) : Bool :=
  entry.member? "type" = some (.string type.name)

/-- Holds of lists with an entry for a type. -/
def isListed (type : KeyType) (keys : List Value) : Bool := keys.any (isEntryOf type)

/-- The list of keys of a document; without one it is empty. -/
def keysOf (v : Value) : List Value := ((keysLocation.find? v).bind Value.items?).getD []

end LoginSettings
