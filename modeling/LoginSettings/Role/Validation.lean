import LoginSettings.Text.Blank
import LoginSettings.Text.Quoted

/-!
# Roles

Checking the form of a role: its key, its name and its description. All that is wrong is reported,
in the order of the form.
-/

namespace LoginSettings.Role

/-- How many characters a key may have. -/
def longestKey : UInt64 := 40

/-- How many characters a name may have. -/
def longestName : UInt64 := 100

/-- What keys may not start with, because such keys belong to the platform. -/
def reservedStart : String := "authgear:"

/-- What is wrong with a part of the form. -/
inductive Problem where
  | required
  | tooLong (most : UInt64)
  | invalidFormat
  | reserved (start : String)
deriving DecidableEq, Repr

/-- How a problem is reported. -/
def Problem.message : Problem → String
  | required => "is required"
  | tooLong most => s!"must be at most {most} characters"
  | invalidFormat => "has an invalid format"
  | reserved start => "must not start with reserved prefix " ++ Text.quoted start

/-- A problem and the part of the form it is about. -/
structure Finding where
  location : String
  problem : Problem
deriving DecidableEq, Repr

/-- How a finding is reported. -/
def Finding.message (f : Finding) : String := f.location ++ " " ++ f.problem.message

/-- The form of a role, before or after it has been checked. -/
structure Form where
  key : String
  name : Option String
  description : Option String
deriving DecidableEq, Repr

/-- Holds of letters and of the underscore. -/
def startsKey (c : Char) : Bool := c.isAlpha || c = '_'

/-- Holds of the characters of keys: letters, digits, the underscore and the colon. -/
def isKeyChar (c : Char) : Bool := startsKey c || c.isDigit || c = ':'

/-- Holds of texts that have the form of a key. -/
def isKey : List Char → Bool
  | [] => false
  | c :: cs => startsKey c && cs.all isKeyChar

/-- The text without blanks at its ends, unless nothing is left. -/
def trimmedText (text : Option String) : Option String :=
  (text.map Text.trimmed).filter fun s => !s.isEmpty

/-- What is wrong with a key that has no blanks at its ends. -/
def keyProblems (key : String) : List Problem :=
  if key.isEmpty then [.required]
  else
    (if longestKey.toNat < key.length then [.tooLong longestKey] else [])
      ++ (if isKey key.toList then [] else [.invalidFormat])
      ++ (if reservedStart.toList.isPrefixOf key.toList then [.reserved reservedStart] else [])

/-- What is wrong with a name that has no blanks at its ends. -/
def nameProblems (name : Option String) : List Problem :=
  match name with
  | none => []
  | some name => if longestName.toNat < name.length then [.tooLong longestName] else []

/-- The form without blanks at the ends of its parts, or all that is wrong with it. -/
def validate (form : Form) : Except (List Finding) Form :=
  let checked : Form := ⟨Text.trimmed form.key, trimmedText form.name, trimmedText form.description⟩
  let findings := (keyProblems checked.key).map (Finding.mk "key")
    ++ (nameProblems checked.name).map (Finding.mk "name")
  if findings.isEmpty then .ok checked else .error findings

end LoginSettings.Role
