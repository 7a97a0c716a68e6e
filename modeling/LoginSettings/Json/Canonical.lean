import LoginSettings.Json.Printer
import LoginSettings.Text.Units

/-!
# Canonical JSON

The text of RFC 8785, the same for all texts of one value: no blanks, members in the order of the
sixteen-bit units of their keys, and every number in the shortest form that reads back as the same
number of double precision.
-/

namespace LoginSettings.Json

open Decimal (Layout)

/-- Numbers are positional from `1e-6` up to below `1e21`, without a fraction if they are whole;
zero has no sign. -/
def canonicalLayout : Layout := ⟨-6, 20, false, true, false⟩

/-- The canonical text of a number; whole numbers too are taken as numbers of double precision. -/
def canonicalNumber : Number → List Char
  | .integer n => match Binary64.ofInt n with
    | some x => canonicalLayout.render x
    | none => Decimal.intDigits n
  | .float x => canonicalLayout.render x

/-- A member put in front of the first one whose key has greater units. -/
def insertByUnits {α : Type} (member : String × α) : List (String × α) → List (String × α)
  | [] => [member]
  | m :: ms => if Text.unitsLE member.1 m.1 then member :: m :: ms else m :: insertByUnits member ms

/-- Members in the order of the units of their keys. -/
def sortByUnits {α : Type} (members : List (String × α)) : List (String × α) :=
  members.foldr insertByUnits []

/-- Members as text, with commas between them, from their keys and the texts of their values. -/
def joinMembers : List (String × List Char) → List Char
  | [] => []
  | [(key, text)] => stringText key ++ ':' :: text
  | (key, text) :: m :: ms => stringText key ++ ':' :: text ++ ',' :: joinMembers (m :: ms)

mutual

/-- The canonical text of a value. -/
def canonicalChars : Value → List Char
  | .null => nullText
  | .bool b => boolText b
  | .number n => canonicalNumber n
  | .string s => stringText s
  | .array items => '[' :: canonicalItems items ++ [']']
  | .object members => '{' :: joinMembers (sortByUnits (canonicalMembers members)) ++ ['}']

/-- The canonical texts of items with commas between them. -/
def canonicalItems : List Value → List Char
  | [] => []
  | [v] => canonicalChars v
  | v :: w :: vs => canonicalChars v ++ ',' :: canonicalItems (w :: vs)

/-- The keys of members with the canonical texts of their values. -/
def canonicalMembers : List (String × Value) → List (String × List Char)
  | [] => []
  | (key, v) :: rest => (key, canonicalChars v) :: canonicalMembers rest

end

/-- The canonical text of a value. -/
def canonical (v : Value) : String := String.ofList (canonicalChars v)

end LoginSettings.Json
