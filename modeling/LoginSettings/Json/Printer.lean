import LoginSettings.Decimal.Layout
import LoginSettings.Document.Value

/-!
# Written JSON

Two ways of writing a value as JSON: without any blanks, and with each item and member on a line of
its own. Members are written in the order in which the value has them.
-/

namespace LoginSettings.Json

open Decimal (Layout)

/-- Numbers are positional from `1e-5` up to below `1e16`, whole ones end in `.0`, exponents have a
sign and zero keeps its own. -/
def numberLayout : Layout := ⟨-5, 15, true, true, true⟩

/-- The text of a number. -/
def numberText : Number → List Char
  | .integer n => Decimal.intDigits n
  | .float x => numberLayout.render x

/-- A character between the quotes: quotes, backslashes and controls are escaped, all else stands
for itself. -/
def stringChar (c : Char) : List Char :=
  if c = '"' then ['\\', '"']
  else if c = '\\' then ['\\', '\\']
  else if c = '\x08' then ['\\', 'b']
  else if c = '\t' then ['\\', 't']
  else if c = '\n' then ['\\', 'n']
  else if c = '\x0c' then ['\\', 'f']
  else if c = '\r' then ['\\', 'r']
  else if c.toNat < 0x20 then
    ['\\', 'u', '0', '0', Nat.digitChar (c.toNat / 16), Nat.digitChar (c.toNat % 16)]
  else [c]

/-- The text of a string. -/
def stringText (s : String) : List Char := '"' :: s.toList.flatMap stringChar ++ ['"']

/-- The text of a truth value. -/
def boolText (b : Bool) : List Char :=
  if b then ['t', 'r', 'u', 'e'] else ['f', 'a', 'l', 's', 'e']

/-- The literal for no value. -/
def nullText : List Char := ['n', 'u', 'l', 'l']

/-! ## Compact text -/

mutual

/-- The text of a value without blanks. -/
def compactChars : Value → List Char
  | .null => nullText
  | .bool b => boolText b
  | .number n => numberText n
  | .string s => stringText s
  | .array items => '[' :: compactItems items ++ [']']
  | .object members => '{' :: compactMembers members ++ ['}']

/-- The texts of items with commas between them. -/
def compactItems : List Value → List Char
  | [] => []
  | [v] => compactChars v
  | v :: w :: vs => compactChars v ++ ',' :: compactItems (w :: vs)

/-- The texts of members with commas between them. -/
def compactMembers : List (String × Value) → List Char
  | [] => []
  | [(key, v)] => stringText key ++ ':' :: compactChars v
  | (key, v) :: m :: ms =>
    stringText key ++ ':' :: compactChars v ++ ',' :: compactMembers (m :: ms)

end

/-- The text of a value without blanks. -/
def compact (v : Value) : String := String.ofList (compactChars v)

/-! ## Text on lines -/

/-- A line break and the blanks in front of what stands `depth` levels deep. -/
def newline (depth : Nat) : List Char := '\n' :: List.replicate (2 * depth) ' '

mutual

/-- The text of a value that starts `depth` levels deep. -/
def prettyChars (depth : Nat) : Value → List Char
  | .null => nullText
  | .bool b => boolText b
  | .number n => numberText n
  | .string s => stringText s
  | .array [] => ['[', ']']
  | .array (v :: vs) => '[' :: prettyItems (depth + 1) (v :: vs) ++ newline depth ++ [']']
  | .object [] => ['{', '}']
  | .object (m :: ms) => '{' :: prettyMembers (depth + 1) (m :: ms) ++ newline depth ++ ['}']

/-- Items on lines of their own, each but the last with a comma. -/
def prettyItems (depth : Nat) : List Value → List Char
  | [] => []
  | [v] => newline depth ++ prettyChars depth v
  | v :: w :: vs => newline depth ++ prettyChars depth v ++ ',' :: prettyItems depth (w :: vs)

/-- Members on lines of their own, each but the last with a comma. -/
def prettyMembers (depth : Nat) : List (String × Value) → List Char
  | [] => []
  | [(key, v)] => newline depth ++ stringText key ++ ':' :: ' ' :: prettyChars depth v
  | (key, v) :: m :: ms =>
    newline depth ++ stringText key ++ ':' :: ' ' :: prettyChars depth v ++
      ',' :: prettyMembers depth (m :: ms)

end

/-- The text of a value with each item and member on a line of its own. -/
def pretty (v : Value) : String := String.ofList (prettyChars 0 v)

end LoginSettings.Json
