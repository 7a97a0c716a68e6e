import LoginSettings.Decimal.Layout
import LoginSettings.Yaml.Style

/-!
# Written YAML

Values as block sequences and block mappings. What is inside something starts two columns further
right, except for the items of a sequence in a mapping, which start where its keys do. What follows
the sign of an item stands on the same line. Empty sequences and mappings are written in brackets.
-/

namespace LoginSettings.Yaml

open Decimal (Layout)

/-- Numbers are positional from `1e-5` up to below `1e16`, whole ones end in `.0`, exponents are
without plus sign and zero keeps its own sign. -/
def numberLayout : Layout := ⟨-5, 15, true, false, true⟩

/-- The text of a number. -/
def numberText : Number → List Char
  | .integer n => Decimal.intDigits n
  | .float x => numberLayout.render x

/-- How many bytes a key may have that stands before its colon on one line. -/
def longestSimpleKey : Nat := 128

/-- Holds of keys that stand on one line with their colon. -/
def isSimpleKey (key : String) : Bool :=
  !key.toList.any (fun c => isBreak c || c = '\r' || c = '\u0085')
    && key.utf8ByteSize ≤ longestSimpleKey

/-- The start of a line up to a column. -/
def newLine (column : Nat) : List Char := '\n' :: indentation column

/-- The start of a line up to a column, behind some text. A block ends its own last line. -/
def nextLine (text : List Char) (column : Nat) : List Char :=
  if text.getLast?.any isBreak then indentation column else newLine column

/-- Two parts, of which the second one starts on another line at a column. -/
def onNextLine (column : Nat) (first second : List Char) : List Char :=
  first ++ nextLine first column ++ second

mutual

/-- A value that starts on a line at a column. -/
def inlineChars (column : Nat) : Value → List Char
  | .null => "null".toList
  | .bool b => if b then "true".toList else "false".toList
  | .number n => numberText n
  | .string s => scalarText column s.toList
  | .array [] => ['[', ']']
  | .array (v :: vs) => itemChars column (v :: vs)
  | .object [] => ['{', '}']
  | .object (m :: ms) => memberChars column (m :: ms)

/-- The items of a sequence whose signs stand at a column. -/
def itemChars (column : Nat) : List Value → List Char
  | [] => []
  | v :: vs =>
    let item := '-' :: ' ' :: inlineChars (column + 2) v
    match vs with
    | [] => item
    | w :: ws => onNextLine column item (itemChars column (w :: ws))

/-- The members of a mapping whose keys start at a column. -/
def memberChars (column : Nat) : List (String × Value) → List Char
  | [] => []
  | (key, v) :: ms =>
    let key' := scalarText (column + 2) key.toList
    let member :=
      if isSimpleKey key then key' ++ ':' :: memberValueChars column v
      else onNextLine column ('?' :: ' ' :: key') (':' :: ' ' :: inlineChars (column + 2) v)
    match ms with
    | [] => member
    | n :: ns => onNextLine column member (memberChars column (n :: ns))

/-- What follows the colon of a key that starts at a column. -/
def memberValueChars (column : Nat) : Value → List Char
  | .array (v :: vs) => newLine column ++ itemChars column (v :: vs)
  | .object (m :: ms) => newLine (column + 2) ++ memberChars (column + 2) (m :: ms)
  | .null => ' ' :: "null".toList
  | .bool b => ' ' :: if b then "true".toList else "false".toList
  | .number n => ' ' :: numberText n
  | .string s => ' ' :: scalarText (column + 2) s.toList
  | .array [] => [' ', '[', ']']
  | .object [] => [' ', '{', '}']

end

/-- The text of a value. Lines of a text that stands alone start at the second column. -/
def render (v : Value) : String :=
  let chars := match v with
    | .string s => scalarText 2 s.toList
    | v => inlineChars 0 v
  String.ofList (onNextLine 0 chars [])

end LoginSettings.Yaml
