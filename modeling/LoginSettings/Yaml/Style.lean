import LoginSettings.Yaml.Cursor
import LoginSettings.Yaml.Resolution

/-!
# Written scalars

Four ways of writing a text, of which the plainest is taken that reads back as the same text: as it
is, in single quotes, as a literal block if it has line feeds, and in double quotes, which can write
any text. Line feeds and the separators of lines and paragraphs end lines also of the text that is
written; the separators may stand between single quotes, line feeds may not.
-/

namespace LoginSettings.Yaml

/-- How a text is written. -/
inductive Style where
  | plain
  | single
  | double
  | literal
deriving DecidableEq, Repr

/-! ## Which style a text allows -/

/-- The characters that can stand in a text without an escape: line feeds, what has a shape, and the
separators of lines and paragraphs. -/
def isPrintable (c : Char) : Bool :=
  let n := c.toNat
  n = 0xA || (0x20 ≤ n && n ≤ 0x7E) || (0xA0 ≤ n && n ≤ 0xD7FF)
    || (0xE000 ≤ n && n ≤ 0xFFFD && n ≠ 0xFEFF) || 0x10000 ≤ n

/-- Holds where a character of one kind stands right before one of another kind. -/
def hasPair (p q : Char → Bool) : List Char → Bool
  | x :: y :: cs => (p x && q y) || hasPair p q (y :: cs)
  | _ => false

/-- Holds of texts that only double quotes can write: those with something to escape, and those with
a space at the end of a line, where it would be lost. -/
def needsEscape (text : List Char) : Bool :=
  text.any (fun c => !isPrintable c) || hasPair (· = ' ') isBreak text

/-- Holds of the characters that no plain text starts with. -/
def isOpeningIndicator (c : Char) : Bool :=
  ['#', ',', '[', ']', '{', '}', '&', '*', '!', '|', '>', '\'', '"', '%', '@', '\x60'].contains c

/-- Holds where an indicator stands inside a text: a colon that ends a word, or a number sign that
starts one; `previous` is the character before. -/
def hasInnerIndicator (previous : Char) : List Char → Bool
  | [] => false
  | c :: cs =>
    (c = ':' && endsWord cs) || (c = '#' && isBlank previous) || hasInnerIndicator c cs

/-- Holds of texts that would be read as something else because of an indicator. -/
def hasIndicator (text : List Char) : Bool :=
  match text with
  | [] => false
  | c :: cs =>
    text.take 3 = ['-', '-', '-'] || text.take 3 = ['.', '.', '.'] || isOpeningIndicator c
      || ((c = '?' || c = ':' || c = '-') && endsWord cs) || hasInnerIndicator c cs

/-- Holds of texts that are read as strings where they stand without quotes. -/
def isPlainString (text : List Char) : Bool :=
  plainValue text = some (.string (String.ofList text)) && !hasLeadingZero text

/-- Holds of texts that can stand without quotes. -/
def allowsPlain (text : List Char) : Bool :=
  isPlainString text && text.head? ≠ some ' ' && text.getLast? ≠ some ' ' && !text.any isBreak
    && !hasIndicator text

/-- Holds of texts that can stand in single quotes: no line of theirs starts with a space, where it
would be lost. -/
def allowsSingle (text : List Char) : Bool := !hasPair isBreak (· = ' ') text

/-- Holds of texts that can stand as a literal block. -/
def allowsLiteral (text : List Char) : Bool := text.getLast? ≠ some ' '

/-- The style in which a text is written. -/
def styleOf (text : List Char) : Style :=
  if needsEscape text then .double
  else if text.contains '\n' then (if allowsLiteral text then .literal else .double)
  else if allowsPlain text then .plain
  else if allowsSingle text then .single
  else .double

/-! ## The text in a style -/

/-- The spaces in front of what starts at a column. -/
def indentation (column : Nat) : List Char := List.replicate column ' '

/-- The spaces in front of what comes next, at the start of a line and nowhere else. -/
def leading (column : Nat) (lineStart : Bool) : List Char :=
  if lineStart then indentation column else []

/-- What stands between single quotes and the closing quote: lines that start at a column, and two
quotes for a quote. -/
def singleLines (column : Nat) (lineStart : Bool) : List Char → List Char
  | [] => leading column lineStart ++ ['\'']
  | c :: cs =>
    if isBreak c then c :: singleLines column true cs
    else
      leading column lineStart ++ (if c = '\'' then ['\'', '\''] else [c])
        ++ singleLines column false cs

/-- Text in single quotes, its lines after the first one indented. -/
def singleQuoted (column : Nat) (text : List Char) : List Char :=
  '\'' :: singleLines column false text

/-- The last `n` digits of a number in base sixteen, in upper case. -/
def upperHex (value : Nat) : Nat → List Char
  | 0 => []
  | n + 1 => upperHex (value / 16) n ++ [(Nat.digitChar (value % 16)).toUpper]

/-- The letter behind the backslash for a character that has one. -/
def escapeLetter? (c : Char) : Option Char :=
  match c with
  | '\x00' => some '0'
  | '\x07' => some 'a'
  | '\x08' => some 'b'
  | '\t' => some 't'
  | '\n' => some 'n'
  | '\x0b' => some 'v'
  | '\x0c' => some 'f'
  | '\r' => some 'r'
  | '\x1b' => some 'e'
  | '"' => some '"'
  | '\\' => some '\\'
  | '\u0085' => some 'N'
  | '\u2028' => some 'L'
  | '\u2029' => some 'P'
  | _ => none

/-- A character between double quotes. -/
def doubleChar (c : Char) : List Char :=
  match escapeLetter? c with
  | some x => ['\\', x]
  | none =>
    if isPrintable c then [c]
    else if c.toNat ≤ 0xFF then '\\' :: 'x' :: upperHex c.toNat 2
    else if c.toNat ≤ 0xFFFF then '\\' :: 'u' :: upperHex c.toNat 4
    else '\\' :: 'U' :: upperHex c.toNat 8

/-- Text in double quotes. -/
def doubleQuoted (text : List Char) : List Char := '"' :: text.flatMap doubleChar ++ ['"']

/-- The lines of a literal block, those with text indented; `lineStart` holds at the start of
one. -/
def literalLines (column : Nat) (lineStart : Bool) : List Char → List Char
  | [] => []
  | c :: cs =>
    if isBreak c then c :: literalLines column true cs
    else leading column lineStart ++ c :: literalLines column false cs

/-- The sign for how a block ends: nothing for one line end, a minus for none, a plus for several or
for one that is the whole text. -/
def chompSign (text : List Char) : List Char :=
  match text.reverse with
  | [] => ['-']
  | x :: xs =>
    if !isBreak x then ['-']
    else if xs.head?.all isBreak then ['+']
    else []

/-- The digit for the indentation, needed where the first line does not show it. -/
def indentSign (text : List Char) : List Char :=
  if text.head?.any fun c => c = ' ' || isBreak c then ['2'] else []

/-- Text as a literal block whose lines start at a column. It ends where the text does, be that at
the end of a line or not. -/
def literalBlock (column : Nat) (text : List Char) : List Char :=
  '|' :: indentSign text ++ chompSign text ++ '\n' :: literalLines column true text

/-- A text as it is written; lines of it that follow others start at the column. -/
def scalarText (column : Nat) (text : List Char) : List Char :=
  match styleOf text with
  | .plain => text
  | .single => singleQuoted column text
  | .double => doubleQuoted text
  | .literal => literalBlock column text

end LoginSettings.Yaml
