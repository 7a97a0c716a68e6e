import LoginSettings.Decimal.Digits
import LoginSettings.Text.Hex
import LoginSettings.Text.Utf8
import LoginSettings.Yaml.Cursor

/-!
# Tokens

The tokens of a YAML text. Blocks have no signs of their own in the text: where they start and end
is told by indentation, and `Lexer` puts in the tokens for it. This module also reads the tokens
that are names: anchors, aliases, tags and directives.
-/

namespace LoginSettings.Yaml

/-- A token of a YAML text. The suffix of a tag and the prefix of a tag directive are bytes, because
they may be escaped byte by byte. -/
inductive Token where
  | version (major minor : Nat)
  | tagDirective (handle : List Char) (start : List UInt8)
  | documentStart
  | documentEnd
  | sequenceStart
  | sequenceEnd
  | mappingStart
  | mappingEnd
  | separator
  | blockSequenceStart
  | blockMappingStart
  | blockEnd
  | blockEntry
  | key
  | value
  | alias (name : List Char)
  | anchor (name : List Char)
  | tag (handle : List Char) (suffix : List UInt8)
  | scalar (plain : Bool) (text : List Char)
deriving DecidableEq, Repr

/-- The position where only `rest` is left of the text, on the same line. -/
def Cursor.to (c : Cursor) (rest : List Char) : Cursor :=
  c.pastMany (c.rest.length - rest.length)

/-! ## Anchors and aliases -/

/-- Reads a name behind `&` or `*`, which ends a word or stands before one of a few signs. -/
def readName (c : Cursor) : Option (List Char × Cursor) :=
  let (name, after) := c.run isNameChar
  let ends := endsWord after.rest ||
    after.rest.head?.any fun x => ['?', ':', ',', ']', '}', '%', '@', '\x60'].contains x
  if name.isEmpty || !ends then none else some (name, after)

/-! ## Tags -/

/-- The characters of tags; the last three only where the tag is enclosed in angle brackets. -/
def isTagChar (enclosed : Bool) (c : Char) : Bool :=
  isNameChar c
    || [';', '/', '?', ':', '@', '&', '=', '+', '$', '.', '!', '~', '*', '\'', '(', ')'].contains c
    || (enclosed && [',', '[', ']'].contains c)

/-- How many bytes a character has whose first byte is known. -/
def utf8Width? (n : Nat) : Option Nat :=
  if n < 0x80 then some 1
  else if n < 0xC0 then none
  else if n < 0xE0 then some 2
  else if n < 0xF0 then some 3
  else if n < 0xF8 then some 4
  else none

/-- Reads the characters of a tag. A percent sign and two digits of base sixteen stand for a byte;
the bytes of one character stand together, and `pending` of them are still to come. -/
def readTagChars (enclosed : Bool) (pending : Nat) : List Char → Option (List UInt8 × List Char)
  | [] => if pending = 0 then some ([], []) else none
  | '%' :: a :: b :: cs =>
    match Text.hexNumber? 2 [a, b] with
    | none => none
    | some n =>
      let left := match pending with
        | 0 => (utf8Width? n).map (· - 1)
        | p + 1 => if n / 64 = 2 then some p else none
      match left with
      | none => none
      | some p =>
        (readTagChars enclosed p cs).map fun (bytes, rest) => (UInt8.ofNat n :: bytes, rest)
  | c :: cs =>
    if pending ≠ 0 || c = '%' then none
    else if isTagChar enclosed c then
      (readTagChars enclosed 0 cs).map fun (bytes, rest) => (Text.charBytes c ++ bytes, rest)
    else some ([], c :: cs)

/-- Reads a tag handle: an exclamation mark, which a name and another one may follow. -/
def readHandle : List Char → Option (List Char × List Char)
  | '!' :: cs =>
    let name := cs.takeWhile isNameChar
    match cs.drop name.length with
    | '!' :: rest => some ('!' :: name ++ ['!'], rest)
    | rest => some ('!' :: name, rest)
  | _ => none

/-- Reads a tag from its exclamation mark. A lone mark is a tag without handle. -/
def readTag (inFlow : Bool) (c : Cursor) : Option (Token × Cursor) :=
  let found : Option (Token × List Char) :=
    match c.rest with
    | '!' :: '<' :: cs =>
      match readTagChars true 0 cs with
      | some (b :: bytes, '>' :: rest) => some (.tag [] (b :: bytes), rest)
      | _ => none
    | cs =>
      match readHandle cs with
      | none => none
      | some (handle, rest) =>
        if 2 ≤ handle.length ∧ handle.getLast? = some '!' then
          match readTagChars false 0 rest with
          | some (b :: bytes, rest) => some (.tag handle (b :: bytes), rest)
          | _ => none
        else
          match readTagChars false 0 rest with
          | none => none
          | some (bytes, rest) =>
            match Text.encodeUtf8 (handle.drop 1) ++ bytes with
            | [] => some (.tag [] (Text.charBytes '!'), rest)
            | suffix => some (.tag ['!'] suffix, rest)
  match found with
  | none => none
  | some (token, rest) =>
    if endsWord rest || (inFlow && rest.head? = some ',') then some (token, c.to rest) else none

/-! ## Directives -/

/-- Reads a part of a version, which has at most nine digits. -/
def readVersionPart (cs : List Char) : Option (Nat × List Char) :=
  let (digits, rest) := Decimal.spanDigits cs
  if digits.isEmpty || 9 < digits.length then none else some (Decimal.digitsValue digits, rest)

/-- Reads the two parts of a version. -/
def readVersion (cs : List Char) : Option (Token × List Char) :=
  match readVersionPart (cs.dropWhile isBlank) with
  | some (major, '.' :: rest) =>
    (readVersionPart rest).map fun (minor, rest) => (.version major minor, rest)
  | _ => none

/-- Reads a tag handle and what it stands for. -/
def readTagDirective (cs : List Char) : Option (Token × List Char) :=
  match readHandle (cs.dropWhile isBlank) with
  | none => none
  | some (handle, rest) =>
    if handle.length ≠ 1 ∧ handle.getLast? ≠ some '!' then none
    else if !rest.head?.any isBlank then none
    else
      match readTagChars true 0 (rest.dropWhile isBlank) with
      | some (b :: bytes, rest) =>
        if endsWord rest then some (.tagDirective handle (b :: bytes), rest) else none
      | _ => none

/-- Reads a directive from its percent sign to the end of the line. -/
def readDirective (c : Cursor) : Option (Token × Cursor) :=
  let (name, after) := c.past.run isNameChar
  if !endsWord after.rest then none
  else
    let found :=
      if name = "YAML".toList then readVersion after.rest
      else if name = "TAG".toList then readTagDirective after.rest
      else none
    match found with
    | none => none
    | some (token, rest) =>
      let d := (c.to rest).skipBlanks
      let d := if d.rest.head? = some '#' then d.toLineEnd else d
      if endsLine d.rest then some (token, d.past) else none

end LoginSettings.Yaml
