import LoginSettings.Yaml.Block
import LoginSettings.Yaml.Plain
import LoginSettings.Yaml.Quoted
import LoginSettings.Yaml.Token

/-!
# Reading tokens

What a token means can depend on what follows it: whether `a` is a key shows at the colon behind it.
So the lexer keeps, for the block level and for each pair of brackets, the place of the last thing
that can still turn out to be a key, and puts the tokens for the key in there when the colon comes.
A key has to be on one line and may not be long.

The open blocks are kept as the columns where they start. A column further left closes them; an
entry or a key at a column further right opens one more.
-/

namespace LoginSettings.Yaml

/-- A place among the tokens where a key may start. A key is required where the column is that of
the block around it: there nothing else can stand. -/
structure Candidate where
  required : Bool
  before : Nat
  line : Nat
  column : Nat

/-- How many columns a key may take, up to its colon. -/
def longestKey : Nat := 1024

/-- The state of reading. -/
structure Lexer where
  cursor : Cursor
  /-- The tokens read so far, the last one first. -/
  tokens : List Token
  /-- The columns of the open blocks, the innermost one first. -/
  blocks : List Nat
  /-- What can still be a key here. -/
  candidate : Option Candidate
  /-- What can still be a key around each open bracket. -/
  outer : List (Option Candidate)
  /-- Whether a key may start here. -/
  keyAllowed : Bool

namespace Lexer

/-- The state before reading. -/
def start (text : List Char) : Lexer := ⟨⟨text, 0, 0⟩, [], [], none, [], true⟩

/-- Holds inside brackets. -/
def inFlow (l : Lexer) : Bool := !l.outer.isEmpty

/-- The state with one more token, read up to `after`. -/
def emit (l : Lexer) (token : Token) (after : Cursor) : Lexer :=
  { l with tokens := token :: l.tokens, cursor := after }

/-- The state with `token` put in where `before` tokens stand before it. -/
def putIn (l : Lexer) (token : Token) (before : Nat) : Lexer :=
  let later := l.tokens.length - before
  { l with tokens := l.tokens.take later ++ token :: l.tokens.drop later }

/-! ## Keys -/

/-- Holds of candidates that a key can no longer come from here. -/
def isStale (l : Lexer) (k : Candidate) : Bool :=
  k.line < l.cursor.line || k.column + longestKey < l.cursor.column

/-- Fails if what was required to be a key is stale. -/
def freshen (l : Lexer) : Option Candidate → Option (Option Candidate)
  | none => some none
  | some k => if l.isStale k then (if k.required then none else some none) else some (some k)

/-- The state without the candidates that are stale. -/
def dropStale (l : Lexer) : Option Lexer := do
  let candidate ← l.freshen l.candidate
  let outer ← l.outer.mapM l.freshen
  pure { l with candidate, outer }

/-- The state in which nothing can be a key. Fails if something was required to be one. -/
def dropCandidate (l : Lexer) : Option Lexer :=
  if l.candidate.any Candidate.required then none else some { l with candidate := none }

/-- The state in which a key may have started here, if one is allowed. -/
def noteCandidate (l : Lexer) : Option Lexer :=
  if l.keyAllowed then
    let required := !l.inFlow && l.blocks.head? = some l.cursor.column
    l.dropCandidate.map fun l =>
      { l with candidate := some ⟨required, l.tokens.length, l.cursor.line, l.cursor.column⟩ }
  else some l

/-- The state in which keys are allowed or not. -/
def allowKeys (l : Lexer) (allowed : Bool) : Lexer := { l with keyAllowed := allowed }

/-! ## Blocks -/

/-- The state with a block opened at a column, unless one is open there or further right; its token
is put in where `before` tokens stand before it. -/
def openBlock (l : Lexer) (column : Nat) (token : Token) (before : Nat) : Lexer :=
  if !l.inFlow && l.blocks.head?.all (· < column) then
    { l.putIn token before with blocks := column :: l.blocks }
  else l

/-- The state without the first `n` blocks. -/
def closeFirst (l : Lexer) (n : Nat) : Lexer :=
  { l with blocks := l.blocks.drop n, tokens := List.replicate n .blockEnd ++ l.tokens }

/-- The state with the blocks closed that start right of this column. -/
def closeBlocks (l : Lexer) : Lexer :=
  if l.inFlow then l
  else l.closeFirst (l.blocks.takeWhile (l.cursor.column < ·)).length

/-- The state with all blocks closed. -/
def closeAll (l : Lexer) : Lexer := if l.inFlow then l else l.closeFirst l.blocks.length

/-- The first column that the block here does not start at. -/
def least (l : Lexer) : Nat :=
  match l.blocks.head? with
  | some n => n + 1
  | none => 0

/-! ## What stands between tokens -/

/-- The position of the next token, and whether a line end has been passed. A byte order mark that
starts a line is passed over; it takes a column. Where a block key may start, tabs are not passed
over. -/
def skipGap (inFlow keyAllowed : Bool) (c : Cursor) : Cursor × Bool :=
  match h : c.rest with
  | [] => (c, keyAllowed)
  | x :: _ =>
    have : c.past.rest.length < c.rest.length := Cursor.length_past_lt (by simp [h])
    if x = ' ' || (x = '\t' && (inFlow || !keyAllowed)) || (x = '\ufeff' && c.column = 0) then
      skipGap inFlow keyAllowed c.past
    else if isBreak x then skipGap inFlow (keyAllowed || !inFlow) c.past
    else if x = '#' then
      have : c.toLineEnd.past.rest.length < c.rest.length :=
        Cursor.length_past_toLineEnd_lt (by simp [h])
      if c.toLineEnd.rest.isEmpty then (c.toLineEnd, keyAllowed)
      else skipGap inFlow (keyAllowed || !inFlow) c.toLineEnd.past
    else (c, keyAllowed)
termination_by c.rest.length

/-- The state at the next token. -/
def toToken (l : Lexer) : Option Lexer :=
  let (cursor, keyAllowed) := skipGap l.inFlow l.keyAllowed l.cursor
  (dropStale { l with cursor, keyAllowed }).map closeBlocks

/-! ## Tokens -/

/-- Reads a marker between documents. -/
def readMarker (l : Lexer) (token : Token) : Option Lexer :=
  l.closeAll.dropCandidate.map fun l => (l.emit token (l.cursor.pastMany 3)).allowKeys false

/-- Reads a directive. -/
def readDirectiveToken (l : Lexer) : Option Lexer := do
  let l ← l.closeAll.dropCandidate
  let (token, after) ← readDirective l.cursor
  pure ((l.emit token after).allowKeys false)

/-- Reads an opening bracket. -/
def readOpening (l : Lexer) (token : Token) : Option Lexer :=
  l.noteCandidate.map fun l =>
    { l.emit token l.cursor.past with
      candidate := none, outer := l.candidate :: l.outer, keyAllowed := true }

/-- Reads a closing bracket. -/
def readClosing (l : Lexer) (token : Token) : Option Lexer :=
  l.dropCandidate.map fun l =>
    let l := (l.emit token l.cursor.past).allowKeys false
    match l.outer with
    | [] => l
    | candidate :: outer => { l with candidate, outer }

/-- Reads a comma. -/
def readSeparator (l : Lexer) : Option Lexer :=
  l.dropCandidate.map fun l => (l.emit .separator l.cursor.past).allowKeys true

/-- Reads the hyphen of an entry. -/
def readEntry (l : Lexer) : Option Lexer :=
  if !l.inFlow && !l.keyAllowed then none
  else
    (l.openBlock l.cursor.column .blockSequenceStart l.tokens.length).dropCandidate.map fun l =>
      (l.emit .blockEntry l.cursor.past).allowKeys true

/-- Reads the question mark of a key. -/
def readKey (l : Lexer) : Option Lexer :=
  if !l.inFlow && !l.keyAllowed then none
  else
    (l.openBlock l.cursor.column .blockMappingStart l.tokens.length).dropCandidate.map fun l =>
      (l.emit .key l.cursor.past).allowKeys !l.inFlow

/-- Reads the colon of a value. -/
def readValue (l : Lexer) : Option Lexer :=
  match l.candidate with
  | some k =>
    let l := (l.putIn .key k.before).openBlock k.column .blockMappingStart k.before
    some { (l.emit .value l.cursor.past).allowKeys false with candidate := none }
  | none =>
    if !l.inFlow && !l.keyAllowed then none
    else
      let l := l.openBlock l.cursor.column .blockMappingStart l.tokens.length
      some ((l.emit .value l.cursor.past).allowKeys !l.inFlow)

/-- Reads a token that may be a key or belong to one. -/
def readKeyPart (l : Lexer) (read : Cursor → Option (Token × Cursor)) : Option Lexer := do
  let l ← l.noteCandidate
  let (token, after) ← read l.cursor
  pure ((l.emit token after).allowKeys false)

/-- Reads a block scalar from its indicator. -/
def readBlock (l : Lexer) (literal : Bool) : Option Lexer := do
  let l ← l.dropCandidate
  let (text, after) ← readBlockScalar literal l.blocks.head? l.cursor.past
  pure ((l.emit (.scalar false text) after).allowKeys true)

/-- Reads a plain scalar. -/
def readPlainToken (l : Lexer) : Option Lexer := do
  let l ← l.noteCandidate
  let r ← readPlain l.inFlow l.least [] (.blanks []) l.cursor
  pure ((l.emit (.scalar true r.text) r.after).allowKeys r.onNextLine)

/-- Holds of the characters that no plain scalar starts with, unless another character makes it
one. -/
def isIndicator (c : Char) : Bool :=
  ['-', '?', ':', ',', '[', ']', '{', '}', '#', '&', '*', '!', '|', '>', '\'', '"', '%', '@',
    '\x60'].contains c

/-- Holds where a plain scalar starts, `x` being the first character and `xs` the rest. -/
def startsPlain (inFlow : Bool) (x : Char) (xs : List Char) : Bool :=
  !(isBlank x || isBreak x || isIndicator x)
    || (x = '-' && !xs.head?.any isBlank)
    || (!inFlow && (x = '?' || x = ':') && !endsWord xs)

/-- Reads a token, `x` being its first character and `xs` what follows. -/
def readToken (l : Lexer) (x : Char) (xs : List Char) : Option Lexer :=
  let c := l.cursor
  if c.column = 0 && x = '%' then l.readDirectiveToken
  else if c.atMarker '-' then l.readMarker .documentStart
  else if c.atMarker '.' then l.readMarker .documentEnd
  else if x = '[' then l.readOpening .sequenceStart
  else if x = '{' then l.readOpening .mappingStart
  else if x = ']' then l.readClosing .sequenceEnd
  else if x = '}' then l.readClosing .mappingEnd
  else if x = ',' then l.readSeparator
  else if x = '-' && endsWord xs then l.readEntry
  else if x = '?' && (l.inFlow || endsWord xs) then l.readKey
  else if x = ':' && (l.inFlow || endsWord xs) then l.readValue
  else if x = '*' then
    l.readKeyPart fun c => (Yaml.readName c.past).map fun (name, d) => (.alias name, d)
  else if x = '&' then
    l.readKeyPart fun c => (Yaml.readName c.past).map fun (name, d) => (.anchor name, d)
  else if x = '!' then l.readKeyPart (readTag l.inFlow)
  else if x = '|' && !l.inFlow then l.readBlock true
  else if x = '>' && !l.inFlow then l.readBlock false
  else if x = '\'' then
    l.readKeyPart fun c => (readQuoted .single [] c.past).map fun (s, d) => (.scalar false s, d)
  else if x = '"' then
    l.readKeyPart fun c => (readQuoted .double [] c.past).map fun (s, d) => (.scalar false s, d)
  else if startsPlain l.inFlow x xs then l.readPlainToken
  else none

/-- The tokens at the end of the text. -/
def finish (l : Lexer) : Option (List Token) :=
  l.closeAll.dropCandidate.map fun l => l.tokens.reverse

/-- Reads all tokens. -/
def readAll (l : Lexer) : Option (List Token) :=
  match l.toToken with
  | none => none
  | some m =>
    match m.cursor.rest with
    | [] => m.finish
    | x :: xs =>
      match m.readToken x xs with
      | none => none
      | some n => if n.cursor.rest.length < l.cursor.rest.length then n.readAll else none
termination_by l.cursor.rest.length

end Lexer

/-- The tokens of a text, or none where it has a character that is not allowed or cannot be read. -/
def tokens (text : String) : Option (List Token) :=
  let chars := text.toList
  if chars.all isAllowed then (Lexer.start (withLineFeeds chars)).readAll else none

end LoginSettings.Yaml
