import LoginSettings.Decimal.Spelling
import LoginSettings.Log.Event
import LoginSettings.Pattern.Expression
import LoginSettings.Text.Split
import LoginSettings.Text.Utf8

/-!
# Directives

A directive says up to which level the events of a target are written. In full it is
`target[span{value}]=level`, of which parts may be missing. One word alone is a level if it names
one and else a target.

The parts are found in the text without the blanks around it, but they are taken from the text with
them, at the same bytes. So blanks behind a directive belong to its last part, and blanks in front
of it shift all parts.
-/

namespace LoginSettings.Log

/-- A directive: events of a target, and with a certain value, are written up to a rank. A directive
for spans never applies, because events stand in none. -/
inductive Directive where
  | events (target : String) (value : Option String) (rank : Nat)
  | spans
deriving DecidableEq, Repr

/-! ## Levels -/

/-- The ranks that names of levels stand for; zero shuts all events out. -/
def levelNames : List (String × Nat) :=
  [("off", 0), ("error", 1), ("warn", 2), ("info", 3), ("debug", 4), ("trace", 5)]

/-- The highest rank. -/
def allRanks : Nat := 5

/-- The rank that a text names, in letters of either case or by a number, which may have a plus sign
in front. -/
def rank? (text : List Char) : Option Nat :=
  let digits := match text with
    | '+' :: digits => digits
    | digits => digits
  if !digits.isEmpty && digits.all Char.isDigit then
    some (Decimal.digitsValue digits) |>.filter (· ≤ allRanks)
  else (levelNames.find? fun l => l.1 = String.ofList (text.map Char.toLower)).map (·.2)

/-- The rank behind an equals sign; without one all events are written. -/
def rankAfter (text : List Char) : Option Nat := if text.isEmpty then some allRanks else rank? text

/-! ## Where the parts are -/

/-- A part of a text: the byte where it starts and the one behind it. -/
structure Part where
  start : Nat
  stop : Nat
deriving DecidableEq, Repr

/-- What is found in a directive. The level goes on to the end of the text, and so does a word
alone. -/
structure Outline where
  target : Option Part
  span : Option Part
  value : Option Part
  level : Option Nat
deriving DecidableEq, Repr

/-- Holds of the characters that a target or a level starts with. -/
def startsWord (c : Char) : Bool := Text.isAlphanumeric c || ['-', ':', '_'].contains c

/-- How many bytes a text has. -/
def byteCount (cs : List Char) : Nat := (Text.encodeUtf8 cs).length

/-- What is found behind the closing bracket, which stands before the byte `start`. -/
def Outline.atEnd (o : Outline) (start : Nat) : List Char → Option Outline
  | [] => some o
  | '=' :: _ => some { o with level := some (start + 1) }
  | _ => none

/-- What is found behind an opening bracket, which stands before the byte `start`: the name of a
span, a value in braces, or both. -/
def Outline.inBrackets (target : Option Part) (start : Nat) (cs : List Char) : Option Outline :=
  let (span, rest) := cs.span fun c => c ≠ ']' && c ≠ '\x7b'
  let behind := start + byteCount span
  match rest with
  | ']' :: rest => atEnd ⟨target, some ⟨start, behind⟩, none, none⟩ (behind + 1) rest
  | '\x7b' :: rest => do
    let (value, rest) ← Text.splitFirst '\x7d' rest
    let valueStop := behind + 1 + byteCount value
    if value.isEmpty then none
    else
      match rest with
      | ']' :: rest =>
        atEnd ⟨target, if span.isEmpty then none else some ⟨start, behind⟩,
          some ⟨behind + 1, valueStop⟩, none⟩ (valueStop + 2) rest
      | _ => none
  | _ => none

/-- What is found in a text that has no blanks around it. -/
def Outline.ofText? (text : List Char) : Option Outline :=
  match text with
  | [] => none
  | '[' :: rest => inBrackets none 1 rest
  | c :: _ =>
    if startsWord c then
      let (word, rest) := text.span fun c => c ≠ '=' && c ≠ '['
      let stop := byteCount word
      match rest with
      | '[' :: rest => inBrackets (some ⟨0, stop⟩) (stop + 1) rest
      | rest => atEnd ⟨some ⟨0, stop⟩, none, none, none⟩ stop rest
    else none

/-! ## Reading -/

/-- Holds of the spellings of numbers, of which some are no whole numbers. -/
def isNumber (text : List Char) : Bool :=
  (Decimal.Spelling.ofText? text).isSome
    || ["inf", "infinity", "nan"].contains
        (String.ofList ((Decimal.unsigned text).2.map Char.toLower))

/-- Reads what stands in braces: the name of a value, and behind an equals sign what it has to be, a
number or something that matches a pattern. The answer says whether it has to be anything. -/
def readValue (text : List Char) : Option (String × Bool) :=
  match Text.splitAt '=' text with
  | [name] => some (String.ofList name, false)
  | name :: wanted :: _ =>
    if isNumber wanted || Pattern.isPattern wanted then some (String.ofList name, true) else none
  | [] => none

namespace Directive

/-- The directive for which `outline` was found, its parts taken from `text`. Names of spans, and
what values have to be, are looked for in spans alone. -/
def ofOutline? (text : List Char) (outline : Outline) : Option Directive := do
  let all := byteCount text
  match outline with
  | ⟨some target, none, none, none⟩ =>
    let word ← Text.cutBytes text target.start all
    match rank? word with
    | some rank => pure (.events "" none rank)
    | none => pure (.events (String.ofList word) none allRanks)
  | ⟨target, span, value, level⟩ =>
    let target ← target.mapM fun p => Text.cutBytes text p.start p.stop
    let span ← span.mapM fun p => Text.cutBytes text p.start p.stop
    let value ← value.mapM fun p => (Text.cutBytes text p.start p.stop).bind readValue
    let rank ← level.mapM fun start => (Text.cutBytes text start all).bind rankAfter
    if span.isSome || value.any (·.2) then pure .spans
    else
      let target := target.elim "" String.ofList
      pure (.events target (value.map (·.1)) (rank.getD allRanks))

/-- Reads a directive. -/
def ofText? (text : List Char) : Option Directive :=
  (Outline.ofText? (Text.trim text)).bind (ofOutline? text)

end Directive

end LoginSettings.Log
