import LoginSettings.Decimal.Layout
import LoginSettings.Document.Value
import LoginSettings.Json.Cursor
import LoginSettings.Json.Fault
import LoginSettings.Text.Hex

/-!
# Scalars of JSON texts

Literals, numbers and strings. Each reader stands at the first character of its scalar and gives the
value with the position after it, or the damage that stops the reading. A scalar whose form is right
can still be without a value that is wanted: a number beyond the largest one, or a string with half
of a pair of surrogates. Such a scalar may be passed over.
-/

namespace LoginSettings.Json

open Text (Place hexDigit?)
open Decimal (digitsValue digitValue spanDigits)

/-- A scalar as it is read; the parts that can be passed over but not be wanted are errors. -/
inductive Scalar where
  | null
  | bool (value : Bool)
  | number (value : Except SyntaxError Number)
  | string (value : Except SyntaxError String)

/-- What a reader of scalars finds. -/
inductive ScalarReading where
  | found (scalar : Scalar) (after : Cursor)
  | damaged (damage : Damage)

/-! ## Literals -/

/-- Reads the rest of a literal. -/
def readLiteral (scalar : Scalar) : List Char → Cursor → ScalarReading
  | [], c => .found scalar c
  | x :: xs, c =>
    match c.rest with
    | [] => .damaged (.same .endInValue c.place)
    | y :: ys =>
      if x = y then readLiteral scalar xs ⟨ys, c.place.past y⟩
      else .damaged (.same .expectedLiteral c.ahead)

/-! ## Numbers -/

/-- The least integer that is kept as one: the least of sixty-four bits with sign. -/
def leastInteger : Int := -0x8000000000000000

/-- The greatest integer that is kept as one: the greatest of sixty-four bits without sign. -/
def greatestInteger : Int := 0xFFFFFFFFFFFFFFFF

/-- The number `± digits * 10 ^ exponent` of double precision, or a report at `place`. -/
def floatOf (negative : Bool) (digits : Nat) (exponent : Int) (place : Place) :
    Except SyntaxError Number :=
  match Binary64.ofDecimal negative digits exponent with
  | some x => .ok (.float x)
  | none => .error ⟨.numberOutOfRange, place⟩

/-- The number that a whole part alone stands for: an integer if it is in range, and a number of
double precision otherwise. Negative zero is no integer. -/
def wholeNumber (negative : Bool) (n : Nat) (place : Place) : Except SyntaxError Number :=
  let value : Int := if negative then -n else n
  if (negative ∧ n = 0) ∨ value < leastInteger ∨ greatestInteger < value then
    floatOf negative n 0 place
  else .ok (.integer value)

/-- The greatest exponent that is counted; a greater one is reported at the digit that passes it. -/
def greatestExponent : Nat := 0x7FFFFFFF

/-- How many digits of an exponent are read before it passes the greatest one. -/
def digitsWithin (value count : Nat) : List Char → Option Nat
  | [] => none
  | d :: ds =>
    let value := 10 * value + digitValue d
    if greatestExponent < value then some (count + 1) else digitsWithin value (count + 1) ds

/-- The number with a whole part, a fraction and an exponent; `exponentAt` is where the digits of
the exponent start and `stop` where they end. -/
def scaledNumber (negative : Bool) (whole fraction : List Char) (exponentSign : Bool)
    (exponent : List Char) (exponentAt stop : Place) : Except SyntaxError Number :=
  let digits := digitsValue (whole ++ fraction)
  let power : Int := digitsValue exponent
  match digitsWithin 0 0 exponent with
  | some count =>
    if digits ≠ 0 ∧ !exponentSign then
      .error ⟨.numberOutOfRange, ⟨exponentAt.line, exponentAt.column + count⟩⟩
    else .ok (.float (.zero negative))
  | none =>
    let power := if exponentSign then -power else power
    floatOf negative digits (power - fraction.length) stop

/-- Reads an exponent from behind its mark. -/
def readExponent (negative : Bool) (whole fraction : List Char) (c : Cursor) : ScalarReading :=
  let (minus, c) : Bool × Cursor := match c.rest with
    | '+' :: _ => (false, c.next)
    | '-' :: _ => (true, c.next)
    | _ => (false, c)
  match spanDigits c.rest with
  | ([], []) => .damaged ⟨⟨.endInValue, c.place⟩, ⟨.invalidNumber, c.place⟩⟩
  | ([], _ :: _) => .damaged (.same .invalidNumber c.ahead)
  | (digits, rest) =>
    let stop := c.place.pastAll digits
    .found (.number (scaledNumber negative whole fraction minus digits c.place stop)) ⟨rest, stop⟩

/-- Reads what may follow the whole part of a number: a fraction, an exponent or nothing. -/
def readFraction (negative : Bool) (whole : List Char) (c : Cursor) : ScalarReading :=
  match c.rest with
  | '.' :: _ =>
    let c := c.next
    match spanDigits c.rest with
    | ([], []) => .damaged ⟨⟨.endInValue, c.place⟩, ⟨.invalidNumber, c.place⟩⟩
    | ([], _ :: _) => .damaged (.same .invalidNumber c.ahead)
    | (digits, rest) =>
      let d : Cursor := ⟨rest, c.place.pastAll digits⟩
      match rest with
      | 'e' :: _ | 'E' :: _ => readExponent negative whole digits d.next
      | _ => .found (.number (scaledNumber negative whole digits false [] d.place d.place)) d
  | 'e' :: _ | 'E' :: _ => readExponent negative whole [] c.next
  | _ => .found (.number (wholeNumber negative (digitsValue whole) c.place)) c

/-- Reads a number from its first digit. -/
def readWhole (negative : Bool) (c : Cursor) : ScalarReading :=
  match c.rest with
  | [] => .damaged ⟨⟨.endInValue, c.place⟩, ⟨.invalidNumber, c.place⟩⟩
  | '0' :: _ =>
    let d := c.next
    match d.rest with
    | x :: _ =>
      if x.isDigit then .damaged (.same .invalidNumber d.ahead) else readFraction negative ['0'] d
    | [] => readFraction negative ['0'] d
  | x :: _ =>
    if x.isDigit then
      let (digits, rest) := spanDigits c.rest
      readFraction negative digits ⟨rest, c.place.pastAll digits⟩
    else .damaged (.same .invalidNumber c.ahead)

/-- Reads a number from its sign or first digit. -/
def readNumber (c : Cursor) : ScalarReading :=
  match c.rest with
  | '-' :: _ => readWhole true c.next
  | _ => readWhole false c

/-! ## Strings -/

/-- The unit that four digits of base sixteen name. -/
def hexUnit? (a b c d : Char) : Option Nat := do
  let a ← hexDigit? a
  let b ← hexDigit? b
  let c ← hexDigit? c
  let d ← hexDigit? d
  pure (((a * 16 + b) * 16 + c) * 16 + d)

/-- The unit named at the start of a text. -/
def unit? : List Char → Option Nat
  | a :: b :: c :: d :: _ => hexUnit? a b c d
  | _ => none

/-- The character that a letter after a backslash stands for. -/
def escape? (c : Char) : Option Char :=
  if c = '"' ∨ c = '\\' ∨ c = '/' then some c
  else if c = 'b' then some '\x08'
  else if c = 'f' then some '\x0c'
  else if c = 'n' then some '\n'
  else if c = 'r' then some '\r'
  else if c = 't' then some '\t'
  else none

/-- Holds of the first units of pairs. -/
def isHighSurrogate (n : Nat) : Bool := 0xD800 ≤ n && n ≤ 0xDBFF

/-- Holds of the second units of pairs. -/
def isLowSurrogate (n : Nat) : Bool := 0xDC00 ≤ n && n ≤ 0xDFFF

/-- The character that a pair of units stands for. -/
def pairChar (high low : Nat) : Char :=
  Char.ofNat (0x10000 + (high - 0xD800) * 1024 + (low - 0xDC00))

/-- The report on four digits of base sixteen that are not there. -/
def missingUnit (rest : List Char) (p : Place) : SyntaxError :=
  if (String.ofList rest).utf8ByteSize < 4 then ⟨.endInString, p.pastAll rest⟩
  else ⟨.invalidEscape, p.pastBytes 4 rest⟩

/-- What stands after a first unit of a pair, at `p`: the second unit, a report, or neither, where
the reading of what follows brings up the report. -/
def secondUnit (rest : List Char) (p : Place) : Option (Except SyntaxError Nat) :=
  match rest with
  | [] => none
  | '\\' :: rest =>
    let p := p.past '\\'
    match rest with
    | [] => none
    | 'u' :: rest =>
      match unit? rest with
      | none => none
      | some n =>
        if isLowSurrogate n then some (.ok n)
        else some (.error ⟨.loneSurrogate, p.pastBytes 5 ('u' :: rest)⟩)
    | x :: _ => some (.error ⟨.unfinishedSurrogate, p.ahead [x]⟩)
  | x :: _ => some (.error ⟨.unfinishedSurrogate, p.ahead [x]⟩)

/-- What has been read of a string: its characters, last one first, and the first report on a
surrogate that has no partner. -/
structure StringSoFar where
  chars : List Char
  report : Option SyntaxError

/-- The string so far with one more character. -/
def StringSoFar.push (s : StringSoFar) (c : Char) : StringSoFar := { s with chars := c :: s.chars }

/-- The string so far with a report, unless there is one already. -/
def StringSoFar.note (s : StringSoFar) (e : SyntaxError) : StringSoFar :=
  { s with report := s.report.or (some e) }

/-- The damage that ends a string. -/
def StringSoFar.damage (s : StringSoFar) (e : SyntaxError) : ScalarReading :=
  .damaged ⟨s.report.getD e, e⟩

/-- The text of a string that is complete. -/
def StringSoFar.text (s : StringSoFar) : Except SyntaxError String :=
  match s.report with
  | none => .ok (String.ofList s.chars.reverse)
  | some e => .error e

/-- Reads a string from behind its opening quote. -/
def readString (s : StringSoFar) (p : Place) : List Char → ScalarReading
  | [] => s.damage ⟨.endInString, p⟩
  | c :: rest =>
    if c = '"' then .found (.string s.text) ⟨rest, p.past '"'⟩
    else if c = '\\' then
      let p := p.past '\\'
      match rest with
      | [] => s.damage ⟨.endInString, p⟩
      | e :: rest =>
        if e = 'u' then
          let p := p.past 'u'
          match rest with
          | d0 :: d1 :: d2 :: d3 :: rest' =>
            match hexUnit? d0 d1 d2 d3 with
            | none => s.damage (missingUnit rest p)
            | some n =>
              let p := p.pastAll [d0, d1, d2, d3]
              if isLowSurrogate n then readString (s.note ⟨.loneSurrogate, p⟩) p rest'
              else if isHighSurrogate n then
                match secondUnit rest' p with
                | none => readString s p rest'
                | some (.error e) => readString (s.note e) p rest'
                | some (.ok low) =>
                  readString (s.push (pairChar n low)) (p.pastAll (rest'.take 6)) (rest'.drop 6)
              else readString (s.push (Char.ofNat n)) p rest'
          | _ => s.damage (missingUnit rest p)
        else
          match escape? e with
          | some x => readString (s.push x) (p.past e) rest
          | none => s.damage ⟨.invalidEscape, p.ahead [e]⟩
    else if c.toNat < 0x20 then
      .damaged ⟨s.report.getD ⟨.controlCharacter, p.ahead [c]⟩, ⟨.controlCharacter, p⟩⟩
    else readString (s.push c) (p.past c) rest
termination_by cs => cs.length

end LoginSettings.Json
