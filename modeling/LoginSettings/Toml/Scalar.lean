import LoginSettings.Calendar
import LoginSettings.Document.Value
import LoginSettings.Text.Hex

/-!
# Scalars of TOML texts

Strings in four forms, numbers, dates and times. Each reader gives the value and what follows it, or
none where the text is not of its form.
-/

namespace LoginSettings.Toml

/-! ## Characters -/

/-- The blanks inside a line. -/
def isBlank (c : Char) : Bool := c = ' ' ∨ c = '\t'

/-- The characters that may stand in comments and strings: all but controls, of which the tab
may. -/
def isInLine (c : Char) : Bool := c = '\t' || (0x20 ≤ c.toNat && c.toNat ≠ 0x7F)

/-- The text without the blanks in front. -/
def skipBlanks (cs : List Char) : List Char := cs.dropWhile isBlank

/-- The text after a line end. -/
def afterLineEnd : List Char → Option (List Char)
  | '\n' :: cs => some cs
  | '\r' :: '\n' :: cs => some cs
  | _ => none

/-- The text after a comment, if one stands here. -/
def skipComment : List Char → List Char
  | '#' :: cs => cs.dropWhile isInLine
  | cs => cs

/-- The text without blanks and line ends in front. -/
def skipBlankLines : List Char → List Char
  | '\n' :: cs => skipBlankLines cs
  | '\r' :: '\n' :: cs => skipBlankLines cs
  | c :: cs => if isBlank c then skipBlankLines cs else c :: cs
  | [] => []

/-! ## Strings -/

/-- The character that a letter after a backslash stands for. -/
def escape? (c : Char) : Option Char :=
  match c with
  | 'b' => some '\x08'
  | 't' => some '\t'
  | 'n' => some '\n'
  | 'f' => some '\x0c'
  | 'r' => some '\r'
  | '"' => some '"'
  | '\\' => some '\\'
  | _ => none

/-- How many digits follow a letter after a backslash that names a code point. -/
def escapeDigits? (c : Char) : Option Nat :=
  if c = 'u' then some 4 else if c = 'U' then some 8 else none

/-- The character that an escape stands for, and the length of the escape behind its backslash. -/
def readEscape : List Char → Option (Char × Nat)
  | [] => none
  | c :: cs =>
    match escapeDigits? c with
    | some n =>
      match Text.hexNumber? n cs with
      | some code => if code.isValidChar then some (Char.ofNat code, n + 1) else none
      | none => none
    | none => (escape? c).map fun x => (x, 1)

/-- Reads a string in double quotes on one line, from behind the opening quote. -/
def readBasic (text : List Char) : List Char → Option (String × List Char)
  | [] => none
  | c :: cs =>
    if c = '"' then some (String.ofList text.reverse, cs)
    else if c = '\\' then
      match readEscape cs with
      | some (x, n) => readBasic (x :: text) (cs.drop n)
      | none => none
    else if isInLine c then readBasic (c :: text) cs
    else none
termination_by cs => cs.length
decreasing_by all_goals (simp +zetaDelta at *; try omega)

/-- Reads a string in single quotes on one line, from behind the opening quote. -/
def readLiteral (text : List Char) : List Char → Option (String × List Char)
  | [] => none
  | c :: cs =>
    if c = '\'' then some (String.ofList text.reverse, cs)
    else if isInLine c then readLiteral (c :: text) cs
    else none

/-- How many of a quote stand at the start of a text, and what follows them. -/
def spanQuotes (quote : Char) (cs : List Char) : Nat × List Char :=
  let (quotes, rest) := cs.span (· = quote)
  (quotes.length, rest)

/-- Ends a string on several lines at a run of quotes, if the run is long enough: the last three
close the string, and at most two before them belong to it. -/
def closeQuotes (quote : Char) (text : List Char) (cs : List Char) : Option (String × List Char) :=
  let (n, _) := spanQuotes quote cs
  let own := min (n - 3) 2
  some (String.ofList (text.reverse ++ List.replicate own quote), cs.drop (own + 3))

/-- Reads a string in double quotes on several lines. A backslash at the end of a line takes the
line end and the blank lines and blanks after it out of the string. -/
def readMultiBasic (text : List Char) : List Char → Option (String × List Char)
  | [] => none
  | c :: cs =>
    if c = '"' then
      if 3 ≤ (spanQuotes '"' (c :: cs)).1 then closeQuotes '"' text (c :: cs)
      else readMultiBasic (c :: text) cs
    else if c = '\\' then
      match afterLineEnd (skipBlanks cs) with
      | some rest =>
        let rest := skipBlankLines rest
        if rest.length ≤ cs.length then readMultiBasic text rest else none
      | none =>
        match readEscape cs with
        | some (x, n) => readMultiBasic (x :: text) (cs.drop n)
        | none => none
    else
      match afterLineEnd (c :: cs) with
      | some rest =>
        if rest.length ≤ cs.length then readMultiBasic ('\n' :: text) rest else none
      | none => if isInLine c then readMultiBasic (c :: text) cs else none
termination_by cs => cs.length
decreasing_by all_goals (simp +zetaDelta at *; try omega)

/-- Reads a string in single quotes on several lines. -/
def readMultiLiteral (text : List Char) : List Char → Option (String × List Char)
  | [] => none
  | c :: cs =>
    if c = '\'' then
      if 3 ≤ (spanQuotes '\'' (c :: cs)).1 then closeQuotes '\'' text (c :: cs)
      else readMultiLiteral (c :: text) cs
    else
      match afterLineEnd (c :: cs) with
      | some rest =>
        if rest.length ≤ cs.length then readMultiLiteral ('\n' :: text) rest else none
      | none => if isInLine c then readMultiLiteral (c :: text) cs else none
termination_by cs => cs.length
decreasing_by all_goals (simp +zetaDelta at *; try omega)

/-- The text without a line end right at its start. -/
def dropLineEnd (cs : List Char) : List Char := (afterLineEnd cs).getD cs

/-- Reads a string on one line. -/
def readLineString : List Char → Option (String × List Char)
  | '"' :: cs => readBasic [] cs
  | '\'' :: cs => readLiteral [] cs
  | _ => none

/-- Reads a string. -/
def readString : List Char → Option (String × List Char)
  | '"' :: '"' :: '"' :: cs => readMultiBasic [] (dropLineEnd cs)
  | '\'' :: '\'' :: '\'' :: cs => readMultiLiteral [] (dropLineEnd cs)
  | cs => readLineString cs

/-! ## Numbers -/

/-- Reads digits between which single underscores may stand; gives the digits. -/
def readDigits (isDigit : Char → Bool) : List Char → Option ((List Char) × List Char)
  | [] => none
  | c :: cs =>
    if !isDigit c then none
    else
      match cs with
      | '_' :: rest => (readDigits isDigit rest).map fun (ds, rest) => (c :: ds, rest)
      | d :: rest =>
        if isDigit d then (readDigits isDigit (d :: rest)).map fun (ds, rest) => (c :: ds, rest)
        else some ([c], d :: rest)
      | [] => some ([c], [])

/-- Whether a text starts with a minus, and what follows a sign. -/
def readSign : List Char → Bool × List Char
  | '+' :: cs => (false, cs)
  | '-' :: cs => (true, cs)
  | cs => (false, cs)

/-- Reads a sign and digits without zeros in front. -/
def readWhole (cs : List Char) : Option ((Bool × List Char) × List Char) :=
  let (negative, cs) := readSign cs
  match cs with
  | '0' :: rest => some ((negative, ['0']), rest)
  | cs => (readDigits Char.isDigit cs).map fun (ds, rest) => ((negative, ds), rest)

/-- The number that digits spell in a base. -/
def valueIn (base : Nat) (digits : List Char) : Nat :=
  digits.foldl (fun n d => base * n + (Text.hexDigit? d).getD 0) 0

/-- The value of an integer, which has to be one of sixty-four bits with sign. -/
def integerValue (n : Int) : Option Value :=
  if -0x8000000000000000 ≤ n ∧ n < 0x8000000000000000 then some (.number (.integer n)) else none

/-- Reads an integer in a base. -/
def readIn (base : Nat) (cs : List Char) : Option (Value × List Char) :=
  match readDigits (fun c => (Text.hexDigit? c).any (· < base)) cs with
  | some (ds, rest) => (integerValue (valueIn base ds)).map fun v => (v, rest)
  | none => none

/-- Reads an integer. -/
def readInteger (cs : List Char) : Option (Value × List Char) :=
  match cs with
  | '0' :: 'x' :: rest => readIn 16 rest
  | '0' :: 'o' :: rest => readIn 8 rest
  | '0' :: 'b' :: rest => readIn 2 rest
  | cs =>
    match readWhole cs with
    | some ((negative, ds), rest) =>
      let n : Int := Decimal.digitsValue ds
      (integerValue (if negative then -n else n)).map fun v => (v, rest)
    | none => none

/-- Reads an exponent behind its mark. -/
def readExponent (cs : List Char) : Option (Int × List Char) :=
  let (negative, cs) := readSign cs
  (readDigits Char.isDigit cs).map fun (ds, rest) =>
    (if negative then -(Decimal.digitsValue ds : Int) else Decimal.digitsValue ds, rest)

/-- Reads an exponent, if its mark stands here. -/
def readOptionalExponent (cs : List Char) : Option (Int × List Char) :=
  match cs with
  | 'e' :: rest => readExponent rest
  | 'E' :: rest => readExponent rest
  | rest => some (0, rest)

/-- The value of a decimal number. One that is too large is an error, and one that is too small
beyond the least number becomes null, as all numbers do that are not finite. -/
def floatValue (negative : Bool) (digits : Nat) (exponent : Int) : Option Value :=
  match Binary64.ofDecimal negative digits exponent with
  | some x => some (.number (.float x))
  | none => if negative then some .null else none

/-- Reads a number with a fraction or an exponent. `some none` stands for a number that has begun as
one but does not go on as one. -/
def readFloat (cs : List Char) : Option (Option (Value × List Char)) :=
  match readWhole cs with
  | none => none
  | some ((negative, whole), rest) =>
    let parts : Option (Option ((List Char × Int) × List Char)) :=
      match rest with
      | '.' :: rest =>
        some do
          let (fraction, rest) ← readDigits Char.isDigit rest
          let (e, rest) ← readOptionalExponent rest
          pure ((fraction, e), rest)
      | 'e' :: rest => some ((readExponent rest).map fun (e, rest) => (([], e), rest))
      | 'E' :: rest => some ((readExponent rest).map fun (e, rest) => (([], e), rest))
      | _ => none
    parts.map fun read => do
      let ((fraction, e), rest) ← read
      let v ← floatValue negative (Decimal.digitsValue (whole ++ fraction)) (e - fraction.length)
      pure (v, rest)

/-- Reads the names of numbers that are not finite; they become null. -/
def readNotFinite (cs : List Char) : Option (Value × List Char) :=
  match (readSign cs).2 with
  | 'i' :: 'n' :: 'f' :: rest => some (.null, rest)
  | 'n' :: 'a' :: 'n' :: rest => some (.null, rest)
  | _ => none

/-! ## Dates and times -/

/-- Reads a number of exactly `n` digits. -/
def readFixed (n : Nat) (cs : List Char) : Option (Nat × List Char) :=
  let ds := cs.take n
  if ds.length = n && ds.all Char.isDigit then some (Decimal.digitsValue ds, cs.drop n) else none

/-- Reads a number of two digits in a range. -/
def readTwo (least most : Nat) (cs : List Char) : Option (Nat × List Char) :=
  (readFixed 2 cs).filter fun (n, _) => least ≤ n && n ≤ most

/-- Reads a character that has to stand here. -/
def expect (c : Char) : List Char → Option (List Char)
  | x :: cs => if x = c then some cs else none
  | [] => none

/-- Reads the rest of a date behind its year and hyphen. -/
def readMonthAndDay (year : Nat) (cs : List Char) : Option (Date × List Char) := do
  let (month, cs) ← readTwo 1 12 cs
  let cs ← expect '-' cs
  let (day, cs) ← readTwo 1 31 cs
  let date : Date := ⟨year, month, day⟩
  if date.isValid then pure (date, cs) else none

/-- Reads the fraction of a second, if there is one; digits beyond the ninth do not count. -/
def readNanoseconds : List Char → Option (Nat × List Char)
  | '.' :: cs =>
    let (ds, rest) := Decimal.spanDigits cs
    if ds.isEmpty then none
    else some (Decimal.digitsValue (ds.take 9) * Nat.pow 10 (9 - (ds.take 9).length), rest)
  | cs => some (0, cs)

/-- Reads the rest of a time behind its hour and colon. -/
def readMinuteAndSecond (hour : Nat) (cs : List Char) : Option (Time × List Char) := do
  let (minute, cs) ← readTwo 0 59 cs
  let cs ← expect ':' cs
  let (second, cs) ← readTwo 0 60 cs
  match cs with
  | '.' :: d :: _ =>
    if d.isDigit then
      let (nanosecond, cs) ← readNanoseconds cs
      pure (⟨hour, minute, second, nanosecond⟩, cs)
    else pure (⟨hour, minute, second, 0⟩, cs)
  | cs => pure (⟨hour, minute, second, 0⟩, cs)

/-- A time as text; zeros at the end of a fraction are left out. -/
def timeText (t : Time) : List Char :=
  let fraction := if t.nanosecond = 0 then []
    else '.' :: ((padded 9 t.nanosecond).reverse.dropWhile (· = '0')).reverse
  t.clockText ++ fraction

/-- Reads the offset of a time from universal time, if there is one; gives its text. -/
def readOffset (cs : List Char) : Option ((List Char) × List Char) :=
  let offset (sign : Char) (cs : List Char) : Option ((List Char) × List Char) := do
    let (hour, cs) ← readTwo 0 23 cs
    let cs ← expect ':' cs
    let (minute, cs) ← readTwo 0 59 cs
    let sign := if hour = 0 ∧ minute = 0 then '+' else sign
    pure (sign :: padded 2 hour ++ ':' :: padded 2 minute, cs)
  match cs with
  | 'Z' :: cs => some (['Z'], cs)
  | 'z' :: cs => some (['Z'], cs)
  | '+' :: cs => offset '+' cs
  | '-' :: cs => offset '-' cs
  | cs => some ([], cs)

/-- Reads the hour of a time and the colon behind it. -/
def readHour (cs : List Char) : Option (Nat × List Char) := do
  let (hour, cs) ← readTwo 0 23 cs
  let cs ← expect ':' cs
  pure (hour, cs)

/-- Reads what may follow a date: a time and an offset. -/
def readTimeOfDate (date : Date) (cs : List Char) : Option (Value × List Char) :=
  let alone : Option (Value × List Char) := some (.string (String.ofList date.text), cs)
  match cs with
  | [] => alone
  | c :: rest =>
    if c = 'T' ∨ c = 't' ∨ c = ' ' then
      match readHour rest with
      | none => alone
      | some (hour, rest) => do
        let (time, rest) ← readMinuteAndSecond hour rest
        let (offset, rest) ← readOffset rest
        pure (.string (String.ofList (date.text ++ 'T' :: timeText time ++ offset)), rest)
    else alone

/-- Reads a date or a time; gives its text. `some none` stands for one that has begun as one but
does not go on as one. -/
def readDateTime (cs : List Char) : Option (Option (Value × List Char)) :=
  match readFixed 4 cs with
  | some (year, '-' :: rest) =>
    some do
      let (date, rest) ← readMonthAndDay year rest
      readTimeOfDate date rest
  | _ =>
    (readHour cs).map fun (hour, rest) => do
      let (time, rest) ← readMinuteAndSecond hour rest
      pure (.string (String.ofList (timeText time)), rest)

/-- Reads a number, a date or a time. -/
def readNumeric (cs : List Char) : Option (Value × List Char) :=
  match readDateTime cs with
  | some read => read
  | none =>
    match readFloat cs with
    | some read => read
    | none => (readNotFinite cs).or (readInteger cs)

end LoginSettings.Toml
