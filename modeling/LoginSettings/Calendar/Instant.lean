import LoginSettings.Calendar
import LoginSettings.Text.Blank

/-!
# Instants

Points in time in Coordinated Universal Time. An instant is written as a date, the letter `T`, a
time of day and the letter `Z`. Reading is more lenient: blanks may stand in front of a number and
around the marks, the letter `T` may be small or a blank, and the time may be that of a place with
an offset.
-/

namespace LoginSettings

/-! ## Neighbouring days -/

/-- The day after a date. -/
def Date.next (d : Date) : Date :=
  if d.day < daysInMonth d.year d.month then { d with day := d.day + 1 }
  else if d.month < 12 then ⟨d.year, d.month + 1, 1⟩
  else ⟨d.year + 1, 1, 1⟩

/-- The day before a date. -/
def Date.previous (d : Date) : Date :=
  if 1 < d.day then { d with day := d.day - 1 }
  else if 1 < d.month then ⟨d.year, d.month - 1, daysInMonth d.year (d.month - 1)⟩
  else ⟨d.year - 1, 12, 31⟩

/-- A point in time. -/
structure Instant where
  date : Date
  time : Time
deriving DecidableEq, Repr

/-- Why a text is no instant. -/
inductive InstantFault where
  | ended
  | unexpected
  | trailing
  | outOfRange
  | impossible
deriving DecidableEq, Repr

/-- How a fault is reported. -/
def InstantFault.message : InstantFault → String
  | ended => "premature end of input"
  | unexpected => "input contains invalid characters"
  | trailing => "trailing input"
  | outOfRange => "input is out of range"
  | impossible => "no possible date and time matching input"

namespace Instant

/-! ## Reading -/

/-- A reader of a part of the text. -/
abbrev Reader (α : Type) := StateT (List Char) (Except InstantFault) α

/-- Passes over blanks. -/
def skipBlanks : Reader Unit := modify Text.trimStart

/-- Reads digits as a number: at least one digit and no more than `most`. -/
def number (most : Nat) : Reader Nat := fun cs =>
  match cs with
  | [] => .error .ended
  | c :: _ =>
    if !c.isDigit then .error .unexpected
    else
      let digits := (cs.take most).takeWhile Char.isDigit
      .ok (Decimal.digitsValue digits, cs.drop digits.length)

/-- Reads a number of one or two digits between two bounds, behind blanks. -/
def part (least most : Nat) : Reader Nat := do
  skipBlanks
  let n ← number 2
  if least ≤ n ∧ n ≤ most then pure n else throw .outOfRange

/-- Reads a mark between two parts, behind blanks. -/
def mark (c : Char) : Reader Unit := do
  skipBlanks
  match ← get with
  | [] => throw .ended
  | d :: rest => if d = c then set rest else throw .unexpected

/-- The largest number that a year may have before it is looked at as one. -/
def largestYear : Nat := 0x7FFFFFFF

/-- Reads a year: up to four digits, or a sign and any number of digits. -/
def year : Reader Int := do
  skipBlanks
  let cs ← get
  match cs with
  | '-' :: rest =>
    set rest
    let n ← number rest.length
    if n ≤ largestYear + 1 then pure (-n) else throw .outOfRange
  | '+' :: rest =>
    set rest
    let n ← number rest.length
    if n ≤ largestYear then pure n else throw .outOfRange
  | _ => do
    let n ← number 4
    pure n

/-- Reads a date. Whether the month has such a day is not looked at here. -/
def readDate : Reader Date := do
  let y ← year
  mark '-'
  let month ← part 1 12
  mark '-'
  let day ← part 1 31
  pure ⟨y, month, day⟩

/-- Reads a fraction of a second, in nanoseconds; digits behind the ninth do not count. -/
def fraction : Reader Nat := do
  match ← get with
  | '.' :: rest =>
    set rest
    let n ← number 9
    let digits := rest.length - (← get).length
    modify fun cs => cs.dropWhile Char.isDigit
    pure (n * Nat.pow 10 (9 - digits))
  | _ => pure 0

/-- Reads a time of day, which may be in a leap second. -/
def readTime : Reader Time := do
  let hour ← part 0 23
  mark ':'
  let minute ← part 0 59
  mark ':'
  let second ← part 0 60
  let nanosecond ← fraction
  pure ⟨hour, minute, second, nanosecond⟩

/-- Reads two digits as a number; the first of them has to be below a bound. -/
def twoDigits (firstBelow : Nat) : Reader Nat := fun cs =>
  match cs with
  | a :: b :: rest =>
    if a.isDigit && b.isDigit then
      if Decimal.digitsValue [a] < firstBelow then .ok (Decimal.digitsValue [a, b], rest)
      else .error .outOfRange
    else .error .unexpected
  | [c] => .error (if c.toNat < 0x80 then .ended else .unexpected)
  | [] => .error .ended

/-- Reads hours and minutes, between which colons and blanks may stand, as minutes. -/
def minutes : Reader Int := do
  let hours ← twoDigits 10
  modify fun cs => cs.dropWhile fun c => c = ':' || Text.isBlank c
  let rest ← twoDigits 6
  pure (60 * hours + rest)

/-- Reads the offset from Coordinated Universal Time in minutes. -/
def offset : Reader Int := do
  skipBlanks
  match ← get with
  | [] => throw .ended
  | a :: rest =>
    match a, rest with
    | u, t :: c :: after =>
      if [u, t, c].map Char.toLower = ['u', 't', 'c'] then
        set after
        return 0
    | _, _ => pure ()
    if a = 'Z' ∨ a = 'z' then
      set rest
      pure 0
    else
      set rest
      if a = '+' then minutes
      else if a = '-' ∨ a = '\u2212' then do
        let m ← minutes
        pure (-m)
      else throw .unexpected

/-- Reads the mark between a date and a time. -/
def betweenDateAndTime : Reader Unit := do
  match ← get with
  | [] => throw .ended
  | c :: rest => if c = 't' ∨ c = 'T' ∨ c = ' ' then set rest else throw .unexpected

/-- Reads a date, a time of day and an offset, and nothing else. -/
def readParts : Reader (Date × Time × Int) := do
  let date ← readDate
  betweenDateAndTime
  let time ← readTime
  let offset ← offset
  skipBlanks
  if (← get).isEmpty then pure (date, time, offset) else throw .trailing

/-! ## Instants -/

/-- The years in which instants may be. -/
def isKnownYear (year : Int) : Bool := -262143 ≤ year && year ≤ 262142

/-- How many minutes a day has. -/
def minutesInDay : Int := 24 * 60

/-- The instant at which a place with an offset has a date and a time of day. -/
def ofLocal (date : Date) (time : Time) (offset : Int) : Except InstantFault Instant :=
  if !(isKnownYear date.year && date.isValid) then .error .outOfRange
  else if !(-minutesInDay < offset && offset < minutesInDay) then .error .outOfRange
  else
    let minute := 60 * (time.hour : Int) + time.minute - offset
    let date := if minute < 0 then date.previous
      else if minutesInDay ≤ minute then date.next
      else date
    let minute := (minute % minutesInDay).toNat
    if isKnownYear date.year then
      .ok ⟨date, { time with hour := minute / 60, minute := minute % 60 }⟩
    else .error .impossible

/-- The instant that a text stands for. -/
def ofText (text : String) : Except InstantFault Instant := do
  let ((date, time, offset), _) ← readParts text.toList
  ofLocal date time offset

/-! ## Writing -/

/-- A fraction of a second in three, six or nine digits, as few as show it; none if there is
none. -/
def fractionText (nanosecond : Nat) : List Char :=
  if nanosecond = 0 then []
  else if nanosecond % 1000000 = 0 then '.' :: padded 3 (nanosecond / 1000000)
  else if nanosecond % 1000 = 0 then '.' :: padded 6 (nanosecond / 1000)
  else '.' :: padded 9 nanosecond

/-- The text of an instant. -/
def text (i : Instant) : String :=
  String.ofList
    (i.date.text ++ 'T' :: i.time.clockText ++ fractionText i.time.nanosecond ++ ['Z'])

end Instant
end LoginSettings
