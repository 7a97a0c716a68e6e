import LoginSettings.Decimal.Digits
import LoginSettings.Text.Quoted

/-!
# Events of the log

What happened, as data: a level, the part of the program that reports, a message and named values.
The written form is one line.
-/

namespace LoginSettings.Log

/-- How much an event matters. -/
inductive Level where
  | error
  | warn
  | info
  | debug
  | trace
deriving DecidableEq, Repr

/-- The rank of a level; what matters more has the lower rank. -/
def Level.rank : Level → Nat
  | error => 1
  | warn => 2
  | info => 3
  | debug => 4
  | trace => 5

/-- The name of a level. -/
def Level.name : Level → String
  | error => "error"
  | warn => "warn"
  | info => "info"
  | debug => "debug"
  | trace => "trace"

/-- A value in an event. A text is written as it is or in quotes. -/
inductive Datum where
  | text (value : String)
  | quoted (value : String)
  | bool (value : Bool)
  | count (value : Nat)
deriving DecidableEq, Repr

/-- An event of the log. -/
structure Event where
  level : Level
  target : String
  message : String
  data : List (String × Datum)
deriving DecidableEq, Repr

/-- A value as it stands in a line. -/
def Datum.shown : Datum → String
  | text s => s
  | quoted s => Text.quoted s
  | bool b => if b then "true" else "false"
  | count n => String.ofList (Decimal.natDigits n)

/-- The line for an event: the level in capitals, who reports, the message and the values. -/
def Event.line (e : Event) : String :=
  let level := String.ofList (e.level.name.toList.map Char.toUpper)
  let data := e.data.map fun (name, d) => s!" {name}={d.shown}"
  s!"{level} {e.target}: {e.message}{String.join data}\n"

end LoginSettings.Log
