import LoginSettings.Text.Hex
import LoginSettings.Yaml.Cursor

/-!
# Quoted scalars

Text in single quotes, where a quote is written twice and nothing else is special, and in double
quotes, where a backslash starts an escape. Line ends inside either are folded.
-/

namespace LoginSettings.Yaml

/-- The two kinds of quotes. -/
inductive Quote where
  | single
  | double
deriving DecidableEq, Repr

/-- The quote itself. -/
def Quote.char : Quote → Char
  | single => '\''
  | double => '"'

/-- The character that a letter after a backslash stands for. -/
def escape? (c : Char) : Option Char :=
  match c with
  | '0' => some '\x00'
  | 'a' => some '\x07'
  | 'b' => some '\x08'
  | 't' | '\t' => some '\t'
  | 'n' => some '\n'
  | 'v' => some '\x0b'
  | 'f' => some '\x0c'
  | 'r' => some '\r'
  | 'e' => some '\x1b'
  | ' ' => some ' '
  | '"' => some '"'
  | '/' => some '/'
  | '\\' => some '\\'
  | 'N' => some '\u0085'
  | '_' => some '\u00a0'
  | 'L' => some '\u2028'
  | 'P' => some '\u2029'
  | _ => none

/-- How many digits follow a letter after a backslash that names a code point. -/
def escapeDigits? (c : Char) : Option Nat :=
  match c with
  | 'x' => some 2
  | 'u' => some 4
  | 'U' => some 8
  | _ => none

/-- The character with a code point. -/
def charOf? (n : Nat) : Option Char := if n.isValidChar then some (Char.ofNat n) else none

/-- Reads what follows a backslash: the character it stands for, and how many characters are
read. -/
def readEscape : List Char → Option (Char × Nat)
  | [] => none
  | c :: cs =>
    match escapeDigits? c with
    | some n => ((Text.hexNumber? n cs).bind charOf?).map fun x => (x, 1 + n)
    | none => (escape? c).map fun x => (x, 1)

/-- A run of characters between quotes, up to a blank, a line end or the closing quote. If `joined`,
it ends behind an escaped line end. -/
structure QuotedRun where
  text : List Char
  joined : Bool
  after : Cursor

/-- The run with one more character in front. -/
def QuotedRun.prepend (x : Char) (r : QuotedRun) : QuotedRun := { r with text := x :: r.text }

/-- Reads a run of characters between quotes. -/
def readQuotedRun (q : Quote) (c : Cursor) : Option QuotedRun :=
  match h : c.rest with
  | [] => some ⟨[], false, c⟩
  | x :: xs =>
    have hpast : ∀ n, (c.pastMany (n + 1)).rest.length < c.rest.length :=
      Cursor.length_pastMany_lt (by simp [h])
    if isBlank x || isBreak x then some ⟨[], false, c⟩
    else if x = q.char then
      if q = .single ∧ xs.head? = some '\'' then
        (readQuotedRun q (c.pastMany 2)).map (.prepend '\'')
      else some ⟨[], false, c⟩
    else if q = .double ∧ x = '\\' then
      if xs.head?.any isBreak then some ⟨[], true, c.pastMany 2⟩
      else
        match readEscape xs with
        | none => none
        | some (y, n) => (readQuotedRun q (c.pastMany (n + 1))).map (.prepend y)
    else (readQuotedRun q (c.pastMany 1)).map (.prepend x)
termination_by c.rest.length
decreasing_by all_goals exact hpast _

/-- Reads text from behind its opening quote, `text` being what has been read of it. -/
def readQuoted (q : Quote) (text : List Char) (c : Cursor) : Option (List Char × Cursor) :=
  if c.atDocumentMarker then none
  else
    match readQuotedRun q c with
    | none => none
    | some ⟨run, joined, d⟩ =>
      if d.rest.head? = some q.char then some (text ++ run, d.past)
      else
        match readGap 0 (if joined then .broken none [] else .blanks []) d with
        | none => none
        | some (gap, e) =>
          if e.rest.length < c.rest.length then readQuoted q (text ++ run ++ gap.text) e else none
termination_by c.rest.length

end LoginSettings.Yaml
