/-!
# Places in a text

A place is named by its line and by the number of bytes read on that line, so a line break leads to
column 0 of the next line. Reports point either at what has been read or one byte further, at the
byte that is looked at.
-/

namespace LoginSettings.Text

/-- A place in a text: lines count from 1, columns count bytes from 0. -/
structure Place where
  line : Nat
  column : Nat
deriving DecidableEq, Repr

namespace Place

/-- The place where a text starts. -/
def start : Place := ⟨1, 0⟩

/-- The place after one more character. -/
def past (p : Place) (c : Char) : Place :=
  if c = '\n' then ⟨p.line + 1, 0⟩ else ⟨p.line, p.column + c.utf8Size⟩

/-- The place after some more characters. -/
def pastAll (p : Place) (cs : List Char) : Place := cs.foldl past p

/-- The place of the byte that is looked at: one byte on, or the end of the text. -/
def ahead (p : Place) : List Char → Place
  | [] => p
  | c :: _ => if c = '\n' then ⟨p.line + 1, 0⟩ else ⟨p.line, p.column + 1⟩

/-- The place after the next `n` bytes, which may end inside a character. -/
def pastBytes (p : Place) : Nat → List Char → Place
  | 0, _ => p
  | _ + 1, [] => p
  | n + 1, c :: cs =>
    if c.utf8Size ≤ n + 1 then pastBytes (p.past c) (n + 1 - c.utf8Size) cs
    else ⟨p.line, p.column + n + 1⟩
termination_by _ cs => cs.length

/-- How a report names the place. -/
def describe (p : Place) : String := s!" at line {p.line} column {p.column}"

end Place
end LoginSettings.Text
