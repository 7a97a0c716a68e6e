import LoginSettings.Text.Place

/-!
# Reading positions

What is left of a text and the place that has been reached. Every reader of the language gives back
a position with less left, which is why reading ends.
-/

namespace LoginSettings.Json

open Text (Place)

/-- What is left of a text, and the place where that starts. -/
structure Cursor where
  rest : List Char
  place : Place

/-- A position after `c`, if reading goes on at all. -/
abbrev After (c : Cursor) := Option { d : Cursor // d.rest.length < c.rest.length }

/-- The white space that may stand between the parts of a text. -/
def isSpace (c : Char) : Bool := c = ' ' ∨ c = '\n' ∨ c = '\t' ∨ c = '\r'

/-- The position after the blanks at the start of a text. -/
def skipFrom : List Char → Place → Cursor
  | [], p => ⟨[], p⟩
  | c :: cs, p => if isSpace c then skipFrom cs (p.past c) else ⟨c :: cs, p⟩

theorem length_skipFrom_le (cs : List Char) (p : Place) :
    (skipFrom cs p).rest.length ≤ cs.length := by
  induction cs generalizing p with
  | nil => simp [skipFrom]
  | cons c cs ih =>
    simp only [skipFrom]
    split
    · exact Nat.le_trans (ih _) (by simp)
    · simp

namespace Cursor

/-- The start of a text. -/
def ofText (text : String) : Cursor := ⟨text.toList, .start⟩

/-- The position after the blanks. -/
def skip (c : Cursor) : Cursor := skipFrom c.rest c.place

theorem length_skip_le (c : Cursor) : c.skip.rest.length ≤ c.rest.length :=
  length_skipFrom_le c.rest c.place

/-- The place of the byte that is looked at. -/
def ahead (c : Cursor) : Place := c.place.ahead c.rest

/-- The position after one more character. -/
def next (c : Cursor) : Cursor :=
  match c.rest with
  | [] => c
  | x :: xs => ⟨xs, c.place.past x⟩

theorem length_next_lt {c : Cursor} (h : c.rest ≠ []) :
    c.next.rest.length < c.rest.length := by
  obtain ⟨rest, place⟩ := c
  cases rest with
  | nil => exact absurd rfl h
  | cons x xs => simp [next]

/-- The position `d` as one after `c`; a position with no less left is none. -/
def onward (c d : Cursor) : After c :=
  if h : d.rest.length < c.rest.length then some ⟨d, h⟩ else none

/-- A position after one that is at `c` or after it, as a position after `c`. -/
def widen {c d : Cursor} (h : d.rest.length ≤ c.rest.length) : After d → After c :=
  Option.map fun e => ⟨e.1, Nat.lt_of_lt_of_le e.2 h⟩

end Cursor
end LoginSettings.Json
