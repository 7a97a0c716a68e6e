/-!
# Positions in YAML texts

A YAML text is read as lines: line ends of all kinds count as line feeds before reading starts, and
the two Unicode separators of lines and paragraphs are line ends that stay what they are. A position
knows its column, because indentation is structure, and its line, because some things must stay on
one.
-/

namespace LoginSettings.Yaml

/-! ## Characters -/

/-- The characters that a text may have. -/
def isAllowed (c : Char) : Bool :=
  let n := c.toNat
  n = 9 || n = 0xA || n = 0xD || (0x20 ≤ n && n ≤ 0x7E) || n = 0x85 || (0xA0 ≤ n && n ≤ 0xD7FF)
    || (0xE000 ≤ n && n ≤ 0xFFFD) || 0x10000 ≤ n

/-- The text with a line feed for a carriage return, for both together and for a next line mark. -/
def withLineFeeds : List Char → List Char
  | [] => []
  | '\r' :: '\n' :: cs => '\n' :: withLineFeeds cs
  | '\r' :: cs => '\n' :: withLineFeeds cs
  | '\u0085' :: cs => '\n' :: withLineFeeds cs
  | c :: cs => c :: withLineFeeds cs

/-- Holds of line ends. -/
def isBreak (c : Char) : Bool := c = '\n' ∨ c = '\u2028' ∨ c = '\u2029'

/-- Holds of the blanks inside a line. -/
def isBlank (c : Char) : Bool := c = ' ' ∨ c = '\t'

/-- Holds of the characters of names: letters, digits, underscore and hyphen. -/
def isNameChar (c : Char) : Bool := c.isAlphanum ∨ c = '_' ∨ c = '-'

/-- Holds where a word ends: before a blank, a line end or the end of the text. -/
def endsWord : List Char → Bool
  | [] => true
  | c :: _ => isBlank c || isBreak c

/-- Holds where a line ends. -/
def endsLine : List Char → Bool
  | [] => true
  | c :: _ => isBreak c

/-! ## Positions -/

/-- What is left of a text, and the line and column where that starts, both from 0. -/
structure Cursor where
  rest : List Char
  line : Nat
  column : Nat

namespace Cursor

/-- The position after one more character. -/
def past (c : Cursor) : Cursor :=
  match c.rest with
  | [] => c
  | x :: xs => if isBreak x then ⟨xs, c.line + 1, 0⟩ else ⟨xs, c.line, c.column + 1⟩

theorem length_past_lt {c : Cursor} (h : c.rest ≠ []) : c.past.rest.length < c.rest.length := by
  obtain ⟨rest, line, column⟩ := c
  cases rest with
  | nil => exact absurd rfl h
  | cons x xs =>
    simp only [past]
    split <;> simp

/-- The position after `n` more characters. -/
def pastMany (c : Cursor) : Nat → Cursor
  | 0 => c
  | n + 1 => c.past.pastMany n

theorem length_past_le (c : Cursor) : c.past.rest.length ≤ c.rest.length := by
  by_cases h : c.rest = []
  · simp [past, h]
  · exact Nat.le_of_lt (length_past_lt h)

theorem length_pastMany_le (c : Cursor) (n : Nat) : (c.pastMany n).rest.length ≤ c.rest.length := by
  induction n generalizing c with
  | zero => exact Nat.le_refl _
  | succ n ih => exact Nat.le_trans (ih c.past) c.length_past_le

theorem length_pastMany_lt {c : Cursor} (h : c.rest ≠ []) (n : Nat) :
    (c.pastMany (n + 1)).rest.length < c.rest.length :=
  Nat.lt_of_le_of_lt (c.past.length_pastMany_le n) (length_past_lt h)

/-- The longest run of characters that satisfy a condition and do not end the line, and the position
after it. -/
def run (p : Char → Bool) (c : Cursor) : List Char × Cursor :=
  let taken := c.rest.takeWhile fun x => p x && !isBreak x
  (taken, ⟨c.rest.drop taken.length, c.line, c.column + taken.length⟩)

/-- A run and what is left after it are all that there was. -/
theorem length_run (p : Char → Bool) (c : Cursor) :
    (c.run p).1.length + (c.run p).2.rest.length = c.rest.length := by
  have h := congrArg List.length (List.takeWhile_append_dropWhile (p := fun x => p x && !isBreak x)
    (l := c.rest))
  simp only [List.length_append] at h
  simp only [run, List.length_drop]
  omega

/-- The position after the blanks on this line. -/
def skipBlanks (c : Cursor) : Cursor := (c.run isBlank).2

/-- The position at the end of this line. -/
def toLineEnd (c : Cursor) : Cursor := (c.run fun _ => true).2

theorem length_toLineEnd_le (c : Cursor) : c.toLineEnd.rest.length ≤ c.rest.length := by
  have := c.length_run fun _ => true
  simp only [toLineEnd]
  omega

theorem length_past_toLineEnd_lt {c : Cursor} (h : c.rest ≠ []) :
    c.toLineEnd.past.rest.length < c.rest.length := by
  by_cases hd : c.toLineEnd.rest = []
  · have : 0 < c.rest.length := List.length_pos_iff.2 h
    simpa [past, hd] using this
  · exact Nat.lt_of_lt_of_le (length_past_lt hd) c.length_toLineEnd_le

/-- Holds at the start of a line that begins with three of `mark`, as a word. -/
def atMarker (mark : Char) (c : Cursor) : Bool :=
  c.column = 0 && c.rest.take 3 = [mark, mark, mark] && endsWord (c.rest.drop 3)

/-- Holds at the markers between documents. -/
def atDocumentMarker (c : Cursor) : Bool := c.atMarker '-' || c.atMarker '.'

end Cursor

/-! ## Gaps -/

/-- What separates two words of a scalar: blanks on one line, or line ends. Blanks next to line ends
are no part of the text. An escaped line end leaves nothing where it stands. -/
inductive Gap where
  | blanks (chars : List Char)
  | broken (first : Option Char) (more : List Char)

namespace Gap

/-- Holds of gaps that come to another line. -/
def isBroken : Gap → Bool
  | blanks _ => false
  | broken _ _ => true

/-- The gap with one more blank. -/
def blank (x : Char) : Gap → Gap
  | blanks chars => blanks (chars ++ [x])
  | g => g

/-- The gap with one more line end. -/
def lineEnd (x : Char) : Gap → Gap
  | blanks _ => broken (some x) []
  | broken first more => broken first (more ++ [x])

/-- What the gap stands for in the text: a lone line feed becomes a space, of several the first one
is dropped. -/
def text : Gap → List Char
  | blanks chars => chars
  | broken none more => more
  | broken (some first) more =>
    if first = '\n' then (if more.isEmpty then [' '] else more) else first :: more

end Gap

/-- Reads a gap. No tab may stand left of the column `least` on another line. -/
def readGap (least : Nat) (g : Gap) (c : Cursor) : Option (Gap × Cursor) :=
  match h : c.rest with
  | [] => some (g, c)
  | x :: _ =>
    have : c.past.rest.length < c.rest.length := Cursor.length_past_lt (by simp [h])
    if isBreak x then readGap least (g.lineEnd x) c.past
    else if isBlank x then
      if g.isBroken && x = '\t' && c.column < least then none else readGap least (g.blank x) c.past
    else some (g, c)
termination_by c.rest.length

theorem length_readGap_le {least : Nat} {g g' : Gap} {c d : Cursor}
    (h : readGap least g c = some (g', d)) : d.rest.length ≤ c.rest.length := by
  fun_induction readGap least g c with
  | case1 => simp_all
  | case2 _ _ _ _ _ hlt _ ih => exact Nat.le_trans (ih h) (Nat.le_of_lt hlt)
  | case3 => simp at h
  | case4 _ _ _ _ _ hlt _ _ _ ih => exact Nat.le_trans (ih h) (Nat.le_of_lt hlt)
  | case5 => simp_all

end LoginSettings.Yaml
