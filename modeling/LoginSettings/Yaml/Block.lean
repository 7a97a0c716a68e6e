import LoginSettings.Decimal.Digits
import LoginSettings.Yaml.Cursor

/-!
# Block scalars

Text that stands on lines of its own, all indented alike. In a literal block the line ends are part
of the text; in a folded block a lone line feed between two lines that do not start with a blank
becomes a space. The header says how the text ends and may say how far it is indented.
-/

namespace LoginSettings.Yaml

/-- What becomes of the line ends at the end of a block: the last one is dropped, one is kept, or
all are. -/
inductive Chomp where
  | strip
  | clip
  | keep
deriving DecidableEq, Repr

/-- The header of a block scalar; `indent` counts the columns further than the surrounding block. -/
structure BlockHeader where
  chomp : Chomp
  indent : Option Nat
deriving DecidableEq, Repr

/-- The choice that a sign makes. -/
def chomp? (c : Char) : Option Chomp :=
  if c = '+' then some .keep else if c = '-' then some .strip else none

/-- The columns that a digit names; zero is none. -/
def indent? (c : Char) : Option Nat :=
  if c.isDigit ∧ c ≠ '0' then some (Decimal.digitValue c) else none

/-- Reads a header behind its indicator: a sign and a digit in any order, either of which may be
missing. -/
def readHeader (c : Cursor) : BlockHeader × Cursor :=
  match c.rest.head?.bind chomp? with
  | some chomp =>
    match c.past.rest.head?.bind indent? with
    | some n => (⟨chomp, some n⟩, c.pastMany 2)
    | none => (⟨chomp, none⟩, c.past)
  | none =>
    match c.rest.head?.bind indent? with
    | some n =>
      match c.past.rest.head?.bind chomp? with
      | some chomp => (⟨chomp, some n⟩, c.pastMany 2)
      | none => (⟨.clip, some n⟩, c.past)
    | none => (⟨.clip, none⟩, c)

/-- Reads blank lines and the indentation of the line after them, up to the column `limit` if there
is one. Gives the line ends, the greatest column that is reached, and the position. No tab may stand
where indentation is expected. -/
def readBlankLines (limit : Option Nat) (ends : List Char) (widest : Nat) (c : Cursor) :
    Option (List Char × Nat × Cursor) :=
  match h : c.rest with
  | [] => some (ends, max widest c.column, c)
  | x :: _ =>
    have : c.past.rest.length < c.rest.length := Cursor.length_past_lt (by simp [h])
    let indenting := limit.all fun n => c.column < n
    if indenting && x = ' ' then readBlankLines limit ends widest c.past
    else if indenting && x = '\t' then none
    else if isBreak x then readBlankLines limit (ends ++ [x]) (max widest c.column) c.past
    else some (ends, max widest c.column, c)
termination_by c.rest.length

theorem length_readBlankLines_le {limit : Option Nat} {ends ends' : List Char} {w w' : Nat}
    {c d : Cursor} (h : readBlankLines limit ends w c = some (ends', w', d)) :
    d.rest.length ≤ c.rest.length := by
  fun_induction readBlankLines limit ends w c with
  | case1 => simp_all
  | case2 _ _ _ _ _ _ hlt _ _ ih => exact Nat.le_trans (ih h) (Nat.le_of_lt hlt)
  | case3 => simp at h
  | case4 _ _ _ _ _ _ hlt _ _ _ _ ih => exact Nat.le_trans (ih h) (Nat.le_of_lt hlt)
  | case5 => simp_all

/-- What has been read of a block: its text, the end of its last line and the blank lines after
it. -/
structure BlockText where
  text : List Char
  lineEnd : List Char
  blankLines : List Char
  /-- Whether the last line starts with a blank. -/
  startsBlank : Bool

/-- The text with all that is certain of it once another line follows. -/
def BlockText.joined (literal : Bool) (b : BlockText) (nextStartsBlank : Bool) : List Char :=
  if !literal && b.lineEnd = ['\n'] && !b.startsBlank && !nextStartsBlank then
    b.text ++ (if b.blankLines.isEmpty then [' '] else b.blankLines)
  else b.text ++ b.lineEnd ++ b.blankLines

/-- The text once the block has ended. -/
def BlockText.chomped (chomp : Chomp) (b : BlockText) : List Char :=
  match chomp with
  | .strip => b.text
  | .clip => b.text ++ b.lineEnd
  | .keep => b.text ++ b.lineEnd ++ b.blankLines

/-- Reads the lines of a block that start at the column `indent`. -/
def readBlockLines (literal : Bool) (indent : Nat) (b : BlockText) (c : Cursor) :
    Option (BlockText × Cursor) :=
  match hrest : c.rest with
  | [] => some (b, c)
  | x :: _ =>
    if c.column ≠ indent then some (b, c)
    else
      let d := c.toLineEnd
      match h : readBlankLines (some indent) [] 0 d.past with
      | none => none
      | some (blankLines, _, e) =>
        have : e.rest.length < c.rest.length :=
          Nat.lt_of_le_of_lt (length_readBlankLines_le h)
            (Cursor.length_past_toLineEnd_lt (by simp [hrest]))
        let text := b.joined literal (isBlank x) ++ (c.run fun _ => true).1
        readBlockLines literal indent ⟨text, d.rest.take 1, blankLines, isBlank x⟩ e
termination_by c.rest.length

/-- Reads a block scalar from behind its indicator, in a block that starts at the column `outer`, if
it is in one. -/
def readBlockScalar (literal : Bool) (outer : Option Nat) (c : Cursor) :
    Option (List Char × Cursor) :=
  let (header, c) := readHeader c
  let c := c.skipBlanks
  let c := if c.rest.head? = some '#' then c.toLineEnd else c
  if !endsLine c.rest then none
  else
    let limit := header.indent.map (outer.getD 0 + ·)
    match readBlankLines limit [] 0 c.past with
    | none => none
    | some (blankLines, widest, d) =>
      let least := match outer with
        | some n => n + 1
        | none => 1
      let indent := limit.getD (max widest least)
      (readBlockLines literal indent ⟨[], [], blankLines, false⟩ d).map fun (b, e) =>
        (b.chomped header.chomp, e)

end LoginSettings.Yaml
