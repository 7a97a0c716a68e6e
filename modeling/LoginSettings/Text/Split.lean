/-!
# Splitting at a character

The parts of a text stand between the separators, and some of them are possibly empty; joining them
with the separator gives the text back.
-/

namespace LoginSettings.Text

/-- The parts of a text between the occurrences of `sep`, never none. -/
def splitAt (sep : Char) : List Char → List (List Char)
  | [] => [[]]
  | c :: cs =>
    match splitAt sep cs with
    | [] => [[c]]
    | part :: parts => if c = sep then [] :: part :: parts else (c :: part) :: parts

/-- There is one part at least. -/
theorem splitAt_ne_nil (sep : Char) (cs : List Char) : splitAt sep cs ≠ [] := by
  cases cs with
  | nil => simp [splitAt]
  | cons c cs =>
    simp only [splitAt]
    split
    · simp
    · split <;> simp

/-- The parts written one after another with `sep` between them. -/
def joinWith (sep : Char) : List (List Char) → List Char
  | [] => []
  | [part] => part
  | part :: parts => part ++ sep :: joinWith sep parts

theorem joinWith_cons_cons (sep : Char) (part next : List Char) (parts : List (List Char)) :
    joinWith sep (part :: next :: parts) = part ++ sep :: joinWith sep (next :: parts) := rfl

/-- The parts of a text, joined again, are the text. -/
theorem joinWith_splitAt (sep : Char) (cs : List Char) : joinWith sep (splitAt sep cs) = cs := by
  induction cs with
  | nil => rfl
  | cons c cs ih =>
    cases h : splitAt sep cs with
    | nil => exact absurd h (splitAt_ne_nil sep cs)
    | cons part parts =>
      rw [h] at ih
      by_cases hc : c = sep
      · simp [splitAt, h, hc, joinWith_cons_cons, ih]
      · cases parts with
        | nil => simpa [splitAt, h, hc, joinWith] using ih
        | cons next parts => simpa [splitAt, h, hc, joinWith_cons_cons] using ih

/-- At a separator a text is split into the parts before and the parts after it. -/
theorem splitAt_append_cons (sep : Char) (before after : List Char) :
    splitAt sep (before ++ sep :: after) = splitAt sep before ++ splitAt sep after := by
  induction before with
  | nil =>
    cases h : splitAt sep after with
    | nil => exact absurd h (splitAt_ne_nil sep after)
    | cons part parts => simp [splitAt, h]
  | cons c before ih =>
    cases h : splitAt sep before with
    | nil => exact absurd h (splitAt_ne_nil sep before)
    | cons part parts =>
      rw [h] at ih
      by_cases hc : c = sep <;> simp [splitAt, h, hc, ih]

/-- The parts of a string between the occurrences of `sep`. -/
def split (sep : Char) (s : String) : List String := (splitAt sep s.toList).map String.ofList

/-- What stands before and after the first `sep`, if there is one. -/
def splitFirst (sep : Char) : List Char → Option (List Char × List Char)
  | [] => none
  | c :: cs =>
    if c = sep then some ([], cs)
    else (splitFirst sep cs).map fun (before, after) => (c :: before, after)

/-- A text is split at its first separator. -/
theorem splitFirst_append_cons {sep : Char} {before : List Char} (h : sep ∉ before)
    (after : List Char) : splitFirst sep (before ++ sep :: after) = some (before, after) := by
  induction before with
  | nil => simp [splitFirst]
  | cons c before ih =>
    simp only [List.mem_cons, not_or] at h
    simp [splitFirst, Ne.symm h.1, ih h.2]

/-- Only a text without a separator is not split. -/
theorem splitFirst_eq_none_iff {sep : Char} {cs : List Char} :
    splitFirst sep cs = none ↔ sep ∉ cs := by
  induction cs with
  | nil => simp [splitFirst]
  | cons c cs ih =>
    by_cases hc : c = sep
    · simp [splitFirst, hc]
    · simp [splitFirst, hc, Ne.symm hc, ih]

/-- The lines of a text; a last line break ends the last line and starts no further one. -/
def lines (cs : List Char) : List (List Char) :=
  let parts := splitAt '\n' cs
  if parts.getLast? = some [] then parts.dropLast else parts

end LoginSettings.Text
