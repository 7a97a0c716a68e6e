/-!
# Blank characters

White space in the sense of the Unicode property `White_Space`: twenty-five characters, of which six
are ASCII. Trimming cuts them at both ends of a text and nowhere else.
-/

namespace LoginSettings.Text

/-- The characters with the Unicode property `White_Space`. -/
def isBlank (c : Char) : Bool :=
  let n := c.toNat
  (9 ≤ n && n ≤ 13) || n == 0x20 || n == 0x85 || n == 0xA0 || n == 0x1680
    || (0x2000 ≤ n && n ≤ 0x200A) || n == 0x2028 || n == 0x2029 || n == 0x202F || n == 0x205F
    || n == 0x3000

/-- The text without the blanks in front. -/
def trimStart (cs : List Char) : List Char := cs.dropWhile isBlank

/-- The text without the blanks at the end. -/
def trimEnd (cs : List Char) : List Char := (trimStart cs.reverse).reverse

/-- The text without blanks at either end. -/
def trim (cs : List Char) : List Char := trimEnd (trimStart cs)

/-- A trimmed text does not start with a blank. -/
theorem head?_trimStart (cs : List Char) : (trimStart cs).head?.all fun c => !isBlank c := by
  induction cs with
  | nil => rfl
  | cons c cs ih =>
    by_cases h : isBlank c = true
    · simpa [trimStart, h] using ih
    · simp [trimStart, h]

theorem takeWhile_append_trimStart (cs : List Char) :
    cs.takeWhile isBlank ++ trimStart cs = cs := List.takeWhile_append_dropWhile

/-- There is nothing to cut in front of a text that does not start with a blank. -/
theorem trimStart_eq_self {cs : List Char} (h : cs.head?.all fun c => !isBlank c) :
    trimStart cs = cs := by
  cases cs with
  | nil => rfl
  | cons c cs =>
    have hc : isBlank c = false := by simpa using h
    simp [trimStart, hc]

/-- There is nothing to cut after a text that does not end in a blank. -/
theorem trimEnd_eq_self {cs : List Char} (h : cs.getLast?.all fun c => !isBlank c) :
    trimEnd cs = cs := by
  rw [← List.head?_reverse] at h
  rw [trimEnd, trimStart_eq_self h, List.reverse_reverse]

/-- The string without blanks at either end. -/
def trimmed (s : String) : String := String.ofList (trim s.toList)

/-- The string without the blanks at its end. -/
def trimmedEnd (s : String) : String := String.ofList (trimEnd s.toList)

/-- Holds of a string that has nothing but blanks. -/
def isAllBlank (s : String) : Bool := s.toList.all isBlank

end LoginSettings.Text
