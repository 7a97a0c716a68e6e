import LoginSettings.Json.Printer
import LoginSettings.Json.Scalar
import Mathlib.Data.List.TakeDrop
import Mathlib.Tactic.SplitIfs

/-!
# Scalars read back

Literals, strings and whole numbers are read from what is written for them, whatever text stands
behind. A number goes on as far as it can, so behind one there may stand nothing that goes on with
it.

* `readLiteral_append`, `readString_stringText`, `readNumber_intDigits` — the three kinds of scalars
-/

namespace LoginSettings.Json

open Text (Place)

/-! ## Literals -/

/-- A literal is read where its text stands. -/
theorem readLiteral_append (scalar : Scalar) (text rest : List Char) (p : Place) :
    readLiteral scalar text ⟨text ++ rest, p⟩ = .found scalar ⟨rest, p.pastAll text⟩ := by
  induction text generalizing p with
  | nil => rfl
  | cons x text ih =>
    rw [readLiteral]
    simp only [List.cons_append, if_true]
    exact ih (p.past x)

/-! ## Strings -/

section

variable (s : StringSoFar) (p : Place) (rest : List Char)

/-- An escaped character is read as what its letter stands for. -/
theorem readString_escape {e x : Char} (hu : e ≠ 'u') (hx : escape? e = some x) :
    readString s p ('\\' :: e :: rest) = readString (s.push x) ((p.past '\\').past e) rest := by
  rw [readString]
  simp [hu, hx]

/-- Two digits of base sixteen behind two zeros name a control. -/
theorem hexUnit?_control : ∀ n < 0x20,
    hexUnit? '0' '0' (Nat.digitChar (n / 16)) (Nat.digitChar (n % 16)) = some n := by
  decide

/-- A control character is read from its number. -/
theorem readString_control {c : Char} (hc : c.toNat < 0x20) :
    ∃ p', readString s p ('\\' :: 'u' :: '0' :: '0' :: Nat.digitChar (c.toNat / 16)
      :: Nat.digitChar (c.toNat % 16) :: rest) = readString (s.push c) p' rest := by
  have hlow : isLowSurrogate c.toNat = false := by
    simp [isLowSurrogate]
    omega
  have hhigh : isHighSurrogate c.toNat = false := by
    simp [isHighSurrogate]
    omega
  refine ⟨((p.past '\\').past 'u').pastAll
    ['0', '0', Nat.digitChar (c.toNat / 16), Nat.digitChar (c.toNat % 16)], ?_⟩
  rw [readString]
  simp [hexUnit?_control _ hc, hlow, hhigh, Char.ofNat_toNat]

/-- A character is read from what is written for it. -/
theorem readString_stringChar (c : Char) :
    ∃ p', readString s p (stringChar c ++ rest) = readString (s.push c) p' rest := by
  unfold stringChar
  split_ifs with hquote hbackslash _ _ _ _ _ hcontrol
  -- Seven characters have an escape of one letter.
  iterate 7
    · subst c
      exact ⟨_, readString_escape s p rest (by decide) rfl⟩
  · exact readString_control s p rest hcontrol
  · refine ⟨p.past c, ?_⟩
    rw [List.singleton_append, readString, if_neg hquote, if_neg hbackslash, if_neg hcontrol]

/-- The characters of a string are read back up to the closing quote. -/
theorem readString_stringChars (cs : List Char) :
    ∃ p', readString s p (cs.flatMap stringChar ++ '"' :: rest)
      = .found (.string { s with chars := cs.reverse ++ s.chars }.text) ⟨rest, p'⟩ := by
  induction cs generalizing s p with
  | nil =>
    refine ⟨p.past '"', ?_⟩
    rw [List.flatMap_nil, List.nil_append, readString, if_pos rfl]
    rfl
  | cons c cs ih =>
    obtain ⟨p', hc⟩ := readString_stringChar s p (cs.flatMap stringChar ++ '"' :: rest) c
    obtain ⟨p'', hcs⟩ := ih (s.push c) p'
    refine ⟨p'', ?_⟩
    rw [List.flatMap_cons, List.append_assoc, hc, hcs]
    simp [StringSoFar.push]

end

/-- **A string is read from behind its opening quote.** -/
theorem readString_stringText (text : String) (p : Place) (rest : List Char) :
    ∃ p', readString ⟨[], none⟩ p ((stringText text).tail ++ rest)
      = .found (.string (.ok text)) ⟨rest, p'⟩ := by
  obtain ⟨p', hread⟩ := readString_stringChars ⟨[], none⟩ p rest text.toList
  refine ⟨p', ?_⟩
  simpa [stringText, StringSoFar.text] using hread

/-! ## Whole numbers -/

/-- Holds of what may stand behind a number: nothing that goes on with it. -/
def EndsNumber (rest : List Char) : Prop :=
  ∀ c ∈ rest.head?, c.isDigit = false ∧ c ≠ '.' ∧ c ≠ 'e' ∧ c ≠ 'E'

/-- Digits are read up to where the number ends. -/
theorem spanDigits_append {digits rest : List Char} (hdigits : ∀ d ∈ digits, d.isDigit = true)
    (hrest : EndsNumber rest) : Decimal.spanDigits (digits ++ rest) = (digits, rest) := by
  have hnone : rest.takeWhile Char.isDigit = [] ∧ rest.dropWhile Char.isDigit = rest := by
    cases rest with
    | nil => exact ⟨rfl, rfl⟩
    | cons c rest =>
      have hc : c.isDigit = false := (hrest c rfl).1
      simp [hc]
  rw [Decimal.spanDigits, List.span_eq_takeWhile_dropWhile, List.takeWhile_append_of_pos hdigits,
    List.dropWhile_append_of_pos hdigits, hnone.1, hnone.2, List.append_nil]

theorem digitsValue_natDigits (n : Nat) : Decimal.digitsValue (Decimal.natDigits n) = n :=
  Nat.ofDigitChars_toDigits (by decide) (by decide)

theorem isDigit_of_mem_natDigits {n : Nat} {d : Char} (h : d ∈ Decimal.natDigits n) :
    d.isDigit = true :=
  Nat.isDigit_of_mem_toDigits (by decide) (by decide) h

/-- No number but zero starts with a zero. -/
theorem head?_natDigits {n : Nat} (h : 0 < n) : (Decimal.natDigits n).head? ≠ some '0' := by
  induction n using Nat.strongRecOn with
  | ind n ih =>
    by_cases hsmall : n < 10
    · have hdigits : Decimal.natDigits n = [Nat.digitChar n] := Nat.toDigits_of_lt_base hsmall
      have hfirst : ∀ m < 10, 0 < m → Nat.digitChar m ≠ '0' := by decide
      rw [hdigits]
      simpa using hfirst n hsmall h
    · have hdigits : Decimal.natDigits n
          = Decimal.natDigits (n / 10) ++ Decimal.natDigits (n % 10) := by
        rw [Decimal.natDigits, Decimal.natDigits, Decimal.natDigits,
          Nat.toDigits_append_toDigits (by decide) (by omega) (by omega), Nat.div_add_mod]
      have hfirst := ih (n / 10) (by omega) (by omega)
      cases hfront : Decimal.natDigits (n / 10) with
      | nil => exact absurd hfront Nat.toDigits_ne_nil
      | cons d ds =>
        rw [hfront] at hfirst
        rw [hdigits, hfront]
        exact hfirst

/-- A number that ends after its digits has no fraction. -/
theorem readFraction_of_endsNumber (negative : Bool) (whole : List Char) {rest : List Char}
    (hrest : EndsNumber rest) (p : Place) :
    readFraction negative whole ⟨rest, p⟩
      = .found (.number (wholeNumber negative (Decimal.digitsValue whole) p)) ⟨rest, p⟩ := by
  cases rest with
  | nil => rfl
  | cons c rest =>
    obtain ⟨-, hpoint, hsmall, hlarge⟩ := hrest c rfl
    unfold readFraction
    split
    · simp_all
    · simp_all
    · simp_all
    · rfl

/-- The digits of a natural number are read as that number. -/
theorem readWhole_natDigits (negative : Bool) (n : Nat) {rest : List Char}
    (hrest : EndsNumber rest) (p : Place) :
    ∃ p', readWhole negative ⟨Decimal.natDigits n ++ rest, p⟩
      = .found (.number (wholeNumber negative n p')) ⟨rest, p'⟩ := by
  refine ⟨p.pastAll (Decimal.natDigits n), ?_⟩
  have hfraction : readFraction negative (Decimal.natDigits n)
      ⟨rest, p.pastAll (Decimal.natDigits n)⟩
      = .found (.number (wholeNumber negative n (p.pastAll (Decimal.natDigits n))))
        ⟨rest, p.pastAll (Decimal.natDigits n)⟩ := by
    rw [readFraction_of_endsNumber negative _ hrest, digitsValue_natDigits]
  rw [← hfraction]
  rcases Nat.eq_zero_or_pos n with rfl | hpos
  · -- Behind a zero that stands in front there may be no digit.
    show readWhole negative ⟨'0' :: rest, p⟩ = readFraction negative ['0'] ⟨rest, p.past '0'⟩
    cases rest with
    | nil => rfl
    | cons c rest =>
      have hc : c.isDigit = false := (hrest c rfl).1
      simp [readWhole, Cursor.next, hc]
  · have hspan := spanDigits_append (fun d => isDigit_of_mem_natDigits (n := n) (d := d)) hrest
    have hfirst := head?_natDigits hpos
    cases hdigits : Decimal.natDigits n with
    | nil => exact absurd hdigits Nat.toDigits_ne_nil
    | cons d ds =>
      have hd : d.isDigit = true := isDigit_of_mem_natDigits (n := n) (by simp [hdigits])
      have hzero : d ≠ '0' := by simpa [hdigits] using hfirst
      rw [hdigits] at hspan
      simp only [readWhole, List.cons_append] at hspan ⊢
      split
      · simp_all
      · simp_all

/-- An integer in range is read from its sign and its digits. -/
theorem wholeNumber_natAbs {n : Int} (hleast : leastInteger ≤ n) (hgreatest : n ≤ greatestInteger)
    (p : Place) : wholeNumber (decide (n < 0)) n.natAbs p = .ok (.integer n) := by
  have hvalue : (if decide (n < 0) then -(n.natAbs : Int) else n.natAbs) = n := by
    simp only [decide_eq_true_eq]
    omega
  unfold wholeNumber
  simp only [hvalue]
  refine if_neg ?_
  rintro (⟨hneg, hzero⟩ | hlow | hhigh)
  · rw [decide_eq_true_eq] at hneg
    omega
  · omega
  · omega

/-- **A whole number is read as far as it goes.** -/
theorem readNumber_intDigits {n : Int} (hleast : leastInteger ≤ n) (hgreatest : n ≤ greatestInteger)
    {rest : List Char} (hrest : EndsNumber rest) (p : Place) :
    ∃ p', readNumber ⟨Decimal.intDigits n ++ rest, p⟩
      = .found (.number (.ok (.integer n))) ⟨rest, p'⟩ := by
  unfold Decimal.intDigits
  split
  · rename_i hneg
    obtain ⟨p', hread⟩ := readWhole_natDigits true n.natAbs hrest (p.past '-')
    have hwhole := wholeNumber_natAbs hleast hgreatest p'
    rw [decide_eq_true hneg] at hwhole
    rw [hwhole] at hread
    exact ⟨p', hread⟩
  · rename_i hneg
    obtain ⟨p', hread⟩ := readWhole_natDigits false n.natAbs hrest p
    refine ⟨p', ?_⟩
    have hwhole := wholeNumber_natAbs hleast hgreatest p'
    rw [decide_eq_false hneg] at hwhole
    rw [← hwhole, ← hread]
    cases hdigits : Decimal.natDigits n.natAbs with
    | nil => exact absurd hdigits Nat.toDigits_ne_nil
    | cons d ds =>
      have hd : d.isDigit = true := isDigit_of_mem_natDigits (n := n.natAbs) (by simp [hdigits])
      unfold readNumber
      split
      · simp_all
      · rfl

end LoginSettings.Json
