import LoginSettings.Proofs.Json.Scalars
import LoginSettings.Proofs.Yaml.Plain
import LoginSettings.Yaml.Resolution

/-!
# Whole numbers and keywords without quotes

The texts of null, of truth values and of whole numbers can stand without quotes, and mean there
what they were written for.
-/

namespace LoginSettings.Yaml

variable {c : Char} {cs text : List Char} {n : Int}

/-! ## Numbers that digits spell -/

theorem hexDigit?_of_isDigit (h : c.isDigit = true) :
    Text.hexDigit? c = some (Decimal.digitValue c) ∧ Decimal.digitValue c < 10 := by
  simp only [Char.isDigit, Bool.and_eq_true, decide_eq_true_eq, ge_iff_le] at h
  have hlt : Decimal.digitValue c < 10 := by
    have : c.val.toNat ≤ 57 := h.2
    show c.val.toNat - 48 < 10
    omega
  exact ⟨if_pos h, hlt⟩

/-- Natural numbers are written in digits, and in one of them at least. -/
theorem exists_natDigits (n : Nat) :
    ∃ d ds, Decimal.natDigits n = d :: ds ∧ d.isDigit = true ∧ ∀ c ∈ ds, c.isDigit = true := by
  obtain ⟨d, ds, hcons⟩ : ∃ d ds, Decimal.natDigits n = d :: ds :=
    List.exists_cons_of_ne_nil Nat.toDigits_ne_nil
  have hdigits : ∀ c ∈ d :: ds, c.isDigit = true := fun c hc =>
    Json.isDigit_of_mem_natDigits (n := n) (hcons ▸ hc)
  exact ⟨d, ds, hcons, List.forall_mem_cons.1 hdigits⟩

/-- The digits of a natural number are read as that number. -/
theorem digitsIn?_natDigits (n : Nat) : digitsIn? 10 (Decimal.natDigits n) = some n := by
  have hfold : ∀ (cs : List Char) (m : Nat), (∀ c ∈ cs, c.isDigit = true) →
      cs.foldlM (fun n c => (digitIn? 10 c).map fun d => 10 * n + d) m
        = some (cs.foldl (fun n d => 10 * n + Decimal.digitValue d) m) := by
    intro cs
    induction cs with
    | nil => exact fun m _ => rfl
    | cons c cs ih =>
      intro m h
      obtain ⟨hc, hcs⟩ := List.forall_mem_cons.1 h
      obtain ⟨hvalue, hlt⟩ := hexDigit?_of_isDigit hc
      have hdigit : digitIn? 10 c = some (Decimal.digitValue c) := by
        rw [digitIn?, hvalue, Option.filter_some, if_pos (decide_eq_true hlt)]
      rw [List.foldlM_cons, hdigit]
      exact ih _ hcs
  rw [digitsIn?, if_neg (by simp [Decimal.natDigits, Nat.toDigits_ne_nil]),
    hfold _ _ fun c hc => Json.isDigit_of_mem_natDigits hc]
  exact congrArg some (Json.digitsValue_natDigits n)

theorem unsigned_of_isDigit (h : c.isDigit = true) :
    Decimal.unsigned (c :: cs) = (false, c :: cs) := by
  unfold Decimal.unsigned
  split <;> simp_all

theorem naturalOf?_natDigits (n : Nat) : naturalOf? (Decimal.natDigits n) = some n := by
  rcases Nat.eq_zero_or_pos n with rfl | hpos
  · rfl
  · have hdigits := digitsIn?_natDigits n
    have hfirst := Json.head?_natDigits hpos
    obtain ⟨d, ds, hcons, hd, -⟩ := exists_natDigits n
    have hzero : d ≠ '0' := by simpa [hcons] using hfirst
    have hleading : hasLeadingZero (d :: ds) = false := by
      simp [hasLeadingZero, unsigned_of_isDigit hd, hzero]
    rw [hcons] at hdigits ⊢
    unfold naturalOf?
    split <;> simp_all

/-- The digits of an integer are read as that integer. -/
theorem integerOf?_intDigits (n : Int) : integerOf? (Decimal.intDigits n) = some n := by
  unfold Decimal.intDigits
  split
  · rename_i hneg
    simp only [integerOf?, Decimal.unsigned, naturalOf?_natDigits, if_true]
    exact congrArg some (show -(n.natAbs : Int) = n by omega)
  · rename_i hneg
    obtain ⟨d, ds, hcons, hd, -⟩ := exists_natDigits n.natAbs
    have hnatural := naturalOf?_natDigits n.natAbs
    rw [hcons] at hnatural ⊢
    simp only [integerOf?, unsigned_of_isDigit hd, hnatural, Bool.false_eq_true, if_false]
    exact congrArg some (show (n.natAbs : Int) = n by omega)

/-! ## Whole numbers -/

/-- Holds of the characters that start whole numbers. -/
def startsNumber (c : Char) : Bool := c = '-' || c.isDigit

/-- The text of a whole number is made of digits, but for its sign. -/
theorem exists_intDigits (n : Int) :
    ∃ c cs, Decimal.intDigits n = c :: cs ∧ startsNumber c = true ∧
      (∀ d ∈ cs, d.isDigit = true) ∧ (c = '-' → cs ≠ []) := by
  obtain ⟨d, ds, hcons, hd, hds⟩ := exists_natDigits n.natAbs
  unfold Decimal.intDigits
  rw [hcons]
  split
  · exact ⟨'-', d :: ds, rfl, rfl, List.forall_mem_cons.2 ⟨hd, hds⟩, by simp⟩
  · refine ⟨d, ds, rfl, by simp [startsNumber, hd], hds, ?_⟩
    rintro rfl
    cases hd

/-- No keyword starts like a number. -/
theorem any_toList_eq_false {words : List String}
    (hwords : ∀ s ∈ words, s.toList.head?.all (fun c => !startsNumber c) = true)
    (hc : startsNumber c = true) : (words.any fun s => decide (s.toList = c :: cs)) = false := by
  rw [List.any_eq_false]
  intro s hs htext
  have := hwords s hs
  rw [of_decide_eq_true htext] at this
  simp [hc] at this

/-- **The text of a whole number in range means that number.** -/
theorem plainValue_intDigits (hleast : Json.leastInteger ≤ n)
    (hgreatest : n ≤ Json.greatestInteger) :
    plainValue (Decimal.intDigits n) = some (.number (.integer n)) := by
  obtain ⟨c, cs, htext, hc, -⟩ := exists_intDigits n
  have hnull : isNullText (c :: cs) = false := any_toList_eq_false (by decide) hc
  have hbool : boolOf? (c :: cs) = none := by
    rw [boolOf?, any_toList_eq_false (by decide) hc, any_toList_eq_false (by decide) hc]
    rfl
  have hkept : isKept n = true ∧ isInteger n = true := by
    simp only [Json.leastInteger, Json.greatestInteger] at hleast hgreatest
    simp only [isKept, isInteger, Bool.and_eq_true, decide_eq_true_eq]
    omega
  have hknown : knownInteger? (c :: cs) = some n := by
    rw [knownInteger?, ← htext, integerOf?_intDigits, Option.filter_some, if_pos hkept.2]
  rw [htext, plainValue]
  simp [hnull, hbool, hknown, ofInteger, hkept.1]

/-! ## Texts that stand without quotes -/

theorem hasInnerIndicator_eq_false {p : Char} (h : ∀ c ∈ cs, c ≠ ':' ∧ c ≠ '#') :
    hasInnerIndicator p cs = false := by
  induction cs generalizing p with
  | nil => rfl
  | cons c cs ih =>
    obtain ⟨hc, hcs⟩ := List.forall_mem_cons.1 h
    exact hasInnerIndicator_cons.2 ⟨fun h => absurd h hc.1, fun h => absurd h hc.2, ih hcs⟩

theorem isInWord_of_isDigit (h : c.isDigit = true) : isInWord c = true ∧ c ≠ ':' ∧ c ≠ '#' := by
  have hne : ∀ d : Char, d.isDigit = false → c ≠ d := by
    rintro d hd rfl
    simp [h] at hd
  refine ⟨?_, hne _ rfl, hne _ rfl⟩
  simp [isInWord, isBlank, isBreak, hne ' ' rfl, hne '\t' rfl, hne '\n' rfl, hne '\u2028' rfl,
    hne '\u2029' rfl]

/-- What starts a number opens nothing else. -/
theorem isOpeningIndicator_of_startsNumber (hc : startsNumber c = true) :
    isOpeningIndicator c = false := by
  refine Bool.eq_false_iff.2 fun hopening => ?_
  have hall : ∀ d ∈ ['#', ',', '[', ']', '{', '}', '&', '*', '!', '|', '>', '\'', '"', '%', '@',
      '\x60'], startsNumber d = false := by
    simp [startsNumber]
  have hnot := hall c (by simpa only [isOpeningIndicator, List.contains_iff_mem] using hopening)
  rw [hc] at hnot
  cases hnot

/-- A number is no marker, since digits stand behind its first character. -/
theorem take_ne_marker {mark : Char} (hcs : ∀ d ∈ cs, d.isDigit = true)
    (hmark : mark.isDigit = false) : (c :: cs).take 3 ≠ [mark, mark, mark] := by
  intro h
  cases cs with
  | nil => simp at h
  | cons d ds =>
    simp only [List.take_succ_cons, List.cons.injEq] at h
    have hd := hcs d (by simp)
    rw [h.2.1, hmark] at hd
    cases hd

theorem standsPlain_intDigits (n : Int) : StandsPlain (Decimal.intDigits n) := by
  obtain ⟨c, cs, htext, hc, hcs, hsign⟩ := exists_intDigits n
  have hdigits : ∀ d ∈ cs, isInWord d = true ∧ d ≠ ':' ∧ d ≠ '#' := fun d hd =>
    isInWord_of_isDigit (hcs d hd)
  have hne : ∀ d : Char, startsNumber d = false → c ≠ d := by
    rintro d hd rfl
    rw [hc] at hd
    cases hd
  have hword : isInWord c = true := by
    have hsigned : c = '-' ∨ c.isDigit = true := by simpa [startsNumber] using hc
    rcases hsigned with rfl | hdigit
    · rfl
    · exact (isInWord_of_isDigit hdigit).1
  have hends : c = '-' → endsWord cs = false := fun h => by
    obtain ⟨d, ds, rfl⟩ := List.exists_cons_of_ne_nil (hsign h)
    have hd := isInWord_iff.1 (hdigits d (by simp)).1
    simp [endsWord, hd]
  rw [htext]
  refine ⟨.word (by simp) (List.forall_mem_cons.2 ⟨hword, fun d hd => (hdigits d hd).1⟩), ?_,
    hasIndicator_cons.2 ⟨⟨take_ne_marker hcs rfl, take_ne_marker hcs rfl⟩,
      isOpeningIndicator_of_startsNumber hc, ?_,
      hasInnerIndicator_eq_false fun d hd => (hdigits d hd).2⟩⟩
  · simpa using hne '\ufeff' rfl
  · rintro (h | h | h)
    · exact absurd h (hne '?' rfl)
    · exact absurd h (hne ':' rfl)
    · exact hends h

theorem standsPlain_null : StandsPlain "null".toList :=
  ⟨.word (by decide) (List.all_eq_true.1 (by decide)), by decide, by decide⟩

theorem standsPlain_bool (b : Bool) :
    StandsPlain (if b then "true".toList else "false".toList) := by
  cases b <;> exact ⟨.word (by decide) (List.all_eq_true.1 (by decide)), by decide, by decide⟩

theorem plainValue_null : plainValue "null".toList = some .null := by
  decide

theorem plainValue_bool (b : Bool) :
    plainValue (if b then "true".toList else "false".toList) = some (.bool b) := by
  cases b <;> decide

end LoginSettings.Yaml
