import LoginSettings.Text.Blank

/-!
# Text without blanks at its ends

What trimming leaves of a text: a part of it with nothing but blanks in front and behind, which
neither begins nor ends with one. Every text has just one such part, so that this says all about
trimming.

* `trims_trim`, `Trims.eq_trim` — trimming gives this part and no other
* `Trims.self` — trimming again cuts off nothing
* `Trims.eq_nil_iff`, `trimmed_eq_empty_iff` — nothing is left of blanks alone
-/

namespace LoginSettings.Text

/-- Holds of a text and the part of it that is left when all blanks at its ends are cut off. -/
structure Trims (text inner : List Char) : Prop where
  cut : ∃ front back, text = front ++ inner ++ back
    ∧ (∀ c ∈ front, isBlank c = true) ∧ ∀ c ∈ back, isBlank c = true
  first : ∀ c, inner.head? = some c → isBlank c = false
  last : ∀ c, inner.getLast? = some c → isBlank c = false

variable {text inner : List Char}

theorem isBlank_head?_trimStart {c : Char} (h : (trimStart text).head? = some c) :
    isBlank c = false := by
  have hall := head?_trimStart text
  rw [h] at hall
  simpa using hall

theorem trimEnd_append_takeWhile (cs : List Char) :
    trimEnd cs ++ (cs.reverse.takeWhile isBlank).reverse = cs := by
  rw [trimEnd, ← List.reverse_append, takeWhile_append_trimStart, List.reverse_reverse]

/-- Trimming cuts the blanks at both ends. -/
theorem trims_trim (text : List Char) : Trims text (trim text) where
  cut := by
    refine ⟨text.takeWhile isBlank, ((trimStart text).reverse.takeWhile isBlank).reverse, ?_,
      fun c hc => ?_, fun c hc => ?_⟩
    · rw [trim, List.append_assoc, trimEnd_append_takeWhile, takeWhile_append_trimStart]
    · exact List.all_eq_true.1 List.all_takeWhile c hc
    · exact List.all_eq_true.1 List.all_takeWhile c (List.mem_reverse.1 hc)
  first := by
    intro c hc
    -- The first character that is left is also the first one behind the blanks in front.
    have hfirst : (trimStart text).head? = some c := by
      rw [trim] at hc
      rw [← trimEnd_append_takeWhile (trimStart text), List.head?_append, hc]
      rfl
    exact isBlank_head?_trimStart hfirst
  last := by
    intro c hc
    rw [trim, trimEnd, List.getLast?_reverse] at hc
    exact isBlank_head?_trimStart hc

theorem trimStart_append_of_blank {front : List Char} (h : ∀ c ∈ front, isBlank c = true)
    (rest : List Char) : trimStart (front ++ rest) = trimStart rest :=
  List.dropWhile_append_of_pos h

theorem trimEnd_append_of_blank {back : List Char} (h : ∀ c ∈ back, isBlank c = true)
    (rest : List Char) : trimEnd (rest ++ back) = trimEnd rest := by
  rw [trimEnd, List.reverse_append, trimStart_append_of_blank, trimEnd]
  exact fun c hc => h c (List.mem_reverse.1 hc)

/-- **Only one part of a text is left** when blanks are cut off at its ends. -/
theorem Trims.eq_trim (h : Trims text inner) : inner = trim text := by
  obtain ⟨front, back, rfl, hfront, hback⟩ := h.cut
  have hlast : trimEnd inner = inner := by
    refine trimEnd_eq_self ?_
    cases hc : inner.getLast? with
    | none => rfl
    | some c => simp [h.last c hc]
  rw [trim, List.append_assoc, trimStart_append_of_blank hfront]
  cases inner with
  | nil =>
    have hnil : trimStart back = [] := by
      rw [← List.append_nil back, trimStart_append_of_blank hback]
      rfl
    rw [List.nil_append, hnil]
    rfl
  | cons c cs =>
    rw [trimStart_eq_self (by simp [h.first c rfl]), trimEnd_append_of_blank hback, hlast]

/-- Trimming again cuts off nothing. -/
theorem Trims.self (h : Trims text inner) : Trims inner inner where
  cut := ⟨[], [], by simp, by simp, by simp⟩
  first := h.first
  last := h.last

/-- Nothing is left of texts that have nothing but blanks, and of no others. -/
theorem Trims.eq_nil_iff (h : Trims text inner) :
    inner = [] ↔ ∀ c ∈ text, isBlank c = true := by
  obtain ⟨front, back, rfl, hfront, hback⟩ := h.cut
  constructor
  · rintro rfl c hc
    rw [List.append_nil, List.mem_append] at hc
    exact hc.elim (hfront c) (hback c)
  · intro hall
    cases inner with
    | nil => rfl
    | cons c cs =>
      have hblank : isBlank c = true := hall c (by simp)
      rw [h.first c rfl] at hblank
      cases hblank

/-! ## Strings -/

theorem trims_trimmed (s : String) : Trims s.toList (trimmed s).toList := by
  rw [trimmed, String.toList_ofList]
  exact trims_trim s.toList

theorem Trims.eq_trimmed {s t : String} (h : Trims s.toList t.toList) : t = trimmed s := by
  rw [trimmed, ← h.eq_trim, String.ofList_toList]

/-- Holds of strings that have no blank at either end, and something in between. -/
structure Tidy (s : String) : Prop where
  nonempty : s ≠ ""
  first : ∀ c, s.toList.head? = some c → isBlank c = false
  last : ∀ c, s.toList.getLast? = some c → isBlank c = false

theorem Trims.tidy {s t : String} (h : Trims s.toList t.toList) (hne : t ≠ "") : Tidy t :=
  ⟨hne, h.first, h.last⟩

/-- A tidy text has nothing to cut. -/
theorem Tidy.trimmed_eq {s : String} (h : Tidy s) : trimmed s = s := by
  have hself : Trims s.toList s.toList := ⟨⟨[], [], by simp, by simp, by simp⟩, h.first, h.last⟩
  exact hself.eq_trimmed.symm

/-- Of blanks nothing is left, and of nothing else. -/
theorem trimmed_eq_empty_iff (s : String) : trimmed s = "" ↔ isAllBlank s = true := by
  rw [← String.toList_eq_nil_iff, (trims_trimmed s).eq_nil_iff, isAllBlank, List.all_eq_true]

end LoginSettings.Text
