import LoginSettings.Proofs.Yaml.Cursors
import LoginSettings.Yaml.Plain
import Mathlib.Data.List.Basic

/-!
# Plain scalars read back

A text that can stand without quotes is read as it is where a colon or a line end follows it. It is
taken apart into words with spaces between them (`Words`), and read by induction on these.
-/

namespace LoginSettings.Yaml

open Cursor

variable {c : Char} {cs word next text tail rest : List Char} {line column least : Nat}

/-! ## What may follow -/

/-- Holds of what is passed over in front of a token. -/
def startsGap (c : Char) : Bool := isBlank c || isBreak c || c = '#' || c = '\ufeff'

/-- Holds of texts that start with a token, or are at their end. -/
def StartsToken (rest : List Char) : Prop := ∀ c ∈ rest.head?, startsGap c = false

theorem StartsToken.startsWord (h : StartsToken rest) : StartsWord rest := by
  intro c hc
  have := h c hc
  simp only [startsGap, Bool.or_eq_false_iff] at this
  exact this.1.1

/-! ## Words -/

/-- Holds of words with spaces between them. -/
inductive Words : List Char → Prop where
  | word {word : List Char} (hnil : word ≠ []) (hword : ∀ c ∈ word, isInWord c = true) : Words word
  | spaced {word next : List Char} (hnil : word ≠ []) (hword : ∀ c ∈ word, isInWord c = true)
    (n : Nat) (hnext : Words next) : Words (word ++ (indentation (n + 1) ++ next))

/-- Words begin with a character of a word. -/
theorem Words.exists_cons (h : Words text) : ∃ c cs, text = c :: cs ∧ isInWord c = true := by
  cases h with
  | word hnil hword | spaced hnil hword =>
    obtain ⟨c, cs, rfl⟩ := List.exists_cons_of_ne_nil hnil
    exact ⟨c, _, rfl, hword c (by simp)⟩

/-- A line without a space at either end, all of whose blanks are spaces, is made of words. -/
theorem words_of_oneLine {text : List Char} (hnil : text ≠ []) (hhead : text.head? ≠ some ' ')
    (hlast : text.getLast? ≠ some ' ') (hinWord : ∀ c ∈ text, c = ' ' ∨ isInWord c = true) :
    Words text := by
  obtain ⟨word, spaced, htext, hword, hspaced⟩ := exists_splitAt isInWord text
  obtain ⟨n, next, rfl, hnext⟩ := exists_indentation spaced
  have hwordNil : word ≠ [] := by
    rintro rfl
    rw [List.nil_append] at htext
    rw [← htext] at hspaced
    obtain ⟨c, cs, rfl⟩ := List.exists_cons_of_ne_nil hnil
    rcases hinWord c (by simp) with rfl | hc
    · exact hhead rfl
    · simp [hspaced c (by simp)] at hc
  cases n with
  | zero =>
    -- Without a space behind it the word goes on to the end.
    have hnextNil : next = [] := by
      cases next with
      | nil => rfl
      | cons d ds =>
        rcases hinWord d (by simp [htext]) with rfl | hd
        · exact absurd rfl hnext
        · simp [hspaced d (by simp)] at hd
    rw [htext, hnextNil, indentation_zero, List.append_nil, List.append_nil]
    exact .word hwordNil hword
  | succ n =>
    have hnextNil : next ≠ [] := by
      rintro rfl
      rw [htext, List.append_nil, indentation_succ'] at hlast
      simp at hlast
    have hlast' : next.getLast? ≠ some ' ' := by
      rwa [htext, ← List.append_assoc, List.getLast?_append_of_ne_nil _ hnextNil] at hlast
    have hlength : next.length < text.length := by
      rw [htext]
      simp
      omega
    rw [htext]
    exact .spaced hwordNil hword n (words_of_oneLine hnextNil hnext hlast'
      fun c hc => hinWord c (by simp [htext, hc]))
termination_by text.length

/-! ## Indicators inside a text -/

/-- What a character inside a plain text may be depends on its neighbours. -/
theorem hasInnerIndicator_cons {p : Char} : hasInnerIndicator p (c :: cs) = false ↔
    (c = ':' → endsWord cs = false) ∧ (c = '#' → isBlank p = false) ∧
      hasInnerIndicator c cs = false := by
  simp [hasInnerIndicator, and_assoc]

theorem hasInnerIndicator_of_append {p : Char}
    (h : hasInnerIndicator p (cs ++ c :: rest) = false) : hasInnerIndicator c rest = false := by
  induction cs generalizing p with
  | nil => exact (hasInnerIndicator_cons.1 h).2.2
  | cons d cs ih => exact ih (hasInnerIndicator_cons.1 h).2.2

theorem endsWord_append_of_false (h : endsWord cs = false) : endsWord (cs ++ rest) = false := by
  cases cs with
  | nil => cases h
  | cons c cs => exact h

/-! ## Reading words -/

/-- Holds where a word of a plain scalar ends. -/
def StopsWord (rest : List Char) : Prop :=
  endsWord rest = true ∨ ∃ after, rest = ':' :: after ∧ endsWord after = true

/-- Where a word may not go on, none is read. -/
theorem readPlainWord_of_stopsWord (h : StopsWord rest) :
    readPlainWord false ⟨rest, line, column⟩ = some ([], ⟨rest, line, column⟩) := by
  rw [readPlainWord]
  split
  · rfl
  · rename_i x xs hrest
    simp only at hrest
    subst hrest
    rcases h with h | ⟨after, hafter, h⟩
    · have hx : (isBlank x || isBreak x) = true := h
      simp [hx]
    · obtain ⟨rfl, rfl⟩ := List.cons.inj hafter
      simp [h, isBlank, isBreak]

/-- A word of a text without inner indicators is read to its end. -/
theorem readPlainWord_append {p : Char} {more : List Char}
    (hword : ∀ c ∈ word, isInWord c = true) (hinner : hasInnerIndicator p (word ++ more) = false)
    (hstops : StopsWord (more ++ tail)) :
    readPlainWord false ⟨word ++ (more ++ tail), line, column⟩
      = some (word, ⟨more ++ tail, line, column + word.length⟩) := by
  induction word generalizing p column with
  | nil => exact readPlainWord_of_stopsWord hstops
  | cons c cs ih =>
    obtain ⟨hword, hcs⟩ := List.forall_mem_cons.1 hword
    obtain ⟨hcolon, -, hmore⟩ := hasInnerIndicator_cons.1 hinner
    have hc := isInWord_iff.1 hword
    have hends : c = ':' → endsWord (cs ++ (more ++ tail)) = false := fun h => by
      rw [← List.append_assoc]
      exact endsWord_append_of_false (hcolon h)
    rw [readPlainWord]
    simp only [List.cons_append, past_of_not_isBreak hc.2, ih hcs hmore]
    rw [if_neg (by simp [hc]), if_neg (by simp), if_neg (by simpa using hends), Option.map_some,
      List.length_cons, Nat.add_assoc, Nat.add_comm 1]

/-! ## Reading texts -/

/-- What is read once a word has been read: the scalar ends, or goes on behind a gap. -/
def plainAfter (least : Nat) (text : List Char) (after : Cursor) : Option PlainReading :=
  match readGap least (.blanks []) after with
  | none => none
  | some (.blanks [], _) => some ⟨text, false, after⟩
  | some (gap, next) =>
    if gap.isBroken && next.column < least then some ⟨text, true, next⟩
    else readPlain false least text gap next

/-- A word is read, and then what comes after it. -/
theorem readPlain_of_word {gap : Gap} {cursor after : Cursor}
    (hmarker : cursor.atDocumentMarker = false) (hhead : cursor.rest.head? ≠ some '#')
    (hnil : word ≠ []) (hword : readPlainWord false cursor = some (word, after)) :
    readPlain false least text gap cursor = plainAfter least (text ++ gap.text ++ word) after := by
  rw [readPlain]
  simp only [hmarker, hhead, decide_false, Bool.or_self, Bool.false_eq_true, if_false]
  split
  · simp_all
  · simp_all
  · rename_i h
    rw [hword] at h
    cases h
    rw [plainAfter]
    split <;> simp_all

/-- At the end of the text a plain scalar ends. -/
theorem readPlain_nil {gap : Gap} : readPlain false least text gap ⟨[], line, column⟩
    = some ⟨text, gap.isBroken, ⟨[], line, column⟩⟩ := by
  have hread : readPlainWord false ⟨[], line, column⟩ = some ([], ⟨[], line, column⟩) :=
    readPlainWord_of_stopsWord (.inl rfl)
  rw [readPlain]
  split
  · rfl
  · split
    · rename_i h
      rw [hread] at h
      cases h
    · rfl
    · rename_i h
      rw [hread] at h
      cases h

/-- A colon ends the scalar. -/
theorem plainAfter_colon : plainAfter least text ⟨':' :: rest, line, column⟩
    = some ⟨text, false, ⟨':' :: rest, line, column⟩⟩ := by
  rw [plainAfter, readGap_of_startsWord (by simp [StartsWord, isBlank, isBreak])]

/-- A line that starts too far left ends the scalar, and so does the end of the text. -/
theorem plainAfter_newLine {n : Nat} (hrest : StartsToken rest) (hend : n < least ∨ rest = []) :
    plainAfter least text ⟨newLine n ++ rest, line, column⟩
      = some ⟨text, true, ⟨rest, line + 1, n⟩⟩ := by
  have hgap : readGap least (.blanks []) ⟨newLine n ++ rest, line, column⟩
      = some (.broken (some '\n') [], ⟨rest, line + 1, n⟩) := by
    rw [newLine, List.cons_append, readGap_break isBreak_lineFeed, Gap.lineEnd, readGap_indentation,
      readGap_of_startsWord hrest.startsWord, Nat.zero_add]
  rw [plainAfter, hgap]
  by_cases hn : n < least
  · simp [Gap.isBroken, hn]
  · obtain rfl := hend.resolve_left hn
    simp only [Gap.isBroken, hn, decide_false, Bool.and_false, Bool.false_eq_true, if_false]
    exact readPlain_nil

theorem Words.head?_ne_numberSign (h : Words text) (hinner : hasInnerIndicator ' ' text = false) :
    (text ++ rest).head? ≠ some '#' := by
  obtain ⟨c, cs, rfl, -⟩ := h.exists_cons
  intro hc
  cases (hasInnerIndicator_cons.1 hinner).2.1 (by simpa using hc)

theorem Words.startsWord (h : Words text) : StartsWord (text ++ rest) := by
  obtain ⟨c, cs, rfl, hc⟩ := h.exists_cons
  simpa [StartsWord] using isInWord_iff.1 hc

/-- **A text made of words is read to its end**, `blanks` being what stands in front of it. -/
theorem readPlain_append {blanks : List Char} {onNextLine : Bool} {after : Cursor}
    (htext : Words next) (hinner : hasInnerIndicator ' ' next = false)
    (hmarker : atDocumentMarker ⟨next ++ tail, line, column⟩ = false) (hstops : StopsWord tail)
    (hend : ∀ text, plainAfter least text ⟨tail, line, column + next.length⟩
      = some ⟨text, onNextLine, after⟩) :
    readPlain false least text (.blanks blanks) ⟨next ++ tail, line, column⟩
      = some ⟨text ++ blanks ++ next, onNextLine, after⟩ := by
  have hhead : (next ++ tail).head? ≠ some '#' := htext.head?_ne_numberSign hinner
  -- What has been read and the gap in front of the next word grow from word to word.
  induction htext generalizing text blanks column with
  | @word word hnil hword =>
    have hread : readPlainWord false ⟨word ++ ([] ++ tail), line, column⟩
        = some (word, ⟨[] ++ tail, line, column + word.length⟩) :=
      readPlainWord_append hword (by simpa using hinner) hstops
    rw [readPlain_of_word hmarker hhead hnil hread, Gap.text]
    exact hend _
  | @spaced word next hnil hword n hnext ih =>
    have hread : readPlainWord false ⟨word ++ ((indentation (n + 1) ++ next) ++ tail), line, column⟩
        = some (word, ⟨(indentation (n + 1) ++ next) ++ tail, line, column + word.length⟩) :=
      readPlainWord_append hword hinner (.inl (by simp [indentation_succ, endsWord]))
    have hinner' : hasInnerIndicator ' ' next = false := by
      rw [indentation_succ', ← List.append_assoc, ← List.append_assoc, List.append_assoc] at hinner
      exact hasInnerIndicator_of_append hinner
    -- Right of the first column there are no document markers.
    have hcolumn : column + word.length + (n + 1) ≠ 0 := by omega
    rw [← List.append_assoc] at hread
    rw [readPlain_of_word hmarker hhead hnil hread, Gap.text, plainAfter, List.append_assoc,
      readGap_blanks, readGap_of_startsWord hnext.startsWord, List.nil_append, indentation_succ]
    simp only [Gap.isBroken, Bool.false_and, Bool.false_eq_true, if_false]
    rw [ih hinner' (atDocumentMarker_of_column_ne_zero hcolumn) _
      (hnext.head?_ne_numberSign hinner')]
    · simp
    · intro text
      have := hend text
      simpa [Nat.add_assoc] using this

/-! ## Texts that can stand without quotes -/

/-- Holds of texts that are read as they are where they stand without quotes, whatever they mean. -/
structure StandsPlain (text : List Char) : Prop where
  words : Words text
  mark : text.head? ≠ some '\ufeff'
  indicator : hasIndicator text = false

/-- A plain text neither begins with an indicator nor has one inside. -/
theorem hasIndicator_cons : hasIndicator (c :: cs) = false ↔
    ((c :: cs).take 3 ≠ ['-', '-', '-'] ∧ (c :: cs).take 3 ≠ ['.', '.', '.']) ∧
      isOpeningIndicator c = false ∧ (c = '?' ∨ c = ':' ∨ c = '-' → endsWord cs = false) ∧
      hasInnerIndicator c cs = false := by
  simp [hasIndicator, and_assoc, or_assoc]

namespace StandsPlain

theorem inner (h : StandsPlain text) : hasInnerIndicator ' ' text = false := by
  obtain ⟨c, cs, rfl, -⟩ := h.words.exists_cons
  obtain ⟨-, hopening, hsign, hinner⟩ := hasIndicator_cons.1 h.indicator
  refine hasInnerIndicator_cons.2 ⟨fun hc => hsign (by simp [hc]), ?_, hinner⟩
  rintro rfl
  cases hopening

/-- The first three characters do not become a marker by what follows. -/
theorem atMarker_eq_false (h : StandsPlain text) (rest : List Char) (line column : Nat)
    (hc : c ≠ '-' ∧ c ≠ '.') :
    atMarker '-' ⟨text ++ c :: rest, line, column⟩ = false ∧
      atMarker '.' ⟨text ++ c :: rest, line, column⟩ = false := by
  obtain ⟨d, ds, rfl, -⟩ := h.words.exists_cons
  obtain ⟨hmarker, -⟩ := hasIndicator_cons.1 h.indicator
  have htake : ∀ mark, c ≠ mark → (d :: ds).take 3 ≠ [mark, mark, mark] →
      (d :: ds ++ c :: rest).take 3 ≠ [mark, mark, mark] := by
    intro mark hmark hds
    -- Only one or two characters could be made up to three, and not by `c`.
    rcases ds with _ | ⟨e, _ | ⟨f, fs⟩⟩ <;> simp_all
  exact ⟨atMarker_of_take_ne (htake _ hc.1 hmarker.1), atMarker_of_take_ne (htake _ hc.2 hmarker.2)⟩

/-- A text that stands plain is not taken for the marker of a document. -/
theorem atDocumentMarker_eq_false (h : StandsPlain text) (hc : c ≠ '-' ∧ c ≠ '.') :
    atDocumentMarker ⟨text ++ c :: rest, line, column⟩ = false := by
  obtain ⟨hhyphen, hdot⟩ := h.atMarker_eq_false rest line column hc
  rw [atDocumentMarker, hhyphen, hdot, Bool.or_self]

/-- A key is read up to its colon. -/
theorem readPlain_colon (h : StandsPlain text) (hrest : endsWord rest = true) :
    readPlain false least [] (.blanks []) ⟨text ++ ':' :: rest, line, column⟩
      = some ⟨text, false, ⟨':' :: rest, line, column + text.length⟩⟩ :=
  readPlain_append h.words h.inner (h.atDocumentMarker_eq_false (by decide))
    (.inr ⟨rest, rfl, hrest⟩) fun _ => plainAfter_colon

/-- A text at the end of a line is read up to the next token. -/
theorem readPlain_newLine {n : Nat} (h : StandsPlain text) (hrest : StartsToken rest)
    (hend : n < least ∨ rest = []) :
    readPlain false least [] (.blanks []) ⟨text ++ (newLine n ++ rest), line, column⟩
      = some ⟨text, true, ⟨rest, line + 1, n⟩⟩ :=
  readPlain_append h.words h.inner (h.atDocumentMarker_eq_false (by decide)) (.inl rfl)
    fun _ => plainAfter_newLine hrest hend

end StandsPlain

end LoginSettings.Yaml
