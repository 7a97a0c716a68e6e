import LoginSettings.Proofs.Yaml.Cursors
import LoginSettings.Yaml.Quoted
import Mathlib.Algebra.Group.Nat.Defs

/-!
# Quoted scalars read back

Text between quotes consists of runs with gaps between them: spaces, or line ends with indentation
behind them. `Quotes` relates a text to what may be written for it between quotes; both printers
write such texts, and all such texts are read back.

* `FitsSingle.quotes`, `quotes_doubleChars` — what the printers write
* `Quotes.readQuoted` — what is written is read back
-/

namespace LoginSettings.Yaml

open Cursor

variable {q : Quote} {c x : Char} {cs run next text written rest : List Char} {line column : Nat}

/-! ## Runs -/

/-- Holds where a run ends: before a blank, a line end or the closing quote. -/
def StopsRun (q : Quote) (rest : List Char) : Prop :=
  endsWord rest = true ∨ ∃ after, rest = q.char :: after ∧ after.head? ≠ some '\''

/-- Holds of the texts that may be written for a run. -/
def WritesRun (q : Quote) (run written : List Char) : Prop :=
  ∀ rest line column, StopsRun q rest →
    readQuotedRun q ⟨written ++ rest, line, column⟩
      = some ⟨run, false, ⟨rest, line, column + written.length⟩⟩

theorem endsWord_cons : endsWord (c :: cs) = false ↔ isBlank c = false ∧ isBreak c = false :=
  Bool.or_eq_false_iff

theorem writesRun_nil : WritesRun q [] [] := by
  intro rest line column hstops
  rw [List.nil_append, readQuotedRun]
  split
  · rfl
  · rename_i x xs hrest
    simp only at hrest
    subst hrest
    rcases hstops with h | ⟨after, hafter, hquote⟩
    · have hx : (isBlank x || isBreak x) = true := h
      simp [hx]
    · obtain ⟨rfl, rfl⟩ := List.cons.inj hafter
      cases q <;> simp [Quote.char, isBlank, isBreak, hquote]

/-- A character is put in front of a run by writing it in a way in which it is read. -/
theorem WritesRun.cons {chars : List Char} (h : WritesRun q run written)
    (hread : ∀ rest line column, readQuotedRun q ⟨chars ++ rest, line, column⟩
      = (readQuotedRun q ⟨rest, line, column + chars.length⟩).map (.prepend c)) :
    WritesRun q (c :: run) (chars ++ written) := by
  intro rest line column hstops
  rw [List.append_assoc, hread, h rest _ _ hstops, Option.map_some, QuotedRun.prepend,
    List.length_append, Nat.add_assoc]

/-- A run is written character by character if each character is read back. -/
theorem writesRun_flatMap {write : Char → List Char} (h : ∀ c ∈ run, ∀ rest line column,
      readQuotedRun q ⟨write c ++ rest, line, column⟩
        = (readQuotedRun q ⟨rest, line, column + (write c).length⟩).map (.prepend c)) :
    WritesRun q run (run.flatMap write) := by
  induction run with
  | nil => exact writesRun_nil
  | cons c cs ih =>
    obtain ⟨hc, hcs⟩ := List.forall_mem_cons.1 h
    exact (ih hcs).cons hc

/-- A character that is nothing special is read as it is. -/
theorem readQuotedRun_self (hends : endsWord (c :: rest) = false) (hquote : c ≠ q.char)
    (hbackslash : q = .double → c ≠ '\\') :
    readQuotedRun q ⟨c :: rest, line, column⟩
      = (readQuotedRun q ⟨rest, line, column + 1⟩).map (.prepend c) := by
  have hc := endsWord_cons.1 hends
  rw [readQuotedRun]
  simp only [hc, Bool.or_self, Bool.false_eq_true, if_false, hquote]
  rw [if_neg (by simpa using hbackslash), pastMany, pastMany, past_of_not_isBreak hc.2]

/-! ## Single quotes -/

/-- A character between single quotes. -/
def singleChar (c : Char) : List Char := if c = '\'' then ['\'', '\''] else [c]

/-- A character between single quotes is read back. -/
theorem readQuotedRun_singleChar (hc : isBlank c = false ∧ isBreak c = false) (rest : List Char)
    (line column : Nat) :
    readQuotedRun .single ⟨singleChar c ++ rest, line, column⟩
      = (readQuotedRun .single ⟨rest, line, column + (singleChar c).length⟩).map (.prepend c) := by
  by_cases hquote : c = '\''
  · subst hquote
    rw [readQuotedRun]
    simp [singleChar, Quote.char, isBlank, isBreak, pastMany, past]
  · rw [singleChar, if_neg hquote]
    exact readQuotedRun_self (endsWord_cons.2 hc) hquote fun h => absurd h (by decide)

/-! ## Double quotes -/

/-- Digits of base sixteen are read from left to right. -/
theorem hexFrom_append (n : Nat) (cs ds : List Char) :
    Text.hexFrom n (cs ++ ds) = (Text.hexFrom n cs).bind fun m => Text.hexFrom m ds := by
  induction cs generalizing n with
  | nil => rfl
  | cons c cs ih =>
    simp only [List.cons_append, Text.hexFrom]
    split
    · exact ih _
    · rfl

theorem hexDigit?_toUpper : ∀ d < 16, Text.hexDigit? (Nat.digitChar d).toUpper = some d := by
  decide

theorem length_upperHex (n k : Nat) : (upperHex n k).length = k := by
  induction k generalizing n with
  | zero => rfl
  | succ k ih => rw [upperHex, List.length_append, ih, List.length_singleton]

/-- The digits that are written for a number are read as its last digits. -/
theorem hexFrom_upperHex (n k : Nat) : Text.hexFrom 0 (upperHex n k) = some (n % 16 ^ k) := by
  induction k generalizing n with
  | zero => simp [upperHex, Text.hexFrom, Nat.mod_one]
  | succ k ih =>
    -- The last digit is the lowest one.
    have hdigit := hexDigit?_toUpper (n % 16) (Nat.mod_lt _ (by decide))
    rw [upperHex, hexFrom_append, ih, Option.bind_some, Text.hexFrom, hdigit, Nat.pow_succ',
      Nat.mod_mul]
    simp [Text.hexFrom, Nat.add_comm]

/-- A number is read from the digits that are written for it, if these are enough. -/
theorem hexNumber?_upperHex {n k : Nat} (h : n < 16 ^ k) :
    Text.hexNumber? k (upperHex n k ++ rest) = some n := by
  rw [Text.hexNumber?, if_pos (by simp [length_upperHex]), List.take_left' (length_upperHex n k),
    hexFrom_upperHex, Nat.mod_eq_of_lt h]

theorem oneLine_upperHex (n k : Nat) : OneLine (upperHex n k) := by
  have hdigit : ∀ d < 16, isBreak (Nat.digitChar d).toUpper = false := by decide
  induction k generalizing n with
  | zero => exact oneLine_nil
  | succ k ih =>
    simp only [upperHex, oneLine_append, oneLine_cons, oneLine_nil, and_true]
    exact ⟨ih _, hdigit _ (Nat.mod_lt _ (by decide))⟩

/-- A backslash and what is read as a character behind it stand for the character. -/
theorem readQuotedRun_escape (hline : OneLine (x :: cs))
    (hread : readEscape (x :: cs ++ rest) = some (c, cs.length + 1)) :
    readQuotedRun .double ⟨'\\' :: x :: cs ++ rest, line, column⟩
      = (readQuotedRun .double ⟨rest, line, column + (cs.length + 2)⟩).map (.prepend c) := by
  have hpast : pastMany ⟨'\\' :: x :: cs ++ rest, line, column⟩ (cs.length + 2)
      = ⟨rest, line, column + (cs.length + 2)⟩ :=
    pastMany_append (oneLine_cons.2 ⟨rfl, hline⟩)
  rw [readQuotedRun]
  simp only [List.cons_append, List.head?_cons, Option.any_some, (oneLine_cons.1 hline).1,
    Bool.false_eq_true, if_false]
  rw [if_neg (by simp [isBlank, isBreak]), if_neg (by simp [Quote.char]), if_pos (by simp)]
  rw [List.cons_append] at hread
  simp only [hread]
  exact congrArg (fun d => (readQuotedRun .double d).map (QuotedRun.prepend c)) hpast

/-- A letter that escapes a character is read as that character. -/
theorem escapeLetter?_spec (hletter : escapeLetter? c = some x) (rest : List Char) :
    isBreak x = false ∧ readEscape (x :: rest) = some (c, 1) := by
  unfold escapeLetter? at hletter
  split at hletter <;> cases hletter <;> exact ⟨rfl, rfl⟩

/-- A character is read from its number as the digits of an escape. -/
theorem readEscape_upperHex {k : Nat} (hletter : escapeDigits? x = some k)
    (hc : c.toNat < 16 ^ k) :
    readEscape (x :: upperHex c.toNat k ++ rest) = some (c, (upperHex c.toNat k).length + 1) := by
  have hvalid : charOf? c.toNat = some c := by
    rw [charOf?, if_pos (show c.toNat.isValidChar from c.valid), Char.ofNat_toNat]
  simp only [List.cons_append, readEscape, hletter, hexNumber?_upperHex hc, Option.bind_some,
    hvalid, Option.map_some, length_upperHex, Nat.add_comm]

theorem readQuotedRun_upperHex {k : Nat} (hletter : escapeDigits? x = some k)
    (hline : isBreak x = false) (hc : c.toNat < 16 ^ k) :
    readQuotedRun .double ⟨'\\' :: x :: upperHex c.toNat k ++ rest, line, column⟩
      = (readQuotedRun .double ⟨rest, line, column + ((upperHex c.toNat k).length + 2)⟩).map
        (.prepend c) :=
  readQuotedRun_escape (oneLine_cons.2 ⟨hline, oneLine_upperHex _ _⟩)
    (readEscape_upperHex hletter hc)

/-- What needs no escape between double quotes. -/
theorem plain_of_escapeLetter? (hletter : escapeLetter? c = none)
    (hprintable : isPrintable c = true) (hspace : c ≠ ' ') (rest : List Char) :
    endsWord (c :: rest) = false ∧ c ≠ '"' ∧ c ≠ '\\' := by
  refine ⟨endsWord_cons.2 ⟨?_, ?_⟩, ?_, ?_⟩
  · simp only [isBlank, hspace, false_or, decide_eq_false_iff_not]
    rintro rfl
    cases hletter
  · simp only [isBreak, decide_eq_false_iff_not]
    rintro (rfl | rfl | rfl) <;> cases hletter
  · rintro rfl
    cases hletter
  · rintro rfl
    cases hletter

/-- A character between double quotes is read back, escaped or not. -/
theorem readQuotedRun_doubleChar (hspace : c ≠ ' ') (rest : List Char) (line column : Nat) :
    readQuotedRun .double ⟨doubleChar c ++ rest, line, column⟩
      = (readQuotedRun .double ⟨rest, line, column + (doubleChar c).length⟩).map (.prepend c) := by
  unfold doubleChar
  split
  · rename_i x hletter
    obtain ⟨hline, hread⟩ := escapeLetter?_spec hletter rest
    exact readQuotedRun_escape (by simp [hline]) hread
  · rename_i hletter
    split
    · rename_i hprintable
      obtain ⟨hends, hquote, hbackslash⟩ :=
        plain_of_escapeLetter? hletter hprintable hspace rest
      exact readQuotedRun_self hends hquote fun _ => hbackslash
    · have hvalid : c.toNat < 0x110000 := by
        have := c.valid
        simp only [UInt32.isValidChar, Nat.isValidChar] at this
        show c.val.toNat < _
        omega
      split
      · exact readQuotedRun_upperHex rfl rfl (by omega)
      · split
        · exact readQuotedRun_upperHex rfl rfl (by omega)
        · exact readQuotedRun_upperHex rfl rfl (by omega)

/-! ## Texts between quotes -/

/-- Holds of a text and what may be written for it from behind the opening quote, the closing quote
included. Lines after the first one start at the column. -/
inductive Quotes (q : Quote) (column : Nat) : List Char → List Char → Prop where
  | close {run written : List Char} (hrun : WritesRun q run written) :
    Quotes q column run (written ++ [q.char])
  | spaced {run next written more : List Char} (hrun : WritesRun q run written) (n : Nat)
    (hstarts : StartsWord more) (hnext : Quotes q column next more) :
    Quotes q column (run ++ (indentation (n + 1) ++ next))
      (written ++ (indentation (n + 1) ++ more))
  | broken {run next written more ends : List Char} {first : Char} (hrun : WritesRun q run written)
    (hfirst : isBreak first = true ∧ first ≠ '\n') (hends : ∀ c ∈ ends, isBreak c = true)
    (hstarts : StartsWord more) (hnext : Quotes q column next more) :
    Quotes q column (run ++ (first :: ends ++ next))
      (written ++ (first :: ends ++ (indentation column ++ more)))

/-- The quote ends the text. -/
theorem readQuoted_close {cursor after : Cursor} (hmarker : cursor.atDocumentMarker = false)
    (hrun : readQuotedRun q cursor = some ⟨run, false, after⟩)
    (hquote : after.rest.head? = some q.char) :
    readQuoted q text cursor = some (text ++ run, after.past) := by
  rw [readQuoted]
  simp [hmarker, hrun, hquote]

/-- A gap is read together with the run before it. -/
theorem readQuoted_gap {cursor after past : Cursor} {gap : Gap}
    (hmarker : cursor.atDocumentMarker = false)
    (hrun : readQuotedRun q cursor = some ⟨run, false, after⟩)
    (hquote : after.rest.head? ≠ some q.char)
    (hgap : readGap 0 (.blanks []) after = some (gap, past))
    (hlength : past.rest.length < cursor.rest.length) :
    readQuoted q text cursor = readQuoted q (text ++ run ++ gap.text) past := by
  rw [readQuoted]
  simp [hmarker, hrun, hquote, hgap, hlength]

/-- A run and the closing quote. -/
theorem WritesRun.readQuoted_end (hrun : WritesRun q run written) (hcolumn : column ≠ 0)
    (hrest : rest.head? ≠ some '\'') :
    readQuoted q text ⟨written ++ q.char :: rest, line, column⟩
      = some (text ++ run, ⟨rest, line, column + (written.length + 1)⟩) := by
  have hread := hrun (q.char :: rest) line column (.inr ⟨rest, rfl, hrest⟩)
  have hpast : past ⟨q.char :: rest, line, column + written.length⟩
      = ⟨rest, line, column + written.length + 1⟩ :=
    past_of_not_isBreak (by cases q <;> rfl)
  rw [readQuoted_close (atDocumentMarker_of_column_ne_zero hcolumn) hread rfl, hpast,
    Nat.add_assoc]

/-- A run and the spaces behind it. -/
theorem WritesRun.readQuoted_spaces (hrun : WritesRun q run written) (hcolumn : column ≠ 0)
    (n : Nat) (hrest : StartsWord rest) :
    readQuoted q text ⟨written ++ (indentation (n + 1) ++ rest), line, column⟩
      = readQuoted q (text ++ run ++ indentation (n + 1))
        ⟨rest, line, column + written.length + (n + 1)⟩ := by
  have hread := hrun (indentation (n + 1) ++ rest) line column
    (.inl (by simp [indentation_succ, endsWord]))
  have hgap : readGap 0 (.blanks []) ⟨indentation (n + 1) ++ rest, line, column + written.length⟩
      = some (.blanks (indentation (n + 1)),
        ⟨rest, line, column + written.length + (n + 1)⟩) := by
    rw [readGap_blanks, readGap_of_startsWord hrest, List.nil_append]
  have hquote : (indentation (n + 1) ++ rest).head? ≠ some q.char := by
    cases q <;> simp [indentation_succ, Quote.char]
  rw [readQuoted_gap (atDocumentMarker_of_column_ne_zero hcolumn) hread hquote hgap
    (by simp; omega), Gap.text]

/-- A run and the line ends behind it, the first of which is no line feed and so is kept. -/
theorem WritesRun.readQuoted_breaks (hrun : WritesRun q run written) (hcolumn : column ≠ 0)
    (hx : isBreak x = true ∧ x ≠ '\n') (hcs : ∀ c ∈ cs, isBreak c = true) (n : Nat)
    (hrest : StartsWord rest) :
    readQuoted q text ⟨written ++ (x :: cs ++ (indentation n ++ rest)), line, column⟩
      = readQuoted q (text ++ run ++ x :: cs) ⟨rest, line + 1 + cs.length, n⟩ := by
  have hread := hrun (x :: cs ++ (indentation n ++ rest)) line column
    (.inl (by simp [endsWord, hx.1]))
  have hgap : readGap 0 (.blanks [])
      ⟨x :: cs ++ (indentation n ++ rest), line, column + written.length⟩
        = some (.broken (some x) cs, ⟨rest, line + 1 + cs.length, n⟩) := by
    rw [List.cons_append, readGap_break hx.1, Gap.lineEnd, readGap_breaks hcs, readGap_indentation,
      readGap_of_startsWord hrest, List.nil_append, Nat.zero_add]
  have hquote : (x :: cs ++ (indentation n ++ rest)).head? ≠ some q.char := by
    intro h
    rw [List.cons_append, List.head?_cons, Option.some.injEq] at h
    rw [h] at hx
    cases q <;> cases hx.1
  rw [readQuoted_gap (atDocumentMarker_of_column_ne_zero hcolumn) hread hquote hgap
    (by simp; omega), Gap.text, if_neg hx.2]

theorem Quotes.ne_nil (h : Quotes q column text written) : written ≠ [] := by
  cases h <;> simp [indentation_succ]

/-- **What is written between quotes is read back.** The reader comes to a line further down only if
what is written has line ends. -/
theorem Quotes.readQuoted {least : Nat} (h : Quotes q least text written) (hleast : least ≠ 0)
    (hrest : rest.head? ≠ some '\'') (before : List Char) (line column : Nat)
    (hcolumn : column ≠ 0) :
    ∃ after, readQuoted q before ⟨written ++ rest, line, column⟩ = some (before ++ text, after) ∧
      after.rest = rest ∧ line ≤ after.line ∧
      (OneLine written → after = ⟨rest, line, column + written.length⟩) := by
  induction h generalizing before line column with
  | @close run written hrun =>
    refine ⟨⟨rest, line, column + (written ++ [q.char]).length⟩, ?_, rfl, Nat.le_refl _,
      fun _ => rfl⟩
    rw [List.append_assoc, List.singleton_append, hrun.readQuoted_end hcolumn hrest,
      List.length_append, List.length_singleton]
  | @spaced run next written more hrun n hstarts hnext ih =>
    obtain ⟨after, hafter, hafterRest, hline, hone⟩ := ih (before ++ run ++ indentation (n + 1))
      line (column + written.length + (n + 1)) (by omega)
    refine ⟨after, ?_, hafterRest, hline, fun h => ?_⟩
    · rw [List.append_assoc, List.append_assoc,
        hrun.readQuoted_spaces hcolumn n (hstarts.append hnext.ne_nil), hafter]
      simp
    · rw [oneLine_append, oneLine_append] at h
      rw [hone h.2.2]
      simp [Nat.add_assoc]
  | @broken run next written more ends first hrun hfirst hends hstarts hnext ih =>
    obtain ⟨after, hafter, hafterRest, hline, -⟩ := ih (before ++ run ++ first :: ends)
      (line + 1 + ends.length) least hleast
    refine ⟨after, ?_, hafterRest, by omega, fun h => ?_⟩
    · rw [List.append_assoc, List.append_assoc, List.append_assoc,
        hrun.readQuoted_breaks hcolumn hfirst hends least (hstarts.append hnext.ne_nil), hafter]
      simp
    · simp [hfirst.1] at h

/-! ## What the printers write -/

/-- What is written for a character other than a space starts a word. -/
theorem startsWord_doubleChar (hc : c ≠ ' ') : StartsWord (doubleChar c ++ rest) := by
  unfold doubleChar
  split
  · simp [StartsWord, isBlank, isBreak]
  · split
    · rename_i hletter hprintable
      have := (plain_of_escapeLetter? hletter hprintable hc rest).1
      simpa [StartsWord] using endsWord_cons.1 this
    · split
      · simp [StartsWord, isBlank, isBreak]
      · split <;> simp [StartsWord, isBlank, isBreak]

theorem flatMap_indentation {n : Nat} {write : Char → List Char} (h : write ' ' = [' ']) :
    (indentation n).flatMap write = indentation n := by
  induction n with
  | zero => rfl
  | succ n ih => rw [indentation_succ, List.flatMap_cons, ih, h, List.singleton_append]

/-- Between double quotes nothing but spaces separates runs. -/
theorem quotes_doubleChars (text : List Char) :
    Quotes .double column text (text.flatMap doubleChar ++ ['"']) := by
  obtain ⟨run, spaced, htext, hrun, hspaced⟩ := exists_splitAt (fun c => !decide (c = ' ')) text
  obtain ⟨n, next, rfl, hnext⟩ := exists_indentation spaced
  have hwrites : WritesRun .double run (run.flatMap doubleChar) :=
    writesRun_flatMap fun c hc => readQuotedRun_doubleChar (by simpa using hrun c hc)
  cases n with
  | zero =>
    -- The run goes on to the first space, so it is all of the text.
    have hnextNil : next = [] := by
      cases next with
      | nil => rfl
      | cons d ds =>
        have hd : d = ' ' := by simpa using hspaced d (by simp)
        exact absurd (congrArg some hd) hnext
    rw [htext, hnextNil, indentation_zero, List.append_nil, List.append_nil]
    exact .close hwrites
  | succ n =>
    have hstarts : StartsWord (next.flatMap doubleChar ++ ['"']) := by
      cases next with
      | nil => simp [StartsWord, isBlank, isBreak]
      | cons d ds =>
        rw [List.flatMap_cons, List.append_assoc]
        exact startsWord_doubleChar fun hd => hnext (congrArg some hd)
    have hspaces : (indentation (n + 1)).flatMap doubleChar = indentation (n + 1) :=
      flatMap_indentation rfl
    have hlength : next.length < text.length := by
      rw [htext]
      simp
      omega
    rw [htext, List.flatMap_append, List.flatMap_append, hspaces, List.append_assoc,
      List.append_assoc]
    exact .spaced hwrites n hstarts (quotes_doubleChars next)
termination_by text.length

theorem hasPair_of_append {p q : Char → Bool} (h : hasPair p q (cs ++ rest) = false) :
    hasPair p q rest = false := by
  induction cs with
  | nil => exact h
  | cons c cs ih =>
    refine ih ?_
    cases hcs : cs ++ rest with
    | nil => rfl
    | cons d ds =>
      rw [List.cons_append, hcs, hasPair, Bool.or_eq_false_iff] at h
      exact h.2

/-- A text without a pair has no second character right after a first one. -/
theorem not_hasPair {p q : Char → Bool} {d : Char} (h : hasPair p q (cs ++ c :: d :: rest) = false)
    (hp : p c = true) : q d = false := by
  have := hasPair_of_append h
  rw [hasPair, Bool.or_eq_false_iff, hp, Bool.true_and] at this
  exact this.1

theorem singleLines_true (h : ∀ c ∈ cs.head?, isBreak c = false) :
    singleLines column true cs = indentation column ++ singleLines column false cs := by
  cases cs with
  | nil => simp [singleLines, leading]
  | cons c cs => simp [singleLines, leading, h c (by simp)]

/-- Within a line a text is written character by character between single quotes. -/
theorem singleLines_append (h : OneLine cs) :
    singleLines column false (cs ++ rest)
      = cs.flatMap singleChar ++ singleLines column false rest := by
  induction cs with
  | nil => rfl
  | cons c cs ih =>
    rw [oneLine_cons] at h
    simp only [List.cons_append, singleLines, h.1, ih h.2, List.flatMap_cons, singleChar, leading]
    simp

/-- Line breaks between single quotes are written as they are, and a line starts after them. -/
theorem singleLines_breaks (hx : isBreak x = true) (h : ∀ c ∈ cs, isBreak c = true)
    (lineStart : Bool) :
    singleLines column lineStart (x :: cs ++ rest) = x :: cs ++ singleLines column true rest := by
  induction cs generalizing x lineStart with
  | nil => simp [singleLines, hx]
  | cons c cs ih =>
    rw [List.forall_mem_cons] at h
    have := ih h.1 h.2 true
    rw [List.cons_append, singleLines, if_pos hx, this]
    rfl

theorem startsWord_singleLines (h : StartsWord cs) :
    StartsWord (singleLines column false cs) := by
  cases cs with
  | nil => simp [singleLines, leading, StartsWord, isBlank, isBreak]
  | cons c cs =>
    have hc := h c (by simp)
    by_cases hquote : c = '\''
    · subst hquote
      simp [singleLines, leading, StartsWord, isBlank, isBreak]
    · simp [singleLines, leading, StartsWord, hc, hquote]

/-- Holds of texts that can stand between single quotes: all blanks are spaces, all line ends are
separators, and no line starts or ends with a space. -/
structure FitsSingle (text : List Char) : Prop where
  blank : ∀ c ∈ text, isBlank c = true → c = ' '
  lineFeed : '\n' ∉ text
  ends : hasPair (· = ' ') isBreak text = false
  starts : hasPair isBreak (· = ' ') text = false

namespace FitsSingle

theorem of_append (h : FitsSingle (cs ++ rest)) : FitsSingle rest :=
  ⟨fun c hc => h.blank c (List.mem_append_right _ hc),
    fun hc => h.lineFeed (List.mem_append_right _ hc), hasPair_of_append h.ends,
    hasPair_of_append h.starts⟩

/-- In a text that fits between single quotes spaces are followed by a word. -/
theorem startsWord_of_spaces {n : Nat} (h : FitsSingle (indentation (n + 1) ++ rest))
    (hspace : rest.head? ≠ some ' ') : StartsWord rest := by
  intro c hc
  obtain ⟨cs, rfl⟩ : ∃ cs, rest = c :: cs := List.head?_eq_some_iff.1 hc
  rw [indentation_succ', List.append_assoc, List.singleton_append] at h
  exact ⟨Bool.eq_false_iff.2 fun hblank => hspace (congrArg some (h.blank c (by simp) hblank)),
    not_hasPair h.ends rfl⟩

/-- In a text that fits between single quotes line breaks are followed by a word. -/
theorem startsWord_of_breaks (h : FitsSingle (x :: cs ++ rest))
    (hbreaks : ∀ c ∈ x :: cs, isBreak c = true) (hrest : ∀ c ∈ rest.head?, isBreak c = false) :
    StartsWord rest := by
  intro c hc
  obtain ⟨ds, rfl⟩ : ∃ ds, rest = c :: ds := List.head?_eq_some_iff.1 hc
  -- No space follows the last of the line ends.
  have hlast : x :: cs = (x :: cs).dropLast ++ [(x :: cs).getLast (by simp)] :=
    (List.dropLast_concat_getLast _).symm
  have hspace : decide (c = ' ') = false := by
    have := h.starts
    rw [hlast, List.append_assoc, List.singleton_append] at this
    exact not_hasPair this (hbreaks _ (List.getLast_mem _))
  refine ⟨Bool.eq_false_iff.2 fun hblank => ?_, hrest c hc⟩
  exact of_decide_eq_false hspace (h.blank c (by simp) hblank)

/-- Between single quotes there are spaces inside lines and line ends. -/
theorem quotes {text : List Char} (h : FitsSingle text) :
    Quotes .single column text (singleLines column false text) := by
  obtain ⟨run, more, htext, hrun, hmore⟩ := exists_splitAt isInWord text
  have hrunLine : OneLine run := fun c hc => (isInWord_iff.1 (hrun c hc)).2
  have hwrites : WritesRun .single run (run.flatMap singleChar) :=
    writesRun_flatMap fun c hc => readQuotedRun_singleChar (isInWord_iff.1 (hrun c hc))
  have hmoreFits : FitsSingle more := (htext ▸ h).of_append
  rw [htext, singleLines_append hrunLine]
  cases more with
  | nil =>
    rw [List.append_nil]
    exact .close hwrites
  | cons d ds =>
    -- Behind the run there is a line end or, as no other blank fits, a space.
    by_cases hbreak : isBreak d = true
    · obtain ⟨ends, next, rfl, hends, hnext⟩ := exists_splitAt isBreak ds
      rw [← List.cons_append] at hmoreFits
      have hstarts := hmoreFits.startsWord_of_breaks
        (List.forall_mem_cons.2 ⟨hbreak, hends⟩) hnext
      have hfirst : d ≠ '\n' := by
        rintro rfl
        exact hmoreFits.lineFeed (by simp)
      have hlength : next.length < text.length := by
        rw [htext]
        simp
        omega
      rw [← List.cons_append, singleLines_breaks hbreak hends, singleLines_true hnext]
      exact .broken hwrites ⟨hbreak, hfirst⟩ hends (startsWord_singleLines hstarts)
        (quotes hmoreFits.of_append)
    · have hd : d = ' ' := by
        have hword := hmore d (by simp)
        simp only [isInWord, hbreak, Bool.not_false, Bool.and_true, Bool.not_eq_false'] at hword
        exact hmoreFits.blank d (by simp) hword
      obtain ⟨n, next, hds, hnext⟩ := exists_indentation (d :: ds)
      cases n with
      | zero =>
        rw [indentation_zero, List.nil_append] at hds
        rw [← hds, hd] at hnext
        exact absurd rfl hnext
      | succ n =>
        have hlength : next.length < text.length := by
          rw [htext, hds]
          simp
          omega
        rw [hds] at hmoreFits ⊢
        rw [singleLines_append oneLine_indentation, flatMap_indentation rfl]
        exact .spaced hwrites n (startsWord_singleLines (hmoreFits.startsWord_of_spaces hnext))
          (quotes hmoreFits.of_append)
termination_by text.length

end FitsSingle

end LoginSettings.Yaml
