import LoginSettings.Proofs.Yaml.Block
import LoginSettings.Proofs.Yaml.Quoted
import LoginSettings.Proofs.Yaml.Steps
import Mathlib.Data.List.Basic
import Mathlib.Tactic.SplitIfs

/-!
# Scalars as tokens

The lexer reads a text in each of the four styles as one token, as the last thing on a line or, if
it is on one line, in front of the colon of a key.

* `reaches_scalarText` — texts at the end of a line
* `leadsTo_simpleKey` — keys on one line with their colon
-/

namespace LoginSettings.Yaml

open Cursor Lexer

variable {c d : Char} {cs ds text tail rest : List Char} {line column n : Nat} {read : List Token}
  {blocks : List Nat} {allowed : Bool}

/-! ## What stands behind a value -/

/-- Holds of what may follow a value in some blocks on the next line: a token that starts where the
innermost block does or further left, or the end of the text. -/
structure Follows (blocks : List Nat) (column : Nat) (rest : List Char) : Prop where
  starts : StartsToken rest
  column_le : column ≤ blocks.head?.getD 0
  last : blocks = [] → rest = []

theorem Follows.lt_least (h : Follows blocks column rest) {cursor : Cursor} :
    column < (between cursor read blocks allowed).least ∨ rest = [] := by
  cases blocks with
  | nil => exact .inr (h.last rfl)
  | cons block blocks => exact .inl (Nat.lt_succ_of_le h.column_le)

/-- Holds of texts whose last line ends just once. -/
structure EndsOnce (text : List Char) : Prop where
  last : ∃ c ∈ text.getLast?, isBreak c = true
  once : endsTwice text = false

/-- Holds of what stands behind a text if `rest` comes next, at a column of the next line: the end
of the line, where it has none, and the indentation. At the end of everything one more line feed may
stand behind a line that ends just once. -/
inductive Tail : Nat → List Char → List Char → List Char → Prop where
  | lineEnd {n : Nat} {text rest : List Char} : Tail n text rest (nextLine text n ++ rest)
  | spare {text : List Char} (h : EndsOnce text) : Tail 0 text [] ['\n']

/-- Only the end of a text counts. -/
theorem Tail.of_append (h : Tail n (cs ++ ds) rest tail) (hnil : ds ≠ []) :
    Tail n ds rest tail := by
  have hlast : (cs ++ ds).getLast? = ds.getLast? := List.getLast?_append_of_ne_nil cs hnil
  generalize htext : cs ++ ds = text at h
  cases h with
  | lineEnd =>
    have hnext : nextLine text n = nextLine ds n := by rw [nextLine, nextLine, ← htext, hlast]
    rw [hnext]
    exact .lineEnd
  | spare h =>
    subst htext
    have honce : endsTwice ds = false := Bool.eq_false_iff.2 fun htwice => by
      cases (endsTwice_append htwice).symm.trans h.once
    exact .spare ⟨hlast ▸ h.last, honce⟩

theorem Tail.of_cons (h : Tail n (c :: ds) rest tail) (hnil : ds ≠ []) : Tail n ds rest tail :=
  Tail.of_append (show Tail n ([c] ++ ds) rest tail from h) hnil

/-- Behind a text that ends no line there is a line end. -/
theorem Tail.eq_newLine (h : Tail n text rest tail) (hlast : text.getLast? = some c)
    (hc : isBreak c = false) : tail = newLine n ++ rest := by
  cases h with
  | lineEnd => simp [nextLine, hlast, hc]
  | spare h =>
    obtain ⟨d, hd, hbreak⟩ := h.last
    obtain rfl : c = d := by simpa [hlast] using hd
    rw [hc] at hbreak
    cases hbreak

/-! ## Plain scalars -/

/-- A text that stands plain may start a plain scalar. -/
theorem startsPlain_of_standsPlain (h : StandsPlain (c :: cs)) :
    startsPlain false c (cs ++ rest) = true := by
  obtain ⟨-, hopening, hsign, -⟩ := hasIndicator_cons.1 h.indicator
  by_cases hc : c = '?' ∨ c = ':' ∨ c = '-'
  · have hends : endsWord (cs ++ rest) = false := endsWord_append_of_false (hsign hc)
    cases hxs : cs ++ rest with
    | nil =>
      rw [hxs] at hends
      cases hends
    | cons x xs =>
      rw [hxs] at hends
      have hx := endsWord_cons.1 hends
      rcases hc with rfl | rfl | rfl <;> simp [startsPlain, hends, hx]
  · obtain ⟨c', cs', hcs, hword⟩ := h.words.exists_cons
    obtain ⟨rfl, rfl⟩ := List.cons.inj hcs
    have hindicator : isIndicator c = false := by
      simp_all [isOpeningIndicator, isIndicator]
    simp [startsPlain, isInWord_iff.1 hword, hindicator]

/-- A text that stands plain is read as a plain scalar. -/
theorem readToken_plain (h : StandsPlain (c :: cs)) (hd : d ≠ '-' ∧ d ≠ '.') :
    (between ⟨c :: cs ++ d :: rest, line, column⟩ read blocks allowed).readToken c (cs ++ d :: rest)
      = (between ⟨c :: cs ++ d :: rest, line, column⟩ read blocks allowed).readPlainToken := by
  obtain ⟨hhyphen, hdot⟩ := h.atMarker_eq_false rest line column hd
  obtain ⟨-, hopening, hsign, -⟩ := hasIndicator_cons.1 h.indicator
  have hstarts : startsPlain false c (cs ++ d :: rest) = true := startsPlain_of_standsPlain h
  have hends : c = '?' ∨ c = ':' ∨ c = '-' → endsWord (cs ++ d :: rest) = false := fun hc =>
    endsWord_append_of_false (hsign hc)
  simp only [isOpeningIndicator, List.contains_eq_mem, List.mem_cons, List.not_mem_nil, or_false,
    not_or, decide_eq_false_iff_not] at hopening
  simp only [between, List.cons_append] at hhyphen hdot ⊢
  -- Every other kind of token asks for a sign that `c` is not, or for a blank behind it.
  simp [readToken, hopening, hhyphen, hdot, inFlow, hstarts]
  grind

theorem StandsPlain.startsGap_eq_false (h : StandsPlain (c :: cs)) : startsGap c = false := by
  obtain ⟨-, hopening, -⟩ := hasIndicator_cons.1 h.indicator
  obtain ⟨c', cs', hcs, hword⟩ := h.words.exists_cons
  obtain ⟨rfl, rfl⟩ := List.cons.inj hcs
  have hsharp : c ≠ '#' := by
    rintro rfl
    cases hopening
  have hmark : c ≠ '\ufeff' := fun hc => h.mark (congrArg some hc)
  simp [startsGap, isInWord_iff.1 hword, hsharp, hmark]

/-- Reading a plain scalar leads to the place after it. -/
theorem leadsTo_of_readPlain (h : StandsPlain text)
    (hblocks : ∀ block ∈ blocks.head?, block ≤ column) (hd : d ≠ '-' ∧ d ≠ '.') {r : PlainReading}
    (hread : readPlain false
      (between ⟨text ++ d :: rest, line, column⟩ read blocks allowed).least [] (.blanks [])
        ⟨text ++ d :: rest, line, column⟩ = some r)
    (hlength : r.after.rest.length < (text ++ d :: rest).length) :
    LeadsTo (between ⟨text ++ d :: rest, line, column⟩ read blocks allowed)
      ⟨r.after, .scalar true r.text :: read, blocks, noted allowed blocks read line column, [],
        r.onNextLine⟩ := by
  obtain ⟨c, cs, rfl, -⟩ := h.words.exists_cons
  refine leadsTo_of_token h.startsGap_eq_false hblocks ?_ (Nat.le_of_lt_succ hlength)
  refine (readToken_plain h hd).trans ?_
  rw [readPlainToken, noteCandidate_between]
  exact congrArg (Option.bind · fun r : PlainReading => some (⟨r.after, .scalar true r.text :: read,
    blocks, noted allowed blocks read line column, [], r.onNextLine⟩ : Lexer)) hread

/-- A plain text at the end of a line. -/
theorem leadsTo_plain (h : StandsPlain text) (hblocks : ∀ block ∈ blocks.head?, block ≤ column)
    (hallowed : allowed = true → blocks.head? ≠ some column) (hfollows : Follows blocks n rest) :
    LeadsTo (between ⟨text ++ (newLine n ++ rest), line, column⟩ read blocks allowed)
      (between ⟨rest, line + 1, n⟩ (.scalar true text :: read) blocks true) :=
  (leadsTo_of_readPlain h hblocks (by decide)
    (h.readPlain_newLine hfollows.starts hfollows.lt_least) (by simp; omega)).trans
      (leadsTo_of_skipGap (passed_noted hallowed (Nat.lt_succ_self line))
        (skipGap_of_startsToken hfollows.starts false) hfollows.starts (Nat.le_refl _))

/-- A plain text in front of the colon of a key. -/
theorem leadsTo_plain_colon (h : StandsPlain text)
    (hblocks : ∀ block ∈ blocks.head?, block ≤ column) (hrest : endsWord rest = true) :
    LeadsTo (between ⟨text ++ ':' :: rest, line, column⟩ read blocks allowed)
      ⟨⟨':' :: rest, line, column + text.length⟩, .scalar true text :: read, blocks,
        noted allowed blocks read line column, [], false⟩ := by
  obtain ⟨c, cs, htext, -⟩ := h.words.exists_cons
  exact leadsTo_of_readPlain h hblocks (by decide) (h.readPlain_colon hrest)
    (by simp only [htext, List.length_append, List.length_cons]; omega)

/-! ## Quoted scalars -/

section

variable {q : Quote} {least : Nat} {written : List Char}

theorem readToken_quote :
    (between ⟨q.char :: cs, line, column⟩ read blocks allowed).readToken q.char cs
      = (between ⟨q.char :: cs, line, column⟩ read blocks allowed).readKeyPart fun c =>
          (readQuoted q [] c.past).map fun (s, d) => (.scalar false s, d) := by
  cases q <;> simp [readToken, atMarker, between, Quote.char]

/-- A quoted text, with all that is known of where it ends. -/
theorem leadsTo_of_quotes (h : Quotes q least text written) (hleast : least ≠ 0)
    (hblocks : ∀ block ∈ blocks.head?, block ≤ column) (hrest : rest.head? ≠ some '\'')
    (line : Nat) (read : List Token) (allowed : Bool) :
    ∃ after : Cursor,
      LeadsTo (between ⟨q.char :: (written ++ rest), line, column⟩ read blocks allowed)
        ⟨after, .scalar false text :: read, blocks, noted allowed blocks read line column, [],
          false⟩ ∧
      after.rest = rest ∧ line ≤ after.line ∧
      (OneLine written → after = ⟨rest, line, column + (written.length + 1)⟩) := by
  have hquote : startsGap q.char = false ∧ isBreak q.char = false := by
    cases q <;> exact ⟨rfl, rfl⟩
  obtain ⟨after, hafter, hafterRest, hline, hone⟩ :=
    h.readQuoted hleast hrest [] line (column + 1) (Nat.succ_ne_zero column)
  refine ⟨after, ?_, hafterRest, hline, fun hwritten => by rw [hone hwritten]; simp; omega⟩
  refine leadsTo_of_token hquote.1 hblocks ?_ (by simp [hafterRest])
  rw [readToken_quote, readKeyPart, noteCandidate_between]
  have hpast : past ⟨q.char :: (written ++ rest), line, column⟩
      = ⟨written ++ rest, line, column + 1⟩ := past_of_not_isBreak hquote.2
  simp [hpast, hafter, emit, allowKeys]

/-- A quoted text at the end of a line. -/
theorem reaches_quoted (h : Quotes q least text written) (hleast : least ≠ 0)
    (hblocks : ∀ block ∈ blocks.head?, block ≤ column)
    (hallowed : allowed = true → blocks.head? ≠ some column) (hrest : StartsToken rest) :
    (between ⟨q.char :: (written ++ (newLine n ++ rest)), line, column⟩ read blocks allowed).Reaches
      rest n (.scalar false text :: read) blocks := by
  have hnext : (newLine n ++ rest).head? ≠ some '\'' := by simp [newLine]
  obtain ⟨⟨rest', line', column'⟩, hleads, rfl, hline, -⟩ :=
    leadsTo_of_quotes h hleast hblocks hnext line read allowed
  exact (hleads.trans (leadsTo_of_skipGap (passed_noted hallowed (Nat.lt_succ_of_le hline))
    (skipGap_newLine hrest n) hrest (by simp))).reaches

end

/-! ## Literal blocks -/

/-- What stands behind a block is read as a part of it: the end of its last line, or a line end that
does not count. -/
theorem exists_tail_literalBlock (h : Tail n (literalBlock column text) rest tail)
    (hnil : text ≠ []) :
    ∃ ends, (∀ c ∈ ends, isBreak c = true) ∧ (chompSign text = ['+'] → ends = []) ∧
      literalBlock column text ++ tail
        = '|' :: (indentSign text ++ (chompSign text ++ '\n' ::
            (literalLines column true (ended text ++ ends) ++ (indentation n ++ rest)))) := by
  have hlast : (literalBlock column text).getLast? = text.getLast? := getLast?_literalBlock hnil
  generalize hblock : literalBlock column text = block at h
  cases h with
  | lineEnd =>
    refine ⟨[], by simp, fun _ => rfl, ?_⟩
    rw [hblock] at hlast
    rw [nextLine, hlast, ended, ← hblock]
    split
    · simp [literalBlock]
    · simp [literalBlock, literalLines_concat isBreak_lineFeed, newLine]
  | spare h =>
    subst hblock
    -- A block that ends just once is none that keeps its line ends.
    have hkeep : chompSign text ≠ ['+'] := fun hkeep => by
      have := h.once
      rw [(endsTwice_literalBlock hnil).2 hkeep] at this
      cases this
    refine ⟨['\n'], by simp [isBreak], fun h => absurd h hkeep, ?_⟩
    have hended : ended text = text := by
      obtain ⟨c, hc, hbreak⟩ := h.last
      rw [hlast] at hc
      simp [ended, Option.mem_def.1 hc, hbreak]
    simp [literalBlock, hended, literalLines_concat isBreak_lineFeed, indentation_zero]

/-- A literal block. -/
theorem reaches_literal (hnil : text ≠ []) (htab : text.head? ≠ some '\t')
    (hblocks : ∀ block ∈ blocks.head?, block ≤ column) (hfollows : Follows blocks n rest)
    (htail : Tail n (literalBlock (blocks.head?.getD 0 + 2) text) rest tail) :
    (between ⟨literalBlock (blocks.head?.getD 0 + 2) text ++ tail, line, column⟩ read blocks
      allowed).Reaches rest n (.scalar false text :: read) blocks := by
  obtain ⟨ends, hends, hkeep, hwritten⟩ := exists_tail_literalBlock htail hnil
  rw [hwritten]
  have hn : n < blocks.head?.getD 0 + 2 := Nat.lt_of_le_of_lt hfollows.column_le (by omega)
  obtain ⟨line', hread⟩ := readBlockScalar_literalBlock hnil htab hends hkeep hn
    hfollows.starts.startsWord line (column + 1)
  refine ⟨line', leadsTo_of_token rfl hblocks ?_ (by simp [between]; omega)⟩
  generalize indentSign text ++ _ = block at hread
  have hpast : past ⟨'|' :: block, line, column⟩ = ⟨block, line, column + 1⟩ :=
    past_of_not_isBreak rfl
  have htoken : (between ⟨'|' :: block, line, column⟩ read blocks allowed).readToken '|' block
      = (between ⟨'|' :: block, line, column⟩ read blocks allowed).readBlock true := by
    simp [readToken, between, atMarker, inFlow]
  rw [htoken, readBlock]
  simp [between, dropCandidate, hpast, hread, emit, allowKeys]

/-! ## Styles -/

/-- The space is the only blank that is printable. -/
theorem eq_space_of_isPrintable (h : isPrintable c = true) (hblank : isBlank c = true) :
    c = ' ' := by
  simp only [isBlank, decide_eq_true_eq] at hblank
  rcases hblank with rfl | rfl
  · rfl
  · cases h

/-- A text that needs no escapes is printable. -/
theorem isPrintable_of_needsEscape (h : needsEscape text = false) :
    ∀ c ∈ text, isPrintable c = true := by
  simp only [needsEscape, Bool.or_eq_false_iff, List.any_eq_false, Bool.not_eq_true',
    Bool.not_eq_false] at h
  exact h.1

/-- Whatever is not in double quotes needs no escape. -/
theorem needsEscape_of_styleOf (h : styleOf text ≠ .double) : needsEscape text = false := by
  unfold styleOf at h
  split at h
  · exact absurd rfl h
  · rename_i hescape
    exact Bool.eq_false_iff.2 hescape

/-- What is written plain stands plain, and is resolved to a string. -/
theorem standsPlain_of_styleOf (h : styleOf text = .plain) :
    StandsPlain text ∧ plainValue text = some (.string (String.ofList text)) := by
  have hprintable : ∀ c ∈ text, isPrintable c = true :=
    isPrintable_of_needsEscape (needsEscape_of_styleOf (by simp [h]))
  have hallows : allowsPlain text = true := by
    unfold styleOf at h
    split_ifs at h
    assumption
  simp only [allowsPlain, isPlainString, Bool.and_eq_true, decide_eq_true_eq, Bool.not_eq_true',
    List.any_eq_false, Bool.not_eq_true] at hallows
  obtain ⟨⟨⟨⟨⟨hstring, -⟩, hhead⟩, hlast⟩, hline⟩, hindicator⟩ := hallows
  have hnil : text ≠ [] := by
    rintro rfl
    cases hstring
  have hwords := words_of_oneLine hnil hhead hlast fun c hc => by
    by_cases hblank : isBlank c = true
    · exact .inl (eq_space_of_isPrintable (hprintable c hc) hblank)
    · exact .inr (by simp [isInWord, hblank, hline c hc])
  have hmark : text.head? ≠ some '\ufeff' := fun hc => by
    cases hprintable _ (List.mem_of_mem_head? hc)
  exact ⟨⟨hwords, hmark, hindicator⟩, hstring⟩

/-- What is written in single quotes fits between them. -/
theorem fitsSingle_of_styleOf (h : styleOf text = .single) : FitsSingle text := by
  have hescape : needsEscape text = false := needsEscape_of_styleOf (by simp [h])
  have hprintable := isPrintable_of_needsEscape hescape
  have hallows : ¬ text.contains '\n' = true ∧ allowsSingle text = true := by
    unfold styleOf at h
    split_ifs at h
    exact ⟨‹_›, ‹_›⟩
  simp only [needsEscape, Bool.or_eq_false_iff] at hescape
  exact ⟨fun c hc => eq_space_of_isPrintable (hprintable c hc), by simpa using hallows.1, hescape.2,
    by simpa [allowsSingle] using hallows.2⟩

/-- What is written as a literal block has a line feed in it, and no tab in front. -/
theorem literal_of_styleOf (h : styleOf text = .literal) :
    '\n' ∈ text ∧ text.head? ≠ some '\t' := by
  have hprintable : ∀ c ∈ text, isPrintable c = true :=
    isPrintable_of_needsEscape (needsEscape_of_styleOf (by simp [h]))
  have hcontains : text.contains '\n' = true := by
    unfold styleOf at h
    split_ifs at h
    assumption
  exact ⟨by simpa using hcontains, fun hc => by cases hprintable _ (List.mem_of_mem_head? hc)⟩

/-! ## Texts at the end of a line -/

theorem Words.oneLine (h : Words text) : OneLine text := by
  have hinWord : ∀ {word : List Char}, (∀ c ∈ word, isInWord c = true) → OneLine word :=
    fun hword c hc => (isInWord_iff.1 (hword c hc)).2
  induction h with
  | word hnil hword => exact hinWord hword
  | spaced hnil hword n hnext ih =>
    rw [oneLine_append, oneLine_append]
    exact ⟨hinWord hword, oneLine_indentation, ih⟩

/-- A text that stands without quotes ends no line. -/
theorem StandsPlain.exists_getLast? (h : StandsPlain text) :
    ∃ c, text.getLast? = some c ∧ isBreak c = false := by
  obtain ⟨c, cs, rfl, -⟩ := h.words.exists_cons
  exact ⟨_, List.getLast?_eq_some_getLast (List.cons_ne_nil c cs),
    h.words.oneLine _ (List.getLast_mem _)⟩

/-- Texts in quotes end in a quote. -/
theorem Quotes.getLast? {q : Quote} {least : Nat} {written : List Char}
    (h : Quotes q least text written) : written.getLast? = some q.char := by
  induction h with
  | close hrun => exact List.getLast?_concat
  | spaced hrun n hstarts hnext ih | broken hrun hfirst hends hstarts hnext ih =>
    simp only [List.getLast?_append, ih, Option.some_or]

theorem Quotes.getLast?_cons {q : Quote} {least : Nat} {written : List Char}
    (h : Quotes q least text written) : (q.char :: written).getLast? = some q.char := by
  rw [List.getLast?_cons, h.getLast?]
  rfl

theorem isBreak_quoteChar (q : Quote) : isBreak q.char = false := by
  cases q <;> rfl

/-- A text that stands without quotes is read at the end of a line. -/
theorem reaches_plain (h : StandsPlain text) (hblocks : ∀ block ∈ blocks.head?, block ≤ column)
    (hallowed : allowed = true → blocks.head? ≠ some column) (hfollows : Follows blocks n rest)
    (htail : Tail n text rest tail) :
    (between ⟨text ++ tail, line, column⟩ read blocks allowed).Reaches rest n
      (.scalar true text :: read) blocks := by
  obtain ⟨c, hlast, hc⟩ := h.exists_getLast?
  rw [htail.eq_newLine hlast hc]
  exact (leadsTo_plain h hblocks hallowed hfollows).reaches

/-- **A text is read as one token, in whichever style it is written.** -/
theorem reaches_scalarText (text : List Char) (hblocks : ∀ block ∈ blocks.head?, block ≤ column)
    (hallowed : allowed = true → blocks.head? ≠ some column) (hfollows : Follows blocks n rest)
    (htail : Tail n (scalarText (blocks.head?.getD 0 + 2) text) rest tail) :
    (between ⟨scalarText (blocks.head?.getD 0 + 2) text ++ tail, line, column⟩ read blocks
      allowed).Reaches rest n (.scalar (styleOf text = .plain) text :: read) blocks := by
  have hquoted : ∀ {q written}, Quotes q (blocks.head?.getD 0 + 2) text written →
      Tail n (q.char :: written) rest tail →
      (between ⟨q.char :: written ++ tail, line, column⟩ read blocks allowed).Reaches rest n
        (.scalar false text :: read) blocks := by
    intro q written h htail
    rw [htail.eq_newLine h.getLast?_cons (isBreak_quoteChar q)]
    exact reaches_quoted h (Nat.succ_ne_zero _) hblocks hallowed hfollows.starts
  unfold scalarText at htail ⊢
  cases hstyle : styleOf text with
  | plain =>
    rw [hstyle] at htail
    exact reaches_plain (standsPlain_of_styleOf hstyle).1 hblocks hallowed hfollows htail
  | single =>
    rw [hstyle] at htail
    exact hquoted (fitsSingle_of_styleOf hstyle).quotes htail
  | double =>
    rw [hstyle] at htail
    exact hquoted (quotes_doubleChars text) htail
  | literal =>
    rw [hstyle] at htail
    obtain ⟨hbreak, htab⟩ := literal_of_styleOf hstyle
    exact reaches_literal (List.ne_nil_of_mem hbreak) htab hblocks hfollows htail

/-! ## Keys on one line -/

/-- A text has at least as many bytes as characters. -/
theorem length_le_utf8ByteSize (cs : List Char) : cs.length ≤ (String.ofList cs).utf8ByteSize := by
  induction cs with
  | nil => exact Nat.zero_le _
  | cons c cs ih =>
    rw [String.ofList_cons, String.utf8ByteSize_append, String.utf8ByteSize_singleton,
      List.length_cons]
    have := c.utf8Size_pos
    omega

theorem oneLine_singleChar (hc : isBreak c = false) : OneLine (singleChar c) := by
  unfold singleChar
  split
  · simp [isBreak]
  · simpa using hc

/-- At most six characters are written for one between single quotes. -/
theorem length_singleChar_le (c : Char) : (singleChar c).length ≤ 6 := by
  unfold singleChar
  split <;> simp

/-- No line break is written between double quotes. -/
theorem oneLine_doubleChar (c : Char) : OneLine (doubleChar c) := by
  unfold doubleChar
  split
  · rename_i x hletter
    have hline : isBreak x = false := (escapeLetter?_spec hletter []).1
    exact oneLine_cons.2 ⟨rfl, oneLine_cons.2 ⟨hline, oneLine_nil⟩⟩
  · rename_i hletter
    have hhex : ∀ x k, isBreak x = false → OneLine ('\\' :: x :: upperHex c.toNat k) :=
      fun x k hx => oneLine_cons.2 ⟨rfl, oneLine_cons.2 ⟨hx, oneLine_upperHex _ _⟩⟩
    split
    · have hbreak : isBreak c = false := by
        simp only [isBreak, decide_eq_false_iff_not]
        rintro (rfl | rfl | rfl) <;> cases hletter
      simpa using hbreak
    · split
      · exact hhex 'x' 2 rfl
      · split
        · exact hhex 'u' 4 rfl
        · exact hhex 'U' 8 rfl

/-- No character needs more than an escape of four digits: those further up are printable. -/
theorem length_doubleChar_le (c : Char) : (doubleChar c).length ≤ 6 := by
  unfold doubleChar
  split
  · simp
  · split
    · simp
    · rename_i hprintable
      split
      · simp [length_upperHex]
      · split
        · simp [length_upperHex]
        · rename_i hlarge
          refine absurd ?_ hprintable
          simp [isPrintable]
          omega

theorem oneLine_flatMap {write : Char → List Char} (h : ∀ c ∈ cs, OneLine (write c)) :
    OneLine (cs.flatMap write) := by
  intro x hx
  obtain ⟨c, hc, hxc⟩ := List.mem_flatMap.1 hx
  exact h c hc x hxc

theorem length_flatMap_le {write : Char → List Char} {k : Nat} (h : ∀ c, (write c).length ≤ k)
    (cs : List Char) : (cs.flatMap write).length ≤ k * cs.length := by
  induction cs with
  | nil => exact Nat.zero_le _
  | cons c cs ih =>
    rw [List.flatMap_cons, List.length_append, List.length_cons, Nat.mul_succ]
    have := h c
    omega

/-- A simple key has no line break, and is not too long to be one. -/
theorem oneLine_of_isSimpleKey {key : String} (hkey : isSimpleKey key = true) :
    OneLine key.toList ∧ key.toList.length ≤ longestSimpleKey := by
  simp only [isSimpleKey, Bool.and_eq_true, Bool.not_eq_true', List.any_eq_false, decide_eq_true_eq,
    Bool.or_eq_true, not_or, Bool.not_eq_true] at hkey
  have hlength := length_le_utf8ByteSize key.toList
  rw [String.ofList_toList] at hlength
  exact ⟨fun c hc => (hkey.1 c hc).1.1, Nat.le_trans hlength hkey.2⟩

/-- What may be written for a key between quotes is on one line, and short enough for a key. -/
theorem exists_quotes_of_isSimpleKey {key : String} (hkey : isSimpleKey key = true) {k : Nat}
    (hstyle : styleOf key.toList ≠ .plain) :
    ∃ q written, Quotes q k key.toList written ∧
      scalarText k key.toList = q.char :: written ∧ OneLine written ∧
      written.length + 1 ≤ longestKey := by
  obtain ⟨hline, hlength⟩ := oneLine_of_isSimpleKey hkey
  have hbound : ∀ {write : Char → List Char} {last : Char}, (∀ c, (write c).length ≤ 6) →
      (key.toList.flatMap write ++ [last]).length + 1 ≤ longestKey := fun hwrite => by
    have := length_flatMap_le hwrite key.toList
    rw [List.length_append, List.length_singleton]
    simp only [longestSimpleKey, longestKey] at *
    omega
  unfold scalarText
  cases h : styleOf key.toList with
  | plain => exact absurd h hstyle
  | single =>
    have hlines : singleLines k false key.toList = key.toList.flatMap singleChar ++ ['\''] := by
      have hclosed : singleLines k false (key.toList ++ [])
          = key.toList.flatMap singleChar ++ singleLines k false [] := singleLines_append hline
      simpa [singleLines, leading] using hclosed
    refine ⟨.single, _, (fitsSingle_of_styleOf h).quotes, rfl, ?_, ?_⟩
    · rw [hlines, oneLine_append]
      exact ⟨oneLine_flatMap fun c hc => oneLine_singleChar (hline c hc), by simp [isBreak]⟩
    · rw [hlines]
      exact hbound length_singleChar_le
  | double =>
    refine ⟨.double, _, quotes_doubleChars _, rfl, ?_, hbound length_doubleChar_le⟩
    rw [oneLine_append]
    exact ⟨oneLine_flatMap fun c _ => oneLine_doubleChar c, by simp [isBreak]⟩
  | literal =>
    -- A key on one line has no line feed.
    have := hline _ (literal_of_styleOf h).1
    cases this

/-- **A key on one line is read with the colon behind it**, which opens a mapping in front of it
unless it stands in one. -/
theorem leadsTo_simpleKey {key : String} (hkey : isSimpleKey key = true) {blocks' : List Nat}
    {read' : List Token} (h : BlockAt .blockMappingStart column blocks read blocks' read') {k : Nat}
    (hk : k ≠ 0) (hrest : endsWord rest = true) (line : Nat) :
    ∃ column', column ≤ column' ∧
      LeadsTo (between ⟨scalarText k key.toList ++ ':' :: rest, line, column⟩ read blocks true)
        (between ⟨rest, line, column'⟩ (.value :: .scalar (styleOf key.toList = .plain) key.toList
          :: .key :: read') blocks' false) := by
  by_cases hstyle : styleOf key.toList = .plain
  · have hlength : key.toList.length ≤ longestKey :=
      Nat.le_trans (oneLine_of_isSimpleKey hkey).2 (by decide)
    refine ⟨column + key.toList.length + 1, by omega, ?_⟩
    simp only [scalarText, hstyle, decide_true]
    exact (leadsTo_plain_colon (standsPlain_of_styleOf hstyle).1 h.head?_le hrest).trans
      (leadsTo_value_of_candidate h hlength hrest)
  · obtain ⟨q, written, hquotes, htext, hline, hlength⟩ :=
      exists_quotes_of_isSimpleKey hkey (k := k) hstyle
    have hcolon : (':' :: rest).head? ≠ some '\'' := by simp
    obtain ⟨after, hleads, -, -, hone⟩ :=
      leadsTo_of_quotes hquotes hk h.head?_le hcolon line read true
    rw [hone hline] at hleads
    refine ⟨column + (written.length + 1) + 1, by omega, ?_⟩
    simp only [htext, hstyle, decide_false]
    exact hleads.trans (leadsTo_value_of_candidate h hlength hrest)

end LoginSettings.Yaml
