import LoginSettings.Proofs.Yaml.Cursors
import LoginSettings.Yaml.Block
import Mathlib.Data.List.Basic

/-!
# Literal blocks read back

A literal block is read line by line, with the blank lines behind each line. Nothing of the text is
lost on the way (`BlockText.whole`), and the header says how much of what is there at the end
belongs to it.
-/

namespace LoginSettings.Yaml

open Cursor

variable {c x : Char} {cs ends more rest text : List Char} {line column n m widest : Nat}

/-! ## Blank lines -/

section

variable {limit : Option Nat}

theorem readBlankLines_break (hx : isBreak x = true) :
    readBlankLines limit ends widest ⟨x :: rest, line, column⟩
      = readBlankLines limit (ends ++ [x]) (max widest column) ⟨rest, line + 1, 0⟩ := by
  have hspace : x ≠ ' ' := by
    rintro rfl
    cases hx
  have htab : x ≠ '\t' := by
    rintro rfl
    cases hx
  rw [readBlankLines]
  simp [hx, hspace, htab, past_of_isBreak]

/-- Line breaks at the beginning of lines are read as empty lines. -/
theorem readBlankLines_breaks (hcs : ∀ c ∈ cs, isBreak c = true) :
    readBlankLines limit ends widest ⟨cs ++ rest, line, 0⟩
      = readBlankLines limit (ends ++ cs) widest ⟨rest, line + cs.length, 0⟩ := by
  induction cs generalizing ends line with
  | nil => simp
  | cons c cs ih =>
    rw [List.forall_mem_cons] at hcs
    rw [List.cons_append, readBlankLines_break hcs.1, Nat.max_zero, ih hcs.2, List.append_assoc,
      List.length_cons, Nat.add_assoc, Nat.add_comm 1]
    rfl

/-- Spaces are passed over up to the limit. -/
theorem readBlankLines_indentation (hlimit : ∀ least ∈ limit, column + m ≤ least) :
    readBlankLines limit ends widest ⟨indentation m ++ rest, line, column⟩
      = readBlankLines limit ends widest ⟨rest, line, column + m⟩ := by
  induction m generalizing column with
  | zero => rfl
  | succ m ih =>
    have hindenting : (limit.all fun least => column < least) = true := by
      cases limit with
      | none => rfl
      | some least =>
        have := hlimit least rfl
        simp
        omega
    rw [readBlankLines]
    simp only [indentation_succ, List.cons_append, hindenting, Bool.true_and, decide_true, if_true,
      past_of_not_isBreak isBreak_space]
    rw [ih fun least hleast => by have := hlimit least hleast; omega, Nat.add_assoc, Nat.add_comm 1]

/-- The next line starts at the limit, or with a word. -/
theorem readBlankLines_of_line (hrest : ∀ c ∈ rest.head?, isBreak c = false)
    (hstart : limit = some column ∨ StartsWord rest) :
    readBlankLines limit ends widest ⟨rest, line, column⟩
      = some (ends, max widest column, ⟨rest, line, column⟩) := by
  rw [readBlankLines]
  split
  · rfl
  · rename_i x xs hxs
    simp only at hxs
    subst hxs
    have hbreak := hrest x (by simp)
    rcases hstart with rfl | hstart
    · simp [hbreak]
    · have hblank := (hstart x (by simp)).1
      simp only [isBlank, decide_eq_false_iff_not, not_or] at hblank
      simp [hbreak, hblank]

/-- Blank lines are read up to the line behind them. -/
theorem readBlankLines_append (hends : ∀ c ∈ ends, isBreak c = true)
    (hlimit : ∀ least ∈ limit, m ≤ least) (hrest : ∀ c ∈ rest.head?, isBreak c = false)
    (hstart : limit = some m ∨ StartsWord rest) :
    readBlankLines limit [] 0 ⟨ends ++ (indentation m ++ rest), line, 0⟩
      = some (ends, m, ⟨rest, line + ends.length, m⟩) := by
  rw [readBlankLines_breaks hends, readBlankLines_indentation (by simpa using hlimit),
    readBlankLines_of_line hrest (by simpa using hstart), Nat.zero_max, Nat.zero_add]
  rfl

end

/-! ## Lines -/

/-- Empty lines of a literal block are not indented. -/
theorem literalLines_breaks (rest : List Char) (hcs : ∀ c ∈ cs, isBreak c = true) :
    literalLines column true (cs ++ rest) = cs ++ literalLines column true rest := by
  induction cs with
  | nil => rfl
  | cons c cs ih =>
    rw [List.forall_mem_cons] at hcs
    rw [List.cons_append, literalLines, if_pos hcs.1, ih hcs.2]
    rfl

/-- Within a line a literal block is written as it is. -/
theorem literalLines_oneLine (hcs : OneLine cs) :
    literalLines column false (cs ++ rest) = cs ++ literalLines column false rest := by
  induction cs with
  | nil => rfl
  | cons c cs ih =>
    rw [oneLine_cons] at hcs
    rw [List.cons_append, literalLines, if_neg (by simp [hcs.1]), ih hcs.2]
    rfl

/-- A line of a literal block is indented. -/
theorem literalLines_true (hnil : cs ≠ []) (hcs : ∀ c ∈ cs.head?, isBreak c = false) :
    literalLines column true cs = indentation column ++ literalLines column false cs := by
  obtain ⟨c, cs, rfl⟩ := List.exists_cons_of_ne_nil hnil
  simp [literalLines, leading, hcs c (by simp)]

/-- A line that is not blank starts with no line end, whatever stands in front of it. -/
theorem isBreak_of_head?_literalLines (hx : isBreak x = false)
    (h : c ∈ (literalLines column false (x :: cs) ++ rest).head?) : isBreak c = false := by
  obtain rfl : x = c := by simpa [literalLines, leading, hx] using h
  exact hx

theorem exists_concat {α : Type} {xs : List α} (h : xs ≠ []) : ∃ init x, xs = init ++ [x] :=
  ⟨xs.dropLast, xs.getLast h, (List.dropLast_concat_getLast h).symm⟩

/-- The lines of a literal block end as its text does. -/
theorem getLast?_literalLines {lineStart : Bool} (hnil : text ≠ []) :
    (literalLines column lineStart text).getLast? = text.getLast? := by
  induction text generalizing lineStart with
  | nil => exact absurd rfl hnil
  | cons c cs ih =>
    have hmore : ∀ lineStart, (c :: literalLines column lineStart cs).getLast?
        = (c :: cs).getLast? := by
      intro lineStart
      cases cs with
      | nil => rfl
      | cons d ds => rw [List.getLast?_cons, ih (by simp), ← List.getLast?_cons]
    rw [literalLines]
    split
    · exact hmore true
    · rw [List.getLast?_append, hmore, List.getLast?_cons, Option.some_or]

/-- A last line break stands at the end of the lines, too. -/
theorem literalLines_concat {lineStart : Bool} (hc : isBreak c = true) :
    literalLines column lineStart (cs ++ [c]) = literalLines column lineStart cs ++ [c] := by
  induction cs generalizing lineStart with
  | nil => simp [literalLines, hc]
  | cons d ds ih =>
    simp only [List.cons_append, literalLines, ih]
    split <;> simp

theorem getLast?_literalBlock (hnil : text ≠ []) :
    (literalBlock column text).getLast? = text.getLast? := by
  have hlines : (literalLines column true text).getLast? = text.getLast? :=
    getLast?_literalLines hnil
  rw [literalBlock, List.getLast?_append, List.getLast?_cons, hlines,
    List.getLast?_eq_some_getLast hnil]
  rfl

/-! ## Texts that end in two line ends -/

/-- Holds of texts that end in two line ends. -/
def endsTwice (cs : List Char) : Bool :=
  match cs.reverse with
  | y :: x :: _ => isBreak x && isBreak y
  | _ => false

theorem endsTwice_concat (cs : List Char) (c : Char) :
    endsTwice (cs ++ [c]) = (cs.getLast?.any isBreak && isBreak c) := by
  rw [endsTwice, List.reverse_concat, ← List.head?_reverse]
  cases cs.reverse <;> rfl

/-- What ends in two line breaks does so with any text in front of it. -/
theorem endsTwice_append (h : endsTwice rest = true) : endsTwice (cs ++ rest) = true := by
  rw [endsTwice] at h ⊢
  rw [List.reverse_append]
  match hrest : rest.reverse with
  | [] | [_] => simp [hrest] at h
  | y :: x :: _ => simpa [hrest] using h

/-- All line ends are kept where the last character is one, and so is the one before if there is
one. -/
theorem chompSign_concat (cs : List Char) (c : Char) :
    chompSign (cs ++ [c]) = ['+'] ↔ isBreak c = true ∧ cs.getLast?.all isBreak = true := by
  rw [chompSign, List.reverse_concat, ← List.head?_reverse]
  by_cases hc : isBreak c = true
  · simp [hc]
  · simp [hc]

/-- A block that keeps its line ends ends in two of them. -/
theorem endsTwice_literalBlock (hnil : text ≠ []) :
    endsTwice (literalBlock column text) = true ↔ chompSign text = ['+'] := by
  obtain ⟨init, c, rfl⟩ := exists_concat hnil
  -- A block ends in what its text ends in; only where that is a line end the one before counts.
  by_cases hc : isBreak c = true
  · have hblock : literalBlock column (init ++ [c]) = ('|' :: indentSign (init ++ [c]) ++
        chompSign (init ++ [c]) ++ '\n' :: literalLines column true init) ++ [c] := by
      rw [literalBlock, literalLines_concat hc]
      simp
    have hlines : ('\n' :: literalLines column true init).getLast?.any isBreak
        = init.getLast?.all isBreak := by
      by_cases hinit : init = []
      · subst hinit
        rfl
      · have hlast : (literalLines column true init).getLast? = init.getLast? :=
          getLast?_literalLines hinit
        rw [List.getLast?_cons, hlast, List.getLast?_eq_some_getLast hinit]
        rfl
    rw [hblock, endsTwice_concat, chompSign_concat, List.getLast?_append, List.getLast?_cons,
      Option.some_or, ← List.getLast?_cons, hlines, hc, Bool.and_true]
    simp
  · have hlast : (literalBlock column (init ++ [c])).getLast? = some c := by
      rw [getLast?_literalBlock hnil, List.getLast?_concat]
    have hblock : literalBlock column (init ++ [c]) ≠ [] := by simp [literalBlock]
    obtain ⟨pre, d, hpre⟩ := exists_concat hblock
    rw [hpre, List.getLast?_concat, Option.some.injEq] at hlast
    rw [hpre, endsTwice_concat, chompSign_concat, hlast]
    simp [hc]

/-! ## What has been read of a block -/

namespace BlockText

/-- All that has been read. -/
def whole (b : BlockText) : List Char := b.text ++ b.lineEnd ++ b.blankLines

/-- Holds behind a line that is followed by its end and by blank lines. -/
structure AfterLine (b : BlockText) : Prop where
  text : ∃ cs c, b.text = cs ++ [c] ∧ isBreak c = false
  lineEnd : ∃ c, b.lineEnd = [c] ∧ isBreak c = true
  blankLines : ∀ c ∈ b.blankLines, isBreak c = true

end BlockText

/-- One line is read together with its end and the blank lines after it. -/
theorem readBlockLines_line {b : BlockText} {row after blank : List Char} {next : Cursor}
    (hrow : OneLine (x :: row)) (hc : isBreak c = true)
    (hblank : readBlankLines (some n) [] 0 ⟨after, line + 1, 0⟩ = some (blank, widest, next)) :
    readBlockLines true n b ⟨x :: (row ++ c :: after), line, n⟩
      = readBlockLines true n ⟨b.whole ++ x :: row, [c], blank, isBlank x⟩ next := by
  have hends : endsLine (c :: after) = true := by simpa [endsLine] using hc
  have hrun : run (fun _ => true) ⟨x :: row ++ c :: after, line, n⟩
      = (x :: row, ⟨c :: after, line, n + (x :: row).length⟩) := run_true_append hrow hends
  have hend : toLineEnd ⟨x :: row ++ c :: after, line, n⟩
      = ⟨c :: after, line, n + (x :: row).length⟩ := toLineEnd_append hrow hends
  have hpast : past ⟨c :: after, line, n + (x :: row).length⟩ = ⟨after, line + 1, 0⟩ :=
    past_of_isBreak hc
  rw [List.cons_append] at hrun hend
  have hjoined : b.joined true (isBlank x) = b.whole := rfl
  rw [readBlockLines]
  split
  · simp_all
  · rename_i y ys hys
    obtain ⟨rfl, -⟩ := List.cons.inj hys
    simp only [ne_eq, not_true_eq_false, if_false]
    split
    · rename_i hread
      rw [hend, hpast, hblank] at hread
      cases hread
    · rename_i hread
      rw [hend, hpast, hblank] at hread
      cases hread
      rw [hrun, hend, hjoined]
      rfl

/-- A block ends where a line is indented less. -/
theorem readBlockLines_of_column_lt {b : BlockText} (hm : m < n) :
    readBlockLines true n b ⟨rest, line, m⟩ = some (b, ⟨rest, line, m⟩) := by
  rw [readBlockLines]
  split
  · rfl
  · rw [if_pos (Nat.ne_of_lt hm)]

theorem afterLine_of_row {before row : List Char} {startsBlank : Bool} (hrow : OneLine (x :: row))
    (hc : isBreak c = true) (hends : ∀ c ∈ ends, isBreak c = true) :
    BlockText.AfterLine ⟨before ++ x :: row, [c], ends, startsBlank⟩ where
  text := by
    have hlast := List.dropLast_concat_getLast (List.cons_ne_nil x row)
    refine ⟨before ++ (x :: row).dropLast, (x :: row).getLast (by simp), ?_,
      hrow _ (List.getLast_mem _)⟩
    rw [List.append_assoc, hlast]
  lineEnd := ⟨c, rfl, hc⟩
  blankLines := hends

/-- Holds of texts made of lines with ends and blank lines after them. -/
inductive Rows : List Char → Prop where
  | last {x e : Char} {row ends : List Char} (hrow : OneLine (x :: row)) (he : isBreak e = true)
    (hends : ∀ c ∈ ends, isBreak c = true) : Rows (x :: row ++ e :: ends)
  | more {x e : Char} {row ends next : List Char} (hrow : OneLine (x :: row))
    (he : isBreak e = true) (hends : ∀ c ∈ ends, isBreak c = true) (hnext : Rows next) :
    Rows (x :: row ++ e :: (ends ++ next))

/-- Rows begin with a character that is no line break. -/
theorem Rows.exists_cons (h : Rows text) : ∃ c cs, text = c :: cs ∧ isBreak c = false := by
  cases h with
  | last hrow | more hrow => exact ⟨_, _, rfl, (oneLine_cons.1 hrow).1⟩

/-- A text that neither begins with a line break nor ends without one is made of rows. -/
theorem rows_of_getLast? {text : List Char} (hnil : text ≠ [])
    (hhead : ∀ c ∈ text.head?, isBreak c = false)
    (hlast : ∀ c ∈ text.getLast?, isBreak c = true) : Rows text := by
  obtain ⟨row, ended, htext, hrow, hended⟩ := exists_splitAt (fun c => !isBreak c) text
  have hrow' : OneLine row := fun c hc => by simpa using hrow c hc
  cases row with
  | nil =>
    -- The text does not start with a line end.
    obtain ⟨x, xs, rfl⟩ := List.exists_cons_of_ne_nil hnil
    rw [List.nil_append] at htext
    rw [← htext] at hended
    simp [hhead x rfl] at hended
  | cons x row =>
    cases ended with
    | nil =>
      -- The text ends in a line end, and there is none in a row.
      rw [htext, List.append_nil, List.getLast?_eq_some_getLast (by simp)] at hlast
      have := hlast _ rfl
      rw [hrow' _ (List.getLast_mem _)] at this
      cases this
    | cons e ended =>
      have he : isBreak e = true := by simpa using hended e rfl
      obtain ⟨ends, next, rfl, hends, hnext⟩ := exists_splitAt isBreak ended
      cases next with
      | nil =>
        rw [htext, List.append_nil]
        exact .last hrow' he hends
      | cons y next =>
        have htext' : text = x :: row ++ e :: ends ++ y :: next := by simp [htext]
        have hlength : (y :: next).length < text.length := by
          rw [htext']
          simp
          omega
        rw [htext', List.getLast?_append_of_ne_nil _ (List.cons_ne_nil y next)] at hlast
        rw [htext]
        exact .more hrow' he hends (rows_of_getLast? (by simp) hnext hlast)
termination_by text.length

/-- A row is written as it is, with the line breaks that follow it. -/
theorem literalLines_row {row : List Char} (next : List Char) (hrow : OneLine (x :: row))
    (hc : isBreak c = true) (hends : ∀ c ∈ ends, isBreak c = true) :
    literalLines n false (x :: row ++ c :: (ends ++ next))
      = x :: row ++ c :: (ends ++ literalLines n true next) := by
  rw [literalLines_oneLine hrow, literalLines.eq_def]
  simp only [hc, if_true, literalLines_breaks next hends]

/-- **The lines of a block are read to the end of its text**, from the first character of one on. -/
theorem Rows.readBlockLines (h : Rows text) (hm : m < n) (hrest : StartsWord rest)
    (b : BlockText) (line : Nat) :
    ∃ b' line', readBlockLines true n b
        ⟨literalLines n false text ++ (indentation m ++ rest), line, n⟩
          = some (b', ⟨rest, line', m⟩) ∧
      b'.whole = b.whole ++ text ∧ b'.AfterLine := by
  induction h generalizing b line with
  | @last x e row ends hrow he hends =>
    -- What comes next starts left of the block.
    have hread : readBlankLines (some n) [] 0 ⟨ends ++ (indentation m ++ rest), line + 1, 0⟩
        = some (ends, m, ⟨rest, line + 1 + ends.length, m⟩) :=
      readBlankLines_append hends (by simpa using Nat.le_of_lt hm) (fun c hc => (hrest c hc).2)
        (.inr hrest)
    have hlines : literalLines n false (x :: row ++ e :: ends) = x :: row ++ e :: ends := by
      simpa [literalLines] using literalLines_row [] hrow he hends
    refine ⟨⟨b.whole ++ x :: row, [e], ends, isBlank x⟩, line + 1 + ends.length, ?_, ?_,
      afterLine_of_row hrow he hends⟩
    · rw [hlines]
      simp only [List.append_assoc, List.cons_append]
      rw [readBlockLines_line hrow he hread, readBlockLines_of_column_lt hm]
    · simp [BlockText.whole]
  | @more x e row ends next hrow he hends hnext ih =>
    -- The next row is found where the indentation is complete, even if it starts with a space.
    obtain ⟨y, ys, rfl, hy⟩ := hnext.exists_cons
    have hlines : literalLines n true (y :: ys)
        = indentation n ++ literalLines n false (y :: ys) :=
      literalLines_true (by simp) (by simpa using hy)
    have hread : readBlankLines (some n) [] 0
        ⟨ends ++ (indentation n ++ (literalLines n false (y :: ys) ++ (indentation m ++ rest))),
          line + 1, 0⟩ = some (ends, n, ⟨literalLines n false (y :: ys) ++ (indentation m ++ rest),
            line + 1 + ends.length, n⟩) :=
      readBlankLines_append hends (by simp) (fun _ => isBreak_of_head?_literalLines hy) (.inl rfl)
    obtain ⟨b', line', hb', hwhole, hafter⟩ :=
      ih ⟨b.whole ++ x :: row, [e], ends, isBlank x⟩ (line + 1 + ends.length)
    refine ⟨b', line', ?_, ?_, hafter⟩
    · rw [literalLines_row _ hrow he hends, hlines]
      simp only [List.append_assoc, List.cons_append]
      rw [readBlockLines_line hrow he hread, hb']
    · rw [hwhole]
      simp [BlockText.whole]

/-! ## Headers -/

/-- The sign for how a block ends. -/
def Chomp.sign : Chomp → List Char
  | strip => ['-']
  | clip => []
  | keep => ['+']

/-- The text with a line end, unless it has one. -/
def ended (text : List Char) : List Char :=
  if text.getLast?.any isBreak then text else text ++ ['\n']

/-- A text begins as before once its last line has been ended. -/
theorem head?_ended (hnil : text ≠ []) : (ended text).head? = text.head? := by
  obtain ⟨c, cs, rfl⟩ := List.exists_cons_of_ne_nil hnil
  unfold ended
  split <;> rfl

theorem ended_ne_nil (hnil : text ≠ []) : ended text ≠ [] := by
  unfold ended
  split
  · exact hnil
  · simp

theorem isBreak_of_getLast?_ended (hends : ∀ c ∈ ends, isBreak c = true)
    (h : c ∈ (ended text ++ ends).getLast?) : isBreak c = true := by
  rw [List.getLast?_append] at h
  cases hlast : ends.getLast? with
  | some e =>
    obtain rfl : e = c := by simpa [hlast] using h
    exact hends e (List.mem_of_getLast? hlast)
  | none =>
    rw [hlast, Option.none_or, ended] at h
    split at h
    · rename_i hany
      rwa [Option.mem_def.1 h] at hany
    · obtain rfl : '\n' = c := by simpa using h
      rfl

theorem ended_of_forall_isBreak (hnil : text ≠ []) (h : ∀ c ∈ text, isBreak c = true) :
    ended text = text := by
  obtain ⟨init, c, rfl⟩ := exists_concat hnil
  simp [ended, h c (by simp)]

/-- Nothing is lost when the last line is ended. -/
theorem mem_ended (hc : c ∈ text) : c ∈ ended text := by
  unfold ended
  split
  · exact hc
  · exact List.mem_append_left _ hc

/-- Without a digit the first line shows the indentation. -/
theorem startsWord_of_indentSign (hsign : indentSign text = []) (htab : text.head? ≠ some '\t') :
    StartsWord text := by
  intro c hc
  have hnone : (c = ' ' || isBreak c) = false := by
    unfold indentSign at hsign
    split at hsign
    · cases hsign
    · rename_i h
      simpa [Option.mem_def.1 hc] using h
  have hne : c ≠ '\t' := fun h => htab (h ▸ hc)
  simp only [Bool.or_eq_false_iff, decide_eq_false_iff_not] at hnone
  exact ⟨by simp [isBlank, hnone.1, hne], hnone.2⟩

/-- The header of a literal block is read back. -/
theorem readHeader_signs (text rest : List Char) (chomp : Chomp) (line column : Nat) :
    ∃ column', readHeader ⟨indentSign text ++ (chomp.sign ++ '\n' :: rest), line, column⟩
      = (⟨chomp, if indentSign text = [] then none else some 2⟩,
        ⟨'\n' :: rest, line, column'⟩) := by
  have hdigit : Decimal.digitValue '2' = 2 := by decide
  unfold indentSign
  split <;> cases chomp <;>
    simp [readHeader, Chomp.sign, chomp?, hdigit, pastMany, past, isBreak, indent?]

/-- The line ends behind a text are told apart from it. -/
theorem takeWhile_isBreak_reverse (hx : isBreak x = false) (hends : ∀ c ∈ ends, isBreak c = true) :
    (cs ++ x :: ends).reverse.takeWhile isBreak = ends.reverse := by
  rw [List.reverse_append, List.reverse_cons, List.append_assoc,
    List.takeWhile_append_of_pos fun c hc => hends c (List.mem_reverse.1 hc)]
  simp [hx]

/-- The text of a block and the end of its last line are told by the last character that is no line
break. -/
theorem BlockText.AfterLine.eq_of_whole {b : BlockText} {y z : Char} (h : b.AfterLine)
    (hwhole : b.whole = cs ++ y :: z :: ends) (hy : isBreak y = false)
    (hends : ∀ c ∈ z :: ends, isBreak c = true) : b.text = cs ++ [y] ∧ b.lineEnd = [z] := by
  obtain ⟨init, c, htext, hc⟩ := h.text
  obtain ⟨e, he, hebreak⟩ := h.lineEnd
  have hread : init ++ c :: e :: b.blankLines = cs ++ y :: z :: ends := by
    simpa [BlockText.whole, htext, he] using hwhole
  -- No line end stands before them, so the ends of both are the same, and then what is before.
  have hsame : e :: b.blankLines = z :: ends := by
    have := congrArg (fun cs => cs.reverse.takeWhile isBreak) hread
    simp only [takeWhile_isBreak_reverse hy hends, takeWhile_isBreak_reverse hc
      (List.forall_mem_cons.2 ⟨hebreak, h.blankLines⟩)] at this
    exact List.reverse_inj.1 this
  have hinit : init ++ [c] = cs ++ [y] := by
    rw [hsame] at hread
    exact List.append_cancel_right (by simpa using hread)
  rw [htext, he, hinit, (List.cons.inj hsame).1]
  exact ⟨rfl, rfl⟩

/-- The sign says which of the line ends belong to the text. What stands behind them changes
nothing, unless all are kept. -/
theorem exists_chompSign (hnil : text ≠ []) (hends : ∀ c ∈ ends, isBreak c = true) :
    ∃ chomp : Chomp, chompSign text = chomp.sign ∧
      ((∀ c ∈ text, isBreak c = true) → chomp = .keep) ∧
      ((chomp = .keep → ends = []) →
        ∀ b : BlockText, b.AfterLine → b.whole = ended text ++ ends → b.chomped chomp = text) := by
  obtain ⟨init, z, rfl⟩ := exists_concat hnil
  by_cases hz : isBreak z = true
  · have hended : ended (init ++ [z]) = init ++ [z] := by simp [ended, hz]
    have hkept : ∀ b : BlockText, ends = [] → b.whole = init ++ [z] ++ ends →
        b.chomped .keep = init ++ [z] := by
      rintro b rfl h
      exact h.trans (List.append_nil _)
    rw [hended]
    -- The text ends in a line end: it is the only one, or all of the text, or there are more.
    by_cases hinit : init = []
    · subst hinit
      exact ⟨.keep, by simp [chompSign, hz, Chomp.sign], fun _ => rfl,
        fun hkeep b _ h => hkept b (hkeep rfl) h⟩
    · obtain ⟨init, y, rfl⟩ := exists_concat hinit
      by_cases hy : isBreak y = true
      · exact ⟨.keep, by simp [chompSign, hz, hy, Chomp.sign], fun _ => rfl,
          fun hkeep b _ h => hkept b (hkeep rfl) h⟩
      · refine ⟨.clip, by simp [chompSign, hz, hy, Chomp.sign], fun h => ?_, fun _ b hb h => ?_⟩
        · exact absurd (h y (by simp)) hy
        · obtain ⟨htext, hend⟩ := hb.eq_of_whole (by simpa using h) (by simpa using hy)
            (List.forall_mem_cons.2 ⟨hz, hends⟩)
          rw [BlockText.chomped, htext, hend]
  · refine ⟨.strip, by simp [chompSign, hz, Chomp.sign], fun h => absurd (h z (by simp)) hz,
      fun _ b hb h => ?_⟩
    have hended : ended (init ++ [z]) = init ++ [z] ++ ['\n'] := by simp [ended, hz]
    exact (hb.eq_of_whole (by simpa [hended] using h) (by simpa using hz)
      (List.forall_mem_cons.2 ⟨isBreak_lineFeed, hends⟩)).1

/-- A block is read from behind its indicator: its header, the blank lines in front of it and its
lines. -/
theorem readBlockScalar_of_lines {outer : Option Nat} {header : BlockHeader} {c d e : Cursor}
    {lines blank : List Char} {b : BlockText}
    (hheader : readHeader c = (header, ⟨'\n' :: lines, line, column⟩))
    (hblank : readBlankLines (header.indent.map (outer.getD 0 + ·)) [] 0 ⟨lines, line + 1, 0⟩
      = some (blank, widest, d))
    (hindent : (header.indent.map (outer.getD 0 + ·)).getD (max widest (outer.getD 0 + 1)) = n)
    (hlines : readBlockLines true n ⟨[], [], blank, false⟩ d = some (b, e)) :
    readBlockScalar true outer c = some (b.chomped header.chomp, e) := by
  have hskip : skipBlanks ⟨'\n' :: lines, line, column⟩ = ⟨'\n' :: lines, line, column⟩ :=
    skipBlanks_of_not_isBlank (by simp [isBlank])
  have hpast : past ⟨'\n' :: lines, line, column⟩ = ⟨lines, line + 1, 0⟩ := past_of_isBreak rfl
  cases outer <;> simp_all [readBlockScalar, endsLine]

theorem StartsWord.eq_nil_of_isBreak (h : StartsWord (ends ++ rest))
    (hends : ∀ c ∈ ends, isBreak c = true) : ends = [] := by
  cases ends with
  | nil => rfl
  | cons e es =>
    have he := (h e rfl).2
    rw [hends e (by simp)] at he
    cases he

/-- The lines of a text are read from the start of the first one. Where the indentation is not known
beforehand, the first line shows it. -/
theorem read_literalLines (hnil : text ≠ []) (hlast : ∀ c ∈ text.getLast?, isBreak c = true)
    (limit : Option Nat) (hlimit : limit = some n ∨ limit = none ∧ StartsWord text) (hm : m < n)
    (hrest : StartsWord rest) (line : Nat) :
    ∃ blank widest d b line',
      readBlankLines limit [] 0 ⟨literalLines n true text ++ (indentation m ++ rest), line, 0⟩
        = some (blank, widest, d) ∧
      (limit = none → widest = n) ∧
      readBlockLines true n ⟨[], [], blank, false⟩ d = some (b, ⟨rest, line', m⟩) ∧
      b.whole = text ∧ (b.AfterLine ∨ ∀ c ∈ text, isBreak c = true) := by
  obtain ⟨ends, rows, rfl, hends, hrows⟩ := exists_splitAt isBreak text
  have hleast : ∀ least ∈ limit, n ≤ least := by
    rcases hlimit with rfl | ⟨rfl, -⟩ <;> simp
  by_cases hnone : rows = []
  · -- The text is nothing but line ends, so the indentation is known.
    subst hnone
    have hsome : limit = some n := hlimit.resolve_right fun h =>
      hnil (by rw [h.2.eq_nil_of_isBreak hends, List.append_nil])
    have hlines : literalLines n true (ends ++ []) = ends := by
      rw [literalLines_breaks [] hends, literalLines, List.append_nil]
    have hread : readBlankLines limit [] 0
        ⟨literalLines n true (ends ++ []) ++ (indentation m ++ rest), line, 0⟩
          = some (ends, m, ⟨rest, line + ends.length, m⟩) := by
      rw [hlines]
      exact readBlankLines_append hends
        (fun least hleast' => Nat.le_trans (Nat.le_of_lt hm) (hleast least hleast'))
        (fun c hc => (hrest c hc).2) (.inr hrest)
    exact ⟨ends, m, _, ⟨[], [], ends, false⟩, _, hread, by simp [hsome],
      readBlockLines_of_column_lt hm, by simp [BlockText.whole], .inr (by simpa using hends)⟩
  · obtain ⟨y, ys, rfl⟩ := List.exists_cons_of_ne_nil hnone
    rw [List.getLast?_append_of_ne_nil _ hnone] at hlast
    have hy : isBreak y = false := hrows y rfl
    obtain ⟨b, line', hb, hwhole, hafter⟩ := (rows_of_getLast? hnone hrows hlast).readBlockLines hm
      hrest ⟨[], [], ends, false⟩ (line + ends.length)
    have hstart : limit = some n ∨
        StartsWord (literalLines n false (y :: ys) ++ (indentation m ++ rest)) := by
      refine hlimit.imp_right fun h => ?_
      have hword := h.2
      rw [h.2.eq_nil_of_isBreak hends, List.nil_append] at hword
      have hblank : isBlank y = false := (hword y rfl).1
      simp [StartsWord, literalLines, hy, leading, hblank]
    have hread : readBlankLines limit [] 0
        ⟨literalLines n true (ends ++ y :: ys) ++ (indentation m ++ rest), line, 0⟩
          = some (ends, n, ⟨literalLines n false (y :: ys) ++ (indentation m ++ rest),
            line + ends.length, n⟩) := by
      rw [literalLines_breaks _ hends, literalLines_true hnone hrows, List.append_assoc,
        List.append_assoc]
      exact readBlankLines_append hends hleast (fun _ => isBreak_of_head?_literalLines hy) hstart
    exact ⟨ends, n, _, b, line', hread, fun _ => rfl, hb, hwhole, .inl hafter⟩

/-- **A literal block is read back** from behind its indicator, up to what stands on the next line.
Line ends behind it do not count, unless it keeps them. -/
theorem readBlockScalar_literalBlock {outer : Option Nat} (hnil : text ≠ [])
    (htab : text.head? ≠ some '\t') (hends : ∀ c ∈ ends, isBreak c = true)
    (hkeep : chompSign text = ['+'] → ends = []) (hm : m < outer.getD 0 + 2)
    (hrest : StartsWord rest) (line column : Nat) :
    ∃ line', readBlockScalar true outer
        ⟨indentSign text ++ (chompSign text ++ '\n' ::
          (literalLines (outer.getD 0 + 2) true (ended text ++ ends) ++ (indentation m ++ rest))),
          line, column⟩
      = some (text, ⟨rest, line', m⟩) := by
  obtain ⟨chomp, hsign, hall, hchomped⟩ := exists_chompSign hnil hends
  have hkeep' : chomp = .keep → ends = [] := by
    rintro rfl
    exact hkeep hsign
  generalize hn : outer.getD 0 + 2 = n at hm ⊢
  obtain ⟨column', hheader⟩ := readHeader_signs text
    (literalLines n true (ended text ++ ends) ++ (indentation m ++ rest)) chomp line column
  rw [hsign]
  have hwholeNil : ended text ++ ends ≠ [] := by simp [ended_ne_nil hnil]
  have hstarts : indentSign text = [] → StartsWord (ended text ++ ends) := fun h => by
    have hstarts := startsWord_of_indentSign h htab
    exact StartsWord.append (by rwa [StartsWord, head?_ended hnil]) (ended_ne_nil hnil)
  have hlast : ∀ c ∈ (ended text ++ ends).getLast?, isBreak c = true := fun _ =>
    isBreak_of_getLast?_ended hends
  obtain ⟨blank, widest, d, b, line', hblank, hwidest, hlines, hwhole, hafter⟩ :=
    read_literalLines hwholeNil hlast
      ((if indentSign text = [] then none else some 2).map (outer.getD 0 + ·))
      (by by_cases h : indentSign text = [] <;> simp [h, hn, hstarts]) hm hrest (line + 1)
  have hindent : ((if indentSign text = [] then none else some 2).map (outer.getD 0 + ·)).getD
      (max widest (outer.getD 0 + 1)) = n := by
    by_cases h : indentSign text = []
    · have : widest = n := hwidest (by simp [h])
      simp [h]
      omega
    · simp [h, hn]
  refine ⟨line', ?_⟩
  rw [readBlockScalar_of_lines hheader hblank hindent hlines]
  rcases hafter with hafter | hbreaks
  · rw [hchomped hkeep' b hafter hwhole]
  · -- Nothing but line ends: the block keeps them all, and none may follow it.
    have htext : ∀ c ∈ text, isBreak c = true := fun c hc =>
      hbreaks c (List.mem_append_left _ (mem_ended hc))
    obtain rfl := hkeep' (hall htext)
    rw [ended_of_forall_isBreak hnil htext, List.append_nil] at hwhole
    rw [hall htext]
    exact congrArg (fun s => some (s, _)) hwhole

end LoginSettings.Yaml
