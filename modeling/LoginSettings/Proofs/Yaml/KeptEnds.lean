import LoginSettings.Document.Order
import LoginSettings.Proofs.Yaml.Lexing

/-!
# Line ends that are kept

A block that keeps all its line ends takes a line feed behind it for one of them. So the text of a
value that ends in such a block is, with a line feed more, the text of another value: of the one
whose last string has that line feed too.

* `exists_extends` — the other value, by induction on the first one
-/

namespace LoginSettings.Yaml

variable {c : Char} {cs ds text : List Char} {column n : Nat} {v w : Value}

/-! ## Texts that end in two line ends -/

theorem isBreak_of_endsTwice (h : endsTwice cs = true) (hc : cs.getLast? = some c) :
    isBreak c = true := by
  obtain ⟨init, d, rfl⟩ := exists_concat (fun hnil : cs = [] => by simp [hnil] at hc)
  rw [List.getLast?_concat, Option.some.injEq] at hc
  rw [endsTwice_concat, Bool.and_eq_true, hc] at h
  exact h.2

/-- What stands plain does not end in a line break, let alone in two. -/
theorem endsTwice_of_standsPlain (h : StandsPlain text) : endsTwice text = false := by
  refine Bool.eq_false_iff.2 fun htwice => ?_
  obtain ⟨c, hlast, hc⟩ := h.exists_getLast?
  rw [isBreak_of_endsTwice htwice hlast] at hc
  cases hc

/-- The last two characters of a text are in the part that starts with its last token. -/
theorem endsTwice_of_append (h : endsTwice (cs ++ ds) = true) (hds : BeginsToken ds) :
    endsTwice ds = true := by
  obtain ⟨d, ds, rfl, hd⟩ := hds
  obtain ⟨init, e, he⟩ := exists_concat (List.cons_ne_nil d ds)
  rw [he, ← List.append_assoc, endsTwice_concat] at h
  rw [he, endsTwice_concat]
  cases init with
  | nil =>
    -- A single character that starts a token ends no line.
    obtain rfl : d = e := (List.cons.inj he).1
    simp [startsGap] at hd
    simp [hd] at h
  | cons i is => rwa [List.getLast?_append_of_ne_nil _ (List.cons_ne_nil i is)] at h

/-! ## Strings -/

/-- A pair of a longer text is one of before, or has its second character at the end. -/
theorem hasPair_concat {p q : Char → Bool} (cs : List Char) (c : Char) :
    hasPair p q (cs ++ [c]) = (hasPair p q cs || (cs.getLast?.any p && q c)) := by
  induction cs with
  | nil => rfl
  | cons x xs ih =>
    cases xs with
    | nil => simp [hasPair]
    | cons y ys =>
      rw [List.cons_append] at ih
      simp [hasPair, ih, Bool.or_assoc]

/-- A text whose line ends are all kept ends in a line break. -/
theorem getLast?_of_chompSign (hkeep : chompSign text = ['+']) :
    ∃ c, text.getLast? = some c ∧ isBreak c = true := by
  have hnil : text ≠ [] := by
    rintro rfl
    cases hkeep
  obtain ⟨init, c, rfl⟩ := exists_concat hnil
  exact ⟨c, List.getLast?_concat, ((chompSign_concat init c).1 hkeep).1⟩

/-- A literal block whose line ends are all kept stays one with another line end. -/
theorem styleOf_concat (h : styleOf text = .literal) (hkeep : chompSign text = ['+']) :
    styleOf (text ++ ['\n']) = .literal := by
  obtain ⟨c, hc, hbreak⟩ := getLast?_of_chompSign hkeep
  have hspace : c ≠ ' ' := by
    rintro rfl
    cases hbreak
  have hescape : needsEscape text = false := needsEscape_of_styleOf (by simp [h])
  have hescape' : needsEscape (text ++ ['\n']) = false := by
    simp only [needsEscape, Bool.or_eq_false_iff] at hescape ⊢
    rw [hasPair_concat, hc, List.any_append, hescape.1, hescape.2]
    simp [hspace, isPrintable]
  simp [styleOf, hescape', allowsLiteral]

/-- Where all line ends are kept, another one is written as it is. -/
theorem literalBlock_concat (hkeep : chompSign text = ['+']) :
    literalBlock column (text ++ ['\n']) = literalBlock column text ++ ['\n'] := by
  obtain ⟨c, hc, hbreak⟩ := getLast?_of_chompSign hkeep
  have hchomp : chompSign (text ++ ['\n']) = ['+'] :=
    (chompSign_concat text '\n').2 ⟨rfl, by simp [hc, hbreak]⟩
  have hindent : indentSign (text ++ ['\n']) = indentSign text := by
    obtain ⟨x, xs, rfl⟩ := List.exists_cons_of_ne_nil (fun hnil : text = [] => by simp [hnil] at hc)
    rfl
  rw [literalBlock, literalBlock, hchomp, hindent, hkeep, literalLines_concat isBreak_lineFeed]
  simp

/-- Of the four styles only a block ends in line ends. -/
theorem styleOf_of_endsTwice (h : endsTwice (scalarText column text) = true) :
    styleOf text = .literal ∧ chompSign text = ['+'] := by
  have hquoted : ∀ q written, Quotes q column text written →
      endsTwice (q.char :: written) = true → False := by
    intro q written hquotes htwice
    have hbreak := isBreak_of_endsTwice htwice hquotes.getLast?_cons
    rw [isBreak_quoteChar] at hbreak
    cases hbreak
  unfold scalarText at h
  cases hstyle : styleOf text with
  | plain =>
    rw [hstyle] at h
    have hplain := endsTwice_of_standsPlain (standsPlain_of_styleOf hstyle).1
    cases h.symm.trans hplain
  | single =>
    rw [hstyle] at h
    exact (hquoted .single _ (fitsSingle_of_styleOf hstyle).quotes h).elim
  | double =>
    rw [hstyle] at h
    exact (hquoted .double _ (quotes_doubleChars text) h).elim
  | literal =>
    rw [hstyle] at h
    exact ⟨rfl, (endsTwice_literalBlock (List.ne_nil_of_mem (literal_of_styleOf hstyle).1)).1 h⟩

/-- Where what is written for a text ends in two line breaks, a further line end is written as it
is. -/
theorem scalarText_concat (h : endsTwice (scalarText n text) = true) :
    scalarText column (text ++ ['\n']) = scalarText column text ++ ['\n'] := by
  obtain ⟨hstyle, hkeep⟩ := styleOf_of_endsTwice h
  rw [scalarText, scalarText, styleOf_concat hstyle hkeep, hstyle]
  exact literalBlock_concat hkeep

/-! ## Values -/

/-- Holds of two values if the second one is like the first one, but with a line feed more at the
end of what is written for it. -/
structure Extends (v w : Value) : Prop where
  ne : w ≠ v
  whole : Json.Whole w
  ordered : v.Ordered → w.Ordered
  nesting : Json.nesting w = Json.nesting v
  flat : isFlat w = isFlat v
  inline : ∀ column, inlineChars column w = inlineChars column v ++ ['\n']
  member : ∀ column, memberValueChars column w = memberValueChars column v ++ ['\n']

/-- Parts on lines of their own are written one after another, the last one behind all others. -/
theorem exists_write_concat {α : Type} {write : List α → List Char}
    (hwrite : ∀ a b as, write (a :: b :: as) = onNextLine n (write [a]) (write (b :: as)))
    (init : List α) : ∃ before, ∀ a, write (init ++ [a]) = before ++ write [a] := by
  induction init with
  | nil => exact ⟨[], fun a => rfl⟩
  | cons b bs ih =>
    obtain ⟨before, hbefore⟩ := ih
    refine ⟨write [b] ++ nextLine (write [b]) n ++ before, fun a => ?_⟩
    obtain ⟨d, ds, hds⟩ := List.exists_cons_of_ne_nil (List.append_ne_nil_of_right_ne_nil bs
      (List.cons_ne_nil a []))
    rw [List.cons_append, hds, hwrite, ← hds, hbefore, onNextLine]
    simp

/-- If a last item gets another line end, so do all items together. -/
theorem itemChars_extends (h : Extends v w) (init : List Value) (column : Nat) :
    itemChars column (init ++ [w]) = itemChars column (init ++ [v]) ++ ['\n'] := by
  obtain ⟨before, hbefore⟩ := exists_write_concat (itemChars_cons column) init
  rw [hbefore, hbefore, itemChars, itemChars, h.inline]
  simp

/-- If the value of a last member gets another line end, so do all members together. -/
theorem memberChars_extends (h : Extends v w) (init : List (String × Value)) (key : String)
    (column : Nat) : memberChars column (init ++ [(key, w)])
      = memberChars column (init ++ [(key, v)]) ++ ['\n'] := by
  obtain ⟨before, hbefore⟩ := exists_write_concat (memberChars_cons column) init
  rw [hbefore, hbefore]
  simp only [memberChars, h.inline, h.member, onNextLine]
  split <;> simp

theorem itemsNesting_concat (items : List Value) (v : Value) :
    Json.itemsNesting (items ++ [v]) = max (Json.itemsNesting items) (Json.nesting v) := by
  induction items with
  | nil => simp [Json.itemsNesting]
  | cons w ws ih => rw [List.cons_append, Json.itemsNesting, Json.itemsNesting, ih, Nat.max_assoc]

theorem membersNesting_concat (members : List (String × Value)) (m : String × Value) :
    Json.membersNesting (members ++ [m])
      = max (Json.membersNesting members) (Json.nesting m.2) := by
  induction members with
  | nil => simp [Json.membersNesting]
  | cons m ms ih =>
    rw [List.cons_append, Json.membersNesting, Json.membersNesting, ih, Nat.max_assoc]

theorem isFlat_array {items : List Value} (hnil : items ≠ []) : isFlat (.array items) = false := by
  obtain ⟨v, vs, rfl⟩ := List.exists_cons_of_ne_nil hnil
  rfl

theorem isFlat_object {members : List (String × Value)} (hnil : members ≠ []) :
    isFlat (.object members) = false := by
  obtain ⟨m, ms, rfl⟩ := List.exists_cons_of_ne_nil hnil
  rfl

theorem inlineChars_array {items : List Value} (hnil : items ≠ []) (column : Nat) :
    inlineChars column (.array items) = itemChars column items ∧
      memberValueChars column (.array items) = newLine column ++ itemChars column items := by
  obtain ⟨v, vs, rfl⟩ := List.exists_cons_of_ne_nil hnil
  exact ⟨rfl, rfl⟩

theorem inlineChars_object {members : List (String × Value)} (hnil : members ≠ []) (column : Nat) :
    inlineChars column (.object members) = memberChars column members ∧
      memberValueChars column (.object members)
        = newLine (column + 2) ++ memberChars (column + 2) members := by
  obtain ⟨m, ms, rfl⟩ := List.exists_cons_of_ne_nil hnil
  exact ⟨rfl, rfl⟩

/-- What is written for a member ends in what is written for its value. -/
theorem exists_memberChars (column : Nat) (key : String) (v : Value) :
    ∃ lead column', memberChars column [(key, v)] = lead ++ inlineChars column' v := by
  obtain ⟨x, lead, inner, hlead, -⟩ := exists_memberValueChars column v
  simp only [memberChars, hlead, onNextLine]
  split
  · exact ⟨scalarText (column + 2) key.toList ++ ':' :: x :: lead, inner, by simp⟩
  · exact ⟨'?' :: ' ' :: scalarText (column + 2) key.toList ++
      nextLine ('?' :: ' ' :: scalarText (column + 2) key.toList) column ++ [':', ' '], column + 2,
      by simp⟩

/-- An array gets another line end with its last item. -/
theorem Extends.array {init : List Value} (h : Extends v w) (hwhole : ∀ u ∈ init, Json.Whole u) :
    Extends (.array (init ++ [v])) (.array (init ++ [w])) where
  ne heq := h.ne (by simpa using heq)
  whole := .array fun u hu => by
    rcases List.mem_append.1 hu with hu | hu
    · exact hwhole u hu
    · rw [List.mem_singleton.1 hu]
      exact h.whole
  ordered hordered := by
    cases hordered with
    | array hv => exact .array (by
        simp only [List.forall_mem_append, List.forall_mem_singleton] at hv ⊢
        exact ⟨hv.1, h.ordered hv.2⟩)
  nesting := by
    simp only [Json.nesting, itemsNesting_concat, h.nesting]
  flat := by rw [isFlat_array (by simp), isFlat_array (by simp)]
  inline column := by
    rw [(inlineChars_array (by simp) column).1, (inlineChars_array (by simp) column).1]
    exact itemChars_extends h init column
  member column := by
    rw [(inlineChars_array (by simp) column).2, (inlineChars_array (by simp) column).2,
      itemChars_extends h, List.append_assoc]

/-- An object gets another line end with the value of its last member. -/
theorem Extends.object {init : List (String × Value)} (h : Extends v w) (key : String)
    (hwhole : ∀ m ∈ init, Json.Whole m.2) :
    Extends (.object (init ++ [(key, v)])) (.object (init ++ [(key, w)])) where
  ne heq := h.ne (by simpa using heq)
  whole := .object fun m hm => by
    rcases List.mem_append.1 hm with hm | hm
    · exact hwhole m hm
    · rw [List.mem_singleton.1 hm]
      exact h.whole
  ordered hordered := by
    cases hordered with
    | object increasing hm =>
      -- the keys are the same
      refine .object ?_ ?_
      · simpa [Members.Increasing, List.pairwise_append] using increasing
      · simp only [List.forall_mem_append, List.forall_mem_singleton] at hm ⊢
        exact ⟨hm.1, h.ordered hm.2⟩
  nesting := by
    simp only [Json.nesting, membersNesting_concat, h.nesting]
  flat := by rw [isFlat_object (by simp), isFlat_object (by simp)]
  inline column := by
    rw [(inlineChars_object (by simp) column).1, (inlineChars_object (by simp) column).1]
    exact memberChars_extends h init key column
  member column := by
    rw [(inlineChars_object (by simp) column).2, (inlineChars_object (by simp) column).2,
      memberChars_extends h, List.append_assoc]

/-- **A text that ends in two line ends is, with a line feed more, the text of another value**,
whose last string has the line feed. -/
theorem exists_extends (hwhole : Json.Whole v)
    (h : endsTwice (inlineChars column v) = true) : ∃ w, Extends v w := by
  have hplain : ∀ {text}, endsTwice text = true → ¬StandsPlain text := fun htwice hplain => by
    cases htwice.symm.trans (endsTwice_of_standsPlain hplain)
  induction hwhole generalizing column with
  | null => exact absurd standsPlain_null (hplain h)
  | bool b => exact absurd (standsPlain_bool b) (hplain h)
  | number => exact absurd (standsPlain_intDigits _) (hplain h)
  | string s =>
    have htext : ∀ column, scalarText column (s ++ "\n").toList
        = scalarText column s.toList ++ ['\n'] := fun column => by
      rw [String.toList_append]
      exact scalarText_concat h
    refine ⟨.string (s ++ "\n"), ⟨fun heq => ?_, .string _, fun _ => .string _, rfl, rfl, htext,
      fun column => congrArg (' ' :: ·) (htext (column + 2))⟩⟩
    have hlength := congrArg String.length (Value.string.inj heq)
    rw [String.length_append] at hlength
    exact absurd hlength (Nat.succ_ne_self _)
  | @array items hitems ih =>
    by_cases hnil : items = []
    · subst hnil
      cases h
    · obtain ⟨init, v, rfl⟩ := exists_concat hnil
      obtain ⟨before, hbefore⟩ := exists_write_concat (itemChars_cons column) init
      rw [(inlineChars_array hnil column).1, hbefore, itemChars] at h
      -- What is written for the items ends in what is written for the last of them.
      have hv : Json.Whole v := hitems v (by simp)
      have hlast : endsTwice ((before ++ ['-', ' ']) ++ inlineChars (column + 2) v) = true := by
        simpa using h
      obtain ⟨w, hw⟩ := ih v (by simp) (endsTwice_of_append hlast (beginsToken_inlineChars hv _))
      exact ⟨_, hw.array fun u hu => hitems u (by simp [hu])⟩
  | @object members hmembers ih =>
    by_cases hnil : members = []
    · subst hnil
      cases h
    · obtain ⟨init, ⟨key, v⟩, rfl⟩ := exists_concat hnil
      obtain ⟨before, hbefore⟩ := exists_write_concat (memberChars_cons column) init
      rw [(inlineChars_object hnil column).1, hbefore] at h
      have hv : Json.Whole v := hmembers (key, v) (by simp)
      obtain ⟨lead, column', hlead⟩ := exists_memberChars column key v
      rw [hlead, ← List.append_assoc] at h
      obtain ⟨w, hw⟩ := ih (key, v) (by simp) (endsTwice_of_append h (beginsToken_inlineChars hv _))
      exact ⟨_, hw.object key fun m hm => hmembers m (by simp [hm])⟩

/-- The text of the other value is the one with the line feed. -/
theorem Extends.render_eq (h : Extends v w) (hlast : (render v).toList.getLast? ≠ some '\n') :
    render w = render v ++ "\n" := by
  have hbody : bodyChars w = bodyChars v ++ ['\n'] := by
    rw [bodyChars, bodyChars, h.flat, h.inline]
  rw [render_eq_body hlast, Yaml.render_eq, hbody, onNextLine, nextLine, List.getLast?_concat]
  simp [isBreak, indentation_zero, String.ofList_append]

end LoginSettings.Yaml
