import LoginSettings.Proofs.Yaml.Lexing

/-!
# Written text is printable

All characters that are written for a value are printable. So the whole text is allowed, and none of
its line ends is changed before reading starts.
-/

namespace LoginSettings.Yaml

variable {c : Char} {cs ds text : List Char} {column n : Nat} {v : Value}

/-- Holds of texts that are printable throughout. -/
def Printable (cs : List Char) : Prop := ∀ c ∈ cs, isPrintable c = true

@[simp] theorem printable_nil : Printable [] := nofun

@[simp] theorem printable_cons : Printable (c :: cs) ↔ isPrintable c = true ∧ Printable cs :=
  List.forall_mem_cons

@[simp] theorem printable_append : Printable (cs ++ ds) ↔ Printable cs ∧ Printable ds :=
  List.forall_mem_append

@[simp] theorem printable_indentation : Printable (indentation column) := by
  intro c hc
  rw [(List.mem_replicate.1 hc).2]
  rfl

@[simp] theorem printable_newLine : Printable (newLine column) :=
  printable_cons.2 ⟨rfl, printable_indentation⟩

theorem printable_onNextLine (hcs : Printable cs) (hds : Printable ds) :
    Printable (onNextLine n cs ds) := by
  rw [onNextLine, printable_append, printable_append]
  refine ⟨⟨hcs, ?_⟩, hds⟩
  unfold nextLine
  split <;> simp

/-! ## Reading printable texts -/

/-- Printable characters are allowed in a text. -/
theorem isAllowed_of_isPrintable (h : isPrintable c = true) : isAllowed c = true := by
  simp only [isPrintable, isAllowed, Bool.or_eq_true, Bool.and_eq_true, decide_eq_true_eq] at *
  omega

/-- In a printable text there are no line breaks other than line feeds. -/
theorem withLineFeeds_of_printable (h : Printable cs) : withLineFeeds cs = cs := by
  induction cs with
  | nil => rfl
  | cons c cs ih =>
    obtain ⟨hc, hcs⟩ := printable_cons.1 h
    have hreturn : c ≠ '\r' := by
      rintro rfl
      cases hc
    have hnext : c ≠ '\u0085' := by
      rintro rfl
      cases hc
    unfold withLineFeeds
    split <;> simp_all

/-- A printable text is read as it is. -/
theorem tokens_of_printable {text : String} (h : Printable text.toList) :
    tokens text = (Lexer.start text.toList).readAll := by
  rw [tokens, withLineFeeds_of_printable h,
    if_pos (List.all_eq_true.2 fun c hc => isAllowed_of_isPrintable (h c hc))]

/-! ## Scalars -/

theorem printable_leading (column : Nat) (lineStart : Bool) :
    Printable (leading column lineStart) := by
  unfold leading
  split <;> simp

/-- A printable text stays printable between single quotes. -/
theorem printable_singleLines {lineStart : Bool} (h : Printable text) :
    Printable (singleLines column lineStart text) := by
  induction text generalizing lineStart with
  | nil => exact printable_append.2 ⟨printable_leading _ _, by simp [isPrintable]⟩
  | cons c cs ih =>
    obtain ⟨hc, hcs⟩ := printable_cons.1 h
    rw [singleLines]
    split
    · exact printable_cons.2 ⟨hc, ih hcs⟩
    · refine printable_append.2 ⟨printable_append.2 ⟨printable_leading _ _, ?_⟩, ih hcs⟩
      split <;> simp_all

/-- A printable text stays printable as the lines of a literal block. -/
theorem printable_literalLines {lineStart : Bool} (h : Printable text) :
    Printable (literalLines column lineStart text) := by
  induction text generalizing lineStart with
  | nil => exact printable_nil
  | cons c cs ih =>
    obtain ⟨hc, hcs⟩ := printable_cons.1 h
    rw [literalLines]
    split
    · exact printable_cons.2 ⟨hc, ih hcs⟩
    · exact printable_append.2 ⟨printable_leading _ _, printable_cons.2 ⟨hc, ih hcs⟩⟩

theorem printable_literalBlock (h : Printable text) : Printable (literalBlock column text) := by
  have hindent : Printable (indentSign text) := by
    unfold indentSign
    split <;> simp [isPrintable]
  have hchomp : Printable (chompSign text) := by
    unfold chompSign
    split <;> (try split_ifs) <;> simp [isPrintable]
  have hsigns : Printable ('|' :: indentSign text ++ chompSign text) :=
    printable_append.2 ⟨printable_cons.2 ⟨rfl, hindent⟩, hchomp⟩
  exact printable_append.2 ⟨hsigns, printable_cons.2 ⟨rfl, printable_literalLines h⟩⟩

theorem printable_upperHex (value k : Nat) : Printable (upperHex value k) := by
  have hdigit : ∀ d < 16, isPrintable (Nat.digitChar d).toUpper = true := by decide
  induction k generalizing value with
  | zero => exact printable_nil
  | succ k ih =>
    rw [upperHex, printable_append, printable_cons]
    exact ⟨ih _, hdigit _ (Nat.mod_lt _ (by decide)), printable_nil⟩

/-- Whatever a character is, it is printable as it is written in double quotes. -/
theorem printable_doubleChar (c : Char) : Printable (doubleChar c) := by
  unfold doubleChar
  split
  · rename_i x hletter
    have hx : isPrintable x = true := by
      unfold escapeLetter? at hletter
      split at hletter <;> cases hletter <;> rfl
    exact printable_cons.2 ⟨rfl, printable_cons.2 ⟨hx, printable_nil⟩⟩
  · split_ifs with hprintable
    · exact printable_cons.2 ⟨hprintable, printable_nil⟩
    all_goals exact printable_cons.2 ⟨rfl, printable_cons.2 ⟨rfl, printable_upperHex _ _⟩⟩

/-- Every text is printable in double quotes. -/
theorem printable_doubleQuoted (text : List Char) : Printable (doubleQuoted text) := by
  refine printable_append.2 ⟨printable_cons.2 ⟨rfl, fun c hc => ?_⟩, by simp [isPrintable]⟩
  obtain ⟨d, -, hd⟩ := List.mem_flatMap.1 hc
  exact printable_doubleChar d c hd

/-- Texts are printable as they are written, be they printable themselves or not. -/
theorem printable_scalarText (column : Nat) (text : List Char) :
    Printable (scalarText column text) := by
  have hprintable : styleOf text ≠ .double → Printable text := fun h =>
    isPrintable_of_needsEscape (needsEscape_of_styleOf h)
  unfold scalarText
  cases h : styleOf text with
  | plain => exact hprintable (by simp [h])
  | single => exact printable_cons.2 ⟨rfl, printable_singleLines (hprintable (by simp [h]))⟩
  | double => exact printable_doubleQuoted text
  | literal => exact printable_literalBlock (hprintable (by simp [h]))

theorem isPrintable_of_isDigit (h : c.isDigit = true) : isPrintable c = true := by
  simp only [Char.isDigit, Bool.and_eq_true, decide_eq_true_eq, ge_iff_le] at h
  have hleast : 48 ≤ c.toNat := h.1
  have hgreatest : c.toNat ≤ 57 := h.2
  simp only [isPrintable, Bool.or_eq_true, Bool.and_eq_true, decide_eq_true_eq]
  omega

theorem printable_intDigits (n : Int) : Printable (Decimal.intDigits n) := by
  obtain ⟨c, cs, htext, hc, hcs, -⟩ := exists_intDigits n
  have hstart : c = '-' ∨ c.isDigit = true := by simpa [startsNumber] using hc
  rw [htext, printable_cons]
  refine ⟨?_, fun d hd => isPrintable_of_isDigit (hcs d hd)⟩
  rcases hstart with rfl | hdigit
  · rfl
  · exact isPrintable_of_isDigit hdigit

/-! ## Values -/

/-- Items are printable if each of them is. -/
theorem printable_itemChars {items : List Value}
    (h : ∀ v ∈ items, ∀ column, Printable (inlineChars column v)) (column : Nat) :
    Printable (itemChars column items) := by
  induction items with
  | nil => exact printable_nil
  | cons v vs ih =>
    obtain ⟨hv, hvs⟩ := List.forall_mem_cons.1 h
    have hone : Printable (itemChars column [v]) :=
      printable_cons.2 ⟨rfl, printable_cons.2 ⟨rfl, hv _⟩⟩
    cases vs with
    | nil => exact hone
    | cons w ws =>
      rw [itemChars_cons]
      exact printable_onNextLine hone (ih hvs)

/-- Members are printable if the values of all of them are. -/
theorem printable_memberChars {members : List (String × Value)}
    (h : ∀ m ∈ members, ∀ column, Printable (inlineChars column m.2) ∧
      Printable (memberValueChars column m.2)) (column : Nat) :
    Printable (memberChars column members) := by
  induction members with
  | nil => exact printable_nil
  | cons m ms ih =>
    obtain ⟨hm, hms⟩ := List.forall_mem_cons.1 h
    have hone : Printable (memberChars column [m]) := by
      obtain ⟨key, v⟩ := m
      have hkey := printable_scalarText (column + 2) key.toList
      simp only [memberChars]
      split
      · exact printable_append.2 ⟨hkey, printable_cons.2 ⟨rfl, (hm _).2⟩⟩
      · exact printable_onNextLine (printable_cons.2 ⟨rfl, printable_cons.2 ⟨rfl, hkey⟩⟩)
          (printable_cons.2 ⟨rfl, printable_cons.2 ⟨rfl, (hm _).1⟩⟩)
    cases ms with
    | nil => exact hone
    | cons p ms =>
      rw [memberChars_cons]
      exact printable_onNextLine hone (ih hms)

/-- What is written for a value is printable. -/
theorem printable_of_whole (hwhole : Json.Whole v) (column : Nat) :
    Printable (inlineChars column v) ∧ Printable (memberValueChars column v) := by
  induction hwhole generalizing column with
  | null => exact ⟨by simp [inlineChars, isPrintable], by simp [memberValueChars, isPrintable]⟩
  | bool b => cases b <;> simp [inlineChars, memberValueChars, isPrintable]
  | @number n _ _ =>
    exact ⟨printable_intDigits n, printable_cons.2 ⟨rfl, printable_intDigits n⟩⟩
  | string s =>
    exact ⟨printable_scalarText _ _, printable_cons.2 ⟨rfl, printable_scalarText _ _⟩⟩
  | @array items _ ih =>
    have hitems := printable_itemChars fun v hv column => (ih v hv column).1
    cases items with
    | nil => simp [inlineChars, memberValueChars, isPrintable]
    | cons v vs => exact ⟨hitems column, printable_append.2 ⟨printable_newLine, hitems column⟩⟩
  | @object members _ ih =>
    have hmembers := printable_memberChars fun m hm column => ih m hm column
    cases members with
    | nil => simp [inlineChars, memberValueChars, isPrintable]
    | cons m ms =>
      exact ⟨hmembers column, printable_append.2 ⟨printable_newLine, hmembers (column + 2)⟩⟩

/-- **What is written for a value is printable.** -/
theorem printable_render (hwhole : Json.Whole v) : Printable (render v).toList := by
  rw [render_eq, String.toList_ofList]
  exact printable_onNextLine (printable_of_whole hwhole _).1 printable_nil

/-- **The text of a value makes its tokens.** -/
theorem tokens_render (hwhole : Json.Whole v) : tokens (render v) = some (valueTokens false v) := by
  rw [tokens_of_printable (printable_render hwhole), readAll_render hwhole]

/-- So it does with one more line feed behind another line end, if its last line ends just once. -/
theorem tokens_render_lineFeed (hwhole : Json.Whole v)
    (hlast : (render v).toList.getLast? ≠ some '\n')
    (honce : endsTwice (render v).toList = false) :
    tokens (render v ++ "\n") = some (valueTokens false v) := by
  have hprintable : Printable (render v ++ "\n").toList := by
    rw [String.toList_append, printable_append]
    exact ⟨printable_render hwhole, printable_cons.2 ⟨rfl, printable_nil⟩⟩
  rw [tokens_of_printable hprintable, String.toList_append]
  exact readAll_render_lineFeed hwhole hlast honce

end LoginSettings.Yaml
