import LoginSettings.Yaml.Printer

/-!
# Moving through YAML texts

Where a position gets to that passes a text: over a text on one line, over the spaces at the start
of a line, and over the gap between two words. What stands behind the text is left open.
-/

namespace LoginSettings.Yaml

variable {x : Char} {cs rest : List Char} {line column : Nat}

/-! ## Characters -/

/-- Holds of texts without line ends. -/
def OneLine (cs : List Char) : Prop := ∀ c ∈ cs, isBreak c = false

@[simp] theorem oneLine_nil : OneLine [] := nofun

@[simp] theorem oneLine_cons : OneLine (x :: cs) ↔ isBreak x = false ∧ OneLine cs :=
  List.forall_mem_cons

@[simp] theorem oneLine_append {ds : List Char} :
    OneLine (cs ++ ds) ↔ OneLine cs ∧ OneLine ds :=
  List.forall_mem_append

@[simp] theorem isBreak_space : isBreak ' ' = false := rfl

@[simp] theorem isBreak_lineFeed : isBreak '\n' = true := rfl

@[simp] theorem isBlank_space : isBlank ' ' = true := rfl

/-- Holds of the characters of words. -/
def isInWord (c : Char) : Bool := !isBlank c && !isBreak c

/-- Words are made of what is neither blank nor a line break. -/
theorem isInWord_iff : isInWord x = true ↔ isBlank x = false ∧ isBreak x = false := by
  simp [isInWord]

/-- Holds of texts whose first character, if there is one, is neither a blank nor a line end. -/
def StartsWord (cs : List Char) : Prop := ∀ c ∈ cs.head?, isBlank c = false ∧ isBreak c = false

theorem StartsWord.append (h : StartsWord cs) (hnil : cs ≠ []) : StartsWord (cs ++ rest) := by
  cases cs with
  | nil => exact absurd rfl hnil
  | cons c cs => exact h

@[simp] theorem oneLine_indentation : OneLine (indentation column) := by
  intro c hc
  rw [(List.mem_replicate.1 hc).2]
  rfl

@[simp] theorem length_indentation : (indentation column).length = column := List.length_replicate

@[simp] theorem indentation_zero : indentation 0 = [] := rfl

theorem indentation_succ : indentation (column + 1) = ' ' :: indentation column := rfl

theorem indentation_succ' : indentation (column + 1) = indentation column ++ [' '] :=
  List.replicate_succ'

/-- A list starts with what satisfies a condition; then comes something that does not, or
nothing. -/
theorem exists_splitAt {α : Type} (p : α → Bool) (xs : List α) :
    ∃ ys zs, xs = ys ++ zs ∧ (∀ y ∈ ys, p y = true) ∧ ∀ z ∈ zs.head?, p z = false := by
  refine ⟨xs.takeWhile p, xs.dropWhile p, List.takeWhile_append_dropWhile.symm,
    fun y hy => List.all_eq_true.1 List.all_takeWhile y hy, fun z hz => ?_⟩
  have := List.head?_dropWhile_not p xs
  rw [Option.mem_def.1 hz] at this
  simpa using this

/-- A list starts with some spaces, or none. -/
theorem exists_indentation (cs : List Char) :
    ∃ n next, cs = indentation n ++ next ∧ next.head? ≠ some ' ' := by
  obtain ⟨spaces, next, rfl, hspaces, hnext⟩ := exists_splitAt (fun c => decide (c = ' ')) cs
  have hspaces' : spaces = indentation spaces.length :=
    List.eq_replicate_of_mem fun c hc => of_decide_eq_true (hspaces c hc)
  exact ⟨spaces.length, next, by rw [← hspaces'], fun h => by simpa using hnext ' ' h⟩

/-! ## Positions -/

namespace Cursor

theorem past_of_not_isBreak (h : isBreak x = false) :
    past ⟨x :: rest, line, column⟩ = ⟨rest, line, column + 1⟩ := by
  simp [past, h]

theorem past_of_isBreak (h : isBreak x = true) :
    past ⟨x :: rest, line, column⟩ = ⟨rest, line + 1, 0⟩ := by
  simp [past, h]

/-- Past a text on one line the column has moved by its length. -/
theorem pastMany_append (h : OneLine cs) :
    pastMany ⟨cs ++ rest, line, column⟩ cs.length = ⟨rest, line, column + cs.length⟩ := by
  induction cs generalizing column with
  | nil => rfl
  | cons c cs ih =>
    rw [oneLine_cons] at h
    rw [List.length_cons, pastMany, List.cons_append, past_of_not_isBreak h.1, ih h.2,
      Nat.add_assoc, Nat.add_comm 1]

/-- A run ends where its condition fails, or at the end of the line. -/
theorem run_append {p : Char → Bool} (h : ∀ c ∈ cs, p c = true) (hline : OneLine cs)
    (hrest : ∀ c ∈ rest.head?, p c = false ∨ isBreak c = true) :
    run p ⟨cs ++ rest, line, column⟩ = (cs, ⟨rest, line, column + cs.length⟩) := by
  have hcs : ∀ c ∈ cs, (p c && !isBreak c) = true := fun c hc => by simp [h c hc, hline c hc]
  have htake : (cs ++ rest).takeWhile (fun x => p x && !isBreak x) = cs := by
    rw [List.takeWhile_append_of_pos hcs]
    cases rest with
    | nil => simp
    | cons r rs =>
      rw [List.takeWhile_cons_of_neg, List.append_nil]
      rcases hrest r (by simp) with h | h <;> simp [h]
  simp [run, htake]

theorem run_true_append (h : OneLine cs) (hrest : endsLine rest = true) :
    run (fun _ => true) ⟨cs ++ rest, line, column⟩ = (cs, ⟨rest, line, column + cs.length⟩) := by
  refine run_append (fun _ _ => rfl) h fun c hc => .inr ?_
  cases rest with
  | nil => simp at hc
  | cons r rs =>
    rw [List.head?_cons, Option.mem_some_iff] at hc
    rwa [← hc]

/-- The end of a line comes right after the text that is left on it. -/
theorem toLineEnd_append (h : OneLine cs) (hrest : endsLine rest = true) :
    toLineEnd ⟨cs ++ rest, line, column⟩ = ⟨rest, line, column + cs.length⟩ := by
  rw [toLineEnd, run_true_append h hrest]

/-- Where no blank stands there is nothing to skip. -/
theorem skipBlanks_of_not_isBlank (hrest : ∀ c ∈ rest.head?, isBlank c = false) :
    skipBlanks ⟨rest, line, column⟩ = ⟨rest, line, column⟩ := by
  have hrun : run isBlank ⟨[] ++ rest, line, column⟩ = ([], ⟨rest, line, column⟩) :=
    run_append nofun nofun fun c hc => .inl (hrest c hc)
  rw [List.nil_append] at hrun
  rw [skipBlanks, hrun]

/-- Markers stand at the beginning of a line only. -/
theorem atMarker_of_column_ne_zero {mark : Char} (h : column ≠ 0) :
    atMarker mark ⟨rest, line, column⟩ = false := by
  simp [atMarker, h]

theorem atMarker_of_take_ne {mark : Char} (h : rest.take 3 ≠ [mark, mark, mark]) :
    atMarker mark ⟨rest, line, column⟩ = false := by
  simp [atMarker, h]

theorem atDocumentMarker_of_column_ne_zero (h : column ≠ 0) :
    atDocumentMarker ⟨rest, line, column⟩ = false := by
  simp [atDocumentMarker, atMarker_of_column_ne_zero h]

end Cursor

/-! ## Gaps -/

section

variable {least : Nat} {g : Gap}

/-- A gap ends where a word starts. -/
theorem readGap_of_startsWord (h : StartsWord rest) :
    readGap least g ⟨rest, line, column⟩ = some (g, ⟨rest, line, column⟩) := by
  rw [readGap]
  split
  · rfl
  · rename_i x xs hrest
    simp only at hrest
    subst hrest
    obtain ⟨hblank, hbreak⟩ := h x (by simp)
    simp [hblank, hbreak]

/-- A space on the same line is part of the gap. -/
theorem readGap_space :
    readGap least g ⟨' ' :: rest, line, column⟩
      = readGap least (g.blank ' ') ⟨rest, line, column + 1⟩ := by
  rw [readGap]
  simp [Cursor.past_of_not_isBreak isBreak_space]

/-- A line break in a gap is followed by the next line. -/
theorem readGap_break (h : isBreak x = true) :
    readGap least g ⟨x :: rest, line, column⟩
      = readGap least (g.lineEnd x) ⟨rest, line + 1, 0⟩ := by
  rw [readGap]
  simp [h, Cursor.past_of_isBreak]

/-- Spaces on one line are kept. -/
theorem readGap_blanks (n : Nat) {chars : List Char} :
    readGap least (.blanks chars) ⟨indentation n ++ rest, line, column⟩
      = readGap least (.blanks (chars ++ indentation n)) ⟨rest, line, column + n⟩ := by
  induction n generalizing chars column with
  | zero => simp
  | succ n ih =>
    rw [indentation_succ, List.cons_append, readGap_space, Gap.blank, ih, List.append_assoc,
      Nat.add_assoc, Nat.add_comm 1]
    rfl

/-- Spaces at the start of a line are dropped. -/
theorem readGap_indentation (n : Nat) {first : Option Char} {more : List Char} :
    readGap least (.broken first more) ⟨indentation n ++ rest, line, column⟩
      = readGap least (.broken first more) ⟨rest, line, column + n⟩ := by
  induction n generalizing column with
  | zero => simp
  | succ n ih =>
    rw [indentation_succ, List.cons_append, readGap_space, Gap.blank, ih, Nat.add_assoc,
      Nat.add_comm 1]
    nofun

/-- More line ends are kept. -/
theorem readGap_breaks {first : Option Char} {more : List Char} (h : ∀ c ∈ cs, isBreak c = true) :
    readGap least (.broken first more) ⟨cs ++ rest, line, 0⟩
      = readGap least (.broken first (more ++ cs)) ⟨rest, line + cs.length, 0⟩ := by
  induction cs generalizing more line with
  | nil => simp
  | cons c cs ih =>
    rw [List.forall_mem_cons] at h
    rw [List.cons_append, readGap_break h.1, Gap.lineEnd, ih h.2, List.append_assoc,
      List.length_cons, Nat.add_assoc, Nat.add_comm 1]
    rfl

end

end LoginSettings.Yaml
