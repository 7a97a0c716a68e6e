import LoginSettings.Json.Cursor
import LoginSettings.Json.Printer
import LoginSettings.Json.Scalar

/-!
# Texts that spell a value

A relation between values and the texts that may be written for them: scalars as they are always
written, and arrays and objects with blanks in front of their parts and before their ends. Both
printers write such texts, and reading them is a matter of the relation alone.

Only whole numbers are spelled, those that are read as integers.

* `spells_compactChars`, `spells_prettyChars` — what the printers write
-/

namespace LoginSettings.Json

/-! ## Spelled values -/

/-- Holds of texts that are blank. -/
def Blanks (cs : List Char) : Prop := ∀ c ∈ cs, isSpace c = true

mutual

/-- Holds of texts that may be written for a value. -/
def Spells : Value → List Char → Prop
  | .null, cs => cs = nullText
  | .bool b, cs => cs = boolText b
  | .number (.integer n), cs =>
    leastInteger ≤ n ∧ n ≤ greatestInteger ∧ cs = Decimal.intDigits n
  | .number (.float _), _ => False
  | .string s, cs => cs = stringText s
  | .array items, cs => ∃ inner blanks, SpellsItems [] items inner ∧ Blanks blanks ∧
    cs = '[' :: (inner ++ blanks ++ [']'])
  | .object members, cs => ∃ inner blanks, SpellsMembers [] members inner ∧ Blanks blanks ∧
    cs = '{' :: (inner ++ blanks ++ ['}'])

/-- Holds of texts that may be written for items, with `lead` in front of the first one. -/
def SpellsItems (lead : List Char) : List Value → List Char → Prop
  | [], cs => cs = []
  | v :: vs, cs => ∃ blanks text rest, Blanks blanks ∧ Spells v text ∧ SpellsItems [','] vs rest ∧
    cs = lead ++ blanks ++ text ++ rest

/-- Holds of texts that may be written for members, with `lead` in front of the first one. -/
def SpellsMembers (lead : List Char) : List (String × Value) → List Char → Prop
  | [], cs => cs = []
  | (key, v) :: ms, cs => ∃ blanks after text rest, Blanks blanks ∧ Blanks after ∧ Spells v text ∧
    SpellsMembers [','] ms rest ∧
    cs = lead ++ blanks ++ stringText key ++ ':' :: (after ++ text) ++ rest

end

/-! ## Values that can be spelled -/

/-- Holds of values all of whose numbers are whole and in the range of integers that are read as
such. -/
inductive Whole : Value → Prop where
  | null : Whole .null
  | bool (b : Bool) : Whole (.bool b)
  | number {n : Int} (least : leastInteger ≤ n) (greatest : n ≤ greatestInteger) :
    Whole (.number (.integer n))
  | string (s : String) : Whole (.string s)
  | array {items : List Value} (h : ∀ v ∈ items, Whole v) : Whole (.array items)
  | object {members : List (String × Value)} (h : ∀ m ∈ members, Whole m.2) :
    Whole (.object members)

mutual

/-- How many arrays and objects stand in one another. -/
def nesting : Value → Nat
  | .array items => itemsNesting items + 1
  | .object members => membersNesting members + 1
  | _ => 0

/-- How deep the deepest of some items is. -/
def itemsNesting : List Value → Nat
  | [] => 0
  | v :: vs => max (nesting v) (itemsNesting vs)

/-- How deep the deepest value of some members is. -/
def membersNesting : List (String × Value) → Nat
  | [] => 0
  | (_, v) :: ms => max (nesting v) (membersNesting ms)

end

theorem itemsNesting_le_iff {k : Nat} {items : List Value} :
    itemsNesting items ≤ k ↔ ∀ v ∈ items, nesting v ≤ k := by
  induction items with
  | nil => simp [itemsNesting]
  | cons v vs ih => rw [itemsNesting, Nat.max_le, ih, List.forall_mem_cons]

theorem membersNesting_le_iff {k : Nat} {members : List (String × Value)} :
    membersNesting members ≤ k ↔ ∀ m ∈ members, nesting m.2 ≤ k := by
  induction members with
  | nil => simp [membersNesting]
  | cons m ms ih => rw [membersNesting, Nat.max_le, ih, List.forall_mem_cons]

/-! ## Blanks and commas -/

theorem blanks_nil : Blanks [] := by
  intro c hc
  cases hc

theorem blanks_newline (depth : Nat) : Blanks (newline depth) := by
  intro c hc
  rcases List.mem_cons.1 hc with rfl | hc
  · rfl
  · rw [(List.mem_replicate.1 hc).2]
    rfl

theorem SpellsItems.comma {v : Value} {vs : List Value} {cs : List Char}
    (h : SpellsItems [] (v :: vs) cs) : SpellsItems [','] (v :: vs) (',' :: cs) := by
  obtain ⟨blanks, text, rest, hblanks, htext, hrest, rfl⟩ := h
  exact ⟨blanks, text, rest, hblanks, htext, hrest, rfl⟩

theorem SpellsMembers.comma {m : String × Value} {ms : List (String × Value)} {cs : List Char}
    (h : SpellsMembers [] (m :: ms) cs) : SpellsMembers [','] (m :: ms) (',' :: cs) := by
  obtain ⟨blanks, after, text, rest, hblanks, hafter, htext, hrest, rfl⟩ := h
  exact ⟨blanks, after, text, rest, hblanks, hafter, htext, hrest, rfl⟩

/-! ## What the printers write -/

section

variable {write : Value → List Char} {blanks after : List Char}

/-- Items that are joined with commas, each with the same blanks in front of it. -/
theorem spellsItems_of_joined (join : List Value → List Char) (hblanks : Blanks blanks)
    (hnil : join [] = []) (hone : ∀ v, join [v] = blanks ++ write v)
    (hmore : ∀ v w vs, join (v :: w :: vs) = blanks ++ write v ++ ',' :: join (w :: vs))
    {items : List Value} (h : ∀ v ∈ items, Spells v (write v)) :
    SpellsItems [] items (join items) := by
  induction items with
  | nil => exact hnil
  | cons v vs ih =>
    obtain ⟨hv, hvs⟩ := List.forall_mem_cons.1 h
    cases vs with
    | nil => exact ⟨blanks, write v, [], hblanks, hv, rfl, by simp [hone]⟩
    | cons w vs =>
      exact ⟨blanks, write v, ',' :: join (w :: vs), hblanks, hv, (ih hvs).comma, by simp [hmore]⟩

/-- Members that are joined with commas, each with the same blanks in front of its key and of its
value. -/
theorem spellsMembers_of_joined (join : List (String × Value) → List Char) (hblanks : Blanks blanks)
    (hafter : Blanks after) (hnil : join [] = [])
    (hone : ∀ key v, join [(key, v)] = blanks ++ stringText key ++ ':' :: (after ++ write v))
    (hmore : ∀ key v m ms, join ((key, v) :: m :: ms)
      = blanks ++ stringText key ++ ':' :: (after ++ write v) ++ ',' :: join (m :: ms))
    {members : List (String × Value)} (h : ∀ m ∈ members, Spells m.2 (write m.2)) :
    SpellsMembers [] members (join members) := by
  induction members with
  | nil => exact hnil
  | cons m ms ih =>
    obtain ⟨key, v⟩ := m
    obtain ⟨hv, hms⟩ := List.forall_mem_cons.1 h
    cases ms with
    | nil => exact ⟨blanks, after, write v, [], hblanks, hafter, hv, rfl, by simp [hone]⟩
    | cons m ms =>
      exact ⟨blanks, after, write v, ',' :: join (m :: ms), hblanks, hafter, hv, (ih hms).comma,
        by simp [hmore]⟩

end

/-- **The compact text of a value spells it.** -/
theorem spells_compactChars {v : Value} (h : Whole v) : Spells v (compactChars v) := by
  induction h with
  | null => rfl
  | bool b => rfl
  | number least greatest => exact ⟨least, greatest, rfl⟩
  | string s => rfl
  | @array items _ ih =>
    have hitems := spellsItems_of_joined compactItems blanks_nil rfl (fun _ => rfl)
      (fun _ _ _ => rfl) ih
    exact ⟨compactItems items, [], hitems, blanks_nil, by simp [compactChars]⟩
  | @object members _ ih =>
    have hmembers := spellsMembers_of_joined compactMembers blanks_nil blanks_nil rfl
      (fun _ _ => rfl) (fun _ _ _ _ => rfl) ih
    exact ⟨compactMembers members, [], hmembers, blanks_nil, by simp [compactChars]⟩

/-- **The text of a value on lines spells it**, however deep it stands. -/
theorem spells_prettyChars {v : Value} (h : Whole v) (depth : Nat) :
    Spells v (prettyChars depth v) := by
  induction h generalizing depth with
  | null => rfl
  | bool b => rfl
  | number least greatest => exact ⟨least, greatest, rfl⟩
  | string s => rfl
  | @array items _ ih =>
    cases items with
    | nil => exact ⟨[], [], rfl, blanks_nil, rfl⟩
    | cons v vs =>
      have hitems := spellsItems_of_joined (prettyItems (depth + 1)) (blanks_newline (depth + 1))
        rfl (fun _ => rfl) (fun _ _ _ => rfl) fun w hw => ih w hw (depth + 1)
      exact ⟨prettyItems (depth + 1) (v :: vs), newline depth, hitems, blanks_newline depth,
        by simp [prettyChars]⟩
  | @object members _ ih =>
    cases members with
    | nil => exact ⟨[], [], rfl, blanks_nil, rfl⟩
    | cons m ms =>
      have hblank : Blanks [' '] := by simp [Blanks, isSpace]
      have hmembers := spellsMembers_of_joined (prettyMembers (depth + 1))
        (blanks_newline (depth + 1)) hblank rfl (fun _ _ => rfl)
        (fun _ _ _ _ => by simp [prettyMembers]) fun w hw => ih w hw (depth + 1)
      exact ⟨prettyMembers (depth + 1) (m :: ms), newline depth, hmembers, blanks_newline depth,
        by simp [prettyChars]⟩

end LoginSettings.Json
