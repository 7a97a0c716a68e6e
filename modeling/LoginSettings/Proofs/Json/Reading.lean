import LoginSettings.Proofs.Json.Readers
import LoginSettings.Proofs.Json.Scalars

/-!
# Values read from their texts

A text that spells a value is read as that value, up to its end, with blanks in front of it and
whatever does not go on with a number behind it. The proof follows the text part by part, by
induction on the value, and on the list of its parts for arrays and objects.

* `reads_of_whole` — a value at any depth that is not too great
* `readValue_of_spells` — a text as a whole
-/

namespace LoginSettings.Json

open Text (Place)

variable {depth : Nat} {v : Value} {items : List Value} {members : List (String × Value)}

/-! ## What texts start and end with -/

theorem exists_cons_of_isDigit (digits : List Char) (hne : digits ≠ [])
    (hdigits : ∀ d ∈ digits, d.isDigit = true) : ∃ d ds, digits = d :: ds ∧ d.isDigit = true := by
  cases digits with
  | nil => exact absurd rfl hne
  | cons d ds => exact ⟨d, ds, rfl, hdigits d List.mem_cons_self⟩

/-- A number starts with its sign or with a digit. -/
theorem exists_cons_intDigits (n : Int) :
    ∃ d ds, Decimal.intDigits n = d :: ds ∧ (d = '-' ∨ d.isDigit = true) := by
  unfold Decimal.intDigits
  split
  · exact ⟨'-', _, rfl, .inl rfl⟩
  · obtain ⟨d, ds, hdigits, hd⟩ := exists_cons_of_isDigit (Decimal.natDigits n.natAbs)
      Nat.toDigits_ne_nil fun d => isDigit_of_mem_natDigits
    exact ⟨d, ds, hdigits, .inr hd⟩

/-- No value starts with a blank, or with what ends an array. -/
theorem exists_cons_of_spells {text : List Char} (h : Spells v text) :
    ∃ x xs, text = x :: xs ∧ isSpace x = false ∧ x ≠ ']' := by
  cases v with
  | null =>
    cases h
    exact ⟨_, _, rfl, by decide, by decide⟩
  | bool b =>
    cases h
    cases b <;> exact ⟨_, _, rfl, by decide, by decide⟩
  | number n =>
    cases n with
    | integer n =>
      obtain ⟨-, -, rfl⟩ := h
      obtain ⟨d, ds, hdigits, hd⟩ := exists_cons_intDigits n
      refine ⟨d, ds, hdigits, ?_, ?_⟩
      · rw [isSpace, decide_eq_false_iff_not]
        rintro (rfl | rfl | rfl | rfl) <;> simp at hd
      · rintro rfl
        simp at hd
    | float x => cases h
  | string s =>
    cases h
    exact ⟨_, _, rfl, by decide, by decide⟩
  | array items =>
    obtain ⟨inner, blanks, -, -, rfl⟩ := h
    exact ⟨_, _, rfl, by decide, by decide⟩
  | object members =>
    obtain ⟨inner, blanks, -, -, rfl⟩ := h
    exact ⟨_, _, rfl, by decide, by decide⟩

theorem endsNumber_cons (c : Char) (hc : c.isDigit = false ∧ c ≠ '.' ∧ c ≠ 'e' ∧ c ≠ 'E')
    (rest : List Char) : EndsNumber (c :: rest) := by
  rintro _ ⟨⟩
  exact hc

theorem endsNumber_append {blanks rest : List Char} (hblanks : Blanks blanks)
    (hrest : EndsNumber rest) : EndsNumber (blanks ++ rest) := by
  cases blanks with
  | nil => exact hrest
  | cons b blanks =>
    have hb : isSpace b = true := hblanks b List.mem_cons_self
    simp only [isSpace, decide_eq_true_eq] at hb
    rcases hb with rfl | rfl | rfl | rfl
    all_goals exact endsNumber_cons _ (by decide) _

/-! ## Scalars -/

/-- Holds of values that are read from the texts that spell them, `depth` levels deep. -/
def Reads (depth : Nat) (v : Value) : Prop :=
  ∀ {text blanks rest : List Char}, Spells v text → Blanks blanks → EndsNumber rest → ∀ p,
    ∃ p', ReadsValue (readNode depth ⟨blanks ++ (text ++ rest), p⟩) v ⟨rest, p'⟩

theorem reads_of_scalar (hscalar : ∀ {text rest : List Char}, Spells v text → EndsNumber rest → ∀ p,
    ∃ scalar p', scalarAt ⟨text ++ rest, p⟩ = some (.found scalar ⟨rest, p'⟩)
      ∧ (Node.scalar none scalar).value = .ok v) : Reads depth v := by
  intro text blanks rest htext hblanks hrest p
  obtain ⟨x, xs, rfl, hspace, -⟩ := exists_cons_of_spells htext
  have hskip := skip_append_cons hblanks hspace (xs ++ rest) p
  obtain ⟨scalar, p', hfound, hvalue⟩ := hscalar htext hrest (p.pastAll blanks)
  have hlength : rest.length < (x :: (xs ++ rest)).length := by
    rw [List.length_cons, List.length_append]
    omega
  rw [List.cons_append] at hfound ⊢
  exact ⟨p', readNode_scalar (by rwa [hskip]) (by rwa [hskip]) hvalue⟩

theorem reads_null : Reads depth .null := by
  refine reads_of_scalar fun {text rest} htext _ p => ?_
  cases htext
  exact ⟨.null, _, congrArg some (readLiteral_append .null ['u', 'l', 'l'] rest (p.past 'n')), rfl⟩

theorem reads_bool (b : Bool) : Reads depth (.bool b) := by
  refine reads_of_scalar fun {text rest} htext _ p => ?_
  cases htext
  cases b with
  | true =>
    exact ⟨.bool true, _,
      congrArg some (readLiteral_append (.bool true) ['r', 'u', 'e'] rest (p.past 't')), rfl⟩
  | false =>
    exact ⟨.bool false, _,
      congrArg some (readLiteral_append (.bool false) ['a', 'l', 's', 'e'] rest (p.past 'f')), rfl⟩

theorem reads_string (s : String) : Reads depth (.string s) := by
  refine reads_of_scalar fun {text rest} htext _ p => ?_
  cases htext
  obtain ⟨p', hread⟩ := readString_stringText s (p.past '"') rest
  exact ⟨.string (.ok s), p', congrArg some hread, rfl⟩

theorem reads_integer (n : Int) : Reads depth (.number (.integer n)) := by
  refine reads_of_scalar fun {text rest} htext hrest p => ?_
  obtain ⟨hleast, hgreatest, rfl⟩ := htext
  obtain ⟨p', hread⟩ := readNumber_intDigits hleast hgreatest hrest p
  obtain ⟨d, ds, hdigits, hd⟩ := exists_cons_intDigits n
  refine ⟨.number (.ok (.integer n)), p', ?_, rfl⟩
  rw [← hread, hdigits, List.cons_append]
  exact scalarAt_number hd (ds ++ rest) p

/-! ## Arrays -/

/-- Items are read one after another up to the end of their array. -/
theorem readMoreItems_spelled {text more blanks : List Char} {vs : List Value}
    (hreads : ∀ w ∈ v :: vs, Reads depth w) (htext : Spells v text)
    (hmore : SpellsItems [','] vs more) (hblanks : Blanks blanks) (rest : List Char) (p : Place) :
    ∃ p', ReadsItems (readMoreItems depth ⟨text ++ (more ++ (blanks ++ ']' :: rest)), p⟩) (v :: vs)
      ⟨rest, p'⟩ := by
  induction vs generalizing v text more p with
  | nil =>
    cases hmore
    obtain ⟨p', hv⟩ := hreads v List.mem_cons_self htext blanks_nil
      (endsNumber_append hblanks (endsNumber_cons ']' (by decide) rest)) p
    exact ⟨_, readMoreItems_last hv (skip_append_cons hblanks (by decide) _ p')⟩
  | cons w vs ih =>
    obtain ⟨hv, hvs⟩ := List.forall_mem_cons.1 hreads
    obtain ⟨before, next, more, hbefore, hnext, hmore, rfl⟩ := hmore
    obtain ⟨x, xs, hcons, hspace, hx⟩ := exists_cons_of_spells hnext
    have hshape : text ++ ([','] ++ before ++ next ++ more ++ (blanks ++ ']' :: rest))
        = text ++ ',' :: (before ++ (next ++ (more ++ (blanks ++ ']' :: rest)))) := by simp
    rw [hshape]
    obtain ⟨q, hread⟩ := hv htext blanks_nil (endsNumber_cons ',' (by decide) _) p
    obtain ⟨p', hitems⟩ := ih hvs hnext hmore ((q.past ',').pastAll before)
    rw [hcons, List.cons_append] at hitems ⊢
    exact ⟨p', readMoreItems_more hread (skip_cons (by decide) _ q)
      (skip_append_cons hbefore hspace _ _) hx hitems⟩

theorem reads_array (hdepth : depth < greatestDepth) (hreads : ∀ w ∈ items, Reads (depth + 1) w) :
    Reads depth (.array items) := by
  rintro _ blanks rest ⟨inner, last, hinner, hlast, rfl⟩ hblanks - p
  have hshape : '[' :: (inner ++ last ++ [']']) ++ rest
      = '[' :: (inner ++ (last ++ ']' :: rest)) := by simp
  rw [hshape]
  suffices hitems : ∀ q, ∃ p', ReadsItems
      (readItems (depth + 1) ⟨inner ++ (last ++ ']' :: rest), q⟩) items ⟨rest, p'⟩ by
    obtain ⟨p', hread⟩ := hitems ((p.pastAll blanks).past '[')
    exact ⟨p', readNode_array (skip_append_cons hblanks (by decide) _ p) hdepth hread⟩
  intro q
  cases items with
  | nil =>
    cases hinner
    exact ⟨_, readItems_nil (skip_append_cons hlast (by decide) _ q)⟩
  | cons v vs =>
    obtain ⟨before, text, more, hbefore, htext, hmore, rfl⟩ := hinner
    obtain ⟨x, xs, hcons, hspace, hx⟩ := exists_cons_of_spells htext
    have hshape : [] ++ before ++ text ++ more ++ (last ++ ']' :: rest)
        = before ++ (text ++ (more ++ (last ++ ']' :: rest))) := by simp
    rw [hshape]
    obtain ⟨p', hitems⟩ := readMoreItems_spelled hreads htext hmore hlast rest (q.pastAll before)
    rw [hcons, List.cons_append] at hitems ⊢
    exact ⟨p', readItems_cons (skip_append_cons hbefore hspace _ q) hx hitems⟩

/-! ## Objects -/

/-- A member is read up to the end of its value. -/
theorem readsMember_spelled {text after rest : List Char} (hreads : Reads depth v)
    (htext : Spells v text) (hafter : Blanks after) (hrest : EndsNumber rest) (key : String)
    (p : Place) :
    ∃ k q p', readString ⟨[], none⟩ (p.past '"')
        ((stringText key).tail ++ ':' :: (after ++ (text ++ rest))) = .found (.string (.ok key)) k ∧
      k.skip = ⟨':' :: (after ++ (text ++ rest)), q⟩ ∧
      k.rest.length < (stringText key ++ ':' :: (after ++ (text ++ rest))).length ∧
      ReadsValue (readNode depth ⟨after ++ (text ++ rest), q.past ':'⟩) v ⟨rest, p'⟩ := by
  obtain ⟨q, hkey⟩ := readString_stringText key (p.past '"') (':' :: (after ++ (text ++ rest)))
  obtain ⟨p', hread⟩ := hreads htext hafter hrest (q.past ':')
  refine ⟨_, q, p', hkey, skip_cons (by decide) _ q, ?_, hread⟩
  simp [stringText]
  omega

/-- Members are read one after another up to the end of their object. -/
theorem readMoreMembers_spelled {key : String} {after text more blanks : List Char}
    {ms : List (String × Value)} (hreads : ∀ m ∈ (key, v) :: ms, Reads depth m.2)
    (hafter : Blanks after) (htext : Spells v text) (hmore : SpellsMembers [','] ms more)
    (hblanks : Blanks blanks) (rest : List Char) (p : Place) :
    ∃ p', ReadsMembers (readMoreMembers depth
      ⟨stringText key ++ ':' :: (after ++ (text ++ (more ++ (blanks ++ '}' :: rest)))), p⟩)
      ((key, v) :: ms) ⟨rest, p'⟩ := by
  induction ms generalizing key v after text more p with
  | nil =>
    cases hmore
    obtain ⟨k, q, p', hkey, hcolon, hlength, hread⟩ := readsMember_spelled
      (hreads (key, v) List.mem_cons_self) htext hafter
      (endsNumber_append hblanks (endsNumber_cons '}' (by decide) rest)) key p
    exact ⟨_, readMoreMembers_last hkey hlength hcolon hread
      (skip_append_cons hblanks (by decide) _ p')⟩
  | cons m ms ih =>
    obtain ⟨key', w⟩ := m
    obtain ⟨hv, hms⟩ := List.forall_mem_cons.1 hreads
    obtain ⟨before, after', next, more, hbefore, hafter', hnext, hmore, rfl⟩ := hmore
    have hshape : [','] ++ before ++ stringText key' ++ ':' :: (after' ++ next) ++ more
          ++ (blanks ++ '}' :: rest)
        = ',' :: (before ++ (stringText key'
          ++ ':' :: (after' ++ (next ++ (more ++ (blanks ++ '}' :: rest)))))) := by simp
    rw [hshape]
    obtain ⟨k, q, p₁, hkey, hcolon, hlength, hread⟩ := readsMember_spelled hv htext hafter
      (endsNumber_cons ',' (by decide) (before ++ (stringText key'
        ++ ':' :: (after' ++ (next ++ (more ++ (blanks ++ '}' :: rest))))))) key p
    obtain ⟨p', hmembers⟩ := ih hms hafter' hnext hmore ((p₁.past ',').pastAll before)
    exact ⟨p', readMoreMembers_more hkey hlength hcolon hread
      (skip_cons (by decide) _ p₁) (skip_append_cons hbefore (by decide) _ _) hmembers⟩

theorem reads_object (hdepth : depth < greatestDepth)
    (hreads : ∀ m ∈ members, Reads (depth + 1) m.2) : Reads depth (.object members) := by
  rintro _ blanks rest ⟨inner, last, hinner, hlast, rfl⟩ hblanks - p
  have hshape : '{' :: (inner ++ last ++ ['}']) ++ rest
      = '{' :: (inner ++ (last ++ '}' :: rest)) := by simp
  rw [hshape]
  suffices hmembers : ∀ q, ∃ p', ReadsMembers
      (readMembers (depth + 1) ⟨inner ++ (last ++ '}' :: rest), q⟩) members ⟨rest, p'⟩ by
    obtain ⟨p', hread⟩ := hmembers ((p.pastAll blanks).past '{')
    exact ⟨p', readNode_object (skip_append_cons hblanks (by decide) _ p) hdepth hread⟩
  intro q
  cases members with
  | nil =>
    cases hinner
    exact ⟨_, readMembers_nil (skip_append_cons hlast (by decide) _ q)⟩
  | cons m ms =>
    obtain ⟨key, v⟩ := m
    obtain ⟨before, after, text, more, hbefore, hafter, htext, hmore, rfl⟩ := hinner
    have hshape : [] ++ before ++ stringText key ++ ':' :: (after ++ text) ++ more
          ++ (last ++ '}' :: rest)
        = before ++ (stringText key
          ++ ':' :: (after ++ (text ++ (more ++ (last ++ '}' :: rest))))) := by simp
    rw [hshape]
    obtain ⟨p', hmembers⟩ := readMoreMembers_spelled hreads hafter htext hmore hlast rest
      (q.pastAll before)
    exact ⟨p', readMembers_cons (skip_append_cons hbefore (by decide) _ q) hmembers⟩

/-! ## Values, and texts as a whole -/

/-- **A value is read from the texts that spell it**, as long as it is not nested too deep. -/
theorem reads_of_whole (h : Whole v) (hdepth : depth + nesting v ≤ greatestDepth) :
    Reads depth v := by
  induction h generalizing depth with
  | null => exact reads_null
  | bool b => exact reads_bool b
  | number _ _ => exact reads_integer _
  | string s => exact reads_string s
  | @array items _ ih =>
    rw [nesting] at hdepth
    refine reads_array (by omega) fun w hw => ih w hw ?_
    have := itemsNesting_le_iff.1 (Nat.le_refl _) w hw
    omega
  | @object members _ ih =>
    rw [nesting] at hdepth
    refine reads_object (by omega) fun m hm => ih m hm ?_
    have := membersNesting_le_iff.1 (Nat.le_refl _) m hm
    omega

/-- A text that spells a value is read to its end, with or without blanks there. -/
theorem ofText_of_spells {cs blanks : List Char} (h : Spells v cs) (hwhole : Whole v)
    (hdepth : nesting v ≤ greatestDepth) (hblanks : Blanks blanks) :
    ∃ node, Node.ofText (String.ofList (cs ++ blanks)) = (node, none) ∧ node.value = .ok v := by
  have hreads : Reads 0 v := reads_of_whole hwhole (by omega)
  have hend : EndsNumber blanks := by
    have hnil : EndsNumber [] := by
      rintro c ⟨⟩
    simpa using endsNumber_append hblanks hnil
  have hstart : Cursor.ofText (String.ofList (cs ++ blanks)) = ⟨[] ++ (cs ++ blanks), .start⟩ := by
    simp [Cursor.ofText]
  obtain ⟨p', hread⟩ := hreads h blanks_nil hend .start
  rw [← hstart] at hread
  obtain ⟨node, hd, hnode, hvalue⟩ := hread.exists_eq
  have hskip : (⟨blanks, p'⟩ : Cursor).skip = ⟨[], p'.pastAll blanks⟩ := by
    simpa using skip_append hblanks [] (by simp) p'
  refine ⟨node, ?_, hvalue⟩
  rw [Node.ofText, hnode]
  simp [hskip]

/-- **The value that a text spells is the value that is read from it.** -/
theorem readValue_of_spells {cs blanks : List Char} (h : Spells v cs) (hwhole : Whole v)
    (hdepth : nesting v ≤ greatestDepth) (hblanks : Blanks blanks) :
    readValue (String.ofList (cs ++ blanks)) = .ok v := by
  obtain ⟨node, hnode, hvalue⟩ := ofText_of_spells h hwhole hdepth hblanks
  rw [readValue, hnode]
  simp only [hvalue]
  rfl

end LoginSettings.Json
