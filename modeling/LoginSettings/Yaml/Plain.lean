import LoginSettings.Yaml.Cursor

/-!
# Plain scalars

Text without quotes. It ends before a colon that ends a word, before a number sign that starts one,
before a marker between documents, and where a line is indented too little; inside brackets also
before commas and brackets.
-/

namespace LoginSettings.Yaml

/-- The characters that separate and enclose inside brackets. -/
def isFlowIndicator (c : Char) : Bool := c = ',' ∨ c = '[' ∨ c = ']' ∨ c = '{' ∨ c = '}'

/-- Reads a word of a plain scalar. Inside brackets no colon may stand right before an indicator. -/
def readPlainWord (inFlow : Bool) (c : Cursor) : Option (List Char × Cursor) :=
  match h : c.rest with
  | [] => some ([], c)
  | x :: xs =>
    have : c.past.rest.length < c.rest.length := Cursor.length_past_lt (by simp [h])
    if isBlank x || isBreak x then some ([], c)
    else if inFlow && x = ':' && xs.head?.any (fun y => isFlowIndicator y || y = '?') then none
    else if (x = ':' && endsWord xs) || (inFlow && isFlowIndicator x) then some ([], c)
    else (readPlainWord inFlow c.past).map fun (word, after) => (x :: word, after)
termination_by c.rest.length

/-- A word and what is left after it are all that there was. -/
theorem length_readPlainWord {inFlow : Bool} {c d : Cursor} {word : List Char}
    (h : readPlainWord inFlow c = some (word, d)) :
    word.length + d.rest.length = c.rest.length := by
  fun_induction readPlainWord inFlow c generalizing word with
  | case1 => simp_all
  | case2 => simp_all
  | case3 => simp at h
  | case4 => simp_all
  | case5 c x xs hrest _ _ _ _ ih =>
    obtain ⟨⟨w, e⟩, hw, heq⟩ := Option.map_eq_some_iff.1 h
    obtain ⟨rfl, rfl⟩ := Prod.mk.inj heq
    have hpast : c.past.rest.length + 1 = c.rest.length := by
      simp only [Cursor.past, hrest]
      split <;> simp
    have := ih hw
    simp only [List.length_cons]
    omega

/-- A plain scalar as it is read; `onNextLine` tells whether line ends follow it. -/
structure PlainReading where
  text : List Char
  onNextLine : Bool
  after : Cursor

/-- Reads the words of a plain scalar, `gap` being what stands before the first of them. Outside
brackets every line after the first one starts at the column `least` or further right. -/
def readPlain (inFlow : Bool) (least : Nat) (text : List Char) (gap : Gap) (c : Cursor) :
    Option PlainReading :=
  let stop : Option PlainReading := some ⟨text, gap.isBroken, c⟩
  if c.atDocumentMarker || c.rest.head? = some '#' then stop
  else
    match hword : readPlainWord inFlow c with
    | none => none
    | some ([], _) => stop
    | some (x :: word, after) =>
      let text := text ++ gap.text ++ x :: word
      match hgap : readGap least (.blanks []) after with
      | none => none
      | some (.blanks [], _) => some ⟨text, false, after⟩
      | some (gap, next) =>
        have : next.rest.length < c.rest.length := by
          have := length_readPlainWord hword
          have := length_readGap_le hgap
          simp only [List.length_cons] at *
          omega
        if gap.isBroken && !inFlow && next.column < least then some ⟨text, true, next⟩
        else readPlain inFlow least text gap next
termination_by c.rest.length

end LoginSettings.Yaml
