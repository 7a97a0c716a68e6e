import LoginSettings.Cli.Assignment
import LoginSettings.Proofs.Settings.Fields
import LoginSettings.Proofs.Text.Splitting
import LoginSettings.Proofs.Text.Trimming

/-!
# Assignments read back

An assignment is read as the field and the value that it was written for. Its first equals sign ends
the name, because no name has one, and commas part the items of a list, because no item has one. All
other characters are kept, so that equals signs, quotes and blanks may stand in items. The empty
text is left over for the empty list; a list of one empty item, which would look the same, cannot be
written.

* `Field.parse_eq_ok_iff` — the texts that spell a value of a field
* `parseAssignment_eq_ok_iff` — the name decides on the field, what follows it on the value
* `parseAssignment_exact` — what is read from any text
-/

namespace LoginSettings

/-! ## Values -/

/-- Holds of the values that have a text of their own: in a list no item has a comma, and an empty
item does not stand alone, because that looks like the empty list. -/
inductive FieldValue.Spelled : FieldValue → Prop where
  | bool (b : Bool) : Spelled (.bool b)
  | list {texts : List String} (free : ∀ text ∈ texts, ',' ∉ text.toList) (ne : texts ≠ [""]) :
      Spelled (.list texts)

theorem FieldValue.text_list (texts : List String) :
    (FieldValue.list texts).text = ",".intercalate texts := by
  rw [← String.toList_inj, String.toList_intercalate, FieldValue.text, String.toList_ofList,
    Text.joinWith_eq_intercalate]
  rfl

namespace Field

variable {f : Field} {v : FieldValue} {text : String}

/-- Each text is a list: of nothing if it is empty, else of the parts between commas. -/
theorem parse_of_list (hkind : f.kind = .list) (text : String) :
    f.parse text = .ok (.list (if text = "" then [] else Text.split ',' text)) := by
  simp [parse, hkind]

/-- Only two texts are booleans. -/
theorem parse_of_boolean (hkind : f.kind = .boolean) (text : String) :
    f.parse text = if text = "true" then .ok (.bool true)
      else if text = "false" then .ok (.bool false)
      else .error (.invalidValue f text) := by
  simp [parse, hkind]

/-- Every text spells a list of items: they have no commas, and joined with commas they are it. -/
theorem exists_items (text : String) :
    ∃ texts, (if text = "" then [] else Text.split ',' text) = texts
      ∧ (FieldValue.list texts).Spelled ∧ ",".intercalate texts = text := by
  by_cases hempty : text = ""
  · exact ⟨[], if_pos hempty, .list (by simp) (by simp), hempty.symm⟩
  · have hjoin : ",".intercalate (Text.split ',' text) = text := Text.intercalate_split ',' text
    refine ⟨_, if_neg hempty, .list (Text.not_mem_of_mem_split ',' text) fun hone => ?_, hjoin⟩
    rw [hone, String.intercalate_singleton] at hjoin
    exact hempty hjoin.symm

/-- Items without commas are read back, unless there is nothing but an empty one. -/
theorem items_intercalate {texts : List String} (hfree : ∀ text ∈ texts, ',' ∉ text.toList)
    (hne : texts ≠ [""]) :
    (if ",".intercalate texts = "" then [] else Text.split ',' (",".intercalate texts))
      = texts := by
  by_cases hnil : texts = []
  · subst hnil
    rfl
  · have hsplit : Text.split ',' (",".intercalate texts) = texts :=
      Text.split_intercalate hnil hfree
    rw [if_neg, hsplit]
    -- An empty text has one empty part, and that would be the list that is left out.
    intro hempty
    rw [hempty] at hsplit
    exact hne hsplit.symm

/-- **A text spells one value of a field at most,** and a value that has a text of its own is
spelled by that text alone. -/
theorem parse_eq_ok_iff : f.parse text = .ok v ↔ v.kind = f.kind ∧ v.Spelled ∧ v.text = text := by
  cases hkind : f.kind with
  | list =>
    rw [parse_of_list hkind, Except.ok.injEq]
    constructor
    · rintro rfl
      obtain ⟨texts, htexts, hspelled, htext⟩ := exists_items text
      rw [htexts]
      exact ⟨rfl, hspelled, by rw [FieldValue.text_list, htext]⟩
    · rintro ⟨hv, hspelled, rfl⟩
      cases hspelled with
      | bool b => cases hv
      | list hfree hne => rw [FieldValue.text_list, items_intercalate hfree hne]
  | boolean =>
    rw [parse_of_boolean hkind]
    constructor
    · intro h
      split at h
      · rename_i htext
        cases h
        exact ⟨rfl, .bool true, htext.symm⟩
      · split at h
        · rename_i htext
          cases h
          exact ⟨rfl, .bool false, htext.symm⟩
        · cases h
    · rintro ⟨hv, hspelled, rfl⟩
      cases hspelled with
      | bool b => cases b <;> rfl
      | list => cases hv

/-- Each text is the text of the list that is read from it. -/
theorem exists_parse_of_list (hkind : f.kind = .list) (text : String) :
    ∃ texts, f.parse text = .ok (.list texts) ∧ ",".intercalate texts = text := by
  obtain ⟨texts, htexts, -, htext⟩ := exists_items text
  exact ⟨texts, by rw [parse_of_list hkind, htexts], htext⟩

theorem exists_parse_of_boolean (hkind : f.kind = .boolean) :
    (∃ v, f.parse text = .ok v) ↔ text = "true" ∨ text = "false" := by
  constructor
  · rintro ⟨v, hparse⟩
    obtain ⟨hv, hspelled, rfl⟩ := parse_eq_ok_iff.1 hparse
    rw [hkind] at hv
    cases hspelled with
    | bool b => cases b <;> simp [FieldValue.text]
    | list => cases hv
  · rintro (rfl | rfl)
    · exact ⟨.bool true, parse_eq_ok_iff.2 ⟨hkind.symm, .bool true, rfl⟩⟩
    · exact ⟨.bool false, parse_eq_ok_iff.2 ⟨hkind.symm, .bool false, rfl⟩⟩

/-! ## Names -/

/-- Names have neither blanks nor equals signs. -/
theorem plain_of_mem_name (f : Field) : ∀ c ∈ f.name.toList, Text.isBlank c = false ∧ c ≠ '=' := by
  have hall : (f.name.toList.all fun c => !Text.isBlank c && c != '=') = true := by
    cases f with
    | enabled t => cases t <;> rfl
    | _ => rfl
  simpa using hall

end Field

namespace Cli

variable {f g : Field} {v : FieldValue} {name word value : String}

/-! ## Assignments -/

/-- Blanks around the name of a field are all that trimming cuts off. -/
theorem trims_name {front back : String} (hfront : Text.isAllBlank front = true)
    (hback : Text.isAllBlank back = true) (f : Field) :
    Text.Trims (front ++ f.name ++ back).toList f.name.toList where
  cut := by
    refine ⟨front.toList, back.toList, by simp, ?_, ?_⟩
    · exact List.all_eq_true.1 hfront
    · exact List.all_eq_true.1 hback
  first c hc := (f.plain_of_mem_name c (List.mem_of_mem_head? hc)).1
  last c hc := (f.plain_of_mem_name c (List.mem_of_mem_getLast? hc)).1

theorem ne_equals_of_isBlank {c : Char} (h : Text.isBlank c = true) : c ≠ '=' := by
  rintro rfl
  cases h

theorem not_mem_of_trims_name (h : Text.Trims name.toList f.name.toList) : '=' ∉ name.toList := by
  obtain ⟨front, back, hname, hfront, hback⟩ := h.cut
  rw [hname, List.mem_append, List.mem_append, not_or, not_or]
  exact ⟨⟨fun hc => ne_equals_of_isBlank (hfront _ hc) rfl,
    fun hc => (f.plain_of_mem_name _ hc).2 rfl⟩, fun hc => ne_equals_of_isBlank (hback _ hc) rfl⟩

/-- An assignment is split at the first equals sign, and the blanks around the name do not count. -/
theorem parseAssignment_of_trims (hfirst : '=' ∉ name.toList)
    (hword : Text.Trims name.toList word.toList) (value : String) :
    parseAssignment (name ++ "=" ++ value) = (do
      let f ← (Field.ofName word).mapError .field
      let v ← (f.parse value).mapError .field
      pure (f, v)) := by
  -- The equals sign behind the name is the first one; the value may have more of them.
  have hsplit : Text.splitFirst '=' (name ++ "=" ++ value).toList
      = some (name.toList, value.toList) := by
    rw [String.toList_append, String.toList_append, List.append_assoc]
    exact Text.splitFirst_append_cons hfirst value.toList
  rw [parseAssignment, hsplit]
  simp only
  rw [← hword.eq_trim, String.ofList_toList, String.ofList_toList]

/-- The name decides on the field, and what follows it on the value. -/
theorem parseAssignment_eq_ok_iff (hname : Text.Trims name.toList f.name.toList) :
    parseAssignment (name ++ "=" ++ value) = .ok (g, v) ↔ g = f ∧ f.parse value = .ok v := by
  have hread : parseAssignment (name ++ "=" ++ value)
      = ((f.parse value).mapError .field).map fun v => (f, v) := by
    rw [parseAssignment_of_trims (not_mem_of_trims_name hname) hname, f.ofName_name]
    rfl
  rw [hread]
  cases f.parse value with
  | error e =>
    constructor
    · intro h
      cases h
    · rintro ⟨-, h⟩
      cases h
  | ok w =>
    show Except.ok (f, w) = .ok (g, v) ↔ g = f ∧ Except.ok w = .ok v
    rw [Except.ok.injEq, Except.ok.injEq, Prod.mk.injEq, eq_comm (a := g)]

/-- **Assignments are read as they are written.** The name of a field, blanks around it, an equals
sign and a value that has a text of its own give this field and this value. A text without an equals
sign fails, and so does one with another name. Behind the name of a list any text is accepted, and
its items joined with commas are that text again; behind the name of a flag only `true` and `false`
are. -/
theorem parseAssignment_exact :
    (∀ (f : Field) (v : FieldValue) (front back : String), v.kind = f.kind → v.Spelled →
      Text.isAllBlank front = true → Text.isAllBlank back = true →
      parseAssignment (front ++ f.name ++ back ++ "=" ++ v.text) = .ok (f, v))
    ∧ (∀ text : String, '=' ∉ text.toList → parseAssignment text = .error (.noEquals text))
    ∧ ∀ name word value : String, '=' ∉ name.toList → Text.Trims name.toList word.toList →
      ((∀ f : Field, f.name ≠ word) →
        parseAssignment (name ++ "=" ++ value) = .error (.field (.unknown word)))
      ∧ ∀ f : Field, f.name = word →
        (f.kind = .list → ∃ texts, parseAssignment (name ++ "=" ++ value) = .ok (f, .list texts)
          ∧ ",".intercalate texts = value)
        ∧ (f.kind = .boolean → ((∃ given, parseAssignment (name ++ "=" ++ value) = .ok given)
          ↔ value = "true" ∨ value = "false")) := by
  refine ⟨fun f v front back hkind hspelled hfront hback => ?_, fun text hno => ?_,
    fun name word value hfirst hword => ⟨fun hunknown => ?_, ?_⟩⟩
  · rw [parseAssignment_eq_ok_iff (trims_name hfront hback f), Field.parse_eq_ok_iff]
    exact ⟨rfl, hkind, hspelled, rfl⟩
  · rw [parseAssignment, Text.splitFirst_eq_none_iff.2 hno]
  · rw [parseAssignment_of_trims hfirst hword, Field.ofName_of_forall_ne hunknown]
    rfl
  · rintro f rfl
    constructor
    · intro hkind
      obtain ⟨texts, hparse, htext⟩ := Field.exists_parse_of_list hkind value
      exact ⟨texts, (parseAssignment_eq_ok_iff hword).2 ⟨rfl, hparse⟩, htext⟩
    · intro hkind
      rw [← Field.exists_parse_of_boolean hkind]
      constructor
      · rintro ⟨⟨g, v⟩, hgiven⟩
        exact ⟨v, ((parseAssignment_eq_ok_iff hword).1 hgiven).2⟩
      · rintro ⟨v, hparse⟩
        exact ⟨(f, v), (parseAssignment_eq_ok_iff hword).2 ⟨rfl, hparse⟩⟩

/-- Items with an equals sign, quotes, blanks at an end or nothing in them, and a blank beyond ASCII
in front of the name. A flag does not take its value with a blank, nor its name with a capital
letter. -/
theorem parseAssignment_exact_odd_items :
    let items := FieldValue.list [" a=b", "", "\"c\" "]
    items.Spelled
    ∧ parseAssignment "\u2003username.excluded_keywords\t= a=b,,\"c\" "
      = .ok (.excludedKeywords, items)
    ∧ parseAssignment "email.allow_plus" = .error (.noEquals "email.allow_plus")
    ∧ parseAssignment " Email.allow_plus=true" = .error (.field (.unknown "Email.allow_plus"))
    ∧ (∃ texts,
      parseAssignment "username.excluded_keywords =," = .ok (.excludedKeywords, .list texts)
      ∧ ",".intercalate texts = ",")
    ∧ ¬∃ given, parseAssignment "email.allow_plus= true" = .ok given := by
  intro items
  obtain ⟨hwritten, hno, hother⟩ := parseAssignment_exact
  have hitems : items.Spelled := .list (by decide) (by decide)
  refine ⟨hitems, ?_, ?_, ?_, ?_, ?_⟩
  · exact hwritten .excludedKeywords items "\u2003" "\t" rfl hitems rfl rfl
  · exact hno _ (by decide)
  · exact (hother " Email.allow_plus" _ "true" (by decide) (Text.trims_trimmed _)).1 (by decide)
  · exact ((hother "username.excluded_keywords " _ "," (by decide) (Text.trims_trimmed _)).2
      .excludedKeywords rfl).1 rfl
  · have hflag := ((hother "email.allow_plus" _ " true" (by decide) (Text.trims_trimmed _)).2
      .allowPlus rfl).2 rfl
    exact fun h => absurd (hflag.1 h) (by decide)

end Cli
end LoginSettings
