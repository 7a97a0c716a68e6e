import LoginSettings.Document
import LoginSettings.Proofs.Document.InOrder
import LoginSettings.Proofs.Json.StandsFor
import LoginSettings.Proofs.Settings.Fields
import LoginSettings.Settings.Patch
import LoginSettings.Wire.Settings

/-!
# Settings decoded from what they are encoded as

Settings, their fields and the values of these stand for themselves when they are encoded. The
document of encoded settings has their members in order, and stands for the same settings.
-/

namespace LoginSettings

open Json (Node StandsFor)

namespace Settings

theorem nodup_keys_encode (s : Settings) : (s.encode.members.map (·.1)).Nodup := by
  simp only [encode, Value.members, List.map_cons, List.map_nil]
  decide

/-- **Settings stand for themselves.** -/
theorem standsFor (s : Settings) : StandsFor 2 decode s.encode s := by
  refine .record s.nodup_keys_encode ?_ fun fs hof => ?_
  · simp only [List.forall_mem_cons]
    exact ⟨(StandsFor.bool 1 _).known rfl, (StandsFor.bool 1 _).known rfl,
      (StandsFor.bool 1 _).known rfl, (StandsFor.strings 0 _).known rfl,
      (StandsFor.bool 1 _).known rfl, (StandsFor.bool 1 _).known rfl,
      (StandsFor.bool 1 _).known rfl, (StandsFor.bool 1 _).known rfl,
      (StandsFor.bool 1 _).known rfl, (StandsFor.bool 1 _).known rfl,
      (StandsFor.bool 1 _).known rfl, by simp⟩
  · have hbool : ∀ {name b}, s.encode.member? name = some (.bool b) →
        fs.required name Node.decodeBool = .ok b := fun hmember => hof.required hmember (.bool 0 _)
    have husername : fs.required "username_enabled" Node.decodeBool
        = .ok s.usernameEnabled := hbool rfl
    have hemail : fs.required "email_enabled" Node.decodeBool = .ok s.emailEnabled := hbool rfl
    have hphone : fs.required "phone_number_enabled" Node.decodeBool
        = .ok s.phoneEnabled := hbool rfl
    have hkeywords : fs.required "excluded_keywords" (Node.decodeList Node.decodeString)
        = .ok s.excludedKeywords := hof.required rfl (.strings 0 _)
    have hreserved : fs.required "is_block_reserved_username" Node.decodeBool
        = .ok s.blockReserved := hbool rfl
    have hexclude : fs.required "is_exclude_keywords" Node.decodeBool
        = .ok s.excludeKeywords := hbool rfl
    have husernameCase : fs.required "is_username_case_sensitive" Node.decodeBool
        = .ok s.usernameCaseSensitive := hbool rfl
    have hascii : fs.required "is_ascii_only" Node.decodeBool = .ok s.asciiOnly := hbool rfl
    have hemailCase : fs.required "is_email_case_sensitive" Node.decodeBool
        = .ok s.emailCaseSensitive := hbool rfl
    have hdot : fs.required "is_ignore_dot_local" Node.decodeBool = .ok s.ignoreDot := hbool rfl
    have hplus : fs.required "is_allow_plus" Node.decodeBool = .ok s.allowPlus := hbool rfl
    simp only [husername, hemail, hphone, hkeywords, hreserved, hexclude, husernameCase, hascii,
      hemailCase, hdot, hplus, bind, Except.bind]
    rfl

/-- The document of settings has their members in another order. -/
theorem reordered_root_ofValue (s : Settings) :
    Value.Reordered s.encode (Document.ofValue s.encode).root := by
  have hordered : ∀ m ∈ s.encode.members, m.2.Ordered := by
    simp only [encode, Value.members, List.forall_mem_cons]
    exact ⟨.bool _, .bool _, .bool _, Value.ordered_ofStrings _, .bool _, .bool _, .bool _, .bool _,
      .bool _, .bool _, .bool _, by simp⟩
  have hperm : (Value.membersInOrder [] s.encode.members).Perm (s.encode.members ++ []) :=
    Value.membersInOrder_perm (by simpa using s.nodup_keys_encode) hordered
  rw [List.append_nil] at hperm
  exact Value.reordered_of_perm hperm.symm s.nodup_keys_encode

end Settings

/-- A field stands for itself by its name. -/
theorem Field.standsFor (f : Field) : StandsFor 0 decode f.encode f := by
  refine .of_plain (.string _) (.string _) (Nat.le_refl 0) fun n hn => ?_
  simp only [decode, Node.decodeString_of_value hn, bind, Except.bind, f.ofName_name]
  rfl

theorem FieldValue.ofValue?_encode (value : FieldValue) : ofValue? value.encode = some value := by
  cases value with
  | bool b => rfl
  | list texts =>
    have htexts : (texts.map Value.string).mapM Value.string? = some texts := by
      induction texts with
      | nil => rfl
      | cons s texts ih => simp [List.mapM_cons, Value.string?, ih]
    rw [encode, Value.ofStrings, ofValue?, htexts]
    rfl

/-- A value of a field stands for itself; its form tells of which kind it is. -/
theorem FieldValue.standsFor (value : FieldValue) : StandsFor 1 decode value.encode value := by
  have hdecode : ∀ n : Node, n.value = .ok value.encode → decode n = .ok value := by
    intro n hn
    simp only [decode, Node.decodeValue, hn, Json.ofReading, bind, Except.bind,
      value.ofValue?_encode]
    rfl
  cases value with
  | bool b => exact .of_plain (.bool b) (.bool b) (Nat.zero_le 1) hdecode
  | list texts =>
    exact .of_plain (Value.plain_ofStrings texts) (Json.whole_ofStrings texts)
      (Json.nesting_ofStrings_le texts) hdecode

end LoginSettings
