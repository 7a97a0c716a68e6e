import Mathlib.Data.List.Perm.Basic
import LoginSettings.Proofs.Text.Trimming
import LoginSettings.Role.Validation

/-!
# Valid roles

Which forms of roles are accepted, and what is reported of all others. Both are said of the form
without blanks at the ends of its parts. There is just one such form; it is what comes back if it is
valid, and it is valid again then.

* `isKey_iff` — keys are words of letters, digits, underscores and colons
* `validate_of_trims` — the form without blanks decides, by what is found in it
* `mem_findings_iff`, `findings_sublist` — what is found in a form, once each and in order
* `findings_eq_nil_iff` — nothing is found in valid forms only
* `validate_exact` — all of this put together for any form
-/

namespace LoginSettings.Role

/-! ## Keys -/

/-- Holds of ASCII letters and the underscore. -/
def KeyStart (c : Char) : Prop := ('A' ≤ c ∧ c ≤ 'Z') ∨ ('a' ≤ c ∧ c ≤ 'z') ∨ c = '_'

/-- Holds of ASCII letters and digits, the underscore and the colon. -/
def KeyPart (c : Char) : Prop := KeyStart c ∨ ('0' ≤ c ∧ c ≤ '9') ∨ c = ':'

/-- Holds of words of such characters that do not begin with a digit or a colon. -/
inductive KeyWord : List Char → Prop where
  | intro {c : Char} {cs : List Char} (start : KeyStart c) (parts : ∀ x ∈ cs, KeyPart x) :
      KeyWord (c :: cs)

theorem startsKey_iff (c : Char) : startsKey c = true ↔ KeyStart c := by
  have hupper : c.isUpper = true ↔ 'A' ≤ c ∧ c ≤ 'Z' := decide_eq_true_iff
  have hlower : c.isLower = true ↔ 'a' ≤ c ∧ c ≤ 'z' := by
    show (decide ('a' ≤ c) && decide (c ≤ 'z')) = true ↔ _
    rw [Bool.and_eq_true, decide_eq_true_eq, decide_eq_true_eq]
  have halpha : c.isAlpha = true ↔ c.isUpper = true ∨ c.isLower = true := Bool.or_eq_true_iff
  rw [startsKey, KeyStart, Bool.or_eq_true, halpha, hupper, hlower, decide_eq_true_eq, or_assoc]

theorem isKeyChar_iff (c : Char) : isKeyChar c = true ↔ KeyPart c := by
  have hdigit : c.isDigit = true ↔ '0' ≤ c ∧ c ≤ '9' := by
    show (decide ('0' ≤ c) && decide (c ≤ '9')) = true ↔ _
    rw [Bool.and_eq_true, decide_eq_true_eq, decide_eq_true_eq]
  rw [isKeyChar, KeyPart, Bool.or_eq_true, Bool.or_eq_true, startsKey_iff, hdigit,
    decide_eq_true_eq, or_assoc]

/-- A key is what the grammar says it is. -/
theorem isKey_iff (cs : List Char) : isKey cs = true ↔ KeyWord cs := by
  cases cs with
  | nil =>
    constructor
    · intro h
      cases h
    · intro h
      cases h
  | cons c cs =>
    rw [isKey, Bool.and_eq_true, startsKey_iff, List.all_eq_true]
    simp only [isKeyChar_iff]
    constructor
    · rintro ⟨hstart, hparts⟩
      exact .intro hstart hparts
    · rintro ⟨hstart, hparts⟩
      exact ⟨hstart, hparts⟩

/-! ## Forms without blanks at the ends of their parts -/

/-- Holds of a text that may be missing and what is left of it without blanks at its ends: it is
missing too where nothing is left. -/
inductive TrimsText : Option String → Option String → Prop where
  | missing : TrimsText none none
  | blank {s : String} (cut : Text.Trims s.toList []) : TrimsText (some s) none
  | filled {s t : String} (cut : Text.Trims s.toList t.toList) (nonempty : t ≠ "") :
      TrimsText (some s) (some t)

/-- Holds of a form and what is left of it without blanks at the ends of its parts. -/
structure Form.Trims (form checked : Form) : Prop where
  key : Text.Trims form.key.toList checked.key.toList
  name : TrimsText form.name checked.name
  description : TrimsText form.description checked.description

/-- Trimming a text that may be missing cuts the blanks at its ends. -/
theorem trimsText_trimmedText (text : Option String) : TrimsText text (trimmedText text) := by
  cases text with
  | none => exact .missing
  | some s =>
    have hcut := Text.trims_trimmed s
    rw [trimmedText, Option.map_some, Option.filter_some]
    by_cases hblank : Text.trimmed s = ""
    · rw [hblank] at hcut ⊢
      exact .blank hcut
    · rw [if_pos (by simpa using hblank)]
      exact .filled hcut hblank

/-- There is one way only to cut the blanks at the ends. -/
theorem TrimsText.eq_trimmedText {text checked : Option String} (h : TrimsText text checked) :
    checked = trimmedText text := by
  cases h with
  | missing => rfl
  | @blank s cut =>
    have hnil : "" = Text.trimmed s := Text.Trims.eq_trimmed cut
    rw [trimmedText, Option.map_some, ← hnil]
    rfl
  | @filled s t cut nonempty =>
    rw [trimmedText, Option.map_some, ← cut.eq_trimmed, Option.filter_some,
      if_pos (by simpa using nonempty)]

theorem TrimsText.self {text checked : Option String} (h : TrimsText text checked) :
    TrimsText checked checked := by
  cases h with
  | missing => exact .missing
  | blank _ => exact .missing
  | filled cut nonempty => exact .filled cut.self nonempty

/-- Each form can be trimmed. -/
theorem exists_trims (form : Form) : ∃ checked, form.Trims checked :=
  ⟨⟨Text.trimmed form.key, trimmedText form.name, trimmedText form.description⟩,
    Text.trims_trimmed form.key, trimsText_trimmedText form.name,
    trimsText_trimmedText form.description⟩

variable {form checked : Form}

/-- What has been trimmed stays as it is. -/
theorem Form.Trims.self (h : form.Trims checked) : checked.Trims checked :=
  ⟨h.key.self, h.name.self, h.description.self⟩

/-- What is found in a form that has no blanks at the ends of its parts. -/
def findings (checked : Form) : List Finding :=
  (keyProblems checked.key).map (Finding.mk "key")
    ++ (nameProblems checked.name).map (Finding.mk "name")

/-- The form without blanks decides. -/
theorem validate_of_trims (h : form.Trims checked) :
    validate form
      = if (findings checked).isEmpty then .ok checked else .error (findings checked) := by
  obtain ⟨hkey, hname, hdescription⟩ := h
  have hchecked : (⟨Text.trimmed form.key, trimmedText form.name,
      trimmedText form.description⟩ : Form) = checked := by
    rw [← hkey.eq_trimmed, ← hname.eq_trimmedText, ← hdescription.eq_trimmedText]
  unfold validate
  rw [hchecked]
  rfl

/-! ## What is found -/

/-- Holds of the forms that are accepted. -/
structure Form.Valid (checked : Form) : Prop where
  nonempty : 1 ≤ checked.key.length
  length : checked.key.length ≤ 40
  word : KeyWord checked.key.toList
  free : ¬"authgear:".toList <+: checked.key.toList
  name : ∀ name, checked.name = some name → name.length ≤ 100

/-- Holds of what is wrong with a form. -/
inductive Form.Faulty (checked : Form) : Finding → Prop where
  | required (h : checked.key = "") : Faulty checked ⟨"key", .required⟩
  | longKey (h : 40 < checked.key.length) : Faulty checked ⟨"key", .tooLong 40⟩
  | noWord (nonempty : checked.key ≠ "") (h : ¬KeyWord checked.key.toList) :
      Faulty checked ⟨"key", .invalidFormat⟩
  | reserved (h : "authgear:".toList <+: checked.key.toList) :
      Faulty checked ⟨"key", .reserved "authgear:"⟩
  | longName {name : String} (hname : checked.name = some name) (h : 100 < name.length) :
      Faulty checked ⟨"name", .tooLong 100⟩

/-- All that can be found in a form, in the order in which it is reported. -/
def possibleFindings : List Finding :=
  [⟨"key", .required⟩, ⟨"key", .tooLong 40⟩, ⟨"key", .invalidFormat⟩,
    ⟨"key", .reserved "authgear:"⟩, ⟨"name", .tooLong 100⟩]

/-- The problems of a key, each with what it is found for. -/
theorem mem_keyProblems_iff (key : String) (p : Problem) :
    p ∈ keyProblems key ↔ (key = "" ∧ p = .required) ∨ (40 < key.length ∧ p = .tooLong 40)
      ∨ ((key ≠ "" ∧ ¬KeyWord key.toList) ∧ p = .invalidFormat)
      ∨ ("authgear:".toList <+: key.toList ∧ p = .reserved "authgear:") := by
  unfold keyProblems
  by_cases hkey : key = ""
  · subst hkey
    simp
  · rw [if_neg (by simpa using hkey)]
    have hword : isKey key.toList = true ↔ KeyWord key.toList := isKey_iff key.toList
    have hmost : longestKey.toNat = 40 := rfl
    simp only [List.mem_append, List.mem_ite_nil_left, List.mem_ite_nil_right, List.mem_singleton,
      List.isPrefixOf_iff_prefix, hword, hmost, or_assoc]
    simp [hkey, longestKey, reservedStart]

/-- The only problem of a name is that it is too long. -/
theorem mem_nameProblems_iff (name : Option String) (p : Problem) :
    p ∈ nameProblems name ↔ (∃ n, name = some n ∧ 100 < n.length) ∧ p = .tooLong 100 := by
  cases name with
  | none => simp [nameProblems]
  | some n =>
    rw [nameProblems, List.mem_ite_nil_right, List.mem_singleton]
    simp [longestName]

/-- **All that is wrong is found, and nothing else.** -/
theorem mem_findings_iff (checked : Form) (x : Finding) :
    x ∈ findings checked ↔ checked.Faulty x := by
  rw [findings, List.mem_append, List.mem_map, List.mem_map]
  constructor
  · rintro (⟨p, hp, rfl⟩ | ⟨p, hp, rfl⟩)
    · rcases (mem_keyProblems_iff _ p).1 hp with ⟨h, rfl⟩ | ⟨h, rfl⟩ | ⟨⟨hne, h⟩, rfl⟩ | ⟨h, rfl⟩
      · exact .required h
      · exact .longKey h
      · exact .noWord hne h
      · exact .reserved h
    · obtain ⟨⟨n, hname, h⟩, rfl⟩ := (mem_nameProblems_iff _ p).1 hp
      exact .longName hname h
  · intro h
    cases h with
    | required h => exact .inl ⟨_, (mem_keyProblems_iff _ _).2 (.inl ⟨h, rfl⟩), rfl⟩
    | longKey h => exact .inl ⟨_, (mem_keyProblems_iff _ _).2 (.inr (.inl ⟨h, rfl⟩)), rfl⟩
    | noWord hne h =>
      exact .inl ⟨_, (mem_keyProblems_iff _ _).2 (.inr (.inr (.inl ⟨⟨hne, h⟩, rfl⟩))), rfl⟩
    | reserved h =>
      exact .inl ⟨_, (mem_keyProblems_iff _ _).2 (.inr (.inr (.inr ⟨h, rfl⟩))), rfl⟩
    | longName hname h =>
      exact .inr ⟨_, (mem_nameProblems_iff _ _).2 ⟨⟨_, hname, h⟩, rfl⟩, rfl⟩

theorem ite_singleton_sublist {α : Type} (p : Prop) [Decidable p] (a : α) :
    (if p then [a] else []).Sublist [a] ∧ (if p then [] else [a]).Sublist [a] := by
  split <;> simp

/-- What is found is reported in a fixed order, and nothing twice. -/
theorem findings_sublist (checked : Form) : (findings checked).Sublist possibleFindings := by
  have hkey : (keyProblems checked.key).Sublist
      ([.required] ++ ([.tooLong 40] ++ [.invalidFormat] ++ [.reserved "authgear:"])) := by
    unfold keyProblems
    split
    · exact List.sublist_append_left [_] _
    · refine List.Sublist.trans ?_ (List.sublist_append_right [_] _)
      exact ((ite_singleton_sublist _ _).1.append (ite_singleton_sublist _ _).2).append
        (ite_singleton_sublist _ _).1
  have hname : (nameProblems checked.name).Sublist [.tooLong 100] := by
    unfold nameProblems
    split
    · exact List.nil_sublist _
    · exact (ite_singleton_sublist _ _).1
  exact (hkey.map (Finding.mk "key")).append (hname.map (Finding.mk "name"))

/-- **Nothing is found in valid forms only.** -/
theorem findings_eq_nil_iff (checked : Form) : findings checked = [] ↔ checked.Valid := by
  have hfaulty : findings checked = [] ↔ ∀ x, ¬checked.Faulty x := by
    rw [List.eq_nil_iff_forall_not_mem]
    simp only [mem_findings_iff]
  rw [hfaulty]
  constructor
  · intro h
    have hne : checked.key ≠ "" := fun hkey => h _ (.required hkey)
    exact
      { nonempty := by
          have hlength : checked.key.length ≠ 0 := by simpa using hne
          omega
        length := Nat.not_lt.1 fun hlong => h _ (.longKey hlong)
        word := Classical.byContradiction fun hword => h _ (.noWord hne hword)
        free := fun hreserved => h _ (.reserved hreserved)
        name := fun name hname => Nat.not_lt.1 fun hlong => h _ (.longName hname hlong) }
  · rintro ⟨hnonempty, hlength, hword, hfree, hname⟩ x hx
    cases hx with
    | required hkey =>
      rw [hkey] at hnonempty
      cases hnonempty
    | longKey hlong => omega
    | noWord _ hno => exact hno hword
    | reserved hreserved => exact hfree hreserved
    | longName hsome hlong => exact absurd (hname _ hsome) (Nat.not_le.2 hlong)

/-- The order and the members tell what is found. -/
theorem eq_findings_iff (checked : Form) (found : List Finding) :
    found = findings checked
      ↔ found.Sublist possibleFindings ∧ ∀ x, x ∈ found ↔ checked.Faulty x := by
  have hnodup : possibleFindings.Nodup := by decide
  have hsublist := findings_sublist checked
  constructor
  · rintro rfl
    exact ⟨hsublist, mem_findings_iff checked⟩
  · rintro ⟨hfound, hmem⟩
    refine (hnodup.perm_iff_eq_of_sublist hfound hsublist).1 ?_
    rw [List.perm_ext_iff_of_nodup (hnodup.sublist hfound) (hnodup.sublist hsublist)]
    intro x
    rw [hmem, mem_findings_iff]

/-! ## Validation -/

/-- **Valid roles are accepted, and all else is reported.** A form comes back without blanks at the
ends of its parts if that form is valid, and it comes back once more then. Otherwise what is wrong
with it is reported: all that is, in a fixed order, and nothing twice. -/
theorem validate_exact (form : Form) :
    ∃ checked, form.Trims checked
      ∧ (∀ role, validate form = .ok role ↔ checked.Valid ∧ role = checked)
      ∧ (∀ found, validate form = .error found ↔ ¬checked.Valid
        ∧ found.Sublist possibleFindings ∧ ∀ x, x ∈ found ↔ checked.Faulty x)
      ∧ ∀ role, validate form = .ok role → validate role = .ok role := by
  obtain ⟨checked, htrims⟩ := exists_trims form
  have hform := validate_of_trims htrims
  have hagain := validate_of_trims htrims.self
  by_cases hvalid : checked.Valid
  · have hnil := (findings_eq_nil_iff checked).2 hvalid
    rw [hnil] at hform hagain
    refine ⟨checked, htrims, fun role => ?_, fun found => ?_, fun role hrole => ?_⟩
    · rw [hform]
      simp [hvalid, eq_comm]
    · rw [hform]
      simp [hvalid]
    · rw [hform] at hrole
      cases hrole
      exact hagain
  · have hne : findings checked ≠ [] := fun h => hvalid ((findings_eq_nil_iff checked).1 h)
    rw [if_neg (by simpa using hne)] at hform
    refine ⟨checked, htrims, fun role => ?_, fun found => ?_, fun role hrole => ?_⟩
    · rw [hform]
      simp [hvalid]
    · rw [hform, ← eq_findings_iff]
      simp [hvalid, eq_comm]
    · rw [hform] at hrole
      cases hrole

/-- Blanks beyond ASCII around a key with a colon, and a description of nothing else. -/
theorem validate_exact_wide_blanks :
    let form : Form := ⟨"\u00a0app:editor\u2003", some "Editör\n", some "\u3000"⟩
    let role : Form := ⟨"app:editor", some "Editör", none⟩
    validate form = .ok role ∧ role.Valid ∧ validate role = .ok role := by
  intro form role
  have hok : validate form = .ok role := by decide
  obtain ⟨checked, -, haccepts, -, hagain⟩ := validate_exact form
  obtain ⟨hvalid, hchecked⟩ := (haccepts role).1 hok
  exact ⟨hok, hchecked ▸ hvalid, hagain role hok⟩

end LoginSettings.Role
