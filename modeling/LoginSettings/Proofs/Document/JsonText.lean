import LoginSettings.Document.Storage
import LoginSettings.Proofs.Json.Reading
import LoginSettings.Proofs.Text.Utf8

/-!
# Documents written as JSON

What is written for a document as JSON, on one line or on several, spells its root, so that the
document is read back from it.

* `exists_spells_toText` — what is written spells the root
* `load_of_read` — a file that holds what is written is loaded as the document
-/

namespace LoginSettings.Document

open Files (Tree)

variable {d : Document} {cs blanks : List Char} {t : Tree} {path : String}

theorem ofValue_root (d : Document) : ofValue d.root = d :=
  ext_root (Value.inOrder_eq_self d.ordered)

theorem exists_spells_toText (h : Json.Whole d.root) (pretty : Bool) :
    ∃ cs, Json.Spells d.root cs ∧ d.toText .json pretty = String.ofList cs := by
  cases pretty with
  | false => exact ⟨_, Json.spells_compactChars h, rfl⟩
  | true => exact ⟨_, Json.spells_prettyChars h 0, rfl⟩

theorem ofJson_of_spells (h : Json.Spells d.root cs) (hwhole : Json.Whole d.root)
    (hdepth : Json.nesting d.root ≤ Json.greatestDepth) (hblanks : Json.Blanks blanks) :
    ofJson (String.ofList (cs ++ blanks)) = .ok d := by
  rw [ofJson, Json.readValue_of_spells h hwhole hdepth hblanks]
  exact congrArg Except.ok d.ofValue_root

/-- **A file that holds what is written for a document as JSON is loaded as that document.** -/
theorem load_of_read (pretty : Bool) (hformat : formatOf path = .ok .json)
    (hwhole : Json.Whole d.root) (hdepth : Json.nesting d.root ≤ Json.greatestDepth)
    (hread : t.read path = .ok (Text.encodeUtf8 (d.toText .json pretty).toList)) :
    load t path = .ok d := by
  obtain ⟨cs, hspells, htext⟩ := exists_spells_toText hwhole pretty
  have hread' : t.readText path = .ok (String.ofList cs) := by
    simp only [Tree.readText, hread, htext, String.toList_ofList, Text.decodeUtf8_encodeUtf8, bind,
      Except.bind]
    rfl
  have hjson : ofJson (String.ofList cs) = .ok d := by
    simpa using ofJson_of_spells hspells hwhole hdepth Json.blanks_nil
  simp only [load, hformat, hread', bind, Except.bind]
  exact hjson

end LoginSettings.Document
