import LoginSettings.Document
import LoginSettings.Proofs.Document.JsonText
import LoginSettings.Proofs.Json.Canonical

/-!
# What a digest identifies

The digest of a document is the hash of its canonical text. Nothing of the document is lost in that
text, so that two documents with the same digest are the same, or else two different messages with
the same hash have been found. Nor does anything come in that is not in the document: in which order
a text has the members makes no difference to the digest of the document that it spells.

* `hexDigest_injective` — the digits of a hash stand for the hash
* `ofText_of_reordered` — texts with their members in another order
* `digest_identifies` — canonical texts, and the digests of documents
-/

namespace LoginSettings

/-! ## Hashes in digits -/

namespace Digest

/-- Different bytes have different digits. -/
theorem hexByte_injective {a b : UInt8} (h : hexByte a = hexByte b) : a = b := by
  have hdigit : ∀ m < 16, ∀ n < 16, Nat.digitChar m = Nat.digitChar n → m = n := by decide
  have ha := a.toNat_lt
  have hb := b.toNat_lt
  simp only [hexByte, List.cons.injEq, and_true] at h
  have hhigh := hdigit (a.toNat / 16) (by omega) (b.toNat / 16) (by omega) h.1
  have hlow := hdigit (a.toNat % 16) (by omega) (b.toNat % 16) (by omega) h.2
  exact UInt8.toNat_inj.1 (by omega)

/-- Different lists of bytes have different digits. -/
theorem flatMap_hexByte_injective {as bs : List UInt8}
    (h : as.flatMap hexByte = bs.flatMap hexByte) : as = bs := by
  induction as generalizing bs with
  | nil =>
    cases bs with
    | nil => rfl
    | cons b bs => cases h
  | cons a as ih =>
    cases bs with
    | nil => cases h
    | cons b bs =>
      rw [List.flatMap_cons, List.flatMap_cons] at h
      obtain ⟨hhead, hrest⟩ := List.append_inj h rfl
      rw [hexByte_injective hhead, ih hrest]

/-- **Messages with the same digits of their hashes have the same hash.** -/
theorem hexDigest_injective {m n : List UInt8} (h : hexDigest m = hexDigest n) :
    sha256 m = sha256 n :=
  flatMap_hexByte_injective (String.ofList_injective h)

end Digest

/-- Different texts are encoded differently. -/
theorem Text.encodeUtf8_injective {cs ds : List Char} (h : encodeUtf8 cs = encodeUtf8 ds) :
    cs = ds := by
  have hdecode := decodeUtf8_encodeUtf8 cs
  rw [h, decodeUtf8_encodeUtf8] at hdecode
  exact (String.ofList_injective (Except.ok.inj hdecode)).symm

namespace Document

open Value (Reordered)

variable {d e : Document} {v w : Value} {format format' : Format} {text text' : String}

/-! ## Texts with their members in another order -/

/-- Holds of the texts in a format that spell a value, with the members of objects in the order of
the text. -/
def Spelled (format : Format) (text : String) (v : Value) : Prop :=
  match format with
  | .json => Json.readValue text = .ok v
  | .yaml => Yaml.readValue text = some v

/-- A text that spells a value is read as its document. -/
theorem ofText_of_spelled (h : Spelled format text v) : ofText format text = .ok (ofValue v) := by
  cases format with
  | json =>
    rw [ofText, ofJson, show Json.readValue text = .ok v from h]
  | yaml =>
    rw [ofText, ofYaml, show Yaml.readValue text = some v from h]

/-- Documents do not depend on the order of members. -/
theorem ofValue_eq_of_reordered (h : Reordered v w) : ofValue v = ofValue w :=
  ext_root h.inOrder_eq

/-- **The order of the members in a text makes no difference to the document.** -/
theorem ofText_of_reordered (hload : ofText format text = .ok d) (h : Spelled format text v)
    (h' : Spelled format' text' w) (hreordered : Reordered v w) :
    ofText format' text' = .ok d := by
  rw [ofText_of_spelled h] at hload
  rw [ofText_of_spelled h', ← ofValue_eq_of_reordered hreordered]
  exact hload

/-! ## Canonical text -/

/-- The bytes that are hashed for a document. -/
def hashed (d : Document) : List UInt8 := Text.encodeUtf8 (Json.canonical d.root).toList

theorem digest_eq (d : Document) : d.digest = Digest.hexDigest d.hashed := rfl

/-- The same is hashed for two documents if they have the same canonical text. -/
theorem hashed_eq_iff : d.hashed = e.hashed ↔ Json.canonical d.root = Json.canonical e.root := by
  constructor
  · exact fun h => String.ext (Text.encodeUtf8_injective h)
  · intro h
    rw [hashed, hashed, h]

/-- A document is read back from its canonical text. -/
theorem ofJson_canonical (hexact : Json.Exact d.root)
    (hdepth : Json.nesting d.root ≤ Json.greatestDepth) :
    ofJson (Json.canonical d.root) = .ok d := by
  rw [ofJson, Json.readValue_canonical hexact d.ordered hdepth]
  show Except.ok (ofValue (Json.byUnits d.root)) = .ok d
  rw [← ofValue_eq_of_reordered (Json.reordered_byUnits d.ordered), d.ofValue_root]

/-- Different documents have different canonical texts. -/
theorem canonical_eq_iff (hexact : Json.Exact d.root) (hdepth : Json.nesting d.root ≤ 127)
    (hexact' : Json.Exact e.root) (hdepth' : Json.nesting e.root ≤ 127) :
    Json.canonical d.root = Json.canonical e.root ↔ d = e := by
  constructor
  · intro h
    have hread := ofJson_canonical hexact hdepth
    rw [h, ofJson_canonical hexact' hdepth'] at hread
    exact (Except.ok.inj hread).symm
  · rintro rfl
    rfl

/-- **The canonical text of a document is read back as the document**, and has the members of all
objects in increasing order of their units. Hence it tells documents apart, and so does the digest
unless two different messages have the same hash. Documents that are loaded from texts with the same
members in another order have the same digest. -/
theorem digest_identifies (hexact : Json.Exact d.root) (hdepth : Json.nesting d.root ≤ 127) :
    ofJson (Json.canonical d.root) = .ok d ∧
    (∃ v, Json.readValue (Json.canonical d.root) = .ok v ∧ Json.compact v = Json.canonical d.root ∧
      Json.UnitsIncrease v) ∧
    (∀ e : Document, Json.Exact e.root → Json.nesting e.root ≤ 127 →
      (Json.canonical d.root = Json.canonical e.root ↔ d = e) ∧
      (d ≠ e → d.digest = e.digest →
        d.hashed ≠ e.hashed ∧ Digest.sha256 d.hashed = Digest.sha256 e.hashed)) ∧
    ∀ (format format' : Format) (text text' : String) (v w : Value),
      Spelled format text v → ofText format text = .ok d →
      Spelled format' text' w → Reordered v w →
      ∃ e, ofText format' text' = .ok e ∧ e.digest = d.digest := by
  have hcompact : Json.compact (Json.byUnits d.root) = Json.canonical d.root := by
    rw [Json.compact, Json.canonical, Json.canonicalChars_eq_compactChars hexact]
  refine ⟨ofJson_canonical hexact hdepth,
    ⟨_, Json.readValue_canonical hexact d.ordered hdepth, hcompact,
      Json.unitsIncrease_byUnits d.ordered⟩, fun e hexact' hdepth' => ?_,
    fun format format' text text' v w h hload h' hreordered =>
      ⟨d, ofText_of_reordered hload h h' hreordered, rfl⟩⟩
  have hcanonical := canonical_eq_iff hexact hdepth hexact' hdepth'
  refine ⟨hcanonical, fun hne hdigest => ⟨?_, ?_⟩⟩
  · rwa [ne_eq, hashed_eq_iff, hcanonical]
  · rw [digest_eq, digest_eq] at hdigest
    exact Digest.hexDigest_injective hdigest

/-- A document whose keys are in one order by their characters and in another by their units, with
the greatest numbers that a double tells from their neighbours. -/
def astral : Document := .ofValue (.object
  [("ﬀ", .array [.number (.integer (2 ^ 53)), .object [("b", .null), ("a", .bool true)]]),
    ("😀", .number (.integer (-2 ^ 53)))])

theorem exact_astral : Json.Exact astral.root := by
  have hroot : astral.root = .object
      [("ﬀ", .array [.number (.integer (2 ^ 53)), .object [("a", .bool true), ("b", .null)]]),
        ("😀", .number (.integer (-2 ^ 53)))] := by decide
  have hinner : Json.Exact (.object [("a", .bool true), ("b", .null)]) :=
    .object (by simpa using ⟨.bool true, .null⟩)
  have hitems : Json.Exact (.array
      [.number (.integer (2 ^ 53)), .object [("a", .bool true), ("b", .null)]]) :=
    .array (by simpa using ⟨.number (by decide), hinner⟩)
  rw [hroot]
  exact .object (by simpa using ⟨hitems, .number (by decide)⟩)

/-- Its members by their units. -/
def astralByUnits : Value := .object
  [("😀", .number (.integer (-2 ^ 53))),
    ("ﬀ", .array [.number (.integer (2 ^ 53)), .object [("a", .bool true), ("b", .null)]])]

/-- Its members as they stand in another text. -/
def astralBackwards : Value := .object
  [("ﬀ", .array [.number (.integer (2 ^ 53)), .object [("b", .null), ("a", .bool true)]]),
    ("😀", .number (.integer (-2 ^ 53)))]

theorem reordered_astral : Reordered astralByUnits astralBackwards := by
  have hinner : Reordered
      (.array [.number (.integer (2 ^ 53)), .object [("a", .bool true), ("b", .null)]])
      (.array [.number (.integer (2 ^ 53)), .object [("b", .null), ("a", .bool true)]]) :=
    .item [_] [] (.swap [] [] (by decide))
  exact .trans (.swap [] [] (by decide)) (.member [] _ "ﬀ" hinner)

theorem digest_identifies_astral :
    Json.canonical astral.root = Json.compact astralByUnits ∧
    ofJson (Json.canonical astral.root) = .ok astral ∧
    ∃ e, ofJson "\x7b\"ﬀ\": [9007199254740992, \x7b\"b\": null, \"a\": true\x7d],
      \"😀\": -9007199254740992\x7d" = .ok e ∧ e.digest = astral.digest := by
  have htext : Json.canonical astral.root = Json.compact astralByUnits := by decide +kernel
  have hcanonical : Json.readValue (Json.compact astralByUnits) = .ok astralByUnits := by
    decide +kernel
  have hbackwards : Json.readValue "\x7b\"ﬀ\": [9007199254740992, \x7b\"b\": null, \"a\": true\x7d],
      \"😀\": -9007199254740992\x7d" = .ok astralBackwards := by
    decide +kernel
  obtain ⟨hback, -, -, hload⟩ := digest_identifies exact_astral (by decide)
  have hspelled : Spelled .json (Json.canonical astral.root) astralByUnits := by
    rw [htext]
    exact hcanonical
  exact ⟨htext, hback, hload .json .json _ _ _ _ hspelled hback hbackwards reordered_astral⟩

end Document
end LoginSettings
