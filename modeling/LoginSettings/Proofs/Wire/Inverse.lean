import LoginSettings.Proofs.Wire.Role
import LoginSettings.Proofs.Wire.Settings
import LoginSettings.Proofs.Wire.Tool
import LoginSettings.Proofs.Wire.Widget

/-!
# What is encoded is decoded

All data that go over the wire are decoded from the compact text that they are encoded as, and from
the same text with the members of its objects in any other order. Each of them stands for itself
when it is encoded, which has been shown where its parts are known.
-/

namespace LoginSettings

open Value (Reordered)

namespace Json

variable {α : Type} {decode : Node → Decoded α} {encode : α → Value}

/-- Holds if all data are decoded from the compact text that they are encoded as, and from this text
with the members of its objects in any other order. -/
structure Inverts (decode : Node → Decoded α) (encode : α → Value) : Prop where
  decodes : ∀ a, decodeOfText decode (compact (encode a)) = .ok a
  reordered : ∀ a w, Reordered (encode a) w → decodeOfText decode (compact w) = .ok a

theorem inverts_of_standsFor {depth : Nat} (hdepth : depth ≤ greatestDepth)
    (h : ∀ a, StandsFor depth decode (encode a) a) : Inverts decode encode where
  decodes a := (h a).decodeOfText hdepth (.refl _)
  reordered a _ hw := (h a).decodeOfText hdepth hw

end Json

/-- **Decoding undoes encoding**, whatever the order of members: of settings, their fields and the
values of these, of the built-in settings, the sources and the settings of the tool, of the options
and the reports of the widget, and of problems and findings. -/
theorem inverts_wire :
    Json.Inverts Settings.decode Settings.encode ∧
    Json.Inverts Field.decode Field.encode ∧
    Json.Inverts FieldValue.decode FieldValue.encode ∧
    Json.Inverts Tool.Defaults.decode Tool.Defaults.encode ∧
    Json.Inverts Tool.Source.decode Tool.Source.encode ∧
    Json.Inverts Tool.Config.decode Tool.Config.encode ∧
    Json.Inverts Widget.Options.decode Widget.Options.encode ∧
    Json.Inverts Widget.Report.decode Widget.Report.encode ∧
    Json.Inverts Role.Problem.decode Role.Problem.encode ∧
    Json.Inverts Role.Finding.decode Role.Finding.encode := by
  refine ⟨?_, ?_, ?_, ?_, ?_, ?_, ?_, ?_, ?_, ?_⟩
  · exact Json.inverts_of_standsFor (by decide) Settings.standsFor
  · exact Json.inverts_of_standsFor (by decide) Field.standsFor
  · exact Json.inverts_of_standsFor (by decide) FieldValue.standsFor
  · exact Json.inverts_of_standsFor (by decide) Tool.Defaults.standsFor
  · exact Json.inverts_of_standsFor (by decide) Tool.Source.standsFor
  · exact Json.inverts_of_standsFor (by decide) Tool.Config.standsFor
  · exact Json.inverts_of_standsFor (by decide) Widget.Options.standsFor
  · exact Json.inverts_of_standsFor (by decide) Widget.Report.standsFor
  · exact Json.inverts_of_standsFor (by decide) Role.Problem.standsFor
  · exact Json.inverts_of_standsFor (by decide) Role.Finding.standsFor

/-- The members of a finding with the tag of its problem at the end, and the location before it. -/
def tagLast : Value := .object
  [("max", .number (.integer 40)), ("location", .string "key"), ("kind", .string "too_long")]

theorem inverts_wire_finding :
    Json.decodeOfText Role.Finding.decode
        "\x7b\"max\":40,\"location\":\"key\",\"kind\":\"too_long\"\x7d"
      = .ok ⟨"key", .tooLong 40⟩ := by
  have hreordered : Reordered (Role.Finding.encode ⟨"key", .tooLong 40⟩) tagLast :=
    Value.reordered_of_perm (by decide) (by decide)
  have htext : Json.compact tagLast
      = "\x7b\"max\":40,\"location\":\"key\",\"kind\":\"too_long\"\x7d" := by
    decide +kernel
  obtain ⟨-, -, -, -, -, -, -, -, -, hfinding⟩ := inverts_wire
  rw [← htext]
  exact hfinding.reordered _ _ hreordered

end LoginSettings
