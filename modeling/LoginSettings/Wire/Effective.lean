import LoginSettings.Calendar.Instant
import LoginSettings.Tool.Load

/-!
# Computed settings on the wire

The settings of the tool with their sources and the instant at which they were computed.
-/

namespace LoginSettings.Tool

open Json (Decoded FieldShape Node)

/-- Settings with the instant at which they were computed. -/
structure Stamped extends Effective where
  createdAt : Instant
deriving DecidableEq, Repr

namespace Stamped

/-- The instant that a node stands for. -/
def decodeInstant (n : Node) : Decoded Instant := do
  let text ← n.decodeText "an RFC 3339 formatted date and time string"
  match Instant.ofText text with
  | .ok i => pure i
  | .error fault => throw (.data (.other fault.message) n.stop?)

/-- Computed settings as an object. -/
def encode (s : Stamped) : Value :=
  .object
    [("created_at", .string s.createdAt.text),
      ("config", s.config.encode),
      ("sources", .array (s.sources.map Source.encode))]

/-- The fields of computed settings. -/
def shapes : List FieldShape :=
  [Json.field "created_at" decodeInstant,
    Json.field "config" Config.decode,
    Json.field "sources" (Node.decodeList Source.decode)]

/-- The computed settings that a node stands for. -/
def decode (n : Node) : Decoded Stamped := do
  let fs ← n.fields "EffectiveConfig" shapes
  pure {
    createdAt := ← fs.required "created_at" decodeInstant
    config := ← fs.required "config" Config.decode
    sources := ← fs.required "sources" (Node.decodeList Source.decode) }

end Stamped
end LoginSettings.Tool
