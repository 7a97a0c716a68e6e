import LoginSettings.Json.Decode
import LoginSettings.Role.Validation

/-!
# Findings on the wire

Problems with their kind as a tag, and findings, in which the problem's members stand beside the
location.
-/

namespace LoginSettings.Role

open Json (Alternative Choice Decoded Node Key ofReading)

namespace Problem

/-- The members of a problem. -/
def members : Problem → List (String × Value)
  | required => [("kind", .string "required")]
  | tooLong most => [("kind", .string "too_long"), ("max", .number (.integer most.toNat))]
  | invalidFormat => [("kind", .string "invalid_format")]
  | reserved start => [("kind", .string "reserved_prefix"), ("prefix", .string start)]

/-- A problem as an object. -/
def encode (p : Problem) : Value := .object p.members

/-- The kinds of problems. -/
def choice : Choice Problem where
  title := "ValidationErrorKind"
  tag := "kind"
  alternatives :=
    [("required", "ValidationErrorKind::Required", .bare required),
      ("too_long", "ValidationErrorKind::TooLong",
        .single "max" fun n => n.decodeSize.map tooLong),
      ("invalid_format", "ValidationErrorKind::InvalidFormat", .bare invalidFormat),
      ("reserved_prefix", "ValidationErrorKind::ReservedPrefix",
        .single "prefix" fun n => n.decodeString.map reserved)]

/-- The problem that a node stands for. -/
def decode : Node → Decoded Problem := choice.decode

/-- The kind of a problem beside a location, by its name or by its number. -/
def decodeKind (n : Node) : Decoded (String × Alternative Problem) :=
  match n with
  | .scalar _ (.number (.ok (.integer i))) =>
    if i < 0 then .error (n.mismatch "variant identifier")
    else
      match choice.alternatives[i.toNat]? with
      | some (_, entry) => .ok entry
      | none =>
        .error (.data (.badValue (.number (.integer i))
          s!"variant index 0 <= i < {choice.alternatives.length}") none)
  | n => Node.decodeVariant choice.alternatives n

end Problem

namespace Finding

/-- A finding as an object. -/
def encode (f : Finding) : Value := .object (("location", .string f.location) :: f.problem.members)

/-- Splits members into the location and all others, which have to be readable. -/
def splitMembers (location : Option String) (others : List (Key × Node)) :
    List (Key × Node) → Decoded (Option String × List (Key × Node))
  | [] => .ok (location, others)
  | (key, n) :: rest => do
    let name ← ofReading key.text
    if name = "location" then
      if location.isSome then throw (.data (.duplicate name) none)
      let text ← n.decodeString
      splitMembers (some text) others rest
    else
      let _ ← ofReading n.value
      splitMembers location (others ++ [(key, n)]) rest

/-- The finding that an object stands for. -/
def decode (n : Node) : Decoded Finding :=
  match n with
  | .object extent tooDeep _ members damage => do
    ofReading (Node.notTooDeep tooDeep extent)
    let (location, others) ← splitMembers none [] members
    ofReading (Node.noDamage damage)
    match location with
    | none => throw (.data (.missing "location") none)
    | some location =>
      let aside ← Problem.choice.putAside Problem.decodeKind ⟨none, []⟩ others
      let problem ← Problem.choice.finish aside
      pure ⟨location, problem⟩
  | n => .error (n.mismatch "struct ValidationError")

end Finding
end LoginSettings.Role
