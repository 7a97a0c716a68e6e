import LoginSettings.Document.Value

/-!
# Layers

Putting one layer of settings over another: objects are merged member by member, and anything else
in the upper layer, null and arrays included, takes the place of what is below.
-/

namespace LoginSettings.Value

mutual

/-- The value with another one laid over it. -/
def overlay (base : Value) : Value → Value
  | object ms =>
    match base with
    | object below => object (overlayMembers below ms)
    | _ => object ms
  | upper => upper

/-- Members with others laid over them, one after another. -/
def overlayMembers (below : List (String × Value)) :
    List (String × Value) → List (String × Value)
  | [] => below
  | (key, v) :: rest =>
    let merged := match Members.find? key below with
      | some w => overlay w v
      | none => v
    overlayMembers (Members.insert key merged below) rest

end

/-- Layers merged, the last one on top. -/
def mergeLayers (layers : List Value) : Value := layers.foldl overlay null

end LoginSettings.Value
