import LoginSettings.Proofs.Settings.Written
import LoginSettings.Session

/-!
# Turning off a type that is not listed

A session may take its settings from an effective document, in which defaults are filled in, while
its changes go into the raw one. A type that only the effective document lists is then on at first
without an entry in the raw one. Turning it off writes `verification.enabled`, for which an entry is
put into the list of keys, and so the type gets listed by being turned off. This is the only case:
a type that neither document lists stays unlisted as long as it is off.
-/

namespace LoginSettings.Session

/-- Holds where a type that is off and not listed in the raw document is not listed in the document
that would be saved, and so reads as disabled there. -/
def KeepsUnlisted (s : Session) (t : KeyType) : Prop :=
  isListed t (keysOf s.raw.root) = false → s.current.enabled t = false →
    isListed t (keysOf s.preview.root) = false
      ∧ (Settings.ofDocument s.preview).enabled t = false

theorem isListed_preview (s : Session) (t : KeyType) :
    isListed t (keysOf s.preview.root)
      = (isListed t (keysOf s.raw.root) || decide (s.current.enabled t ≠ s.initial.enabled t)) :=
  Value.isListed_patch s.initial s.current s.raw.root t

/-- **A type that is off and unlisted stays unlisted exactly if the effective document does not list
it either.** -/
theorem keepsUnlisted_iff (effective raw : Document) (current : Settings) (t : KeyType) :
    ((start raw (some effective)).replace current).KeepsUnlisted t
      ↔ (isListed t (keysOf raw.root) = false → current.enabled t = false →
        isListed t (keysOf effective.root) = false) := by
  have hinitial : ((start raw (some effective)).replace current).initial.enabled t
      = isListed t (keysOf effective.root) := Settings.enabled_ofRoot t effective.root
  have hlisted := isListed_preview ((start raw (some effective)).replace current) t
  rw [hinitial] at hlisted
  -- The preview lists the type just if the flag, which is off now, was on at first.
  unfold KeepsUnlisted
  refine forall_congr' fun hraw => forall_congr' fun hoff => ?_
  rw [Settings.ofDocument, Settings.enabled_ofRoot, and_self, hlisted, hraw, hoff]
  simp

/-- User names are listed by default only. Once they are turned off, they are listed in the document
that would be saved. -/
theorem not_keepsUnlisted_username :
    ¬((start (Document.ofValue (.object [("id", .string "my-app")]))
      (some (Document.ofValue (.object [("identity", .object [("login_id", .object
        [("keys", .array [.object [("type", .string "username")]])])])])))).replace
          { usernameEnabled := false }).KeepsUnlisted .username := by
  intro h
  have hpreview := (h (by decide) (by decide)).1
  revert hpreview
  decide

/-- An effective document that lists e-mail addresses only: user names stay unlisted. -/
theorem keepsUnlisted_username_of_email :
    let effective := Document.ofValue (.object [("identity", .object [("login_id", .object
      [("keys", .array [.object [("type", .string "email")]])])])])
    isListed .username (keysOf effective.root) = false
      ∧ ((start .empty (some effective)).replace { asciiOnly := true }).KeepsUnlisted .username :=
  ⟨by decide, (keepsUnlisted_iff _ _ _ _).2 fun _ _ => by decide⟩

end LoginSettings.Session
