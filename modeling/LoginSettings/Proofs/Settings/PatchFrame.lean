import LoginSettings.Proofs.Settings.Written

/-!
# What a patch leaves alone

A patch changes the places of the fields that differ, and no more: whatever path of keys neither
leads to such a place nor on from it leads to the same value as before, or to none as before. At the
place of a flag that differs stands its new value, and an object on the way stays an object, even
where other fields are written below it.
-/

namespace LoginSettings.Document

/-- **A patch changes the places of the differing fields only.** Away from them every path leads to
what it led to before, each flag that differs stands at its place with its new value, and objects
above those places stay objects. -/
theorem at?_patch (d : Document) (initial current : Settings) :
    (∀ p : List String, (∀ f : Field, current.get f ≠ initial.get f → Apart p f.place) →
      (d.patch initial current).root.at? p = d.root.at? p)
    ∧ (∀ f ∈ Field.flags, current.get f ≠ initial.get f →
      ∃ b, current.get f = .bool b
        ∧ (d.patch initial current).root.at? f.place = some (.bool (f.stored b)))
    ∧ ∀ (f : Field) (p : List String), current.get f ≠ initial.get f →
      p <+: f.place → p ≠ f.place → d.root.isObjectAt p = true →
      (d.patch initial current).root.isObjectAt p = true := by
  have hpatch := Value.changesOnly_patch initial current d.root
  refine ⟨fun p hp => ?_, fun f hf hne => ?_, fun f p _ hprefix hproper hobject => ?_⟩
  · refine hpatch.lookup p fun q hq => ?_
    obtain ⟨f, hf, rfl⟩ := List.mem_map.1 hq
    exact hp f (Settings.mem_changedFields.1 hf)
  · refine ⟨current.flag f, Settings.get_eq_bool_flag hf current, ?_⟩
    exact (Value.holds_patch d.root (.inl hne)).flag_stands hf
  · refine hpatch.object p (fun q hq => ?_) hobject
    obtain ⟨g, -, rfl⟩ := List.mem_map.1 hq
    exact Field.not_place_prefix hprefix hproper

/-- A string stands where the section on login IDs belongs, and next to it a member whose key has a
dot. The flag is written, the string gives way, and the member stays. -/
theorem at?_patch_over_string :
    let d := Document.ofValue (.object [("identity",
      .object [("login_id", .string "none"), ("oauth", .object [("x.y", .null)])])])
    let current : Settings := { allowPlus := false }
    Settings.get current .allowPlus ≠ Settings.get {} .allowPlus
    ∧ (d.patch {} current).root.at? ["identity", "oauth", "x.y"] = some .null
    ∧ (d.patch {} current).root.at?
        ["identity", "login_id", "types", "email", "block_plus_sign"] = some (.bool true)
    ∧ (d.patch {} current).root.isObjectAt ["identity"] = true := by
  intro d current
  have hdiffers : ∀ f : Field, current.get f ≠ Settings.get {} f → f = .allowPlus := by decide
  have hallow : current.get .allowPlus ≠ Settings.get {} .allowPlus := by decide
  obtain ⟨hlookup, hflag, hobject⟩ := at?_patch d {} current
  refine ⟨hallow, ?_, ?_, ?_⟩
  · rw [hlookup _ fun f hf => by rw [hdiffers f hf]; decide]
    decide
  · obtain ⟨b, hb, hstands⟩ := hflag .allowPlus (by decide) hallow
    cases hb
    exact hstands
  · exact hobject .allowPlus _ hallow (by decide) (by decide) (by decide)

end LoginSettings.Document
