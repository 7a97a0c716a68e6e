import LoginSettings.Proofs.Settings.Written

/-!
# Patching again

A patch that is applied to its own result changes nothing. This is so with the same two snapshots,
and also where the initial one is read from the result: that one need not be the current one, since
a type that is turned off stays listed and keywords read back without blanks, but whatever still
differs has been written already.
-/

namespace LoginSettings

/-- A field that differs from what is read after a patch is one that the patch has written. -/
theorem Value.rewrites_of_get_ofRoot_patch_ne {current : Settings} {root : Value} {f : Field}
    (h : current.get f
      ≠ (Settings.ofRoot (root.patch (Settings.ofRoot root) current)).get f) :
    (Settings.ofRoot root).Rewrites current f := by
  -- Either it differed before, or the patch has changed how it reads, so it has been written.
  by_cases hdiffers : current.get f = (Settings.ofRoot root).get f
  · refine Classical.byContradiction fun hkept => h ?_
    rw [hdiffers, get_ofRoot_patch root hkept]
  · exact .inl hdiffers

namespace Document

theorem patch_eq_self {d : Document} {initial current : Settings}
    (h : ∀ f, current.get f ≠ initial.get f → Value.Holds current d.root f) :
    d.patch initial current = d :=
  ext_root (Value.patch_eq_self d.ordered h)

/-- **Patching again changes nothing,** neither with the same snapshots nor with the initial one
read anew. -/
theorem patch_patch (d : Document) (initial current : Settings) :
    (d.patch initial current).patch initial current = d.patch initial current
    ∧ let once := d.patch (.ofDocument d) current
      once.patch (.ofDocument once) current = once := by
  constructor
  · refine patch_eq_self fun f hf => ?_
    exact Value.holds_patch d.root (.inl hf)
  · intro once
    refine patch_eq_self fun f hf => ?_
    exact Value.holds_patch d.root (Value.rewrites_of_get_ofRoot_patch_ne hf)

end Document
end LoginSettings
