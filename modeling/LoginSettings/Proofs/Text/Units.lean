import LoginSettings.Text.Units
import Mathlib.Tactic.SplitIfs

/-!
# Texts told apart by their units

No character stands for half of a pair of surrogates, so that the units of a text can be cut into
characters in one way only. Texts with the same units are the same.

* `units_injective` — texts with the same units
* `unitsLE_total`, `unitsLE_trans`, `unitsLT_of_unitsLE` — the order by units
-/

namespace LoginSettings.Text

theorem not_surrogate (c : Char) : c.toNat < 0xD800 ∨ 0xDFFF < c.toNat ∧ c.toNat < 0x110000 :=
  c.valid

/-- Where the units of two texts agree, so do their first characters and what stands behind them. -/
theorem charUnits_append_inj {c d : Char} {xs ys : List Nat}
    (h : charUnits c ++ xs = charUnits d ++ ys) : c = d ∧ xs = ys := by
  have hc := not_surrogate c
  have hd := not_surrogate d
  suffices hcode : c.toNat = d.toNat ∧ xs = ys by
    refine ⟨?_, hcode.2⟩
    rw [← Char.ofNat_toNat c, ← Char.ofNat_toNat d, hcode.1]
  unfold charUnits at h
  simp only at h
  split_ifs at h
  · simpa using h
  · -- A character of one unit is no first half of a pair, on either side.
    simp only [List.cons_append, List.nil_append, List.cons.injEq] at h
    omega
  · simp only [List.cons_append, List.nil_append, List.cons.injEq] at h
    omega
  · simp only [List.cons_append, List.nil_append, List.cons.injEq] at h
    exact ⟨by omega, h.2.2⟩

theorem flatMap_charUnits_injective {cs ds : List Char}
    (h : cs.flatMap charUnits = ds.flatMap charUnits) : cs = ds := by
  have hne : ∀ c, charUnits c ≠ [] := by
    intro c
    unfold charUnits
    dsimp only
    split_ifs <;> simp
  induction cs generalizing ds with
  | nil =>
    cases ds with
    | nil => rfl
    | cons d ds => simp [hne d] at h
  | cons c cs ih =>
    cases ds with
    | nil => simp [hne c] at h
    | cons d ds =>
      rw [List.flatMap_cons, List.flatMap_cons] at h
      obtain ⟨rfl, hrest⟩ := charUnits_append_inj h
      rw [ih hrest]

/-- **Texts with the same units are the same.** -/
theorem units_injective {s t : String} (h : units s = units t) : s = t :=
  String.ext (flatMap_charUnits_injective h)

/-! ## The order by units -/

/-- The strict order of texts by their units. -/
def UnitsLT (s t : String) : Prop := List.Lex (· < ·) (units s) (units t)

theorem unitsLE_iff {s t : String} : unitsLE s t = true ↔ ¬UnitsLT t s := by
  rw [unitsLE, Bool.not_eq_true', ← Bool.not_eq_true, List.lex_eq_true_iff_lt]
  exact Iff.rfl

theorem unitsLE_total (s t : String) : unitsLE s t = true ∨ unitsLE t s = true := by
  rw [unitsLE_iff, unitsLE_iff]
  exact List.le_total (units s) (units t)

theorem unitsLE_trans {s t u : String} (h : unitsLE s t = true) (h' : unitsLE t u = true) :
    unitsLE s u = true := by
  rw [unitsLE_iff] at h h' ⊢
  exact List.le_trans h h'

/-- Different texts that are in order are in strict order. -/
theorem unitsLT_of_unitsLE {s t : String} (h : unitsLE s t = true) (hne : s ≠ t) :
    UnitsLT s t := by
  rcases Classical.em (UnitsLT s t) with hlt | hge
  · exact hlt
  · exact absurd (units_injective (List.le_antisymm (unitsLE_iff.1 h) hge)) hne

end LoginSettings.Text
