import LoginSettings.Proofs.Json.Tagged
import LoginSettings.Wire.Widget

/-!
# The widget decoded from what it is encoded as

Render options, under the names that the widget's own code knows, and reports stand for themselves
when they are encoded.
-/

namespace LoginSettings.Widget

open Json (Node StandsFor)

theorem Theme.standsFor (t : Theme) (depth : Nat) : StandsFor depth decode t.encode t :=
  .name depth (by cases t <;> rfl)

theorem Size.standsFor (s : Size) (depth : Nat) : StandsFor depth decode s.encode s :=
  .name depth (by cases s <;> rfl)

theorem Options.standsFor (o : Options) : StandsFor 1 decode o.encode o := by
  refine .record (by simp) ?_ fun fs hof => ?_
  · simp only [List.forall_mem_cons]
    exact ⟨(StandsFor.string 0 _).known rfl, (o.theme.standsFor 0).known rfl,
      (StandsFor.string 0 _).known rfl, (StandsFor.bool 0 _).known rfl,
      (o.size.standsFor 0).known rfl, by simp⟩
  · have hsiteKey : fs.required "sitekey" Node.decodeString = .ok o.siteKey :=
      hof.required rfl (.string 0 _)
    have htheme : fs.required "theme" Theme.decode = .ok o.theme :=
      hof.required rfl (o.theme.standsFor 0)
    have hlanguage : fs.required "language" Node.decodeString = .ok o.language :=
      hof.required rfl (.string 0 _)
    have hresponseField : fs.required "response-field" Node.decodeBool = .ok o.responseField :=
      hof.required rfl (.bool 0 _)
    have hsize : fs.required "size" Size.decode = .ok o.size :=
      hof.required rfl (o.size.standsFor 0)
    rw [hsiteKey, htheme, hlanguage, hresponseField, hsize]
    rfl

theorem Report.standsFor (r : Report) : StandsFor 1 decode r.encode r := by
  cases r with
  | verified token => exact .tagged (.string token rfl (by decide))
  | failed code => exact .tagged (.string code rfl (by decide))
  | expired token => exact .tagged (.string token rfl (by decide))

end LoginSettings.Widget
