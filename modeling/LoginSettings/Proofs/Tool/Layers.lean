import LoginSettings.Proofs.Document.Lookup
import LoginSettings.Tool.Layers
import Mathlib.Data.List.Induction

/-!
# Which layer counts

What stands at a path once layers have been laid one over another. A value in a layer is seen unless
a later layer covers it: by a value of its own at the path, or by something that is no object on the
way there. Objects are seen through, and so a scalar that cuts off what is below stays cut off even
where an object is laid over it again.

The layers have to be in order, because a key that stood twice in a layer would be merged twice.

* `at?_overlay_of_some`, `at?_overlay_of_none`, `at?_overlay_of_not_opens` — what stands at a path
  when one value is laid over another
* `at?_mergeLayers` — what stands at a path when any number of layers are merged
-/

namespace LoginSettings.Value

variable {base upper v w : Value} {layers : List Value} {p : List String} {key : String}

/-! ## One value over another -/

/-- Holds of values that have nothing but objects on the way to a path. -/
def Opens (v : Value) (p : List String) : Prop :=
  ∀ q w, q <+: p → q ≠ p → v.at? q = some w → w.isObject = true

theorem opens_nil (v : Value) : v.Opens [] := by
  intro q w hq hne
  exact absurd (List.prefix_nil.1 hq) hne

/-- What is not an object opens no path into it. -/
theorem not_opens_cons (hv : v.isObject = false) (key : String) (p : List String) :
    ¬v.Opens (key :: p) := by
  intro h
  have hroot := h [] v List.nil_prefix (by simp) rfl
  rw [hv] at hroot
  cases hroot

/-- A path through a member is open if the value of that member opens it. -/
theorem opens_cons_of_some {ms : List (String × Value)} (hkey : Members.find? key ms = some w) :
    (object ms).Opens (key :: p) ↔ w.Opens p := by
  constructor
  · intro h q u hq hne hu
    refine h (key :: q) u (List.cons_prefix_cons.2 ⟨rfl, hq⟩) (by simpa using hne) ?_
    rwa [at?_cons_of_find? hkey]
  · intro h q u hq hne hu
    cases q with
    | nil =>
      cases hu
      rfl
    | cons step q =>
      obtain ⟨rfl, hprefix⟩ := List.cons_prefix_cons.1 hq
      rw [at?_cons_of_find? hkey] at hu
      exact h q u hprefix (by simpa using hne) hu

/-- A member that is not there leaves the path through it open. -/
theorem opens_cons_of_none {ms : List (String × Value)} (hkey : Members.find? key ms = none) :
    (object ms).Opens (key :: p) := by
  intro q u hq _ hu
  cases q with
  | nil =>
    cases hu
    rfl
  | cons step q =>
    obtain ⟨rfl, -⟩ := List.cons_prefix_cons.1 hq
    rw [at?, member?_object, hkey] at hu
    cases hu

theorem opens_singleton (ms : List (String × Value)) (key : String) : (object ms).Opens [key] := by
  cases h : Members.find? key ms with
  | none => exact opens_cons_of_none h
  | some w => exact (opens_cons_of_some h).2 (opens_nil w)

/-- What is not an object takes the place of everything below it. -/
theorem overlay_of_not_isObject (base : Value) (h : upper.isObject = false) :
    base.overlay upper = upper := by
  cases upper with
  | object ms => cases h
  | _ => rw [overlay]; simp

/-- An object over anything is an object. -/
theorem isObject_overlay (base : Value) (h : upper.isObject = true) :
    (base.overlay upper).isObject = true := by
  cases upper with
  | object ms => cases base <;> rfl
  | _ => cases h

/-- A value over null is that value. -/
theorem overlay_null (upper : Value) : null.overlay upper = upper := by
  cases upper with
  | object ms => rfl
  | _ => exact overlay_of_not_isObject null rfl

/-- A member of the upper object lies over the lower one of its name, and all others stay. -/
theorem find?_overlayMembers {below ms : List (String × Value)} (hms : Members.Increasing ms)
    (key : String) : Members.find? key (overlayMembers below ms)
      = match Members.find? key ms with
        | some v => some (((Members.find? key below).getD null).overlay v)
        | none => Members.find? key below := by
  induction ms generalizing below with
  | nil => rfl
  | cons m ms ih =>
    obtain ⟨k, v⟩ := m
    obtain ⟨hk, hms⟩ := List.pairwise_cons.1 hms
    rw [overlayMembers, ih hms]
    by_cases hkey : key = k
    · subst hkey
      -- The key stands nowhere else in the upper layer.
      rw [Members.find?_eq_none_of_forall_lt hk, Members.find?_insert_self]
      cases hbelow : Members.find? key below with
      | none => simp [Members.find?, overlay_null]
      | some w => simp [Members.find?]
    · rw [Members.find?_insert_ne hkey]
      simp [Members.find?, hkey]

/-- A member of an object over a value lies over the member of that value. -/
theorem member?_overlay {ms : List (String × Value)} (base : Value) (hms : Members.Increasing ms)
    (key : String) : (base.overlay (object ms)).member? key
      = match Members.find? key ms with
        | some v => some (((base.member? key).getD null).overlay v)
        | none => base.member? key := by
  cases base with
  | object below => exact find?_overlayMembers hms key
  | _ =>
    simp only [overlay, member?, Option.getD_none, overlay_null]
    cases Members.find? key ms <;> rfl

theorem increasing_of_keys {ms : List (String × Value)} (keys : List String)
    (hkeys : ms.map (·.1) = keys) (h : keys.Pairwise (· < ·)) : Members.Increasing ms :=
  List.pairwise_map.1 (hkeys ▸ h)

mutual

/-- Laying one value in order over another one gives a value in order. -/
theorem ordered_overlay {base : Value} (hbase : base.Ordered) :
    {upper : Value} → upper.Ordered → (base.overlay upper).Ordered
  | .object ms, .object increasing h => by
    cases hbase with
    | object hbelow hall =>
      rw [overlay]
      exact (ordered_overlayMembers ms hbelow hall h).elim .object
    | _ => exact .object increasing h
  | .null, h | .bool _, h | .number _, h | .string _, h | .array _, h => by
    rw [overlay_of_not_isObject base rfl]
    exact h

/-- Members stay in order when others are laid over them. -/
theorem ordered_overlayMembers : (ms : List (String × Value)) → {below : List (String × Value)} →
    Members.Increasing below → (∀ m ∈ below, Ordered m.2) → (∀ m ∈ ms, Ordered m.2) →
    Members.Increasing (overlayMembers below ms) ∧ ∀ m ∈ overlayMembers below ms, Ordered m.2
  | [], _, hbelow, hall, _ => by
    rw [overlayMembers]
    exact ⟨hbelow, hall⟩
  | (key, v) :: ms, below, hbelow, hall, h => by
    obtain ⟨hv, hms⟩ := List.forall_mem_cons.1 h
    have hmerged : (match Members.find? key below with
        | some w => overlay w v
        | none => v).Ordered := by
      cases hkey : Members.find? key below with
      | none => exact hv
      | some w => exact ordered_overlay (hall _ (Members.mem_of_find? hkey)) hv
    rw [overlayMembers]
    exact ordered_overlayMembers ms (Members.increasing_insert hbelow _ _)
      (Ordered.insert hbelow hall key hmerged).2 hms

end

/-- What the upper value has at a path is laid over what is there. -/
theorem at?_overlay_of_some (base : Value) (hupper : upper.Ordered) (h : upper.at? p = some w) :
    (base.overlay upper).at? p = some (((base.at? p).getD null).overlay w) := by
  induction p generalizing base upper with
  | nil =>
    cases h
    rfl
  | cons key p ih =>
    cases hupper with
    | object increasing hall =>
      rw [at?, member?_object, Option.bind_eq_some_iff] at h
      obtain ⟨u, hu, hw⟩ := h
      rw [at?, member?_overlay base increasing, hu]
      simp only [Option.bind_some]
      rw [ih _ (hall _ (Members.mem_of_find? hu)) hw, at?]
      cases base.member? key with
      | some b => rfl
      | none => cases p <;> rfl
    | _ => cases h

/-- Where the upper value has nothing and only objects on the way, what is there is seen. -/
theorem at?_overlay_of_none (base : Value) (hupper : upper.Ordered) (h : upper.at? p = none)
    (hopens : upper.Opens p) : (base.overlay upper).at? p = base.at? p := by
  induction p generalizing base upper with
  | nil => cases h
  | cons key p ih =>
    cases hupper with
    | object increasing hall =>
      rw [at?, member?_object, Option.bind_eq_none_iff] at h
      rw [at?, at?, member?_overlay base increasing]
      cases hkey : Members.find? key _ with
      | none => rfl
      | some u =>
        have hu := ih ((base.member? key).getD null) (hall _ (Members.mem_of_find? hkey))
          (h u hkey) ((opens_cons_of_some hkey).1 hopens)
        simp only [Option.bind_some, hu]
        cases base.member? key with
        | some b => rfl
        | none =>
          -- Below nothing there is nothing, and the path does not end here.
          cases p with
          | nil => cases h u hkey
          | cons => rfl
    | _ => exact absurd hopens (not_opens_cons rfl key p)

/-- Behind something that is no object there is nothing. -/
theorem at?_eq_none_of_not_opens (h : ¬v.Opens p) : v.at? p = none := by
  induction p generalizing v with
  | nil => exact absurd (opens_nil v) h
  | cons key p ih =>
    cases v with
    | object ms =>
      rw [at?, member?_object]
      cases hkey : Members.find? key ms with
      | none => rfl
      | some w => exact ih fun hw => h ((opens_cons_of_some hkey).2 hw)
    | _ => rfl

/-- What is no object on the way covers all that is there. -/
theorem at?_overlay_of_not_opens (base : Value) (hupper : upper.Ordered) (h : ¬upper.Opens p) :
    (base.overlay upper).at? p = none := by
  induction p generalizing base upper with
  | nil => exact absurd (opens_nil upper) h
  | cons key p ih =>
    cases hupper with
    | object increasing hall =>
      rw [at?, member?_overlay base increasing]
      cases hkey : Members.find? key _ with
      | none => exact absurd (opens_cons_of_none hkey) h
      | some u =>
        exact ih _ (hall _ (Members.mem_of_find? hkey)) fun hu => h ((opens_cons_of_some hkey).2 hu)
    | _ =>
      rw [overlay_of_not_isObject base rfl]
      exact at?_eq_none_of_not_opens h

/-! ## Any number of layers -/

/-- Holds of layers of which one is as `P` says, and all that come later are as `Q` says. -/
def Shows (P Q : Value → Prop) (layers : List Value) : Prop :=
  ∃ before layer after, layers = before ++ layer :: after ∧ P layer ∧ ∀ later ∈ after, Q later

theorem not_shows_nil (P Q : Value → Prop) : ¬Shows P Q [] := by
  rintro ⟨before, layer, after, h, -, -⟩
  simp at h

/-- With one more layer something shows if that layer has it, or lets it through from below. -/
theorem shows_concat {P Q : Value → Prop} :
    Shows P Q (layers ++ [v]) ↔ P v ∨ (Shows P Q layers ∧ Q v) := by
  constructor
  · rintro ⟨before, layer, after, h, hlayer, hafter⟩
    rcases List.eq_nil_or_concat after with rfl | ⟨after, last, rfl⟩
    · obtain ⟨-, hv⟩ := List.append_inj' h rfl
      cases hv
      exact .inl hlayer
    · have hsplit : layers ++ [v] = (before ++ layer :: after) ++ [last] := by simpa using h
      obtain ⟨rfl, hlast⟩ := List.append_inj' hsplit rfl
      cases hlast
      have hearlier : ∀ later ∈ after, Q later := fun later hlater =>
        hafter later (by simp [hlater])
      exact .inr ⟨⟨before, layer, after, rfl, hlayer, hearlier⟩, hafter v (by simp)⟩
  · rintro (hv | ⟨⟨before, layer, after, rfl, hlayer, hafter⟩, hv⟩)
    · exact ⟨layers, v, [], rfl, hv, by simp⟩
    · refine ⟨before, layer, after ++ [v], by simp, hlayer, fun later hlater => ?_⟩
      rcases List.mem_append.1 hlater with hlater | hlater
      · exact hafter later hlater
      · rw [List.mem_singleton.1 hlater]
        exact hv

/-- The last layer lies over all others. -/
theorem mergeLayers_concat (layers : List Value) (v : Value) :
    mergeLayers (layers ++ [v]) = (mergeLayers layers).overlay v := by
  rw [mergeLayers, List.foldl_append]
  rfl

/-- What holds of merged layers is known as soon as it is known what one more layer does. Nothing
may be seen of the null that the layers are laid over. -/
theorem mergeLayers_iff_shows {R P Q : Value → Prop} (hne : layers ≠ [])
    (hordered : ∀ v ∈ layers, v.Ordered) (hnull : ∀ v, R null → Q v → P v)
    (hstep : ∀ base v : Value, v.Ordered → (R (base.overlay v) ↔ P v ∨ (R base ∧ Q v))) :
    R (mergeLayers layers) ↔ Shows P Q layers := by
  induction layers using List.reverseRecOn with
  | nil => exact absurd rfl hne
  | append_singleton layers v ih =>
    have hv : v.Ordered := hordered v (by simp)
    rw [mergeLayers_concat, hstep _ v hv, shows_concat]
    rcases List.eq_nil_or_concat layers with rfl | ⟨_, _, rfl⟩
    · -- The first layer is laid over null.
      constructor
      · rintro (h | ⟨h, hq⟩)
        · exact .inl h
        · exact .inl (hnull v h hq)
      · rintro (h | ⟨h, -⟩)
        · exact .inl h
        · exact absurd h (not_shows_nil P Q)
    · rw [ih (by simp) fun w hw => hordered w (List.mem_append_left _ hw)]

/-- A place is there if it is there in the upper value, or in the lower one and open above. -/
theorem isSome_at?_overlay (base : Value) (hv : v.Ordered) :
    ((base.overlay v).at? p).isSome
      ↔ (v.at? p).isSome ∨ ((base.at? p).isSome ∧ v.Opens p) := by
  cases h : v.at? p with
  | some w => simp [at?_overlay_of_some base hv h]
  | none =>
    by_cases hopens : v.Opens p
    · simp [at?_overlay_of_none base hv h hopens, hopens]
    · simp [at?_overlay_of_not_opens base hv hopens, hopens]

/-- A value that is no object comes from above, or from below if nothing above hides it. -/
theorem at?_overlay_eq_some_iff (base : Value) (hv : v.Ordered) (hw : w.isObject = false) :
    (base.overlay v).at? p = some w
      ↔ v.at? p = some w ∨ (base.at? p = some w ∧ v.at? p = none ∧ v.Opens p) := by
  cases h : v.at? p with
  | some u =>
    rw [at?_overlay_of_some base hv h]
    cases hu : u.isObject with
    | false => simp [overlay_of_not_isObject _ hu]
    | true =>
      -- An object stays one, and `w` is none.
      have hne : ∀ x : Value, x.isObject = true → x ≠ w := by
        rintro x hx rfl
        rw [hw] at hx
        cases hx
      simp [hne u hu, hne _ (isObject_overlay _ hu)]
  | none =>
    by_cases hopens : v.Opens p
    · simp [at?_overlay_of_none base hv h hopens, hopens]
    · simp [at?_overlay_of_not_opens base hv hopens, hopens]

/-- A place is an object if it is one above, or one below that nothing above hides. -/
theorem isObjectAt_overlay (base : Value) (hv : v.Ordered) :
    (base.overlay v).isObjectAt p = true ↔ v.isObjectAt p = true
      ∨ (base.isObjectAt p = true ∧ (∀ w, v.at? p = some w → w.isObject = true) ∧ v.Opens p) := by
  cases h : v.at? p with
  | some u =>
    simp only [isObjectAt, at?_overlay_of_some base hv h, h, Option.any_some, Option.some.injEq,
      forall_eq']
    cases hu : u.isObject with
    | false => simp [overlay_of_not_isObject _ hu, hu]
    | true => simp [isObject_overlay _ hu]
  | none =>
    by_cases hopens : v.Opens p
    · simp [isObjectAt, at?_overlay_of_none base hv h hopens, h, hopens]
    · simp [isObjectAt, at?_overlay_of_not_opens base hv hopens, h, hopens]

/-- **What stands at a path in merged layers.** Something stands there exactly if some layer has
something there and each later one has only objects on the way. It is the value of a layer, as far
as that is no object, exactly if each later layer has nothing there. It is an object exactly if some
layer has one there and each later one has only objects there and on the way. -/
theorem at?_mergeLayers (hne : layers ≠ []) (hordered : ∀ v ∈ layers, v.Ordered)
    (p : List String) :
    (((mergeLayers layers).at? p).isSome ↔ ∃ before layer after,
      layers = before ++ layer :: after ∧ (layer.at? p).isSome ∧
      ∀ later ∈ after, later.Opens p) ∧
    (∀ v : Value, v.isObject = false → ((mergeLayers layers).at? p = some v ↔
      ∃ before layer after, layers = before ++ layer :: after ∧ layer.at? p = some v ∧
      ∀ later ∈ after, later.at? p = none ∧ later.Opens p)) ∧
    ((mergeLayers layers).isObjectAt p = true ↔ ∃ before layer after,
      layers = before ++ layer :: after ∧ layer.isObjectAt p = true ∧
      ∀ later ∈ after, (∀ w, later.at? p = some w → w.isObject = true) ∧ later.Opens p) := by
  refine ⟨?_, fun w hw => ?_, ?_⟩
  · refine mergeLayers_iff_shows (R := fun v => (v.at? p).isSome) hne hordered (fun v h _ => ?_)
      fun base v hv => isSome_at?_overlay base hv
    cases p with
    | nil => rfl
    | cons key p => cases h
  · refine mergeLayers_iff_shows (R := fun v => v.at? p = some w) hne hordered (fun v h hv => ?_)
      fun base v hv => at?_overlay_eq_some_iff base hv hw
    cases p with
    | nil => cases hv.1
    | cons key p => cases h
  · refine mergeLayers_iff_shows (R := fun v => v.isObjectAt p = true) hne hordered
      (fun v h _ => ?_) fun base v hv => isObjectAt_overlay base hv
    cases p <;> cases h

/-- A member of the first layer is seen through later ones that have other members beside it. Null
hides what is below, and an object over null starts from nothing. -/
theorem at?_mergeLayers_through_null :
    let widget (ms : List (String × Value)) : Value := object [("widget", object ms)]
    let first := widget [("language", string "en"), ("theme", object [("dark", bool true)])]
    let layers := [first, widget [("theme", null)], widget [("theme", object [("light", null)])]]
    layers ≠ [] ∧ (∀ v ∈ layers, v.Ordered) ∧
    (mergeLayers layers).at? ["widget", "language"] = some (string "en") ∧
    ¬∃ before layer after, layers = before ++ layer :: after ∧
      (layer.at? ["widget", "theme", "dark"]).isSome ∧
      ∀ later ∈ after, later.Opens ["widget", "theme", "dark"] := by
  intro widget first layers
  have hordered : ∀ v ∈ layers, v.Ordered := by
    have hwidget : ∀ ms, Members.Increasing ms → (∀ m ∈ ms, Ordered m.2) → (widget ms).Ordered :=
      fun ms increasing h => .object (by simp [Members.Increasing])
        (List.forall_mem_singleton.2 (.object increasing h))
    have hsingle : ∀ key v, Ordered v → (object [(key, v)]).Ordered := fun key v h =>
      .object (by simp [Members.Increasing]) (List.forall_mem_singleton.2 h)
    simp only [layers, List.forall_mem_cons]
    refine ⟨hwidget _ ?_ ?_, hwidget _ ?_ ?_, hwidget _ ?_ ?_, by simp⟩
    · exact increasing_of_keys ["language", "theme"] rfl (by decide)
    · simp only [List.forall_mem_cons]
      exact ⟨.string _, hsingle _ _ (.bool _), by simp⟩
    · simp [Members.Increasing]
    · exact List.forall_mem_singleton.2 .null
    · simp [Members.Increasing]
    · exact List.forall_mem_singleton.2 (hsingle _ _ .null)
  have hlater : ∀ ms, Members.find? "language" ms = none →
      (widget ms).at? ["widget", "language"] = none ∧ (widget ms).Opens ["widget", "language"] :=
    fun ms h => ⟨by simp [widget, at?, member?, Members.find?, h],
      (opens_cons_of_some rfl).2 (opens_singleton ms "language")⟩
  refine ⟨by simp [layers], hordered, ?_, ?_⟩
  · obtain ⟨-, hvalue, -⟩ := at?_mergeLayers (by simp [layers]) hordered ["widget", "language"]
    refine (hvalue (string "en") rfl).2 ⟨[], first, _, rfl, rfl, ?_⟩
    simp only [List.forall_mem_cons]
    exact ⟨hlater _ rfl, hlater _ rfl, by simp⟩
  · rw [← (at?_mergeLayers (by simp [layers]) hordered ["widget", "theme", "dark"]).1]
    intro h
    cases h

end LoginSettings.Value
