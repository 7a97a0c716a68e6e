import LoginSettings.Proofs.Json.Tagged
import LoginSettings.Wire.Role

/-!
# Findings decoded from what they are encoded as

A problem stands for itself when it is encoded. In a finding the members of the problem stand beside
the location, in any order; the location is split off first, and what is left writes the problem.
-/

namespace LoginSettings.Role

open Json (Choice Key Node StandsFor ofReading)
open Value (Plain)

/-! ## Problems -/

namespace Problem

/-- The members of a problem write the problem. -/
theorem writes_members (p : Problem) : choice.Writes p.members p := by
  cases p with
  | required => exact .intro rfl (.bare _) (by simp)
  | tooLong most =>
    exact .intro rfl (.single ((StandsFor.size 0 most).map _) (.number _)) (by simp [choice])
  | invalidFormat => exact .intro rfl (.bare _) (by simp)
  | reserved start => exact .string start rfl (by decide)

theorem standsFor (p : Problem) : StandsFor 1 decode p.encode p := .tagged p.writes_members

theorem decodeKind_of_value {n : Node} {name : String} {entry : Choice.Entry Problem}
    (h : n.value = .ok (.string name))
    (hfind : Members.find? name choice.alternatives = some entry) :
    decodeKind n = .ok entry := by
  have hvariant := Node.decodeVariant_of_value h hfind
  obtain ⟨extent, rfl⟩ := Node.eq_scalar_of_value h rfl
  exact hvariant

/-- No member of a problem is in the way of the location. -/
theorem location_notMem_keys (p : Problem) : "location" ∉ p.members.map (·.1) := by
  cases p <;> simp [members]

end Problem

/-! ## Findings -/

namespace Finding

variable {location : String} {nodes others : List (Key × Node)} {ns : List (String × Value)}

theorem splitMembers_of_notMem (h : Node.memberValues nodes = .ok ns)
    (hfresh : "location" ∉ ns.map (·.1)) (location : Option String) (others : List (Key × Node)) :
    splitMembers location others nodes = .ok (location, others ++ nodes) := by
  induction nodes generalizing ns others with
  | nil => rw [splitMembers, List.append_nil]
  | cons first nodes ih =>
    obtain ⟨key, n⟩ := first
    obtain ⟨name, v, rest, hname, hv, hrest, rfl⟩ := Node.exists_of_memberValues_cons h
    rw [List.map_cons, List.mem_cons, not_or] at hfresh
    simp only [splitMembers, hname, ofReading, hv, bind, Except.bind, if_neg (Ne.symm hfresh.1)]
    rw [ih hrest hfresh.2, List.append_assoc, List.singleton_append]

/-- **The location is split off wherever it stands**, and all other members are left. -/
theorem splitMembers_of_mem (h : Node.memberValues nodes = .ok ns) (hkeys : (ns.map (·.1)).Nodup)
    (hmem : ("location", .string location) ∈ ns) (others : List (Key × Node)) :
    ∃ left, Node.memberValues left = .ok (Members.erase "location" ns) ∧
      splitMembers none others nodes = .ok (some location, others ++ left) := by
  induction nodes generalizing ns others with
  | nil =>
    cases h
    cases hmem
  | cons first nodes ih =>
    obtain ⟨key, n⟩ := first
    obtain ⟨name, v, rest, hname, hv, hrest, rfl⟩ := Node.exists_of_memberValues_cons h
    rw [List.map_cons, List.nodup_cons] at hkeys
    rcases List.mem_cons.1 hmem with heq | hlater
    · cases heq
      refine ⟨nodes, ?_, ?_⟩
      · rw [Members.erase_cons_self _ hkeys.1]
        exact hrest
      · simp only [splitMembers, hname, ofReading, Node.decodeString_of_value hv, bind, Except.bind,
          if_pos]
        exact splitMembers_of_notMem hrest hkeys.1 (some location) others
    · have hne : name ≠ "location" := by
        rintro rfl
        exact hkeys.1 (List.mem_map.2 ⟨_, hlater, rfl⟩)
      obtain ⟨left, hleft, hsplit⟩ := ih hrest hkeys.2 hlater (others ++ [(key, n)])
      refine ⟨(key, n) :: left, ?_, ?_⟩
      · rw [Members.erase_cons_of_ne hne]
        simp only [Node.memberValues, hname, hv, hleft, bind, Except.bind]
        rfl
      · simp only [splitMembers, hname, ofReading, hv, bind, Except.bind, if_neg hne]
        rw [hsplit, List.append_assoc, List.singleton_append]

/-- The members of a finding have no objects in them. -/
theorem simple (f : Finding) : ∀ m ∈ ("location", Value.string f.location) :: f.problem.members,
    Plain m.2 ∧ Json.Whole m.2 ∧ Json.nesting m.2 ≤ 0 :=
  List.forall_mem_cons.2 ⟨⟨.string _, .string _, Nat.le_refl 0⟩, f.problem.writes_members.simple⟩

theorem standsFor (f : Finding) : StandsFor 1 decode f.encode f where
  whole := .object fun m hm => (f.simple m hm).2.1
  nesting_le := Nat.succ_le_succ (Json.membersNesting_le_iff.2 fun m hm => (f.simple m hm).2.2)
  decodes n w hw hn := by
    have hlocation := f.problem.location_notMem_keys
    obtain ⟨ns, rfl, hperm⟩ := hw.perm_of_plain fun m hm => (f.simple m hm).1
    obtain ⟨extent, tooDeep, inside, nodes, rfl, hdepth, hmembers⟩ := Node.eq_object_of_value hn
    have hkeys : (ns.map (·.1)).Nodup :=
      (hperm.map _).nodup_iff.2 (List.nodup_cons.2 ⟨hlocation, f.problem.writes_members.nodup_keys⟩)
    obtain ⟨left, hleft, hsplit⟩ :=
      splitMembers_of_mem hmembers hkeys (hperm.mem_iff.2 List.mem_cons_self) []
    have hothers := Members.erase_perm "location" hperm
    rw [Members.erase_cons_self _ hlocation] at hothers
    obtain ⟨aside, haside, hfinish⟩ :=
      f.problem.writes_members.exists_aside Problem.decodeKind_of_value hothers hleft
    rw [List.nil_append] at hsplit
    simp only [decode, hdepth, hsplit, haside, hfinish, ofReading, Node.noDamage, bind, Except.bind]
    rfl

end Finding
end LoginSettings.Role
