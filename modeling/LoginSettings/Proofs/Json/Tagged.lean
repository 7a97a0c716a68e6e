import LoginSettings.Proofs.Json.StandsFor

/-!
# Tagged alternatives decoded from what they are written as

Members are put aside until the tag has been met, wherever it stands. From the tag and the members
put aside the alternative is made.

* `Choice.putAside_of_mem` — what is put aside
* `StandsFor.tagged` — objects with a tag stand for the alternative
-/

namespace LoginSettings.Json

open Value (Plain Reordered)

variable {α β : Type} {a : α} {v w tag : Value} {ms ns : List (String × Value)}
  {nodes : List (Key × Node)}

/-! ## More data -/

theorem StandsFor.map {depth : Nat} {decode : Node → Decoded α} (h : StandsFor depth decode v a)
    (f : α → β) : StandsFor depth (fun n => (decode n).map f) v (f a) where
  whole := h.whole
  nesting_le := h.nesting_le
  decodes n w hw hn := by
    rw [h.decodes n w hw hn]
    rfl

/-- Numbers of sixty-four bits stand for themselves. -/
theorem StandsFor.size (depth : Nat) (n : UInt64) :
    StandsFor depth Node.decodeSize (.number (.integer n.toNat)) n := by
  have hlt : n.toNat < UInt64.size := n.toNat_lt_size
  refine .of_plain (.number _) (.number ?_ ?_) (Nat.zero_le depth) fun node hnode => ?_
  · simp only [leastInteger]
    omega
  · simp only [greatestInteger, UInt64.size] at hlt ⊢
    omega
  · obtain ⟨extent, rfl⟩ := Node.eq_scalar_of_value hnode rfl
    have hrange : 0 ≤ (n.toNat : Int) ∧ (n.toNat : Int) < UInt64.size := by omega
    rw [Node.decodeSize, if_pos hrange, Int.toNat_natCast, UInt64.ofNat_toNat]

/-! ## Alternatives -/

/-- An alternative makes a datum of members: of none, or of one that stands for what its field
holds. -/
inductive Alternative.Makes : Alternative α → List (String × Value) → α → Prop where
  | bare (a : α) : Makes (.bare a) [] a
  | single {field : String} {decode : Node → Decoded α} {v : Value} {a : α}
      (h : StandsFor 0 decode v a) (hplain : Plain v) : Makes (.single field decode) [(field, v)] a

namespace Alternative.Makes

variable {alternative : Alternative α}

theorem simple (h : alternative.Makes ms a) :
    ∀ m ∈ ms, Plain m.2 ∧ Whole m.2 ∧ nesting m.2 ≤ 0 := by
  cases h with
  | bare a => nofun
  | single h hplain => simpa using ⟨hplain, h.whole, Nat.le_zero.1 h.nesting_le⟩

theorem nodup_keys (h : alternative.Makes ms a) : (ms.map (·.1)).Nodup := by
  cases h <;> simp

theorem eq_of_perm (h : alternative.Makes ms a) (hperm : ns.Perm ms) : ns = ms := by
  cases h with
  | bare a => exact List.perm_nil.1 hperm
  | single h hplain => exact List.perm_singleton.1 hperm

end Alternative.Makes

namespace Choice

variable {choice : Choice α} {decodeTag : Node → Decoded (Entry α)} {entry : Entry α}

/-- Members that are a tag, and others of which the alternative with this tag makes a datum. -/
inductive Writes (choice : Choice α) : List (String × Value) → α → Prop where
  | intro {name title : String} {alternative : Alternative α} {ms : List (String × Value)} {a : α}
      (hfind : Members.find? name choice.alternatives = some (title, alternative))
      (hmakes : alternative.Makes ms a) (hfresh : choice.tag ∉ ms.map (·.1)) :
      Writes choice ((choice.tag, .string name) :: ms) a

/-- A tag and one text. -/
theorem Writes.string {name title field : String} {f : String → α} (s : String)
    (hfind : Members.find? name choice.alternatives
      = some (title, .single field fun n => n.decodeString.map f)) (hne : choice.tag ≠ field) :
    choice.Writes [(choice.tag, .string name), (field, .string s)] (f s) :=
  .intro hfind (.single ((StandsFor.string 0 s).map f) (.string s)) (by simpa using hne)

/-- Nodes under the keys of members, each of which stands for the member's value. -/
def Held (held : List (String × Node)) (ms : List (String × Value)) : Prop :=
  List.Forall₂ (fun h m => h.1 = m.1 ∧ h.2.value = .ok m.2) held ms

theorem putAside_of_notMem (h : Node.memberValues nodes = .ok ns)
    (hfresh : choice.tag ∉ ns.map (·.1)) (aside : Aside α) :
    ∃ held, Held held ns ∧
      choice.putAside decodeTag aside nodes = .ok ⟨aside.chosen, aside.members ++ held⟩ := by
  induction nodes generalizing ns aside with
  | nil =>
    cases h
    exact ⟨[], .nil, by rw [putAside, List.append_nil]⟩
  | cons first nodes ih =>
    obtain ⟨key, n⟩ := first
    obtain ⟨name, v, rest, hname, hv, hrest, rfl⟩ := Node.exists_of_memberValues_cons h
    rw [List.map_cons, List.mem_cons, not_or] at hfresh
    obtain ⟨held, hheld, haside⟩ :=
      ih hrest hfresh.2 { aside with members := aside.members ++ [(name, n)] }
    refine ⟨(name, n) :: held, .cons ⟨rfl, hv⟩ hheld, ?_⟩
    simp only [putAside, hname, ofReading, hv, bind, Except.bind, if_neg (Ne.symm hfresh.1)]
    rw [haside, List.append_assoc, List.singleton_append]

/-- **What is put aside are all members but the tag**, which is decoded where it stands. -/
theorem putAside_of_mem (htag : ∀ n : Node, n.value = .ok tag → decodeTag n = .ok entry)
    (h : Node.memberValues nodes = .ok ns) (hkeys : (ns.map (·.1)).Nodup)
    (hmem : (choice.tag, tag) ∈ ns) (aside : Aside α) (hnone : aside.chosen = none) :
    ∃ held, Held held (Members.erase choice.tag ns) ∧
      choice.putAside decodeTag aside nodes = .ok ⟨some entry, aside.members ++ held⟩ := by
  induction nodes generalizing ns aside with
  | nil =>
    cases h
    cases hmem
  | cons first nodes ih =>
    obtain ⟨key, n⟩ := first
    obtain ⟨name, v, rest, hname, hv, hrest, rfl⟩ := Node.exists_of_memberValues_cons h
    rw [List.map_cons, List.nodup_cons] at hkeys
    -- The tag is met here or later, and as keys are distinct it is met once.
    rcases List.mem_cons.1 hmem with heq | hlater
    · cases heq
      obtain ⟨held, hheld, haside⟩ :=
        putAside_of_notMem hrest hkeys.1 { aside with chosen := some entry }
      refine ⟨held, ?_, ?_⟩
      · rw [Members.erase_cons_self _ hkeys.1]
        exact hheld
      · simp only [putAside, hname, ofReading, hnone, htag n hv, bind, Except.bind, if_pos]
        exact haside
    · have hne : name ≠ choice.tag := by
        rintro rfl
        exact hkeys.1 (List.mem_map.2 ⟨_, hlater, rfl⟩)
      obtain ⟨held, hheld, haside⟩ :=
        ih hrest hkeys.2 hlater { aside with members := aside.members ++ [(name, n)] } hnone
      refine ⟨(name, n) :: held, ?_, ?_⟩
      · rw [Members.erase_cons_of_ne hne]
        exact .cons ⟨rfl, hv⟩ hheld
      · simp only [putAside, hname, ofReading, hv, bind, Except.bind, if_neg hne]
        rw [haside, List.append_assoc, List.singleton_append]

/-- An alternative is made of what has been put aside. -/
theorem ofMembers_of_held {alternative : Alternative α} {held : List (String × Node)}
    (hmakes : alternative.Makes ms a) (hheld : Held held ms) :
    alternative.ofMembers held = .ok a := by
  cases hmakes with
  | bare a => rfl
  | @single field decode v a h hplain =>
    cases hheld with
    | @cons first _ rest _ hfirst hrest =>
      cases hrest
      obtain ⟨name, n⟩ := first
      obtain ⟨rfl, hn⟩ := hfirst
      have hname : [(name, n)].filter (fun m => m.1 = name) = [(name, n)] := by simp
      rw [Alternative.ofMembers, hname]
      exact h.decodes n v (.refl v) hn

theorem Writes.nodup_keys (hwrites : choice.Writes ms a) : (ms.map (·.1)).Nodup := by
  obtain ⟨-, hmakes, hfresh⟩ := hwrites
  exact List.nodup_cons.2 ⟨hfresh, hmakes.nodup_keys⟩

/-- Members that write a datum have no objects in them. -/
theorem Writes.simple (hwrites : choice.Writes ms a) :
    ∀ m ∈ ms, Plain m.2 ∧ Whole m.2 ∧ nesting m.2 ≤ 0 := by
  obtain ⟨-, hmakes, -⟩ := hwrites
  exact List.forall_mem_cons.2 ⟨⟨.string _, .string _, Nat.le_refl 0⟩, hmakes.simple⟩

/-- **Members in any order are read as the datum that they write**, by any decoder of tags that
knows the names of the alternatives. -/
theorem Writes.exists_aside (hwrites : choice.Writes ms a)
    (htag : ∀ {n : Node} {name entry}, n.value = .ok (.string name) →
      Members.find? name choice.alternatives = some entry → decodeTag n = .ok entry)
    (hperm : ns.Perm ms) (h : Node.memberValues nodes = .ok ns) :
    ∃ aside, choice.putAside decodeTag ⟨none, []⟩ nodes = .ok aside ∧
      choice.finish aside = .ok a := by
  have hkeys := (hperm.map _).nodup_iff.2 hwrites.nodup_keys
  obtain ⟨hfind, hmakes, hfresh⟩ := hwrites
  obtain ⟨held, hheld, haside⟩ := choice.putAside_of_mem (fun n hn => htag hn hfind) h
    hkeys (hperm.mem_iff.2 List.mem_cons_self) ⟨none, []⟩ rfl
  refine ⟨_, haside, ?_⟩
  have hothers := Members.erase_perm choice.tag hperm
  rw [Members.erase_cons_self _ hfresh] at hothers
  rw [hmakes.eq_of_perm hothers] at hheld
  exact ofMembers_of_held hmakes hheld

end Choice

/-- **An object with a tag stands for the datum that its members write.** -/
theorem StandsFor.tagged {choice : Choice α} (hwrites : choice.Writes ms a) :
    StandsFor 1 choice.decode (.object ms) a where
  whole := .object fun m hm => (hwrites.simple m hm).2.1
  nesting_le := Nat.succ_le_succ (membersNesting_le_iff.2 fun m hm => (hwrites.simple m hm).2.2)
  decodes n w hw hn := by
    obtain ⟨ns, rfl, hperm⟩ := hw.perm_of_plain fun m hm => (hwrites.simple m hm).1
    obtain ⟨extent, tooDeep, inside, nodes, rfl, hdepth, hmembers⟩ := Node.eq_object_of_value hn
    obtain ⟨aside, haside, hfinish⟩ :=
      hwrites.exists_aside Node.decodeVariant_of_value hperm hmembers
    rw [Choice.decode, hdepth, haside]
    exact hfinish

end LoginSettings.Json
