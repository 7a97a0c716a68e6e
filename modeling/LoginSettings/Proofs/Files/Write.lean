import LoginSettings.Files.Tree
import Mathlib.Tactic.SplitIfs

/-!
# Files after a write

A write that succeeds changes one file, the one that the path leads to, and nothing else in the
tree. All paths that led somewhere before still lead there.

* `find?_replaceFile` — the files of a tree in which one has been replaced
* `Writes`, `writes_of_write` — what a write leaves as it is, and what is read afterwards
-/

namespace LoginSettings.Files.Tree

variable {t t' : Tree} {path other : String} {bytes : List UInt8} {p q here : Path}

/-- The tree with the bytes of a file replaced, or with a new file. -/
def replaceFile (t : Tree) (p : Path) (bytes : List UInt8) : Tree :=
  { t with files := t.files.filter (·.1 ≠ p) ++ [(p, bytes)] }

theorem find?_replaceFile (t : Tree) (p : Path) (bytes : List UInt8) (q : Path) :
    (t.replaceFile p bytes).find? q = if q = p then some bytes else t.find? q := by
  have hfilter : (t.files.filter (·.1 ≠ p)).find? (fun f => f.1 = q)
      = if q = p then none else t.files.find? fun f => f.1 = q := by
    rw [List.find?_filter]
    by_cases hq : q = p
    · rw [if_pos hq, List.find?_eq_none]
      intro f _
      simp [hq]
    · rw [if_neg hq]
      congr 1
      funext f
      by_cases hf : f.1 = q
      · simp [hf, hq]
      · simp [hf]
  unfold find? replaceFile
  rw [List.find?_append, hfilter]
  by_cases hq : q = p
  · simp [hq]
  · simp [hq, Ne.symm hq]

/-- A write that succeeds has replaced the file that the path leads to. -/
theorem write_cases (h : t.write path bytes = .ok t') :
    ∃ p, t.resolve path = .ok p ∧ t.isDirectory p = false ∧ t' = t.replaceFile p bytes := by
  unfold write at h
  cases hp : t.resolve (withoutSlash path) with
  | error fault => simp [hp, bind, Except.bind] at h
  | ok p =>
    simp only [hp, bind, Except.bind] at h
    split at h
    · cases h
    · rename_i hfile
      obtain ⟨hslash, hdir⟩ : withoutSlash path = path ∧ t.isDirectory p = false := by
        simpa using hfile
      split at h
      · cases h
        exact ⟨p, by rw [← hslash, hp], hdir, rfl⟩
      · cases h

/-! ## Paths after a write -/

theorem isDirectory_congr (h : t'.directories = t.directories) (q : Path) :
    t'.isDirectory q = t.isDirectory q := by
  unfold isDirectory
  rw [h]

/-- A path leads where it led before as long as no directory becomes a file. -/
theorem follow_of_follow (hdirectories : t'.directories = t.directories)
    (hfind : ∀ q, t.isDirectory q = true → t'.find? q = t.find? q) {parts : List String}
    (h : t.follow here parts = .ok q) : t'.follow here parts = .ok q := by
  induction parts generalizing here with
  | nil => exact h
  | cons part rest ih =>
    rw [follow] at h ⊢
    rw [isDirectory_congr hdirectories]
    by_cases hdir : t.isDirectory here = true
    · rw [hfind here hdir]
      split_ifs at h ⊢
      all_goals exact ih h
    · simp only [hdir, Bool.not_false, if_true] at h
      split_ifs at h

theorem resolve_of_resolve (hdirectories : t'.directories = t.directories)
    (hfind : ∀ q, t.isDirectory q = true → t'.find? q = t.find? q)
    (h : t.resolve path = .ok q) : t'.resolve path = .ok q := by
  unfold resolve at h ⊢
  split at h
  · cases h
  · split at h
    · cases h
    · split at h
      · cases h
      · rename_i hempty hzero hlong
        rw [if_neg hempty, if_neg hzero, if_neg hlong]
        exact follow_of_follow hdirectories hfind h

theorem read_of_find? (hp : t.resolve path = .ok p) (hfind : t.find? p = some bytes) :
    t.read path = .ok bytes := by
  simp [read, hp, hfind, bind, Except.bind]
  rfl

/-! ## What a write changes -/

/-- The second tree comes from the first one by writing bytes at a path: the file that the path
leads to holds them, each other file is what it was, and all paths still lead where they led. -/
structure Writes (t : Tree) (path : String) (bytes : List UInt8) (t' : Tree) : Prop where
  directories : t'.directories = t.directories
  find? : ∃ p, t.resolve path = .ok p ∧ ∀ q, t'.find? q = if q = p then some bytes else t.find? q
  resolve : ∀ other q, t.resolve other = .ok q → t'.resolve other = .ok q
  read : t'.read path = .ok bytes

/-- **A write that succeeds changes no other file.** -/
theorem writes_of_write (h : t.write path bytes = .ok t') : t.Writes path bytes t' := by
  obtain ⟨p, hp, hdir, rfl⟩ := write_cases h
  have hresolve : ∀ other q, t.resolve other = .ok q →
      (t.replaceFile p bytes).resolve other = .ok q := by
    intro other q hq
    refine resolve_of_resolve (t := t) rfl (fun d hd => ?_) hq
    -- The file is written where no directory is.
    have hne : d ≠ p := by
      rintro rfl
      rw [hdir] at hd
      cases hd
    rw [find?_replaceFile, if_neg hne]
  exact
    { directories := rfl
      find? := ⟨p, hp, t.find?_replaceFile p bytes⟩
      resolve := hresolve
      read := read_of_find? (hresolve path p hp) (by rw [find?_replaceFile, if_pos rfl]) }

end LoginSettings.Files.Tree
