import Mathlib.Data.List.Basic
import Mathlib.Data.List.Infix

/-!
# Trees of directories

A file tree is given by the paths of its files and by directories that exist also without a file in them. Every path above one
of these is a directory, so the directories are closed under parents (`IsDir.parent`). `rmdir` removes a directory with nothing
below it, and no other one (`isDir_rmdir`).
-/

/-- The files of a tree, and its directories but for those that a file or another directory implies. -/
structure FileTree (α : Type) where
  files : List (List α)
  dirs : List (List α)

namespace FileTree

variable {α : Type} {t t' : FileTree α} {p q d : List α}

/-- `p` is an ancestor of `q`. -/
def Above (p q : List α) : Prop := p <+: q ∧ p ≠ q

/-- Something lies below `p`. -/
def Occupied (t : FileTree α) (p : List α) : Prop := ∃ q ∈ t.files ++ t.dirs, Above p q

def IsDir (t : FileTree α) (p : List α) : Prop := p ∈ t.dirs ∨ t.Occupied p

/-- Replace the files. Directories stay. -/
def withFiles (t : FileTree α) (files : List (List α)) : FileTree α :=
  { files, dirs := t.files.map List.dropLast ++ t.dirs }

/-- Make a directory, with its parents. -/
def makedirs (t : FileTree α) (p : List α) : FileTree α := { t with dirs := p :: t.dirs }

/-! ## Ancestors -/

theorem Above.length (h : Above p q) : p.length < q.length := by
  rcases Nat.lt_or_eq_of_le h.1.length_le with hlt | heq
  · exact hlt
  · exact absurd (h.1.eq_of_length heq) h.2

theorem Above.ne_nil (h : Above p q) : q ≠ [] := by
  rintro rfl
  exact absurd h.length (Nat.not_lt_zero _)

theorem Above.extend (h : p <+: q) (h' : Above q d) : Above p d := by
  refine ⟨h.trans h'.1, fun he => ?_⟩
  have hlength := h'.length
  have hle := h.length_le
  rw [he] at hle
  omega

/-- The ancestors are the parent and what is above it. -/
theorem above_iff_dropLast : Above p q ↔ q ≠ [] ∧ p <+: q.dropLast := by
  constructor
  · intro h
    refine ⟨h.ne_nil, List.prefix_of_prefix_length_le h.1 (List.dropLast_prefix q) ?_⟩
    have hlength := h.length
    rw [List.length_dropLast]
    omega
  · rintro ⟨hne, h⟩
    refine ⟨h.trans (List.dropLast_prefix q), ?_⟩
    rintro rfl
    have hle := h.length_le
    have hpos := List.length_pos_iff.mpr hne
    rw [List.length_dropLast] at hle
    omega

/-! ## Directories -/

theorem Occupied.ancestor (h : t.Occupied q) (hp : p <+: q) : t.Occupied p := by
  obtain ⟨x, hx, habove⟩ := h
  exact ⟨x, hx, .extend hp habove⟩

/-- The ancestors of a directory are directories. -/
theorem IsDir.ancestor (h : t.IsDir q) (hp : p <+: q) : t.IsDir p := by
  by_cases he : p = q
  · exact he ▸ h
  · rcases h with hq | hq
    · exact .inr ⟨q, List.mem_append_right _ hq, hp, he⟩
    · exact .inr (hq.ancestor hp)

theorem IsDir.parent (h : t.IsDir p) : t.IsDir p.dropLast := h.ancestor (List.dropLast_prefix p)

/-- A tree with more below each path has the directories of the other one. -/
theorem IsDir.mono (h : t.IsDir d) (hdirs : ∀ p ∈ t.dirs, t'.IsDir p) (hfiles : ∀ p ∈ t.files, t'.IsDir p.dropLast) :
    t'.IsDir d := by
  rcases h with h | ⟨x, hx, habove⟩
  · exact hdirs d h
  · rcases List.mem_append.mp hx with hx | hx
    · exact (hfiles x hx).ancestor (above_iff_dropLast.mp habove).2
    · exact (hdirs x hx).ancestor habove.1

theorem isDir_withFiles {files : List (List α)} (h : t.IsDir d) : (t.withFiles files).IsDir d :=
  h.mono (fun _ hp => .inl (List.mem_append_right _ hp)) fun _ hp => .inl (List.mem_append_left _ (List.mem_map_of_mem hp))

theorem isDir_makedirs (h : t.IsDir d) : (t.makedirs p).IsDir d := by
  have hdirs : ∀ q ∈ t.dirs, (t.makedirs p).IsDir q := fun q hq => .inl (List.mem_cons_of_mem _ hq)
  rcases h with h | ⟨x, hx, habove⟩
  · exact hdirs d h
  · rcases List.mem_append.mp hx with hx | hx
    · exact .inr ⟨x, List.mem_append_left _ hx, habove⟩
    · exact (hdirs x hx).ancestor habove.1

/-! ## Removal -/

variable [DecidableEq α]

instance (p q : List α) : Decidable (Above p q) := inferInstanceAs (Decidable (_ ∧ _))

instance (t : FileTree α) (p : List α) : Decidable (t.Occupied p) := inferInstanceAs (Decidable (∃ q ∈ _, _))

instance (t : FileTree α) (p : List α) : Decidable (t.IsDir p) := inferInstanceAs (Decidable (_ ∨ _))

/-- The errors of `rmdir`; some systems report `exist` in the place of `notempty`. -/
inductive Errno where
  | noent
  | notdir
  | notempty
  | exist
  | busy
  deriving DecidableEq, Repr

/-- Remove an empty directory. Its parent stays, and the root cannot be removed. -/
def rmdir (t : FileTree α) (p : List α) : Except Errno (FileTree α) :=
  if p = [] then .error .busy
  else if p ∈ t.files then .error .notdir
  else if ¬t.IsDir p then .error .noent
  else if t.Occupied p then .error .notempty
  else .ok { t with dirs := p.dropLast :: t.dirs.filter (· ≠ p) }

theorem rmdir_root : t.rmdir [] = .error .busy := if_pos rfl

theorem rmdir_ok (h : t.rmdir p = .ok t') :
    p ≠ [] ∧ t.IsDir p ∧ ¬t.Occupied p ∧ t' = { t with dirs := p.dropLast :: t.dirs.filter (· ≠ p) } := by
  unfold rmdir at h
  split at h
  · cases h
  · rename_i hroot
    split at h
    · cases h
    · split at h
      · cases h
      · rename_i hdir
        split at h
        · cases h
        · rename_i hempty
          cases h
          exact ⟨hroot, not_not.mp hdir, hempty, rfl⟩

/-- An empty directory that is neither the root nor a file is removed. -/
theorem rmdir_empty (hroot : p ≠ []) (hfile : p ∉ t.files) (hdir : t.IsDir p) (hempty : ¬t.Occupied p) :
    ∃ t', t.rmdir p = .ok t' := by
  rw [rmdir, if_neg hroot, if_neg hfile, if_neg (not_not.mpr hdir), if_neg hempty]
  exact ⟨_, rfl⟩

/-- **Exactly one directory goes.** -/
theorem isDir_rmdir (h : t.rmdir p = .ok t') : t'.IsDir d ↔ t.IsDir d ∧ d ≠ p := by
  obtain ⟨hroot, hdir, hempty, rfl⟩ := rmdir_ok h
  have hlength : p.dropLast.length < p.length := by
    rw [List.length_dropLast]
    exact Nat.sub_lt (List.length_pos_iff.mpr hroot) Nat.zero_lt_one
  constructor
  · intro hd
    constructor
    · have hdirs : ∀ q ∈ p.dropLast :: t.dirs.filter (· ≠ p), t.IsDir q := by
        intro q hq
        rcases List.mem_cons.mp hq with rfl | hq
        · exact hdir.parent
        · exact .inl (List.mem_of_mem_filter hq)
      rcases hd with hd | ⟨x, hx, habove⟩
      · exact hdirs d hd
      · rcases List.mem_append.mp hx with hx | hx
        · exact .inr ⟨x, List.mem_append_left _ hx, habove⟩
        · exact (hdirs x hx).ancestor habove.1
    · rintro rfl
      rcases hd with hd | ⟨x, hx, habove⟩
      · rcases List.mem_cons.mp hd with he | hd
        · exact absurd (congrArg List.length he) (Nat.ne_of_gt hlength)
        · simp at hd
      · rcases List.mem_append.mp hx with hx | hx
        · exact hempty ⟨x, List.mem_append_left _ hx, habove⟩
        · rcases List.mem_cons.mp hx with rfl | hx
          · exact absurd habove.length (Nat.not_lt.mpr (Nat.le_of_lt hlength))
          · exact hempty ⟨x, List.mem_append_right _ (List.mem_of_mem_filter hx), habove⟩
  · rintro ⟨hd, hne⟩
    have hparent : FileTree.IsDir { t with dirs := p.dropLast :: t.dirs.filter (· ≠ p) } p.dropLast :=
      .inl List.mem_cons_self
    rcases hd with hd | ⟨x, hx, habove⟩
    · exact .inl (List.mem_cons_of_mem _ (List.mem_filter.mpr ⟨hd, by simpa using hne⟩))
    · rcases List.mem_append.mp hx with hx | hx
      · exact .inr ⟨x, List.mem_append_left _ hx, habove⟩
      · by_cases he : x = p
        · subst he
          exact hparent.ancestor (above_iff_dropLast.mp habove).2
        · exact .inr ⟨x, List.mem_append_right _ (List.mem_cons_of_mem _ (List.mem_filter.mpr ⟨hx, by simpa using he⟩)), habove⟩

end FileTree
