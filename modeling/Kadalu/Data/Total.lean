import Mathlib.Data.List.AList
import Mathlib.Algebra.Order.Ring.Int
import Mathlib.Data.List.Perm.Subperm
import Mathlib.Algebra.Order.BigOperators.Group.List
import Mathlib.Algebra.BigOperators.Group.List.Basic

/-!
# Sums over association lists

`total t` is the sum of the values of `t`. It follows `insert` and `erase` (`total_insert`, `total_erase`), and a
table that agrees with part of another one of nonnegative values has at most its total (`total_le_total`).
-/

namespace AList

variable {κ : Type} [DecidableEq κ] {s t : AList fun _ : κ => Int} {a : κ} {n : Int}

/-- The sum of all values. -/
def total (t : AList fun _ : κ => Int) : Int := (t.entries.map (·.2)).sum

theorem erase_total : (t.erase a).total = ((List.kerase a t.entries).map (·.2)).sum := rfl

theorem total_insert : (t.insert a n).total = n + (t.erase a).total := by
  rw [total, AList.entries_insert, List.map_cons, List.sum_cons]
  rfl

theorem total_erase_of_none (h : t.lookup a = none) : (t.erase a).total = t.total := by
  have ha : a ∉ t := AList.lookup_eq_none.mp h
  rw [erase_total, List.kerase_of_notMem_keys ha, total]

theorem total_erase (h : t.lookup a = some n) : n + (t.erase a).total = t.total := by
  have ha : a ∈ t.entries.keys := AList.lookup_isSome.mp (by rw [h]; rfl)
  obtain ⟨b, l₁, l₂, -, ht, he⟩ := List.exists_of_kerase ha
  have hb : b = n := by
    have hmem : (⟨a, b⟩ : Sigma fun _ : κ => Int) ∈ t.entries := by rw [ht]; simp
    rw [AList.mem_lookup_iff.mpr hmem] at h
    exact Option.some.inj h
  subst hb
  rw [erase_total, total, he, ht]
  simp only [List.map_append, List.map_cons, List.sum_append, List.sum_cons]
  omega

/-- A table with part of the entries of a nonnegative one has at most its total. -/
theorem total_le_total (hpos : ∀ a n, t.lookup a = some n → 0 ≤ n)
    (h : ∀ a n, s.lookup a = some n → t.lookup a = some n) : s.total ≤ t.total := by
  have hsub : s.entries ⊆ t.entries := fun f hf =>
    AList.mem_lookup_iff.mp (h f.1 f.2 (AList.mem_lookup_iff.mpr hf))
  have hnd : s.entries.Nodup :=
    (List.nodupKeys_iff_pairwise.mp s.nodupKeys).imp fun {_ _} hne he => hne (congrArg Sigma.fst he)
  obtain ⟨l, hl, hlt⟩ := List.subperm_of_subset hnd hsub
  rw [total, ← (hl.map fun f => f.2).sum_eq]
  refine (hlt.map fun f => f.2).sum_le_sum fun n hn => ?_
  obtain ⟨f, hf, rfl⟩ := List.mem_map.mp hn
  exact hpos f.1 f.2 (AList.mem_lookup_iff.mpr hf)

end AList
