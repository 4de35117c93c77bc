import Mathlib.Data.List.Sort
import Mathlib.Data.Set.Function

/-!
# Canonical lists

A list is brought into a canonical form in two steps: a dictionary under a text of the items drops duplicates, and a stable
sort by a rank orders what is left. The form says what the items are, but their order in it is settled only where the rank
tells the items apart.

* `canonical_eq_iff`: if the rank tells the items apart, equal forms are equal sets of items.
* `canonical_ne_of_tie`: if it does not, the order of the input shows.
-/

namespace Canonical

variable {α κ ρ : Type*}

/-! ## Dictionaries of items under their own text -/

section Distinct

variable [DecidableEq κ] (text : α → κ)

/-- `entries[text(item)] = item`; a key that is there keeps its place. -/
def put : List α → α → List α
  | [], item => [item]
  | x :: rest, item => if text x = text item then item :: rest else x :: put rest item

/-- The values of the dictionary. -/
def distinct (items : List α) : List α := items.foldl (put text) []

variable {text} (htext : Function.Injective text)

include htext

theorem put_of_mem {a : α} : ∀ {l : List α}, a ∈ l → put text l a = l
  | [], h => by cases h
  | x :: rest, h => by
    unfold put
    by_cases hx : text x = text a
    · rw [if_pos hx, htext hx]
    · rw [if_neg hx]
      rcases List.mem_cons.mp h with rfl | h
      · exact absurd rfl hx
      · rw [put_of_mem h]

theorem put_of_not_mem {a : α} : ∀ {l : List α}, a ∉ l → put text l a = l ++ [a]
  | [], _ => rfl
  | x :: rest, h => by
    have hx : text x ≠ text a := fun hx => h (htext hx ▸ List.mem_cons_self)
    rw [put, if_neg hx, put_of_not_mem fun ha => h (List.mem_cons_of_mem _ ha), List.cons_append]

theorem mem_put {a b : α} {l : List α} : b ∈ put text l a ↔ b ∈ l ∨ b = a := by
  by_cases ha : a ∈ l
  · rw [put_of_mem htext ha]
    exact ⟨.inl, fun h => h.elim id fun h => h ▸ ha⟩
  · rw [put_of_not_mem htext ha, List.mem_append, List.mem_singleton]

theorem nodup_put {a : α} {l : List α} (h : l.Nodup) : (put text l a).Nodup := by
  by_cases ha : a ∈ l
  · rwa [put_of_mem htext ha]
  · rw [put_of_not_mem htext ha]
    exact h.append (List.nodup_singleton a) (List.disjoint_singleton.mpr ha)

theorem prefix_put (a : α) (l : List α) : l <+: put text l a := by
  by_cases ha : a ∈ l
  · exact (put_of_mem htext ha).symm ▸ List.prefix_refl l
  · exact put_of_not_mem htext ha ▸ List.prefix_append l [a]

theorem mem_foldl_put {b : α} (items l : List α) : b ∈ items.foldl (put text) l ↔ b ∈ l ∨ b ∈ items := by
  induction items generalizing l with
  | nil => simp
  | cons a rest ih => rw [List.foldl_cons, ih, mem_put htext, List.mem_cons, or_assoc]

theorem nodup_foldl_put (items : List α) {l : List α} (h : l.Nodup) : (items.foldl (put text) l).Nodup := by
  induction items generalizing l with
  | nil => exact h
  | cons a rest ih => exact ih (nodup_put htext h)

theorem prefix_foldl_put (items l : List α) : l <+: items.foldl (put text) l := by
  induction items generalizing l with
  | nil => exact List.prefix_refl l
  | cons a rest ih => exact (prefix_put htext a l).trans (ih _)

/-- Items that are all new are appended. -/
theorem foldl_put_of_nodup (items l : List α) (h : (l ++ items).Nodup) : items.foldl (put text) l = l ++ items := by
  induction items generalizing l with
  | nil => rw [List.foldl_nil, List.append_nil]
  | cons a rest ih =>
    have ha : a ∉ l := fun hal => (List.nodup_append.mp h).2.2 a hal a List.mem_cons_self rfl
    rw [List.foldl_cons, put_of_not_mem htext ha, ih _ (by simpa using h), List.append_assoc, List.singleton_append]

theorem mem_distinct {b : α} {items : List α} : b ∈ distinct text items ↔ b ∈ items := by
  rw [distinct, mem_foldl_put htext]
  simp

theorem nodup_distinct (items : List α) : (distinct text items).Nodup := nodup_foldl_put htext items List.nodup_nil

theorem distinct_of_nodup {items : List α} (h : items.Nodup) : distinct text items = items :=
  foldl_put_of_nodup htext items [] h

/-- Two new items are kept in the order in which they come first. -/
theorem pair_sublist_distinct {a b : α} (hab : a ≠ b) (items : List α) :
    [a, b].Sublist (distinct text ([a, b] ++ items)) := by
  have hpair : distinct text [a, b] = [a, b] := distinct_of_nodup htext (by simpa using hab)
  have hprefix := prefix_foldl_put htext items (distinct text [a, b])
  rw [hpair] at hprefix
  rw [distinct, List.foldl_append]
  change [a, b].Sublist (items.foldl (put text) (distinct text [a, b]))
  rw [hpair]
  exact hprefix.sublist

end Distinct

/-! ## The stable sort -/

section Sorted

variable [LinearOrder ρ] (rank : α → ρ)

/-- `rank(a) <= rank(b)` -/
def below (a b : α) : Prop := rank a ≤ rank b

instance : DecidableRel (below rank) := fun a b => inferInstanceAs (Decidable (rank a ≤ rank b))

instance : Std.Total (below rank) := ⟨fun a b => le_total (rank a) (rank b)⟩

instance : IsTrans α (below rank) := ⟨fun _ _ _ => le_trans⟩

/-- `sorted(items, key=rank)` -/
def sorted (items : List α) : List α := items.insertionSort (below rank)

variable {rank}

@[simp] theorem mem_sorted {a : α} {items : List α} : a ∈ sorted rank items ↔ a ∈ items := List.mem_insertionSort _

theorem nodup_sorted {items : List α} (h : items.Nodup) : (sorted rank items).Nodup :=
  (List.perm_insertionSort _ items).nodup_iff.mpr h

theorem sorted_sorted (items : List α) : sorted rank (sorted rank items) = sorted rank items :=
  (List.pairwise_insertionSort (below rank) items).insertionSort_eq

/-- A sort of the same items is the same where the rank tells the items apart. -/
theorem sorted_eq_of_perm {l m : List α} (h : l.Perm m) (hrank : Set.InjOn rank {a | a ∈ l}) : sorted rank l = sorted rank m := by
  have hperm : (sorted rank l).Perm (sorted rank m) :=
    (List.perm_insertionSort _ l).trans (h.trans (List.perm_insertionSort _ m).symm)
  refine hperm.eq_of_pairwise ?_ (List.pairwise_insertionSort (below rank) l) (List.pairwise_insertionSort (below rank) m)
  intro a b ha hb hab hba
  have hb' : b ∈ l := h.mem_iff.mpr (mem_sorted.mp hb)
  exact hrank (mem_sorted.mp ha) hb' (le_antisymm hab hba)

end Sorted

/-- In a list without duplicates no two items stand in both orders. -/
theorem not_pair_sublist_swap {a b : α} : ∀ {l : List α}, l.Nodup → [a, b].Sublist l → ¬ [b, a].Sublist l
  | [], _, h, _ => by cases h
  | x :: rest, hnodup, h, hswap => by
    obtain ⟨hx, hrest⟩ := List.nodup_cons.mp hnodup
    rcases List.sublist_cons_iff.mp h with hab | ⟨r, hr, hb⟩
    · rcases List.sublist_cons_iff.mp hswap with hba | ⟨r, hr, -⟩
      · exact not_pair_sublist_swap hrest hab hba
      · obtain ⟨rfl, -⟩ := List.cons.inj hr
        exact hx (hab.subset (List.mem_cons_of_mem _ List.mem_cons_self))
    · obtain ⟨rfl, rfl⟩ := List.cons.inj hr
      rcases List.sublist_cons_iff.mp hswap with hba | ⟨r, hr, -⟩
      · exact hx (hba.subset (List.mem_cons_of_mem _ List.mem_cons_self))
      · obtain ⟨rfl, -⟩ := List.cons.inj hr
        exact hx (hb.subset List.mem_cons_self)

/-! ## The canonical form -/

section Form

variable [DecidableEq κ] [LinearOrder ρ] (text : α → κ) (rank : α → ρ)

/-- `sorted({text(item): item for item in items}.values(), key=rank)` -/
def canonical (items : List α) : List α := sorted rank (distinct text items)

variable {text rank} (htext : Function.Injective text)

include htext

theorem mem_canonical {a : α} {items : List α} : a ∈ canonical text rank items ↔ a ∈ items := by
  rw [canonical, mem_sorted, mem_distinct htext]

theorem nodup_canonical (items : List α) : (canonical text rank items).Nodup := nodup_sorted (nodup_distinct htext items)

/-- The canonical form of a canonical form is itself, ties or not. -/
theorem canonical_canonical (items : List α) : canonical text rank (canonical text rank items) = canonical text rank items := by
  conv_lhs => rw [canonical, distinct_of_nodup htext (nodup_canonical htext items)]
  exact sorted_sorted _

/-- **Canonical forms.** Where the rank tells the items of a list apart, its form is that of every list with its items. -/
theorem canonical_eq_iff {l m : List α} (hrank : Set.InjOn rank {a | a ∈ l}) :
    canonical text rank l = canonical text rank m ↔ ∀ a, a ∈ l ↔ a ∈ m := by
  constructor
  · intro h a
    have hl : a ∈ canonical text rank l ↔ a ∈ l := mem_canonical htext
    rw [← hl, h, mem_canonical htext]
  · intro h
    have hperm : (distinct text l).Perm (distinct text m) :=
      (List.perm_ext_iff_of_nodup (nodup_distinct htext l) (nodup_distinct htext m)).mpr fun a => by
        rw [mem_distinct htext, mem_distinct htext, h]
    refine sorted_eq_of_perm hperm fun a ha b hb => ?_
    exact hrank ((mem_distinct htext).mp ha) ((mem_distinct htext).mp hb)

/-- **Ties.** Two items of one rank stand in the form in the order of the input. -/
theorem canonical_ne_of_tie {a b : α} (hab : a ≠ b) (htie : rank a = rank b) (items : List α) :
    canonical text rank ([a, b] ++ items) ≠ canonical text rank ([b, a] ++ items) := by
  intro h
  have hfirst : [a, b].Sublist (canonical text rank ([a, b] ++ items)) :=
    List.pair_sublist_insertionSort htie.le (pair_sublist_distinct htext hab items)
  have hsecond : [b, a].Sublist (canonical text rank ([a, b] ++ items)) :=
    h ▸ List.pair_sublist_insertionSort htie.ge (pair_sublist_distinct htext hab.symm items)
  exact not_pair_sublist_swap (nodup_canonical htext _) hfirst hsecond

end Form

end Canonical
