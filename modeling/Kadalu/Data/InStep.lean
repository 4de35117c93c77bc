import Mathlib.Data.List.Forall2
import Mathlib.Data.List.Nodup

/-!
# Lists in step

Two lists whose entries are related one by one.

* `forall₂_left`, `forall₂_right`: every entry of one list has a partner in the other.
* `forall₂_nodup_iff`: when the entries of the second list have keys of their own.
-/

namespace InStep

variable {α β κ : Type} {R : α → β → Prop} {key : β → κ}

theorem exists_forall₂ : ∀ {xs : List α}, (∀ x ∈ xs, ∃ y, R x y) → ∃ ys, List.Forall₂ R xs ys
  | [], _ => ⟨[], .nil⟩
  | x :: xs, h => by
    obtain ⟨hx, hxs⟩ := List.forall_mem_cons.mp h
    obtain ⟨y, hy⟩ := hx
    obtain ⟨ys, hys⟩ := exists_forall₂ hxs
    exact ⟨y :: ys, .cons hy hys⟩

theorem forall₂_left {xs : List α} {ys : List β} (h : List.Forall₂ R xs ys) : ∀ x ∈ xs, ∃ y ∈ ys, R x y := by
  induction h with
  | nil => simp
  | cons hxy _ ih =>
    refine List.forall_mem_cons.mpr ⟨⟨_, List.mem_cons_self, hxy⟩, fun x hx => ?_⟩
    obtain ⟨y, hy, hr⟩ := ih x hx
    exact ⟨y, List.mem_cons_of_mem _ hy, hr⟩

theorem forall₂_right {xs : List α} {ys : List β} (h : List.Forall₂ R xs ys) : ∀ y ∈ ys, ∃ x ∈ xs, R x y := by
  induction h with
  | nil => simp
  | cons hxy _ ih =>
    refine List.forall_mem_cons.mpr ⟨⟨_, List.mem_cons_self, hxy⟩, fun y hy => ?_⟩
    obtain ⟨x, hx, hr⟩ := ih y hy
    exact ⟨x, List.mem_cons_of_mem _ hx, hr⟩

/-- In step with a list without repetition, the keys repeat exactly when two different entries share one. -/
theorem forall₂_nodup_iff (hR : ∀ x y y', R x y → R x y' → y = y') {xs : List α} {ys : List β}
    (h : List.Forall₂ R xs ys) (hnd : xs.Nodup) :
    (ys.map key).Nodup ↔ ∀ x ∈ xs, ∀ x' ∈ xs, ∀ y y', R x y → R x' y' → key y = key y' → x = x' := by
  induction h with
  | nil => simp
  | @cons x y xs ys hxy hxys ih =>
    obtain ⟨hx, hnd⟩ := List.nodup_cons.mp hnd
    rw [List.map_cons, List.nodup_cons, ih hnd]
    constructor
    · rintro ⟨hy, hxs⟩ a ha b hb u w hu hw he
      rcases List.mem_cons.mp ha with rfl | ha' <;> rcases List.mem_cons.mp hb with rfl | hb'
      · rfl
      · obtain ⟨w', hw', hr⟩ := forall₂_left hxys b hb'
        rw [hR _ _ _ hw hr, hR _ _ _ hu hxy] at he
        exact absurd (he ▸ List.mem_map_of_mem hw') hy
      · obtain ⟨u', hu', hr⟩ := forall₂_left hxys a ha'
        rw [hR _ _ _ hu hr, hR _ _ _ hw hxy] at he
        exact absurd (he ▸ List.mem_map_of_mem hu') hy
      · exact hxs a ha' b hb' u w hu hw he
    · refine fun hall => ⟨fun hm => ?_, fun a ha b hb =>
        hall a (List.mem_cons_of_mem _ ha) b (List.mem_cons_of_mem _ hb)⟩
      obtain ⟨w, hw, he⟩ := List.mem_map.mp hm
      obtain ⟨b, hb, hr⟩ := forall₂_right hxys w hw
      exact hx (hall x List.mem_cons_self b (List.mem_cons_of_mem _ hb) y w hxy hr he.symm ▸ hb)

end InStep
