import Mathlib.Data.List.Induction

/-!
# Tables that keep their rows in the order of insertion

`insertOrReplace` deletes the row of a key and appends the new one, so the first row of a table is the one whose key has been
written least recently. `lastWrites` is this table read off the writes themselves.
-/

namespace RowTable

variable {κ α : Type} [DecidableEq κ]

/-- `INSERT OR REPLACE` -/
def insertOrReplace (row : κ × α) (t : List (κ × α)) : List (κ × α) := t.filter (·.1 ≠ row.1) ++ [row]

/-- The last write of each key, the oldest first. -/
def lastWrites : List (κ × α) → List (κ × α)
  | [] => []
  | w :: ws => if w.1 ∈ ws.map Prod.fst then lastWrites ws else w :: lastWrites ws

theorem lastWrites_append (ws : List (κ × α)) (w : κ × α) : lastWrites (ws ++ [w]) = insertOrReplace w (lastWrites ws) := by
  induction ws with
  | nil => rfl
  | cons x ws ih =>
    rw [List.cons_append, lastWrites, lastWrites, ih]
    by_cases hmem : x.1 ∈ ws.map Prod.fst
    · rw [if_pos hmem, if_pos (by simp only [List.map_append, List.mem_append]; exact .inl hmem)]
    · by_cases hx : x.1 = w.1
      · rw [if_neg hmem, if_pos (by simp [hx]), insertOrReplace, insertOrReplace, List.filter_cons_of_neg (by simpa using hx)]
      · have hnot : x.1 ∉ (ws ++ [w]).map Prod.fst := by
          simp only [List.map_append, List.mem_append, List.map_cons, List.map_nil, List.mem_singleton, not_or]
          exact ⟨hmem, hx⟩
        rw [if_neg hmem, if_neg hnot, insertOrReplace, insertOrReplace, List.filter_cons_of_pos (by simpa using hx),
          List.cons_append]

theorem lastWrites_subset {w : κ × α} : ∀ {ws : List (κ × α)}, w ∈ lastWrites ws → w ∈ ws
  | x :: ws, h => by
    rw [lastWrites] at h
    split at h
    · exact List.mem_cons_of_mem x (lastWrites_subset h)
    · rcases List.mem_cons.mp h with rfl | h
      · exact List.mem_cons_self
      · exact List.mem_cons_of_mem x (lastWrites_subset h)

omit [DecidableEq κ] in
theorem mem_of_lookup [BEq κ] [LawfulBEq κ] {k : κ} {v : α} : ∀ {t : List (κ × α)}, t.lookup k = some v → (k, v) ∈ t
  | (j, u) :: t, h => by
    rw [List.lookup_cons] at h
    split at h
    · rename_i hk
      cases h
      rw [eq_of_beq hk]
      exact List.mem_cons_self
    · exact List.mem_cons_of_mem _ (mem_of_lookup h)

end RowTable
