import Kadalu.Data.Result
import Kadalu.Pool.Steps

/-!
# Contracts of the durable steps

What a step of `Steps.lean` needs to keep a crash condition and to complete: its effect must be regular, and every store
that an interruption leaves must satisfy the condition.
-/

namespace Kadalu

open Durable Durable.Prog Except

variable {α : Type} {C : Pool → Prop} {s s' t : Pool} {a : α} {e : Err}

theorem completes_readPool {Q : α → Pool → Prop} {g : Pool → Except Err α} (hC : C s) (ha : g s = .ok a) (hQ : Q a s) :
    (readPool g).completes C Q s :=
  completes_read hC ha hQ

theorem completes_update {Q : Unit → Pool → Prop} {f : Pool → Except Err Pool} (hs : C s) (hf : f s = .ok t)
    (hC : C t) (hQ : Q () t) : (update f).completes C Q s := by
  refine completes_step (a := ()) (fun u ht => ?_) ?_ ?_
  · simp only [hf, ok_bind, pure_eq_ok, List.mem_cons, List.not_mem_nil, or_false] at ht
    rcases ht with rfl | rfl
    · exact hs
    · exact hC
  · simp only [hf, ok_bind, pure_eq_ok]
  · simpa only [hf, ok_bind, pure_eq_ok] using hQ

theorem completes_transaction {Q : α → Pool → Prop} {errs : Err → Bool} {f : Pool → Except Err (α × Pool)} (hs : C s)
    (hf : f s = .ok (a, t)) (hC : C t) (hmid : C { t with rows := s.rows, summary := s.summary }) (hQ : Q a t) :
    (transaction f errs).completes C Q s := by
  refine completes_step (a := a) (fun u ht => ?_) ?_ ?_
  · simp only [hf, List.mem_cons, List.not_mem_nil, or_false] at ht
    rcases ht with rfl | rfl | rfl
    · exact hs
    · exact hC
    · exact hmid
  · simp only [hf]
  · simpa only [hf] using hQ

/-- A transaction keeps the condition when its result does, with the new rows and with the old ones. -/
theorem inv_transaction {Q : α → Pool → Prop} {errs : Err → Bool} {f : Pool → Except Err (α × Pool)} (hs : C s)
    (h : ∀ a s', f s = .ok (a, s') → C s' ∧ C { s' with rows := s.rows, summary := s.summary } ∧ Q a s') :
    (transaction f errs).inv C Q s := by
  cases hf : f s with
  | error e =>
    refine inv_step (fun t ht => ?_) fun b hb => ?_
    · simp only [hf, List.mem_cons, List.not_mem_nil, or_false, or_self] at ht
      exact ht ▸ hs
    · simp only [hf] at hb
      cases hb
  | ok x =>
    obtain ⟨hC, hmid, hQ⟩ := h x.1 x.2 hf
    refine inv_step (fun t ht => ?_) fun b hb => ?_
    · simp only [hf, List.mem_cons, List.not_mem_nil, or_false] at ht
      rcases ht with rfl | rfl | rfl
      · exact hs
      · exact hC
      · exact hmid
    · simp only [hf] at hb ⊢
      cases hb
      exact hQ

/-- A file operation keeps the condition when its result does. -/
theorem inv_update {Q : Unit → Pool → Prop} {f : Pool → Except Err Pool} (hs : C s)
    (h : ∀ t, f s = .ok t → C t ∧ Q () t) : (update f).inv C Q s := by
  cases hf : f s with
  | error e =>
    refine inv_step (fun t ht => ?_) fun b hb => ?_
    · simp only [hf, error_bind, List.mem_cons, List.not_mem_nil, or_false, or_self] at ht
      exact ht ▸ hs
    · simp only [hf, error_bind] at hb
      cases hb
  | ok t =>
    obtain ⟨hC, hQ⟩ := h t hf
    refine inv_step (fun u hu => ?_) fun b hb => ?_
    · simp only [hf, ok_bind, pure_eq_ok, List.mem_cons, List.not_mem_nil, or_false] at hu
      rcases hu with rfl | rfl
      · exact hs
      · exact hC
    · simp only [hf, ok_bind, pure_eq_ok]
      exact hQ

theorem completes_writeMetadata {Q : Unit → Pool → Prop} {p : Path} {m : Metadata} (hs : C s)
    (hC : C { s with metadata := s.metadata.insert p m }) (hQ : Q () { s with metadata := s.metadata.insert p m }) :
    (writeMetadata p m).completes C Q s :=
  completes_update hs rfl hC hQ

theorem completes_unlinkMetadata {Q : Unit → Pool → Prop} {p : Path} (hs : C s)
    (hC : C { s with metadata := s.metadata.erase p }) (hQ : Q () { s with metadata := s.metadata.erase p }) :
    (unlinkMetadata p).completes C Q s :=
  completes_update hs rfl hC hQ

theorem completes_pruneEmptyParents {Q : Unit → Pool → Prop} (hs : C s) (hQ : Q () s) :
    pruneEmptyParents.completes C Q s :=
  completes_update hs rfl hs hQ

/-- The release of a row. -/
theorem completes_releaseRow {Q : Unit → Pool → Prop} {v : String} {n : Int} (hn : 0 < n) (hs : C s)
    (hC : C (removePvRecord s v)) (hQ : Q () (removePvRecord s v)) : (updateFreeSizeStep v n).completes C Q s := by
  refine completes_transaction (t := removePvRecord s v) hs ?_ hC ?_ hQ
  · rw [updateFreeSize, if_pos hn]
    rfl
  · exact hs

/-- Removing a payload keeps the condition when it holds of every part of the payload. -/
theorem completes_removePayload {Q : Unit → Pool → Prop} {p : Path} {wrongKind : Payload → Bool} {payload : Payload}
    (hp : s.payloads.lookup p = some payload) (hkind : wrongKind payload = false) (hs : C s)
    (hpart : ∀ rest, C { s with payloads := s.payloads.insert p { payload with contents := rest } })
    (hC : C { s with payloads := s.payloads.erase p }) (hQ : Q () { s with payloads := s.payloads.erase p }) :
    (removePayload p wrongKind).completes C Q s := by
  refine completes_step (a := ()) (fun t ht => ?_) ?_ ?_
  · simp only [hp, hkind, Option.any_some, Bool.false_eq_true, if_false, partialTrees, List.mem_cons,
      List.mem_map] at ht
    rcases ht with rfl | rfl | ⟨rest, -, rfl⟩
    · exact hs
    · exact hC
    · exact hpart rest
  · simp only [hp, hkind, Bool.false_eq_true, if_false]
  · simpa only [hp, hkind, Bool.false_eq_true, if_false] using hQ

theorem completes_removeNoPayload {Q : Unit → Pool → Prop} {p : Path} {wrongKind : Payload → Bool}
    (hp : s.payloads.lookup p = none) (hs : C s) (hQ : Q () s) : (removePayload p wrongKind).completes C Q s := by
  refine completes_step (a := ()) (fun t ht => ?_) ?_ ?_
  · simp only [hp, Option.any_none, Bool.false_eq_true, if_false, partialTrees, List.mem_cons, List.not_mem_nil,
      or_false, or_self] at ht
    exact ht ▸ hs
  · simp only [hp]
  · simpa only [hp] using hQ

end Kadalu
