import Kadalu.Durable.CrashLogic
import Mathlib.Logic.Function.Basic

/-!
# A program on one of many stores

`focus h lock p` runs `p` on the store at index `h` of a family, its locks renamed by `lock`. Its runs are those of `p`,
with every other store left alone (`run_focus`, `wpc_focus`).
-/

namespace Durable.Prog

variable {ι σ κ κ' ε α β : Type} [DecidableEq ι] {h : ι} {lock : κ → κ'} {w : ι → σ}

/-- The program `p` on the store `h`. -/
def focus (h : ι) (lock : κ → κ') : Prog σ κ ε α → Prog (ι → σ) κ' ε α
  | ret a => ret a
  | raise e => raise e
  | io f mid errs k =>
    io (fun w => ((f (w h)).1, Function.update w h (f (w h)).2)) (fun w => (mid (w h)).map (Function.update w h)) errs
      fun r => (k r).focus h lock
  | acquire l errs k => acquire (lock l) errs fun r => (k r).focus h lock
  | release l k => release (lock l) (k.focus h lock)

@[simp] theorem run_focus (p : Prog σ κ ε α) (w : ι → σ) :
    (p.focus h lock).run w = ((p.run (w h)).1, Function.update w h (p.run (w h)).2) := by
  induction p generalizing w with
  | ret a => simp [focus]
  | raise e => simp [focus]
  | io f mid errs k ih => simp only [focus, run, ih, Function.update_self, Function.update_idem]
  | acquire l errs k ih => exact ih _ _
  | release l k ih => exact ih _

/-- A contract of `p` is one of `focus h lock p` that leaves the other stores alone. -/
theorem wpc_focus {p : Prog σ κ ε α} {C : (ι → σ) → Prop} {Q : Except ε α → (ι → σ) → Prop} {s : σ}
    (hp : p.wpc (fun s => C (Function.update w h s)) (fun r s => Q r (Function.update w h s)) s) :
    (p.focus h lock).wpc C Q (Function.update w h s) := by
  induction p generalizing s with
  | ret a => exact hp
  | raise e => exact hp
  | io f mid errs k ih =>
    obtain ⟨⟨hc, hk⟩, hf⟩ := hp
    simp only [focus, wpc, Function.update_self, Function.update_idem]
    refine ⟨⟨hc, ih _ hk⟩, fun e he w' hw' => ?_⟩
    have hmem : ∃ s' ∈ s :: (f s).2 :: mid s, w' = Function.update w h s' := by
      simp only [List.mem_cons, List.mem_map] at hw' ⊢
      rcases hw' with rfl | rfl | ⟨s', hs', rfl⟩
      · exact ⟨s, .inl rfl, rfl⟩
      · exact ⟨_, .inr (.inl rfl), rfl⟩
      · exact ⟨s', .inr (.inr hs'), Function.update_idem _ _ _⟩
    obtain ⟨s', hs', rfl⟩ := hmem
    exact ⟨(hf e he s' hs').1, ih _ (hf e he s' hs').2⟩
  | acquire l errs k ih => exact ⟨hp.1, ih _ hp.2.1, fun e he => ih _ (hp.2.2 e he)⟩
  | release l k ih => exact ⟨hp.1, ih hp.2⟩

theorem inv_focus {p : Prog σ κ ε α} {C : (ι → σ) → Prop} {Q : α → (ι → σ) → Prop}
    (hp : p.inv (fun s => C (Function.update w h s)) (fun a s => Q a (Function.update w h s)) (w h)) :
    (p.focus h lock).inv C Q w := by
  suffices hfocus : (p.focus h lock).inv C Q (Function.update w h (w h)) by rwa [Function.update_eq_self] at hfocus
  exact wpc_focus (wpc_mono (fun _ h => h) (fun r t ht => by cases r <;> exact ht) hp)

theorem succeeds_focus {p : Prog σ κ ε α} {Q : α → (ι → σ) → Prop}
    (hp : p.succeeds (fun a s => Q a (Function.update w h s)) (w h)) : (p.focus h lock).succeeds Q w := by
  obtain ⟨a, ha, hq⟩ := hp
  exact ⟨a, by rw [run_focus, ha], by rw [run_focus]; exact hq⟩

end Durable.Prog
