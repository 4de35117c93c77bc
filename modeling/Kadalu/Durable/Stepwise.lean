import Kadalu.Durable.Prog

/-!
# What each step of a program may do

`guarded G Q p s`: every step of every run of `p` from `s`, faulted or not, is one that `G` allows, and a result satisfies
`Q`. Unlike a crash condition, which speaks of the stores a run can leave, `G` sees the store before a step and after it.

* `guarded_reaches`: a step of a run is allowed.
* the `guarded_*` rules, one for each construct of programs.
-/

namespace Durable.Prog

variable {σ κ ε α β : Type} {G : σ → σ → Prop} {Q Q' : α → σ → Prop} {s s' : σ} {errs : ε → Bool}

/-- Every step is allowed, and a result satisfies the postcondition. -/
def guarded (G : σ → σ → Prop) (Q : α → σ → Prop) : Prog σ κ ε α → σ → Prop
  | ret a, s => Q a s
  | raise _, _ => True
  | io f mid errs k, s => (G s (f s).2 ∧ (k (f s).1).guarded G Q (f s).2) ∧
      ∀ e, errs e = true → ∀ s' ∈ s :: (f s).2 :: mid s, G s s' ∧ (k (.error e)).guarded G Q s'
  | acquire _ errs k, s => G s s ∧ (k (.ok ())).guarded G Q s ∧ ∀ e, errs e = true → (k (.error e)).guarded G Q s
  | release _ k, s => G s s ∧ k.guarded G Q s

theorem guarded_next {i : Outcome ε} {p p' : Prog σ κ ε α} (h : p.guarded G Q s) (hn : p.next i s = some (p', s')) :
    G s s' ∧ p'.guarded G Q s' := by
  cases p with
  | ret a => cases hn
  | raise e => cases hn
  | io f mid errs k =>
    cases i with
    | ok =>
      cases hn
      exact h.1
    | fault e n =>
      simp only [next] at hn
      split at hn
      · next he =>
        obtain ⟨t, ht, hp⟩ := Option.map_eq_some_iff.mp hn
        cases hp
        exact h.2 e he _ (List.mem_of_getElem? ht)
      · cases hn
  | acquire l errs k =>
    cases i with
    | ok =>
      cases hn
      exact ⟨h.1, h.2.1⟩
    | fault e n =>
      simp only [next] at hn
      split at hn
      · next he =>
        cases hn
        exact ⟨h.1, h.2.2 e he⟩
      · cases hn
  | release l k =>
    cases i with
    | ok =>
      cases hn
      exact h
    | fault e n => cases hn

/-- **Soundness.** Along a run the rest of the program stays guarded. -/
theorem guarded_reaches {p p' : Prog σ κ ε α} (h : p.guarded G Q s) (hr : p.Reaches s p' s') : p'.guarded G Q s' := by
  obtain ⟨is, hr⟩ := hr
  induction is generalizing p s with
  | nil =>
    simp only [exec, Option.some.injEq, Prod.mk.injEq] at hr
    obtain ⟨rfl, rfl⟩ := hr
    exact h
  | cons i is ih =>
    obtain ⟨⟨q, t⟩, hn, hr⟩ := Option.bind_eq_some_iff.mp hr
    exact ih (guarded_next h hn).2 hr

/-! ## Rules -/

theorem guarded_pure {a : α} (h : Q a s) : (pure a : Prog σ κ ε α).guarded G Q s := h

theorem guarded_throw {e : ε} : (throw e : Prog σ κ ε α).guarded G Q s := trivial

theorem guarded_ofExcept {r : Except ε α} (h : ∀ a, r = .ok a → Q a s) : (ofExcept r : Prog σ κ ε α).guarded G Q s := by
  cases r with
  | ok a => exact h a rfl
  | error e => exact trivial

theorem guarded_bind {p : Prog σ κ ε α} {g : α → Prog σ κ ε β} {Q : β → σ → Prop}
    (h : p.guarded G (fun a t => (g a).guarded G Q t) s) : (p >>= g).guarded G Q s := by
  rw [bind_eq]
  induction p generalizing s with
  | ret a => exact h
  | raise e => exact trivial
  | io f mid errs k ih =>
    obtain ⟨⟨hg, hk⟩, hf⟩ := h
    exact ⟨⟨hg, ih _ hk⟩, fun e he t ht => ⟨(hf e he t ht).1, ih _ (hf e he t ht).2⟩⟩
  | acquire l errs k ih => exact ⟨h.1, ih _ h.2.1, fun e he => ih _ (h.2.2 e he)⟩
  | release l k ih => exact ⟨h.1, ih h.2⟩

theorem guarded_mono {p : Prog σ κ ε α} (hQ : ∀ a t, Q a t → Q' a t) (h : p.guarded G Q s) : p.guarded G Q' s := by
  induction p generalizing s with
  | ret a => exact hQ _ _ h
  | raise e => exact trivial
  | io f mid errs k ih =>
    obtain ⟨⟨hg, hk⟩, hf⟩ := h
    exact ⟨⟨hg, ih _ hk⟩, fun e he t ht => ⟨(hf e he t ht).1, ih _ (hf e he t ht).2⟩⟩
  | acquire l errs k ih => exact ⟨h.1, ih _ h.2.1, fun e he => ih _ (h.2.2 e he)⟩
  | release l k ih => exact ⟨h.1, ih h.2⟩

/-- A step is allowed when its effect and all its interruptions are. -/
theorem guarded_step {f : σ → Except ε α × σ} {mid : σ → List σ} (h : ∀ t ∈ s :: (f s).2 :: mid s, G s t)
    (hQ : ∀ a, (f s).1 = .ok a → Q a (f s).2) : (step f mid errs : Prog σ κ ε α).guarded G Q s := by
  refine ⟨⟨h _ (by simp), guarded_ofExcept hQ⟩, fun e _ t ht => ⟨h t ht, ?_⟩⟩
  exact guarded_ofExcept fun a ha => nomatch ha

theorem guarded_read {g : σ → Except ε α} (hs : G s s) (hQ : ∀ a, g s = .ok a → Q a s) :
    (read errs g : Prog σ κ ε α).guarded G Q s :=
  guarded_step (by simp [hs]) hQ

/-- A check before the rest of a program. -/
theorem guarded_guard {c : Prop} {_ : Decidable c} {e : ε} {rest : PUnit → Prog σ κ ε α}
    (h : ¬c → (rest ⟨⟩).guarded G Q s) : (if c then throw e >>= rest else rest ⟨⟩).guarded G Q s := by
  split
  · exact guarded_bind guarded_throw
  · exact h ‹_›

/-- An optional first part of a program. -/
theorem guarded_when {c : Prop} {_ : Decidable c} {p : Prog σ κ ε PUnit} {rest : PUnit → Prog σ κ ε α}
    {P : PUnit → σ → Prop} (hp : p.guarded G P s) (h : ∀ r t, P r t → (rest r).guarded G Q t) (hs : P ⟨⟩ s) :
    (if c then p >>= rest else rest ⟨⟩).guarded G Q s := by
  split
  · exact guarded_bind (guarded_mono h hp)
  · exact h _ _ hs

end Durable.Prog
