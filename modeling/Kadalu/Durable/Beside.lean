import Kadalu.Durable.CrashLogic
import Mathlib.Data.List.Forall2

/-!
# A program beside others

Between the steps of a program others may change the store (`Beside`). Where a program does not see these changes (`Blind`), each
of its runs beside them is one of its runs alone, up to what it does not see.

* `Beside.reaches`: the run alone.
* the `blind_*` rules, one for each construct of programs.
-/

namespace Durable.Prog

variable {σ κ ε α β : Type} {E R R' : σ → σ → Prop} {s s' t : σ} {p p' : Prog σ κ ε α}

/-- What the program can be and leave when others take `R`-steps between its own. -/
inductive Beside (R : σ → σ → Prop) (p : Prog σ κ ε α) (s : σ) : Prog σ κ ε α → σ → Prop
  | start : Beside R p s p s
  | own {q q' : Prog σ κ ε α} {t t' : σ} (i : Outcome ε) (h : Beside R p s q t) (hn : q.next i t = some (q', t')) :
    Beside R p s q' t'
  | other {q : Prog σ κ ε α} {t t' : σ} (h : Beside R p s q t) (hR : R t t') : Beside R p s q t'

theorem Beside.mono (hR : ∀ t t', R t t' → R' t t') (h : p.Beside R s p' s') : p.Beside R' s p' s' := by
  induction h with
  | start => exact .start
  | own i _ hn ih => exact ih.own i hn
  | other _ ht ih => exact ih.other (hR _ _ ht)

/-- A run alone is a run among others that do nothing. -/
theorem Reaches.beside (h : p.Reaches s p' s') : p.Beside R s p' s' := by
  have hexec : ∀ (is : List (Outcome ε)) (q : Prog σ κ ε α) (t : σ), p.Beside R s q t → exec is q t = some (p', s') →
      p.Beside R s p' s' := by
    intro is
    induction is with
    | nil =>
      intro q t hq he
      cases he
      exact hq
    | cons i is ih =>
      intro q t hq he
      obtain ⟨⟨q', t'⟩, hn, he⟩ := Option.bind_eq_some_iff.mp he
      exact ih q' t' (hq.own i hn) he
  obtain ⟨is, he⟩ := h
  exact hexec is p s .start he

/-- From stores that only differ by `E` the program does the same. -/
def Blind (E : σ → σ → Prop) : Prog σ κ ε α → Prop
  | ret _ => True
  | raise _ => True
  | io f mid _ k => (∀ s t, E s t → (f s).1 = (f t).1 ∧ List.Forall₂ E ((f s).2 :: mid s) ((f t).2 :: mid t)) ∧
      ∀ r, (k r).Blind E
  | acquire _ _ k => ∀ r, (k r).Blind E
  | release _ k => k.Blind E

/-! ## Rules -/

section Rules

variable {errs : ε → Bool}

theorem blind_pure (a : α) : (pure a : Prog σ κ ε α).Blind E := trivial

theorem blind_throw (e : ε) : (throw e : Prog σ κ ε α).Blind E := trivial

theorem blind_ofExcept (r : Except ε α) : (ofExcept r : Prog σ κ ε α).Blind E := by cases r <;> trivial

theorem blind_andThen {g : Except ε α → Prog σ κ ε β} (hp : p.Blind E) (hg : ∀ r, (g r).Blind E) : (p.andThen g).Blind E := by
  induction p with
  | ret a => exact hg _
  | raise e => exact hg _
  | io f mid errs k ih => exact ⟨hp.1, fun r => ih r (hp.2 r)⟩
  | acquire l errs k ih => exact fun r => ih r (hp r)
  | release l k ih => exact ih hp

theorem blind_bind {g : α → Prog σ κ ε β} (hp : p.Blind E) (hg : ∀ a, (g a).Blind E) : (p >>= g).Blind E := by
  refine blind_andThen hp fun r => ?_
  cases r with
  | ok a => exact hg a
  | error e => trivial

theorem blind_tryCatch {g : ε → Prog σ κ ε α} (hp : p.Blind E) (hg : ∀ e, (g e).Blind E) :
    (tryCatch p g : Prog σ κ ε α).Blind E := by
  refine blind_andThen hp fun r => ?_
  cases r with
  | ok a => trivial
  | error e => exact hg e

theorem blind_ite {c : Prop} {_ : Decidable c} {q : Prog σ κ ε α} (hp : p.Blind E) (hq : q.Blind E) :
    (if c then p else q).Blind E := by split <;> assumption

theorem blind_step {f : σ → Except ε α × σ} (h : ∀ s t, E s t → (f s).1 = (f t).1 ∧ E (f s).2 (f t).2) :
    (step f (fun _ => []) errs : Prog σ κ ε α).Blind E :=
  ⟨fun s t hE => ⟨(h s t hE).1, .cons (h s t hE).2 .nil⟩, blind_ofExcept⟩

theorem blind_read {g : σ → Except ε α} (h : ∀ s t, E s t → g s = g t) : (read errs g : Prog σ κ ε α).Blind E :=
  blind_step fun s t hE => ⟨h s t hE, hE⟩

end Rules

/-! ## Runs -/

/-- One step from stores that only differ by `E`. -/
theorem Blind.next {i : Outcome ε} (h : p.Blind E) (hE : E s t) (hn : p.next i t = some (p', s')) :
    p'.Blind E ∧ ∃ u, p.next i s = some (p', u) ∧ E u s' := by
  cases p with
  | ret a => cases hn
  | raise e => cases hn
  | io f mid errs k =>
    obtain ⟨hres, heff⟩ := h.1 s t hE
    cases i with
    | ok =>
      cases hn
      exact ⟨h.2 _, _, by rw [← hres]; rfl, (List.forall₂_cons.mp heff).1⟩
    | fault e n =>
      simp only [Prog.next] at hn ⊢
      split at hn
      · obtain ⟨u, hu, he⟩ := Option.map_eq_some_iff.mp hn
        cases he
        -- the stores that an interruption can leave differ by `E`
        have hall : List.Forall₂ E (s :: (f s).2 :: mid s) (t :: (f t).2 :: mid t) := .cons hE heff
        obtain ⟨hlt, hget⟩ := List.getElem?_eq_some_iff.mp hu
        have hlt' : n < (s :: (f s).2 :: mid s).length := by rw [hall.length_eq]; exact hlt
        refine ⟨h.2 _, (s :: (f s).2 :: mid s)[n], ?_, ?_⟩
        · rw [if_pos ‹_›, List.getElem?_eq_getElem hlt']
          rfl
        · rw [← hget]
          exact hall.get hlt' hlt
      · cases hn
  | acquire l errs k =>
    cases i with
    | ok =>
      cases hn
      exact ⟨h _, s, rfl, hE⟩
    | fault e n =>
      simp only [Prog.next] at hn ⊢
      split at hn
      · cases hn
        exact ⟨h _, s, if_pos ‹_›, hE⟩
      · cases hn
  | release l k =>
    cases i with
    | ok =>
      cases hn
      exact ⟨h, s, rfl, hE⟩
    | fault e n => cases hn

/-- **Blind programs.** A program runs among others as it does alone, up to what it does not see of them. -/
theorem Beside.reaches (hrefl : ∀ t, E t t) (htrans : ∀ {t u v}, E t u → E u v → E t v) (hR : ∀ t t', R t t' → E t t')
    (h : p.Blind E) (ha : p.Beside R s p' s') : ∃ u, p.Reaches s p' u ∧ E u s' := by
  suffices hmain : p'.Blind E ∧ ∃ u, p.Reaches s p' u ∧ E u s' from hmain.2
  induction ha with
  | start => exact ⟨h, s, ⟨[], rfl⟩, hrefl s⟩
  | own i _ hn ih =>
    obtain ⟨hblind, u, hreach, hE⟩ := ih
    obtain ⟨hblind', v, hnext, hE'⟩ := hblind.next hE hn
    exact ⟨hblind', v, hreach.trans ⟨[i], by rw [exec, hnext]; rfl⟩, hE'⟩
  | other _ ht ih =>
    obtain ⟨hblind, u, hreach, hE⟩ := ih
    exact ⟨hblind, u, hreach, htrans hE (hR _ _ ht)⟩

end Durable.Prog
