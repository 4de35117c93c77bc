import Kadalu.Durable.Prog
import Mathlib.Logic.Relation

/-!
# A logic for one program and its crashes

`wpc C Q p s`: every run of `p` from `s`, faulted or not, keeps the crash condition `C` after each step, and ends with a
result or an exception satisfying `Q`. `inv C Q` is the shape most proofs use: `C` at every step and after every
exception, `Q` after a result.

The rules follow the constructs of `Prog.lean`; `wpc_visits` reads the crash condition off every store that a run can
leave behind. `completes C Q` adds that the run without faults ends with a result, `succeeds Q` is about that run alone,
and `Attempts` is any number of runs that may each crash anywhere.
-/

namespace Durable.Prog

variable {σ κ ε α β γ : Type} {C C' : σ → Prop} {Q Q' : Except ε α → σ → Prop} {s s' : σ}

/-- The crash condition after every step of every run, the postcondition at its end. -/
def wpc (C : σ → Prop) (Q : Except ε α → σ → Prop) : Prog σ κ ε α → σ → Prop
  | ret a, s => Q (.ok a) s
  | raise e, s => Q (.error e) s
  | io f mid errs k, s => (C (f s).2 ∧ (k (f s).1).wpc C Q (f s).2) ∧
      ∀ e, errs e = true → ∀ s' ∈ s :: (f s).2 :: mid s, C s' ∧ (k (.error e)).wpc C Q s'
  | acquire _ errs k, s => C s ∧ (k (.ok ())).wpc C Q s ∧ ∀ e, errs e = true → (k (.error e)).wpc C Q s
  | release _ k, s => C s ∧ k.wpc C Q s

/-- `C` holds at every step and after every exception, `Q` after a result. -/
def inv (C : σ → Prop) (Q : α → σ → Prop) (p : Prog σ κ ε α) (s : σ) : Prop :=
  p.wpc C (fun r s' => match r with
    | .ok a => Q a s'
    | .error _ => C s') s

theorem wpc_mono {p : Prog σ κ ε α} (hC : ∀ t, C t → C' t) (hQ : ∀ r t, Q r t → Q' r t) (h : p.wpc C Q s) :
    p.wpc C' Q' s := by
  induction p generalizing s with
  | ret a => exact hQ _ _ h
  | raise e => exact hQ _ _ h
  | io f mid errs k ih =>
    obtain ⟨⟨hc, hk⟩, hf⟩ := h
    exact ⟨⟨hC _ hc, ih _ hk⟩, fun e he s' hs' => ⟨hC _ (hf e he s' hs').1, ih _ (hf e he s' hs').2⟩⟩
  | acquire l errs k ih => exact ⟨hC _ h.1, ih _ h.2.1, fun e he => ih _ (h.2.2 e he)⟩
  | release l k ih => exact ⟨hC _ h.1, ih h.2⟩

theorem wpc_andThen {p : Prog σ κ ε α} {g : Except ε α → Prog σ κ ε β} {Q : Except ε β → σ → Prop} :
    (p.andThen g).wpc C Q s ↔ p.wpc C (fun r t => (g r).wpc C Q t) s := by
  induction p generalizing s with
  | ret a => exact Iff.rfl
  | raise e => exact Iff.rfl
  | io f mid errs k ih => simp only [andThen, wpc, ih]
  | acquire l errs k ih => simp only [andThen, wpc, ih]
  | release l k ih => simp only [andThen, wpc, ih]

theorem wpc_ofExcept {r : Except ε α} : (ofExcept r : Prog σ κ ε α).wpc C Q s ↔ Q r s := by cases r <;> exact Iff.rfl

/-! ## The two conditions of one run -/

theorem wpc_next {i : Outcome ε} {p p' : Prog σ κ ε α} (h : p.wpc C Q s) (hn : p.next i s = some (p', s')) :
    C s' ∧ p'.wpc C Q s' := by
  cases p with
  | ret a => cases hn
  | raise e => cases hn
  | io f mid errs k =>
    cases i with
    | ok => simp only [next, Option.some.injEq, Prod.mk.injEq] at hn; obtain ⟨rfl, rfl⟩ := hn; exact h.1
    | fault e n =>
      simp only [next] at hn
      split at hn
      · rename_i he
        obtain ⟨t, ht, hp⟩ := Option.map_eq_some_iff.mp hn
        simp only [Prod.mk.injEq] at hp
        obtain ⟨rfl, rfl⟩ := hp
        exact h.2 e he t (List.mem_of_getElem? ht)
      · cases hn
  | acquire l errs k =>
    cases i with
    | ok => simp only [next, Option.some.injEq, Prod.mk.injEq] at hn; obtain ⟨rfl, rfl⟩ := hn; exact ⟨h.1, h.2.1⟩
    | fault e n =>
      simp only [next] at hn
      split at hn
      · rename_i he
        simp only [Option.some.injEq, Prod.mk.injEq] at hn
        obtain ⟨rfl, rfl⟩ := hn
        exact ⟨h.1, h.2.2 e he⟩
      · cases hn
  | release l k =>
    cases i with
    | ok => simp only [next, Option.some.injEq, Prod.mk.injEq] at hn; obtain ⟨rfl, rfl⟩ := hn; exact h
    | fault e n => cases hn

/-- **Soundness.** Along a run the crash condition holds and the rest of the program keeps its contract. -/
theorem wpc_reaches {p p' : Prog σ κ ε α} (hC : C s) (h : p.wpc C Q s) (hr : p.Reaches s p' s') :
    C s' ∧ p'.wpc C Q s' := by
  obtain ⟨is, hr⟩ := hr
  induction is generalizing p s with
  | nil =>
    simp only [exec, Option.some.injEq, Prod.mk.injEq] at hr
    obtain ⟨rfl, rfl⟩ := hr
    exact ⟨hC, h⟩
  | cons i is ih =>
    obtain ⟨⟨q, t⟩, hn, hr⟩ := Option.bind_eq_some_iff.mp hr
    obtain ⟨hCt, hq⟩ := wpc_next h hn
    exact ih hCt hq hr

theorem wpc_visits {p : Prog σ κ ε α} (hC : C s) (h : p.wpc C Q s) (hv : p.Visits s s') : C s' := by
  obtain ⟨p', hr⟩ := hv
  exact (wpc_reaches hC h hr).1

theorem inv_visits {p : Prog σ κ ε α} {Q : α → σ → Prop} (hC : C s) (h : p.inv C Q s) (hv : p.Visits s s') : C s' :=
  wpc_visits hC h hv

/-- A run that ends with a result ends in the postcondition. -/
theorem inv_result {p : Prog σ κ ε α} {Q : α → σ → Prop} {a : α} (h : p.inv C Q s) (hr : p.Reaches s (ret a) s')
    (hC : C s) : Q a s' :=
  (wpc_reaches hC h hr).2

/-- The run without faults ends in the postcondition. -/
theorem wpc_run {p : Prog σ κ ε α} (h : p.wpc C Q s) : Q (p.run s).1 (p.run s).2 := by
  induction p generalizing s with
  | ret a => exact h
  | raise e => exact h
  | io f mid errs k ih => exact ih _ h.1.2
  | acquire l errs k ih => exact ih _ h.2.1
  | release l k ih => exact ih h.2

/-! ## Rules for `inv` -/

section Inv

variable {Q Q' : α → σ → Prop} {errs : ε → Bool} {f : σ → Except ε α × σ} {mid : σ → List σ}

theorem inv_mono {p : Prog σ κ ε α} (hQ : ∀ a t, Q a t → Q' a t) (h : p.inv C Q s) : p.inv C Q' s := by
  refine wpc_mono (fun _ h => h) (fun r t h => ?_) h
  cases r with
  | ok a => exact hQ a t h
  | error e => exact h

/-- A weaker contract. -/
theorem inv_imp {p : Prog σ κ ε α} (hC : ∀ t, C t → C' t) (hQ : ∀ a t, Q a t → Q' a t) (h : p.inv C Q s) :
    p.inv C' Q' s := by
  refine wpc_mono hC (fun r t h => ?_) h
  cases r with
  | ok a => exact hQ a t h
  | error e => exact hC t h

theorem inv_ret {a : α} (h : Q a s) : (ret a : Prog σ κ ε α).inv C Q s := h

theorem inv_raise {e : ε} (h : C s) : (raise e : Prog σ κ ε α).inv C Q s := h

theorem inv_ofExcept {r : Except ε α} (hC : C s) (h : ∀ a, r = .ok a → Q a s) :
    (ofExcept r : Prog σ κ ε α).inv C Q s := by
  cases r with
  | ok a => exact h a rfl
  | error e => exact hC

theorem inv_ite {c : Prop} [Decidable c] {p p' : Prog σ κ ε α} (h : c → p.inv C Q s) (h' : ¬c → p'.inv C Q s) :
    (if c then p else p').inv C Q s := by
  split
  · exact h ‹_›
  · exact h' ‹_›

theorem inv_bind {p : Prog σ κ ε α} {g : α → Prog σ κ ε β} {Q : β → σ → Prop}
    (h : p.inv C (fun a t => (g a).inv C Q t) s) : (p >>= g).inv C Q s := by
  rw [bind_eq, inv, wpc_andThen]
  refine wpc_mono (fun _ h => h) (fun r t h => ?_) h
  cases r with
  | ok a => exact h
  | error e => exact h

/-- A step keeps the crash condition when its effect and all its interruptions do. -/
theorem inv_step (h : ∀ t ∈ s :: (f s).2 :: mid s, C t) (hQ : ∀ a, (f s).1 = .ok a → Q a (f s).2) :
    (step f mid errs : Prog σ κ ε α).inv C Q s := by
  have hf : C (f s).2 := h _ (by simp)
  refine ⟨⟨hf, wpc_ofExcept.mpr ?_⟩, fun e _ t ht => ⟨h t ht, wpc_ofExcept.mpr (h t ht)⟩⟩
  cases hr : (f s).1 with
  | ok a => exact hQ a hr
  | error e => exact hf

theorem inv_read {g : σ → Except ε α} (hC : C s) (hQ : ∀ a, g s = .ok a → Q a s) :
    (read errs g : Prog σ κ ε α).inv C Q s :=
  inv_step (by simp [hC]) hQ

theorem inv_withLock {l : κ} {p : Prog σ κ ε α} (hC : C s) (h : p.inv C (fun a t => C t ∧ Q a t) s) :
    (withLock l errs p).inv C Q s := by
  refine ⟨hC, ?_, fun e _ => hC⟩
  rw [wpc_andThen]
  refine wpc_mono (fun _ h => h) (fun r t h => ?_) h
  cases r with
  | ok a => exact ⟨h.1, h.2⟩
  | error e => exact ⟨h, h⟩

/-- A handler: it starts where the body raised. -/
theorem inv_tryCatch {p : Prog σ κ ε α} {g : ε → Prog σ κ ε α} (h : p.inv C Q s)
    (hg : ∀ e t, C t → (g e).inv C Q t) : (tryCatch p g).inv C Q s := by
  show (p.andThen _).wpc C _ s
  rw [wpc_andThen]
  refine wpc_mono (fun _ h => h) (fun r t h => ?_) h
  cases r with
  | ok a => exact h
  | error e => exact hg e t h

/-- A program that never ends with a result. -/
theorem inv_never {p : Prog σ κ ε α} {a : α} (h : p.inv C (fun _ _ => False) s) : (p.run s).1 ≠ .ok a := fun hr => by
  have := wpc_run h
  rw [hr] at this
  exact this

end Inv

/-! ## Programs that complete -/

/-- Every run keeps `C`, and the run without faults ends with a result, which satisfies `Q`. -/
def completes (C : σ → Prop) (Q : α → σ → Prop) (p : Prog σ κ ε α) (s : σ) : Prop :=
  p.inv C Q s ∧ ∃ a, (p.run s).1 = .ok a

section Completes

variable {Q Q' : α → σ → Prop} {errs : ε → Bool} {f : σ → Except ε α × σ} {mid : σ → List σ}

theorem completes_run {p : Prog σ κ ε α} (h : p.completes C Q s) : ∃ a, (p.run s).1 = .ok a ∧ Q a (p.run s).2 := by
  obtain ⟨h, a, ha⟩ := h
  have := wpc_run h
  rw [ha] at this
  exact ⟨a, ha, this⟩

theorem completes_mono {p : Prog σ κ ε α} (hQ : ∀ a t, Q a t → Q' a t) (h : p.completes C Q s) :
    p.completes C Q' s :=
  ⟨inv_mono hQ h.1, h.2⟩

theorem completes_imp {p : Prog σ κ ε α} (hC : ∀ t, C t → C' t) (h : p.completes C Q s) : p.completes C' Q s :=
  ⟨inv_imp hC (fun _ _ h => h) h.1, h.2⟩

theorem completes_pure {a : α} (h : Q a s) : (pure a : Prog σ κ ε α).completes C Q s := ⟨inv_ret h, a, rfl⟩

theorem completes_ofExcept {r : Except ε α} {a : α} (hr : r = .ok a) (h : Q a s) :
    (ofExcept r : Prog σ κ ε α).completes C Q s := by
  subst hr
  exact completes_pure h

theorem completes_bind {p : Prog σ κ ε α} {g : α → Prog σ κ ε β} {Q : β → σ → Prop}
    (h : p.completes C (fun a t => (g a).completes C Q t) s) : (p >>= g).completes C Q s := by
  obtain ⟨a, ha, hg⟩ := completes_run h
  refine ⟨inv_bind (inv_mono (fun _ _ h => h.1) h.1), ?_⟩
  rw [bind_eq, run_andThen, ha]
  exact hg.2

theorem completes_step {a : α} (h : ∀ t ∈ s :: (f s).2 :: mid s, C t) (ha : (f s).1 = .ok a) (hQ : Q a (f s).2) :
    (step f mid errs : Prog σ κ ε α).completes C Q s :=
  ⟨inv_step h fun b hb => by cases ha.symm.trans hb; exact hQ, a, by rw [run_step, ha]⟩

theorem completes_read {g : σ → Except ε α} {a : α} (hC : C s) (ha : g s = .ok a) (hQ : Q a s) :
    (read errs g : Prog σ κ ε α).completes C Q s :=
  completes_step (by simp [hC]) ha hQ

end Completes

/-! ## The run without faults -/

/-- The run without faults ends with a result that satisfies `Q`. -/
def succeeds (Q : α → σ → Prop) (p : Prog σ κ ε α) (s : σ) : Prop := ∃ a, (p.run s).1 = .ok a ∧ Q a (p.run s).2

section Succeeds

variable {Q Q' : α → σ → Prop} {errs : ε → Bool} {f : σ → Except ε α × σ} {mid : σ → List σ}

theorem succeeds_mono {p : Prog σ κ ε α} (hQ : ∀ a t, Q a t → Q' a t) (h : p.succeeds Q s) : p.succeeds Q' s := by
  obtain ⟨a, ha, hq⟩ := h
  exact ⟨a, ha, hQ _ _ hq⟩

theorem succeeds_pure {a : α} (h : Q a s) : (pure a : Prog σ κ ε α).succeeds Q s := ⟨a, rfl, h⟩

theorem succeeds_bind {p : Prog σ κ ε α} {g : α → Prog σ κ ε β} {Q : β → σ → Prop}
    (h : p.succeeds (fun a t => (g a).succeeds Q t) s) : (p >>= g).succeeds Q s := by
  obtain ⟨a, ha, b, hb, hq⟩ := h
  have hrun : (p >>= g).run s = (g a).run (p.run s).2 := by rw [bind_eq, run_andThen, ha, onOk_ok]
  exact ⟨b, hrun ▸ hb, hrun ▸ hq⟩

theorem succeeds_step {a : α} (ha : (f s).1 = .ok a) (hQ : Q a (f s).2) :
    (step f mid errs : Prog σ κ ε α).succeeds Q s :=
  ⟨a, by rw [run_step, ha], by rw [run_step]; exact hQ⟩

theorem succeeds_read {g : σ → Except ε α} {a : α} (ha : g s = .ok a) (hQ : Q a s) :
    (read errs g : Prog σ κ ε α).succeeds Q s :=
  succeeds_step ha hQ

theorem succeeds_withLock {l : κ} {p : Prog σ κ ε α} (h : p.succeeds Q s) : (withLock l errs p).succeeds Q s := by
  rwa [succeeds, run_withLock]

/-- A handler that has nothing to handle. -/
theorem succeeds_tryCatch {p : Prog σ κ ε α} {g : ε → Prog σ κ ε α} (h : p.succeeds Q s) :
    (tryCatch p g).succeeds Q s := by
  obtain ⟨a, ha, hq⟩ := h
  have hrun : (tryCatch p g : Prog σ κ ε α).run s = (.ok a, (p.run s).2) := by
    show (p.andThen _).run s = _
    rw [run_andThen, ha]
    rfl
  exact ⟨a, by rw [hrun], by rw [hrun]; exact hq⟩

end Succeeds

/-! ## Attempts -/

/-- Any number of attempts of some programs, each of which may crash anywhere. -/
def Attempts (allowed : Prog σ κ ε α → Prop) : σ → σ → Prop :=
  Relation.ReflTransGen fun s s' => ∃ p, allowed p ∧ p.Visits s s'

theorem Attempts.invariant {allowed : Prog σ κ ε α → Prop} (hall : ∀ p, allowed p → ∀ s, C s → ∃ Q, p.inv C Q s)
    (hs : C s) (h : Attempts allowed s s') : C s' := by
  induction h with
  | refl => exact hs
  | tail _ hstep ih =>
    obtain ⟨p, hp, hv⟩ := hstep
    obtain ⟨Q, hQ⟩ := hall p hp _ ih
    exact inv_visits ih hQ hv

end Durable.Prog
