import Kadalu.Durable.Interleave
import Kadalu.Durable.Returns

/-!
# The steps of a program next to others

`Trace p l p'`: a run of `p` that comes to `p'`, with the stores before and after each of its own steps; between two of them
others change the store in any way. `AtMost n p` bounds the number of steps. `rest n p s` is what is left of `p` after `n`
steps without faults.
-/

namespace Durable.Prog

variable {σ κ ε α β : Type} {G : σ → σ → Prop} {n m : Nat}

/-- A run next to others, and the stores before and after each of its steps. -/
inductive Trace : Prog σ κ ε α → List (σ × σ) → Prog σ κ ε α → Prop
  | nil {p} : Trace p [] p
  | cons {p p' p'' : Prog σ κ ε α} {i : Outcome ε} {s s' : σ} {l : List (σ × σ)} (hn : p.next i s = some (p', s'))
    (h : Trace p' l p'') : Trace p ((s, s') :: l) p''

/-- The program makes at most `n` steps. -/
def AtMost : Nat → Prog σ κ ε α → Prop
  | _, ret _ => True
  | _, raise _ => True
  | n + 1, io f _ errs k => (∀ s, AtMost n (k (f s).1)) ∧ ∀ e, errs e = true → AtMost n (k (.error e))
  | n + 1, acquire _ errs k => AtMost n (k (.ok ())) ∧ ∀ e, errs e = true → AtMost n (k (.error e))
  | n + 1, release _ k => AtMost n k
  | 0, _ => False

variable {p p' : Prog σ κ ε α} {l : List (σ × σ)}

theorem Trace.among (h : Trace p l p') : Among p p' := by
  induction h with
  | nil => exact .nil
  | cons hn _ ih => exact .cons hn ih

/-- Each step keeps to what every step of the program keeps to. -/
theorem Trace.within (h : Trace p l p') (hp : p.Within G) : ∀ x ∈ l, x.2 = x.1 ∨ G x.1 x.2 := by
  induction h with
  | nil => exact fun _ hx => absurd hx List.not_mem_nil
  | cons hn _ ih =>
    obtain ⟨hG, hp'⟩ := hp.next hn
    exact List.forall_mem_cons.mpr ⟨hG, ih hp'⟩

/-- A condition on the stores that the steps find carries over to the run. -/
theorem Trace.within_when {H : σ → Prop} (hG : ∀ s, G s s) (hp : p.Within fun s s' => H s → G s s') (h : Trace p l p')
    (hl : ∀ x ∈ l, H x.1) : ∀ x ∈ l, G x.1 x.2 := by
  intro x hx
  rcases h.within hp x hx with he | hstep
  · rw [he]
    exact hG _
  · exact hstep (hl x hx)

theorem AtMost.next {i : Outcome ε} {s s' : σ} (h : p.AtMost (n + 1)) (hn : p.next i s = some (p', s')) : p'.AtMost n := by
  cases p with
  | ret a => cases hn
  | raise e => cases hn
  | io f mid errs k =>
    cases i with
    | ok => cases hn; exact h.1 s
    | fault e n =>
      simp only [Prog.next] at hn
      split at hn
      · rename_i he
        obtain ⟨t, -, hp⟩ := Option.map_eq_some_iff.mp hn
        cases hp
        exact h.2 e he
      · cases hn
  | acquire l errs k =>
    cases i with
    | ok => cases hn; exact h.1
    | fault e n =>
      simp only [Prog.next] at hn
      split at hn
      · rename_i he
        cases hn
        exact h.2 e he
      · cases hn
  | release l k =>
    cases i with
    | ok => cases hn; exact h
    | fault e n => cases hn

theorem AtMost.zero {i : Outcome ε} {s : σ} (h : p.AtMost 0) : p.next i s = none := by
  cases p with
  | ret a => rfl
  | raise e => rfl
  | io f mid errs k => exact h.elim
  | acquire l errs k => exact h.elim
  | release l k => exact h.elim

/-- **Termination.** A bounded program ends, whatever the others do. -/
theorem Trace.length_le (h : Trace p l p') (hp : p.AtMost n) : l.length ≤ n := by
  induction h generalizing n with
  | nil => exact Nat.zero_le _
  | cons hn _ ih =>
    cases n with
    | zero => rw [hp.zero] at hn; cases hn
    | succ n => exact Nat.succ_le_succ (ih (hp.next hn))

theorem atMost_ofExcept (r : Except ε α) : (ofExcept r : Prog σ κ ε α).AtMost n := by
  cases r with
  | ok a => cases n <;> trivial
  | error e => cases n <;> trivial

theorem atMost_pure (a : α) : (pure a : Prog σ κ ε α).AtMost n := atMost_ofExcept (.ok a)

theorem atMost_throw (e : ε) : (throw e : Prog σ κ ε α).AtMost n := atMost_ofExcept (.error e)

/-- One step, and what follows it. -/
theorem atMost_step_bind {f : σ → Except ε α × σ} {mid : σ → List σ} {errs : ε → Bool} {g : α → Prog σ κ ε β}
    (h : ∀ s a, (f s).1 = .ok a → (g a).AtMost n) : (step f mid errs >>= g).AtMost (n + 1) := by
  refine ⟨fun s => ?_, fun e _ => atMost_throw e⟩
  cases hf : (f s).1 with
  | ok a => exact h s a hf
  | error e => exact atMost_throw e

/-- What is left after `n` steps without faults. -/
def rest : Nat → Prog σ κ ε α → σ → Prog σ κ ε α
  | n + 1, io f _ _ k, s => (k (f s).1).rest n (f s).2
  | n + 1, acquire _ _ k, s => (k (.ok ())).rest n s
  | n + 1, release _ k, s => k.rest n s
  | _, p, _ => p

theorem rest_reaches : ∀ (n : Nat) (p : Prog σ κ ε α) (s : σ), p.Reaches s (p.rest n s) (p.after n s)
  | 0, p, s => ⟨[], by cases p <;> rfl⟩
  | _ + 1, ret _, s => ⟨[], rfl⟩
  | _ + 1, raise _, s => ⟨[], rfl⟩
  | n + 1, io f _ _ k, s => by
    obtain ⟨is, h⟩ := rest_reaches n (k (f s).1) (f s).2
    exact ⟨.ok :: is, h⟩
  | n + 1, acquire _ _ k, s => by
    obtain ⟨is, h⟩ := rest_reaches n (k (.ok ())) s
    exact ⟨.ok :: is, h⟩
  | n + 1, release _ k, s => by
    obtain ⟨is, h⟩ := rest_reaches n k s
    exact ⟨.ok :: is, h⟩

end Durable.Prog
