import Kadalu.Durable.Focus

/-!
# What holds at the end of a program

`ends Q p s`: a run of `p` from `s` that ends with a result ends in `Q`, whatever has failed on its way. This is `inv` without
a condition on the stores in between, with a rule for each construct of `Prog.lean`; a handler may start anywhere.
-/

namespace Durable.Prog

variable {σ κ ε α β : Type} {Q Q' : α → σ → Prop} {s s' : σ}

/-- `Q` after a result. -/
def ends (Q : α → σ → Prop) (p : Prog σ κ ε α) (s : σ) : Prop := p.inv (fun _ => True) Q s

theorem ends_reaches {p : Prog σ κ ε α} {a : α} (h : p.ends Q s) (hr : p.Reaches s (ret a) s') : Q a s' :=
  inv_result h hr trivial

theorem ends_of_inv {p : Prog σ κ ε α} {C : σ → Prop} (h : p.inv C Q s) : p.ends Q s :=
  inv_imp (fun _ _ => trivial) (fun _ _ h => h) h

theorem ends_mono {p : Prog σ κ ε α} (hQ : ∀ a t, Q a t → Q' a t) (h : p.ends Q s) : p.ends Q' s := inv_mono hQ h

theorem ends_any (p : Prog σ κ ε α) (s : σ) : p.ends (fun _ _ => True) s := by
  induction p generalizing s with
  | ret a => trivial
  | raise e => trivial
  | io f mid errs k ih => exact ⟨⟨trivial, ih _ _⟩, fun _ _ _ _ => ⟨trivial, ih _ _⟩⟩
  | acquire l errs k ih => exact ⟨trivial, ih _ _, fun _ _ => ih _ _⟩
  | release l k ih => exact ⟨trivial, ih _⟩

theorem ends_pure {a : α} (h : Q a s) : (pure a : Prog σ κ ε α).ends Q s := h

theorem ends_throw (e : ε) : (throw e : Prog σ κ ε α).ends Q s := inv_raise trivial

theorem ends_ofExcept {r : Except ε α} (h : ∀ a, r = .ok a → Q a s) : (ofExcept r : Prog σ κ ε α).ends Q s :=
  inv_ofExcept trivial h

theorem ends_ite {c : Prop} {_ : Decidable c} {p p' : Prog σ κ ε α} (h : c → p.ends Q s) (h' : ¬c → p'.ends Q s) :
    (if c then p else p').ends Q s :=
  inv_ite h h'

theorem ends_bind {p : Prog σ κ ε α} {g : α → Prog σ κ ε β} {Q : β → σ → Prop}
    (h : p.ends (fun a t => (g a).ends Q t) s) : (p >>= g).ends Q s :=
  inv_bind h

theorem ends_step {f : σ → Except ε α × σ} {mid : σ → List σ} {errs : ε → Bool}
    (h : ∀ a, (f s).1 = .ok a → Q a (f s).2) : (step f mid errs : Prog σ κ ε α).ends Q s :=
  inv_step (fun _ _ => trivial) h

theorem ends_read {errs : ε → Bool} {g : σ → Except ε α} (h : ∀ a, g s = .ok a → Q a s) :
    (read errs g : Prog σ κ ε α).ends Q s :=
  inv_read trivial h

theorem ends_withLock {l : κ} {errs : ε → Bool} {p : Prog σ κ ε α} (h : p.ends Q s) : (withLock l errs p).ends Q s :=
  inv_withLock trivial (inv_mono (fun _ _ h => ⟨trivial, h⟩) h)

theorem ends_tryCatch {p : Prog σ κ ε α} {g : ε → Prog σ κ ε α} (h : p.ends Q s) (hg : ∀ e t, (g e).ends Q t) :
    (tryCatch p g).ends Q s :=
  inv_tryCatch h fun e t _ => hg e t

/-- What follows a program, whether or not it raises. -/
theorem ends_andThen {p : Prog σ κ ε α} {g : Except ε α → Prog σ κ ε β} {P : α → σ → Prop} {Q : β → σ → Prop}
    (h : p.ends P s) (hg : ∀ a t, P a t → (g (.ok a)).ends Q t) (he : ∀ e t, (g (.error e)).ends Q t) :
    (p.andThen g).ends Q s := by
  show (p.andThen g).wpc _ _ s
  rw [wpc_andThen]
  refine wpc_mono (fun _ h => h) (fun r t hr => ?_) h
  cases r with
  | ok a => exact hg a t hr
  | error e => exact he e t

theorem ends_focus {ι κ' : Type} [DecidableEq ι] {h : ι} {lock : κ → κ'} {w : ι → σ} {p : Prog σ κ ε α}
    {Q : α → (ι → σ) → Prop} (hp : p.ends (fun a s => Q a (Function.update w h s)) (w h)) : (focus h lock p).ends Q w :=
  inv_focus hp

end Durable.Prog
