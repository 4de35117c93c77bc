import Kadalu.Calls.Prog

/-!
# What a program asks for

`Asks P Q p` says of a program alone, whatever its requests are answered: all of them satisfy `P`, and its outcome satisfies
`Q`. In a world where such requests keep a property the whole program keeps it (`Asks.wp`).
-/

namespace Calls

open Prog

variable {ρ : Type} {ans : ρ → Type} {σ ε α β : Type} {P : ρ → Prop} {Q Q' : Except ε α → Prop}

/-- Every request of the program satisfies `P`, and its outcome `Q`. -/
def Asks (P : ρ → Prop) (Q : Except ε α → Prop) : Prog ρ ans ε α → Prop
  | ret a => Q (.ok a)
  | raise e => Q (.error e)
  | cut => True
  | call r k => P r ∧ ∀ a, Asks P Q (k a)

theorem Asks.mono {p : Prog ρ ans ε α} (hQ : ∀ r, Q r → Q' r) (h : Asks P Q p) : Asks P Q' p := by
  induction p with
  | ret a => exact hQ _ h
  | raise e => exact hQ _ h
  | cut => trivial
  | call r k ih => exact ⟨h.1, fun a => ih a (h.2 a)⟩

/-- Weaker requirements on the requests. -/
theorem Asks.imp {P' : ρ → Prop} {p : Prog ρ ans ε α} (hP : ∀ r, P r → P' r) (h : Asks P Q p) : Asks P' Q p := by
  induction p with
  | ret a => exact h
  | raise e => exact h
  | cut => trivial
  | call r k ih => exact ⟨hP r h.1, fun a => ih a (h.2 a)⟩

theorem asks_andThen {p : Prog ρ ans ε α} {g : Except ε α → Prog ρ ans ε β} {Q : Except ε β → Prop} :
    Asks P Q (p.andThen g) ↔ Asks P (fun r => Asks P Q (g r)) p := by
  induction p with
  | ret a => exact Iff.rfl
  | raise e => exact Iff.rfl
  | cut => exact Iff.rfl
  | call r k ih => simp only [andThen, Asks, ih]

/-! ## Rules -/

theorem asks_pure {a : α} (h : Q (.ok a)) : Asks P Q (pure a : Prog ρ ans ε α) := h

theorem asks_throw {e : ε} (h : Q (.error e)) : Asks P Q (throw e : Prog ρ ans ε α) := h

theorem asks_ofExcept {r : Except ε α} (h : Q r) : Asks P Q (Prog.ofExcept r : Prog ρ ans ε α) := by
  cases r <;> exact h

theorem asks_request {r : ρ} {Q : Except ε (ans r) → Prop} (hr : P r) (hQ : ∀ a, Q a) :
    Asks P Q (request r : Prog ρ ans ε (ans r)) := ⟨hr, fun a => asks_ofExcept (hQ a)⟩

theorem asks_bind {p : Prog ρ ans ε α} {g : α → Prog ρ ans ε β} {Q : Except ε β → Prop}
    (hp : Asks P (fun r => ∀ e, r = .error e → Q (.error e)) p) (hg : ∀ a, Asks P Q (g a)) : Asks P Q (p >>= g) := by
  refine asks_andThen.mpr (hp.mono fun r hr => ?_)
  cases r with
  | ok a => exact hg a
  | error e => exact hr e rfl

/-- The rest of a program may rely on the result of its first part. -/
theorem asks_bind_of {p : Prog ρ ans ε α} {g : α → Prog ρ ans ε β} {R : α → Prop} {Q : Except ε β → Prop}
    (hp : Asks P (fun r => (∀ a, r = .ok a → R a) ∧ ∀ e, r = .error e → Q (.error e)) p)
    (hg : ∀ a, R a → Asks P Q (g a)) : Asks P Q (p >>= g) := by
  refine asks_andThen.mpr (hp.mono fun r hr => ?_)
  cases r with
  | ok a => exact hg a (hr.1 a rfl)
  | error e => exact hr.2 e rfl

theorem asks_tryCatch {p : Prog ρ ans ε α} {h : ε → Prog ρ ans ε α} (hp : Asks P (fun r => ∀ a, r = .ok a → Q (.ok a)) p)
    (hh : ∀ e, Asks P Q (h e)) : Asks P Q (tryCatch p h) := by
  refine asks_andThen.mpr (hp.mono fun r hr => ?_)
  cases r with
  | ok a => exact hr a rfl
  | error e => exact hh e

theorem asks_ite {c : Prop} {_ : Decidable c} {p q : Prog ρ ans ε α} (hp : c → Asks P Q p) (hq : ¬c → Asks P Q q) :
    Asks P Q (if c then p else q) := by
  split
  · exact hp ‹_›
  · exact hq ‹_›

theorem asks_expand {ρ' : Type} {ans' : ρ' → Type} {P' : ρ' → Prop} {f : (r : ρ) → Prog ρ' ans' ε (ans r)}
    (hf : ∀ r, P r → Asks P' (fun _ => True) (f r)) {p : Prog ρ ans ε α} (h : Asks P Q p) : Asks P' Q (p.expand f) := by
  induction p with
  | ret a => exact h
  | raise e => exact h
  | cut => trivial
  | call r k ih => exact asks_andThen.mpr ((hf r h.1).mono fun a _ => ih a (h.2 a))

/-- Every request of the program satisfies `P`, whatever its outcome is. -/
abbrev Only (P : ρ → Prop) (p : Prog ρ ans ε α) : Prop := Asks P (fun _ => True) p

/-- Nothing is known of a program that may ask for anything. -/
theorem only_any (hP : ∀ r, P r) (p : Prog ρ ans ε α) : Only P p := by
  induction p with
  | ret a => trivial
  | raise e => trivial
  | cut => trivial
  | call r k ih => exact ⟨hP r, ih⟩

/-- The rest of a program decides its outcome, unless there is an exception before. -/
theorem asks_any_bind {p : Prog ρ ans ε α} {g : α → Prog ρ ans ε β} {Q : Except ε β → Prop} (hP : ∀ r, P r)
    (hQ : ∀ e, Q (.error e)) (hg : ∀ a, Asks P Q (g a)) : Asks P Q (p >>= g) :=
  asks_bind ((only_any hP p).mono fun _ _ e _ => hQ e) hg

theorem only_pure (a : α) : Only P (pure a : Prog ρ ans ε α) := trivial

theorem only_cut : Only P (.cut : Prog ρ ans ε α) := trivial

theorem only_throw (e : ε) : Only P (throw e : Prog ρ ans ε α) := trivial

theorem only_ofExcept (r : Except ε α) : Only P (Prog.ofExcept r : Prog ρ ans ε α) := asks_ofExcept trivial

theorem only_request {r : ρ} (hr : P r) : Only P (request r : Prog ρ ans ε (ans r)) := asks_request hr fun _ => trivial

theorem only_bind {p : Prog ρ ans ε α} {g : α → Prog ρ ans ε β} (hp : Only P p) (hg : ∀ a, Only P (g a)) :
    Only P (p >>= g) := asks_bind (hp.mono fun _ _ _ _ => trivial) hg

theorem only_map {p : Prog ρ ans ε α} (f : α → β) (hp : Only P p) : Only P (f <$> p) := only_bind hp fun _ => only_pure _

theorem only_tryCatch {p : Prog ρ ans ε α} {h : ε → Prog ρ ans ε α} (hp : Only P p) (hh : ∀ e, Only P (h e)) :
    Only P (tryCatch p h) := asks_tryCatch (hp.mono fun _ _ _ _ => trivial) hh

/-! ## In a world -/

/-- What the requests of a program keep, the program keeps. -/
theorem Asks.wp {sem : (r : ρ) → σ → Except ε (ans r) → σ → Prop} {C I : σ → Prop} {p : Prog ρ ans ε α}
    (hstep : ∀ r, P r → ∀ s a s', I s → sem r s a s' → C s' ∧ I s') (h : Asks P Q p) {s : σ} (hs : I s) :
    wp sem C (fun r t => I t ∧ Q r) p s := by
  induction p generalizing s with
  | ret a => exact ⟨hs, h⟩
  | raise e => exact ⟨hs, h⟩
  | cut => trivial
  | call r k ih => exact fun a s' hsem => ⟨(hstep r h.1 s a s' hs hsem).1, ih a (h.2 a) (hstep r h.1 s a s' hs hsem).2⟩

/-- What is known of the outcome of a program holds in every world. -/
theorem Asks.wp_and {sem : (r : ρ) → σ → Except ε (ans r) → σ → Prop} {C : σ → Prop} {R : Except ε α → σ → Prop}
    {p : Prog ρ ans ε α} {s : σ} (h : Asks P Q p) (h' : Calls.wp sem C R p s) : Calls.wp sem C (fun r t => R r t ∧ Q r) p s := by
  induction p generalizing s with
  | ret a => exact ⟨h', h⟩
  | raise e => exact ⟨h', h⟩
  | cut => trivial
  | call r k ih => exact fun a t hat => ⟨(h' a t hat).1, ih a (h.2 a) (h' a t hat).2⟩

end Calls
