import Mathlib.Logic.Basic

/-!
# Programs that call their environment

A program sends requests and continues with their answers; a request may also raise. What a request does to the world is a
relation `sem r s a s'`: from `s` it may answer `a` and leave `s'`, with whatever others do around it. A loop that is still
running when its fuel ends is `cut`: the run is a prefix of a longer one.

* `Exec sem p s p' s'`: a part of a run of `p`.
* `wp sem C Q p s`: after every request the condition `C` holds, and the program ends in `Q`; `wp_exec` is its soundness.
* `expand`: every request is answered by a program of its own.
* `History`: the world that only remembers the requests and their answers.
* `Emits A P p`: the events of `p` all satisfy `A`, and together with its end they satisfy `P`.
-/

namespace Calls

variable {ρ : Type} {ans : ρ → Type} {σ ε α β : Type}

/-- A program with requests `ρ`, answers `ans`, exceptions `ε` and result `α`. -/
inductive Prog (ρ : Type) (ans : ρ → Type) (ε α : Type) where
  | ret (a : α)
  | raise (e : ε)
  | cut
  | call (r : ρ) (k : Except ε (ans r) → Prog ρ ans ε α)

namespace Prog

/-- Continue with what the program ended with, a result or an exception. -/
def andThen : Prog ρ ans ε α → (Except ε α → Prog ρ ans ε β) → Prog ρ ans ε β
  | ret a, g => g (.ok a)
  | raise e, g => g (.error e)
  | cut, _ => cut
  | call r k, g => call r fun a => (k a).andThen g

/-- An exception skips the rest of the program. -/
def onOk (g : α → Prog ρ ans ε β) : Except ε α → Prog ρ ans ε β
  | .ok a => g a
  | .error e => raise e

instance : Monad (Prog ρ ans ε) where
  pure := ret
  bind p g := p.andThen (onOk g)

instance : MonadExcept ε (Prog ρ ans ε) where
  throw := raise
  tryCatch p h := p.andThen fun
    | .ok a => ret a
    | .error e => h e

/-- The result of a pure computation that may raise. -/
def ofExcept : Except ε α → Prog ρ ans ε α
  | .ok a => ret a
  | .error e => raise e

/-- One request. -/
def request (r : ρ) : Prog ρ ans ε (ans r) := call r ofExcept

/-- A body with a last part that runs however it ends; an exception of the last part replaces its outcome. -/
def finally' (body : Prog ρ ans ε α) (last : Prog ρ ans ε Unit) : Prog ρ ans ε α :=
  body.andThen fun r => last.andThen (onOk fun _ => ofExcept r)

/-- The program in which every request is answered by a program for it. -/
def expand {ρ' : Type} {ans' : ρ' → Type} (f : (r : ρ) → Prog ρ' ans' ε (ans r)) : Prog ρ ans ε α → Prog ρ' ans' ε α
  | ret a => ret a
  | raise e => raise e
  | cut => cut
  | call r k => (f r).andThen fun a => (k a).expand f

end Prog

open Prog

/-! ## Runs -/

/-- A part of a run: requests that were answered, one after the other. -/
inductive Exec (sem : (r : ρ) → σ → Except ε (ans r) → σ → Prop) :
    Prog ρ ans ε α → σ → Prog ρ ans ε α → σ → Prop
  | nil {p s} : Exec sem p s p s
  | cons {r k p' s s' s''} {a : Except ε (ans r)} (h : sem r s a s') (hk : Exec sem (k a) s' p' s'') :
    Exec sem (call r k) s p' s''

variable {sem : (r : ρ) → σ → Except ε (ans r) → σ → Prop} {C : σ → Prop} {Q Q' : Except ε α → σ → Prop} {s s' : σ}

/-- After every request `C` holds, and the program ends in `Q`. -/
def wp (sem : (r : ρ) → σ → Except ε (ans r) → σ → Prop) (C : σ → Prop) (Q : Except ε α → σ → Prop) :
    Prog ρ ans ε α → σ → Prop
  | ret a, s => Q (.ok a) s
  | raise e, s => Q (.error e) s
  | cut, _ => True
  | call r k, s => ∀ a s', sem r s a s' → C s' ∧ wp sem C Q (k a) s'

theorem wp_mono {p : Prog ρ ans ε α} (hQ : ∀ r t, Q r t → Q' r t) (h : wp sem C Q p s) : wp sem C Q' p s := by
  induction p generalizing s with
  | ret a => exact hQ _ _ h
  | raise e => exact hQ _ _ h
  | cut => trivial
  | call r k ih => exact fun a s' hs => ⟨(h a s' hs).1, ih a (h a s' hs).2⟩

theorem wp_andThen {p : Prog ρ ans ε α} {g : Except ε α → Prog ρ ans ε β} {Q : Except ε β → σ → Prop} :
    wp sem C Q (p.andThen g) s ↔ wp sem C (fun r t => wp sem C Q (g r) t) p s := by
  induction p generalizing s with
  | ret a => exact Iff.rfl
  | raise e => exact Iff.rfl
  | cut => exact Iff.rfl
  | call r k ih => simp only [andThen, wp, ih]

theorem wp_and {p : Prog ρ ans ε α} (h : wp sem C Q p s) (h' : wp sem C Q' p s) : wp sem C (fun r t => Q r t ∧ Q' r t) p s := by
  induction p generalizing s with
  | ret a => exact ⟨h, h'⟩
  | raise e => exact ⟨h, h'⟩
  | cut => trivial
  | call r k ih => exact fun a t hat => ⟨(h a t hat).1, ih a (h a t hat).2 (h' a t hat).2⟩

/-- **Soundness.** Along a run the condition holds, and the rest of the program keeps its contract. -/
theorem wp_exec {p p' : Prog ρ ans ε α} (hC : C s) (h : wp sem C Q p s) (hr : Exec sem p s p' s') :
    C s' ∧ wp sem C Q p' s' := by
  induction hr with
  | nil => exact ⟨hC, h⟩
  | cons hs _ ih => exact ih (h _ _ hs).1 (h _ _ hs).2

/-! ## Answers as a function -/

/-- What a program ended with, if it did. -/
def Prog.ended : Prog ρ ans ε α → Option (Except ε α)
  | ret a => some (.ok a)
  | raise e => some (.error e)
  | _ => none

theorem Prog.eq_ret {p : Prog ρ ans ε α} {a : α} (h : p.ended = some (.ok a)) : p = ret a := by
  cases p with
  | ret b => cases h; rfl
  | raise e => cases h
  | cut => cases h
  | call r k => cases h

/-- The first `n` requests of a run in which the requests are answered by a function. -/
def replay (answer : (r : ρ) → σ → Except ε (ans r) × σ) : Nat → Prog ρ ans ε α → σ → Prog ρ ans ε α × σ
  | n + 1, call r k, s => replay answer n (k (answer r s).1) (answer r s).2
  | _, p, s => (p, s)

/-- Such a run is one if the answers are possible. -/
theorem exec_replay {answer : (r : ρ) → σ → Except ε (ans r) × σ}
    (h : ∀ r s, sem r s (answer r s).1 (answer r s).2) (n : Nat) (p : Prog ρ ans ε α) (s : σ) :
    Exec sem p s (replay answer n p s).1 (replay answer n p s).2 := by
  induction n generalizing p s with
  | zero => exact .nil
  | succ n ih =>
    cases p with
    | call r k => exact .cons (h r s) (ih _ _)
    | ret a => exact .nil
    | raise e => exact .nil
    | cut => exact .nil

/-! ## Rules -/

theorem wp_pure {a : α} (h : Q (.ok a) s) : wp sem C Q (pure a : Prog ρ ans ε α) s := h

theorem wp_throw {e : ε} (h : Q (.error e) s) : wp sem C Q (throw e : Prog ρ ans ε α) s := h

theorem wp_ofExcept {r : Except ε α} : wp sem C Q (Prog.ofExcept r : Prog ρ ans ε α) s ↔ Q r s := by
  cases r <;> exact Iff.rfl

theorem wp_bind {p : Prog ρ ans ε α} {g : α → Prog ρ ans ε β} {Q : Except ε β → σ → Prop}
    (h : wp sem C (fun r t => match r with
      | .ok a => wp sem C Q (g a) t
      | .error e => Q (.error e) t) p s) : wp sem C Q (p >>= g) s := by
  show wp sem C Q (p.andThen (onOk g)) s
  refine wp_andThen.mpr (wp_mono (fun r t ht => ?_) h)
  cases r <;> exact ht

theorem wp_request {r : ρ} {Q : Except ε (ans r) → σ → Prop} (h : ∀ a s', sem r s a s' → C s' ∧ Q a s') :
    wp sem C Q (request r : Prog ρ ans ε (ans r)) s :=
  fun a s' hs => ⟨(h a s' hs).1, wp_ofExcept.mpr (h a s' hs).2⟩

theorem wp_tryCatch {p : Prog ρ ans ε α} {g : ε → Prog ρ ans ε α}
    (h : wp sem C (fun r t => match r with
      | .ok a => Q (.ok a) t
      | .error e => wp sem C Q (g e) t) p s) : wp sem C Q (tryCatch p g) s := by
  show wp sem C Q (p.andThen _) s
  refine wp_andThen.mpr (wp_mono (fun r t ht => ?_) h)
  cases r <;> exact ht

theorem wp_ite {c : Prop} {_ : Decidable c} {p q : Prog ρ ans ε α} (hp : c → wp sem C Q p s)
    (hq : ¬c → wp sem C Q q s) : wp sem C Q (if c then p else q) s := by
  split
  · exact hp ‹_›
  · exact hq ‹_›

/-- **Refinement.** If the programs for the requests do no more than the requests may, neither does the whole. -/
theorem wp_expand {ρ' : Type} {ans' : ρ' → Type} {sem' : (r : ρ') → σ → Except ε (ans' r) → σ → Prop} {C' : σ → Prop}
    {f : (r : ρ) → Prog ρ' ans' ε (ans r)} (hf : ∀ r s, wp sem' C' (sem r s) (f r) s) {p : Prog ρ ans ε α}
    (h : wp sem C Q p s) : wp sem' C' Q (p.expand f) s := by
  induction p generalizing s with
  | ret a => exact h
  | raise e => exact h
  | cut => trivial
  | call r k ih => exact wp_andThen.mpr (wp_mono (fun a t hat => ih a (h a t hat).2) (hf r s))

/-- The same, where what holds after a request is known to hold after its program. -/
theorem wp_expand_of {ρ' : Type} {ans' : ρ' → Type} {sem' : (r : ρ') → σ → Except ε (ans' r) → σ → Prop} {C' : σ → Prop}
    {f : (r : ρ) → Prog ρ' ans' ε (ans r)}
    (hf : ∀ r s, (∀ a s', sem r s a s' → C s') → wp sem' C' (sem r s) (f r) s) {p : Prog ρ ans ε α}
    (h : wp sem C Q p s) : wp sem' C' Q (p.expand f) s := by
  induction p generalizing s with
  | ret a => exact h
  | raise e => exact h
  | cut => trivial
  | call r k ih =>
    exact wp_andThen.mpr (wp_mono (fun a t hat => ih a (h a t hat).2) (hf r s fun a t hat => (h a t hat).1))

/-! ## Histories -/

/-- A request with its answer. -/
abbrev Event (ρ : Type) (ans : ρ → Type) (ε : Type) := Sigma fun r : ρ => Except ε (ans r)

/-- The events of a run so far, the newest first. -/
abbrev History (ρ : Type) (ans : ρ → Type) (ε : Type) := List (Event ρ ans ε)

/-- Any answer is possible, and everything is remembered. -/
def remember (r : ρ) (h : History ρ ans ε) (a : Except ε (ans r)) (h' : History ρ ans ε) : Prop := h' = ⟨r, a⟩ :: h

/-- The program can ask these requests in this order and be answered so. -/
def follows [DecidableEq ρ] : Prog ρ ans ε α → List (Event ρ ans ε) → Bool
  | _, [] => true
  | call r k, ⟨r', a⟩ :: es => if h : r' = r then follows (k (h ▸ a)) es else false
  | _, _ :: _ => false

theorem exec_follows [DecidableEq ρ] {p : Prog ρ ans ε α} {es : List (Event ρ ans ε)} (hf : follows p es = true)
    (h : History ρ ans ε) : ∃ p', Exec remember p h p' (es.reverse ++ h) := by
  induction es generalizing p h with
  | nil => exact ⟨p, .nil⟩
  | cons e es ih =>
    obtain ⟨r', a⟩ := e
    cases p with
    | call r k =>
      simp only [follows] at hf
      split at hf
      · next heq =>
        cases heq
        obtain ⟨p', hp'⟩ := ih hf (⟨r', a⟩ :: h)
        refine ⟨p', .cons (a := a) rfl ?_⟩
        simpa using hp'
      · cases hf
    | ret a => cases hf
    | raise e => cases hf
    | cut => cases hf

variable {h : History ρ ans ε} {C : History ρ ans ε → Prop} {A B : Event ρ ans ε → Prop}

theorem wp_remember {r : ρ} {Q : Except ε (ans r) → History ρ ans ε → Prop} (hC : ∀ a, C (⟨r, a⟩ :: h))
    (hQ : ∀ a, Q a (⟨r, a⟩ :: h)) : wp remember C Q (request r : Prog ρ ans ε (ans r)) h := by
  refine wp_request fun a h' hs => ?_
  cases hs
  exact ⟨hC a, hQ a⟩

theorem keeps_events {es : History ρ ans ε} (hstep : ∀ e h, A e → C h → C (e :: h)) (hes : ∀ e ∈ es, A e) (hC : C h) :
    C (es ++ h) := by
  induction es with
  | nil => exact hC
  | cons e es ih => exact hstep e _ (hes e (by simp)) (ih fun e he => hes e (by simp [he]))

/-- Every event of `p` satisfies `A`, and when `p` ends its events satisfy `P` with its outcome. -/
def Emits (A : Event ρ ans ε → Prop) (P : Except ε α → History ρ ans ε → Prop) (p : Prog ρ ans ε α) : Prop :=
  ∀ (C : History ρ ans ε → Prop) (h : History ρ ans ε), C h → (∀ e h, A e → C h → C (e :: h)) →
    wp remember C (fun r h' => ∃ es, h' = es ++ h ∧ (∀ e ∈ es, A e) ∧ P r es) p h

variable {P P' : Except ε α → History ρ ans ε → Prop} {p : Prog ρ ans ε α}

theorem emits_pure {a : α} (h : P (.ok a) []) : Emits A P (pure a : Prog ρ ans ε α) :=
  fun _ _ _ _ => ⟨[], rfl, by simp, h⟩

theorem emits_throw {e : ε} (h : P (.error e) []) : Emits A P (throw e : Prog ρ ans ε α) :=
  fun _ _ _ _ => ⟨[], rfl, by simp, h⟩

theorem emits_cut : Emits A P (.cut : Prog ρ ans ε α) := fun _ _ _ _ => trivial

theorem emits_request {r : ρ} {P : Except ε (ans r) → History ρ ans ε → Prop} (hA : ∀ a, A ⟨r, a⟩)
    (hP : ∀ a, P a [⟨r, a⟩]) : Emits A P (request r : Prog ρ ans ε (ans r)) :=
  fun _ h hC hstep => wp_remember (fun a => hstep _ h (hA a) hC) fun a =>
    ⟨[⟨r, a⟩], rfl, by simpa using hA a, hP a⟩

theorem emits_mono (hAB : ∀ e, A e → B e) (hP : ∀ r es, P r es → P' r es) (hp : Emits A P p) : Emits B P' p := by
  intro C h hC hstep
  refine wp_mono ?_ (hp C h hC fun e h he => hstep e h (hAB e he))
  rintro r t ⟨es, rfl, hes, hr⟩
  exact ⟨es, rfl, fun e he => hAB e (hes e he), hP r es hr⟩

theorem emits_andThen {g : Except ε α → Prog ρ ans ε β} {Q : Except ε β → History ρ ans ε → Prop} (hp : Emits A P p)
    (hg : ∀ r es, P r es → Emits A (fun b es' => Q b (es' ++ es)) (g r)) : Emits A Q (p.andThen g) := by
  intro C h hC hstep
  -- the condition is carried through the first part, so that the second starts from it
  have hcarry : wp remember C (fun r h' => C h' ∧ ∃ es, h' = es ++ h ∧ (∀ e ∈ es, A e) ∧ P r es) p h := by
    refine wp_mono ?_ (hp C h hC hstep)
    rintro r t ⟨es, rfl, hes, hr⟩
    exact ⟨keeps_events hstep hes hC, es, rfl, hes, hr⟩
  refine wp_andThen.mpr (wp_mono ?_ hcarry)
  rintro r t ⟨hCt, es, rfl, hes, hr⟩
  refine wp_mono ?_ (hg r es hr C (es ++ h) hCt hstep)
  rintro b t ⟨es', rfl, hes', hb⟩
  refine ⟨es' ++ es, by simp, fun e he => ?_, hb⟩
  exact (List.mem_append.mp he).elim (hes' e) (hes e)

theorem emits_bind {g : α → Prog ρ ans ε β} {Q : Except ε β → History ρ ans ε → Prop} (hp : Emits A P p)
    (hg : ∀ a es, P (.ok a) es → Emits A (fun b es' => Q b (es' ++ es)) (g a))
    (he : ∀ e es, P (.error e) es → Q (.error e) es) : Emits A Q (p >>= g) := by
  refine emits_andThen hp fun r es hr => ?_
  cases r with
  | ok a => exact hg a es hr
  | error e => exact emits_throw (by simpa using he e es hr)

theorem emits_tryCatch {g : ε → Prog ρ ans ε α} {Q : Except ε α → History ρ ans ε → Prop} (hp : Emits A P p)
    (ha : ∀ a es, P (.ok a) es → Q (.ok a) es)
    (hg : ∀ e es, P (.error e) es → Emits A (fun b es' => Q b (es' ++ es)) (g e)) : Emits A Q (tryCatch p g) := by
  refine emits_andThen hp fun r es hr => ?_
  cases r with
  | ok a => exact emits_pure (by simpa using ha a es hr)
  | error e => exact hg e es hr

/-- What a program is known to bring is also there together with what came before. -/
theorem emits_found {K : Event ρ ans ε → Prop} {x : Except ε α}
    (hp : Emits A (fun r es => r = x → ∃ e ∈ es, K e) p) (before : History ρ ans ε) :
    Emits A (fun r es => r = x → ∃ e ∈ es ++ before, K e) p := by
  refine emits_mono (fun _ h => h) ?_ hp
  intro r es h hr
  obtain ⟨e, he, hK⟩ := h hr
  exact ⟨e, List.mem_append_left _ he, hK⟩

/-- A program with a known emission, inside a longer run. -/
theorem Emits.wp {Q : Except ε α → History ρ ans ε → Prop} (hp : Emits A P p) (hC : C h)
    (hstep : ∀ e h, A e → C h → C (e :: h)) (hQ : ∀ r es, (∀ e ∈ es, A e) → P r es → C (es ++ h) → Q r (es ++ h)) :
    wp remember C Q p h := by
  refine wp_mono ?_ (hp C h hC hstep)
  rintro r t ⟨es, rfl, hes, hr⟩
  exact hQ r es hes hr (keeps_events hstep hes hC)

end Calls
