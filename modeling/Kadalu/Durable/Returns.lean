import Kadalu.Durable.Focus

/-!
# What a program returns next to others

`Among p p'`: a run of `p` that has come to `p'` while others changed the store between its steps in any way. `Returns P p`
says that every result of such a run satisfies `P`. The rules follow the constructs of `Prog.lean`; `returns_among` is their
soundness.
-/

namespace Durable.Prog

variable {σ κ ε α β : Type} {P P' : α → Prop}

/-- A run that others interrupt between any two of its steps. -/
inductive Among : Prog σ κ ε α → Prog σ κ ε α → Prop
  | nil {p} : Among p p
  | cons {p p' p'' : Prog σ κ ε α} {i : Outcome ε} {s s' : σ} (hn : p.next i s = some (p', s')) (h : Among p' p'') : Among p p''

/-- The result satisfies `P`, whatever store each step finds. -/
def Returns (P : α → Prop) : Prog σ κ ε α → Prop
  | ret a => P a
  | raise _ => True
  | io f _ errs k => (∀ s, (k (f s).1).Returns P) ∧ ∀ e, errs e = true → (k (.error e)).Returns P
  | acquire _ errs k => (k (.ok ())).Returns P ∧ ∀ e, errs e = true → (k (.error e)).Returns P
  | release _ k => k.Returns P

theorem Returns.next {p p' : Prog σ κ ε α} {i : Outcome ε} {s s' : σ} (h : p.Returns P) (hn : p.next i s = some (p', s')) :
    p'.Returns P := by
  cases p with
  | ret a => cases hn
  | raise e => cases hn
  | io f mid errs k =>
    cases i with
    | ok => cases hn; exact h.1 s
    | fault e n =>
      simp only [Prog.next] at hn
      split at hn
      · rename_i he
        obtain ⟨t, -, hp⟩ := Option.map_eq_some_iff.mp hn
        cases hp
        exact h.2 e he
      · cases hn
  | acquire l errs k =>
    cases i with
    | ok => cases hn; exact h.1
    | fault e n =>
      simp only [Prog.next] at hn
      split at hn
      · rename_i he
        cases hn
        exact h.2 e he
      · cases hn
  | release l k =>
    cases i with
    | ok => cases hn; exact h
    | fault e n => cases hn

/-- **Soundness.** -/
theorem returns_among {p p' : Prog σ κ ε α} (h : p.Returns P) (hr : Among p p') : p'.Returns P := by
  induction hr with
  | nil => exact h
  | cons hn _ ih => exact ih (h.next hn)

/-- A run alone is one of these runs. -/
theorem among_of_reaches {p p' : Prog σ κ ε α} {s s' : σ} (h : p.Reaches s p' s') : Among p p' := by
  obtain ⟨is, h⟩ := h
  induction is generalizing p s with
  | nil =>
    cases h
    exact .nil
  | cons i is ih =>
    obtain ⟨x, hn, hx⟩ := Option.bind_eq_some_iff.mp h
    exact .cons hn (ih hx)

/-! ## Rules -/

theorem returns_any (p : Prog σ κ ε α) : p.Returns fun _ => True := by
  induction p with
  | ret a => trivial
  | raise e => trivial
  | io f mid errs k ih => exact ⟨fun s => ih _, fun e _ => ih _⟩
  | acquire l errs k ih => exact ⟨ih _, fun e _ => ih _⟩
  | release l k ih => exact ih

theorem returns_andThen {p : Prog σ κ ε α} {g : Except ε α → Prog σ κ ε β} {Q : β → Prop} (hp : p.Returns P)
    (hg : ∀ a, P a → (g (.ok a)).Returns Q) (he : ∀ e, (g (.error e)).Returns Q) : (p.andThen g).Returns Q := by
  induction p with
  | ret a => exact hg a hp
  | raise e => exact he e
  | io f mid errs k ih => exact ⟨fun s => ih _ (hp.1 s), fun e h => ih _ (hp.2 e h)⟩
  | acquire l errs k ih => exact ⟨ih _ hp.1, fun e h => ih _ (hp.2 e h)⟩
  | release l k ih => exact ih hp

theorem returns_bind {p : Prog σ κ ε α} {g : α → Prog σ κ ε β} {Q : β → Prop} (hp : p.Returns P)
    (hg : ∀ a, P a → (g a).Returns Q) : (p >>= g).Returns Q :=
  returns_andThen hp hg fun _ => trivial

theorem returns_pure {a : α} (h : P a) : (pure a : Prog σ κ ε α).Returns P := h

theorem returns_throw (e : ε) : (throw e : Prog σ κ ε α).Returns P := trivial

theorem returns_ofExcept {r : Except ε α} (h : ∀ a, r = .ok a → P a) : (ofExcept r : Prog σ κ ε α).Returns P := by
  cases r with
  | ok a => exact h a rfl
  | error e => trivial

theorem returns_step {f : σ → Except ε α × σ} {mid : σ → List σ} {errs : ε → Bool} (h : ∀ s a, (f s).1 = .ok a → P a) :
    (step f mid errs : Prog σ κ ε α).Returns P :=
  ⟨fun s => returns_ofExcept (h s), fun _ _ => trivial⟩

theorem returns_read {errs : ε → Bool} {g : σ → Except ε α} (h : ∀ s a, g s = .ok a → P a) :
    (read errs g : Prog σ κ ε α).Returns P :=
  returns_step h

theorem returns_tryCatch {p : Prog σ κ ε α} {g : ε → Prog σ κ ε α} (hp : p.Returns P) (hg : ∀ e, (g e).Returns P) :
    (tryCatch p g).Returns P :=
  returns_andThen hp (fun _ h => h) hg

theorem returns_withLock {l : κ} {errs : ε → Bool} {p : Prog σ κ ε α} (h : p.Returns P) : (withLock l errs p).Returns P :=
  ⟨returns_andThen h (fun _ ha => ha) fun _ => trivial, fun _ _ => trivial⟩

theorem returns_ite {c : Prop} {_ : Decidable c} {p q : Prog σ κ ε α} (hp : c → p.Returns P) (hq : ¬c → q.Returns P) :
    (if c then p else q).Returns P := by
  split
  · exact hp ‹_›
  · exact hq ‹_›

theorem returns_focus {ι κ' : Type} [DecidableEq ι] {h : ι} {lock : κ → κ'} {p : Prog σ κ ε α} (hp : p.Returns P) :
    (focus h lock p).Returns P := by
  induction p with
  | ret a => exact hp
  | raise e => trivial
  | io f mid errs k ih => exact ⟨fun w => ih _ (hp.1 (w h)), fun e he => ih _ (hp.2 e he)⟩
  | acquire l errs k ih => exact ⟨ih _ hp.1, fun e he => ih _ (hp.2 e he)⟩
  | release l k ih => exact ih hp

end Durable.Prog
