import Kadalu.Durable.Interleave

/-!
# Programs on a larger store

A store may be part of a larger one, read by `get` and replaced by `put`; `via get put p` runs `p` there. `Simulates get p q`:
each run of `p` is, on the part, a run of `q` that ends as it does.

* `simulates_via`: `via get put p` simulates `p`.
* `simulates_bind`, `simulates_ite`: simulation is kept by the constructs of programs.
* `simulates_before`: steps that leave the part alone may come before a program that can fail as they do.
-/

namespace Durable.Prog

variable {σ τ κ ε α β : Type} {get : τ → σ} {put : τ → σ → τ}

/-- `p` on a part of the store. -/
def via (get : τ → σ) (put : τ → σ → τ) : Prog σ κ ε α → Prog τ κ ε α
  | ret a => ret a
  | raise e => raise e
  | io f mid errs k =>
    io (fun t => ((f (get t)).1, put t (f (get t)).2)) (fun t => (mid (get t)).map (put t)) errs fun r => (k r).via get put
  | acquire l errs k => acquire l errs fun r => (k r).via get put
  | release l k => release l (k.via get put)

/-- The program has ended. -/
def IsEnd : Prog σ κ ε α → Prop
  | ret _ | raise _ => True
  | _ => False

/-- A program that has ended as another one has, if that has. -/
def EndsAs : Prog τ κ ε α → Prog σ κ ε α → Prop
  | ret a, q => q = ret a
  | raise e, q => q = raise e
  | _, _ => True

/-- Every run of `p` is a run of `q` on the part. -/
def Simulates (get : τ → σ) (p : Prog τ κ ε α) (q : Prog σ κ ε α) : Prop :=
  ∀ t p' t', p.Reaches t p' t' → ∃ q', q.Reaches (get t) q' (get t') ∧ p'.EndsAs q'

theorem EndsAs.of_not_isEnd {p : Prog τ κ ε α} {q : Prog σ κ ε α} (h : ¬p.IsEnd) : p.EndsAs q := by
  cases p with
  | ret a => exact absurd trivial h
  | raise e => exact absurd trivial h
  | io f mid errs k => trivial
  | acquire l errs k => trivial
  | release l k => trivial

theorem endsAs_ofExcept (r : Except ε α) : (ofExcept r : Prog τ κ ε α).EndsAs (ofExcept r : Prog σ κ ε α) := by
  cases r with
  | ok a => rfl
  | error e => rfl

theorem endsAs_via (p : Prog σ κ ε α) : (p.via get put).EndsAs p := by
  cases p with
  | ret a => rfl
  | raise e => rfl
  | io f mid errs k => trivial
  | acquire l errs k => trivial
  | release l k => trivial

/-! ## Runs of sequences -/

theorem Reaches.refl (p : Prog σ κ ε α) (s : σ) : p.Reaches s p s := ⟨[], rfl⟩

theorem Reaches.cons {p p' p'' : Prog σ κ ε α} {s t u : σ} {i : Outcome ε} (hn : p.next i s = some (p', t))
    (h : p'.Reaches t p'' u) : p.Reaches s p'' u := by
  obtain ⟨is, h⟩ := h
  exact ⟨i :: is, by rw [exec, hn]; exact h⟩

/-- A program that has not ended takes its steps also when another one follows it. -/
theorem next_andThen {p : Prog σ κ ε α} (g : Except ε α → Prog σ κ ε β) (h : ¬p.IsEnd) (i : Outcome ε) (s : σ) :
    (p.andThen g).next i s = (p.next i s).map fun x => (x.1.andThen g, x.2) := by
  cases p with
  | ret a => exact absurd trivial h
  | raise e => exact absurd trivial h
  | io f mid errs k =>
    cases i with
    | ok => rfl
    | fault e n =>
      simp only [andThen, next]
      split
      · rw [Option.map_map]
        rfl
      · rfl
  | acquire l errs k =>
    cases i with
    | ok => rfl
    | fault e n =>
      simp only [andThen, next]
      split
      · rfl
      · rfl
  | release l k => cases i <;> rfl

theorem Reaches.andThen {p p' : Prog σ κ ε α} {s s' : σ} (g : Except ε α → Prog σ κ ε β) (h : p.Reaches s p' s') :
    (p.andThen g).Reaches s (p'.andThen g) s' := by
  obtain ⟨is, h⟩ := h
  induction is generalizing p s with
  | nil =>
    cases h
    exact .refl _ _
  | cons i is ih =>
    obtain ⟨⟨q, t⟩, hn, hrest⟩ := Option.bind_eq_some_iff.mp h
    have hend : ¬p.IsEnd := by
      intro hend
      cases p with
      | ret a => cases hn
      | raise e => cases hn
      | io f mid errs k => exact hend
      | acquire l errs k => exact hend
      | release l k => exact hend
    exact .cons (by rw [next_andThen g hend, hn]; rfl) (ih hrest)

/-- A run of a sequence is in its first part, or has left it. -/
theorem reaches_andThen {p : Prog σ κ ε α} {g : Except ε α → Prog σ κ ε β} {x : Prog σ κ ε β} {s s' : σ}
    (h : (p.andThen g).Reaches s x s') : (∃ p', p.Reaches s p' s' ∧ ¬x.IsEnd) ∨
      ∃ r s₁, p.Reaches s (ofExcept r) s₁ ∧ (g r).Reaches s₁ x s' := by
  obtain ⟨is, h⟩ := h
  induction is generalizing p s with
  | nil =>
    cases p with
    | ret a => exact .inr ⟨.ok a, s, .refl _ _, [], h⟩
    | raise e => exact .inr ⟨.error e, s, .refl _ _, [], h⟩
    | io f mid errs k => cases h; exact .inl ⟨_, .refl _ _, id⟩
    | acquire l errs k => cases h; exact .inl ⟨_, .refl _ _, id⟩
    | release l k => cases h; exact .inl ⟨_, .refl _ _, id⟩
  | cons i is ih =>
    by_cases hend : p.IsEnd
    · cases p with
      | ret a => exact .inr ⟨.ok a, s, .refl _ _, i :: is, h⟩
      | raise e => exact .inr ⟨.error e, s, .refl _ _, i :: is, h⟩
      | io f mid errs k => exact hend.elim
      | acquire l errs k => exact hend.elim
      | release l k => exact hend.elim
    · obtain ⟨⟨q, t⟩, hn, hrest⟩ := Option.bind_eq_some_iff.mp h
      rw [next_andThen g hend] at hn
      obtain ⟨⟨p₁, t₁⟩, hstep, he⟩ := Option.map_eq_some_iff.mp hn
      cases he
      rcases ih hrest with ⟨p', hp', hx⟩ | ⟨r, s₁, hp', hg⟩
      · exact .inl ⟨p', .cons hstep hp', hx⟩
      · exact .inr ⟨r, s₁, .cons hstep hp', hg⟩

/-! ## Rules -/

theorem simulates_ofExcept (r : Except ε α) : Simulates get (ofExcept r : Prog τ κ ε α) (ofExcept r : Prog σ κ ε α) := by
  rintro t p' t' ⟨is, h⟩
  cases is with
  | nil =>
    cases h
    exact ⟨_, .refl _ _, endsAs_ofExcept r⟩
  | cons i is => cases r <;> cases h

theorem simulates_throw (e : ε) : Simulates get (throw e : Prog τ κ ε α) (throw e : Prog σ κ ε α) := simulates_ofExcept (.error e)

theorem next_via (hget : ∀ t s, get (put t s) = s) {p : Prog σ κ ε α} {i : Outcome ε} {t t' : τ} {x : Prog τ κ ε α}
    (h : (p.via get put).next i t = some (x, t')) : ∃ q, p.next i (get t) = some (q, get t') ∧ x = q.via get put := by
  cases p with
  | ret a => cases h
  | raise e => cases h
  | io f mid errs k =>
    cases i with
    | ok =>
      cases h
      exact ⟨_, by rw [hget]; rfl, rfl⟩
    | fault e n =>
      simp only [via, next] at h
      split at h
      · rename_i he
        obtain ⟨u, hu, hx⟩ := Option.map_eq_some_iff.mp h
        cases hx
        refine ⟨k (.error e), ?_, rfl⟩
        simp only [next, he, if_true]
        -- the store as before, as after, or in between
        have hmem : (get t :: (f (get t)).2 :: mid (get t))[n]? = some (get t') := by
          have hmap := congrArg (Option.map get) hu
          rw [← List.getElem?_map] at hmap
          simpa [List.map_map, Function.comp_def, hget] using hmap
        rw [hmem]
        rfl
      · cases h
  | acquire l errs k =>
    cases i with
    | ok =>
      cases h
      exact ⟨_, rfl, rfl⟩
    | fault e n =>
      simp only [via, next] at h
      split at h
      · rename_i he
        cases h
        exact ⟨_, by simp only [next, he, if_true], rfl⟩
      · cases h
  | release l k =>
    cases i with
    | ok =>
      cases h
      exact ⟨_, rfl, rfl⟩
    | fault e n => cases h

/-- **A program on a part does there what it does alone.** -/
theorem simulates_via (hget : ∀ t s, get (put t s) = s) (p : Prog σ κ ε α) : Simulates get (p.via get put) p := by
  rintro t p' t' ⟨is, h⟩
  induction is generalizing p t with
  | nil =>
    cases h
    exact ⟨p, .refl _ _, endsAs_via p⟩
  | cons i is ih =>
    obtain ⟨⟨x, u⟩, hn, hrest⟩ := Option.bind_eq_some_iff.mp h
    obtain ⟨q, hq, rfl⟩ := next_via hget hn
    obtain ⟨q', hq', hend⟩ := ih q u hrest
    exact ⟨q', .cons hq hq', hend⟩

/-- Its steps replace the part. -/
theorem within_via (p : Prog σ κ ε α) : (p.via get put).Within fun t t' => t' = t ∨ ∃ s, t' = put t s := by
  induction p with
  | ret a => trivial
  | raise e => trivial
  | io f mid errs k ih =>
    refine ⟨fun t t' ht' => ?_, fun r => ih r⟩
    simp only [List.mem_cons, List.mem_map] at ht'
    rcases ht' with rfl | rfl | ⟨s, -, rfl⟩
    · exact .inl rfl
    · exact .inr ⟨_, rfl⟩
    · exact .inr ⟨s, rfl⟩
  | acquire l errs k ih => exact fun r => ih r
  | release l k ih => exact ih

theorem simulates_bind {p : Prog τ κ ε α} {q : Prog σ κ ε α} {g : α → Prog τ κ ε β} {h : α → Prog σ κ ε β}
    (hp : Simulates get p q) (hg : ∀ a, Simulates get (g a) (h a)) : Simulates get (p >>= g) (q >>= h) := by
  intro t x t' hx
  rw [bind_eq] at hx ⊢
  rcases reaches_andThen hx with ⟨p', hp', hend⟩ | ⟨r, t₁, hp', hrest⟩
  · obtain ⟨q', hq', -⟩ := hp t p' t' hp'
    exact ⟨q'.andThen (onOk h), hq'.andThen _, .of_not_isEnd hend⟩
  · obtain ⟨q', hq', hend⟩ := hp t _ t₁ hp'
    obtain rfl : q' = ofExcept r := by
      cases r with
      | ok a => exact hend
      | error e => exact hend
    have hrun := hq'.andThen (onOk h)
    cases r with
    | ok a =>
      obtain ⟨y, hy, hends⟩ := hg a t₁ x t' hrest
      exact ⟨y, hrun.trans hy, hends⟩
    | error e =>
      have hthrow : Simulates get (throw e : Prog τ κ ε β) (throw e : Prog σ κ ε β) := simulates_throw e
      obtain ⟨y, hy, hends⟩ := hthrow t₁ x t' hrest
      exact ⟨y, hrun.trans hy, hends⟩

theorem simulates_ite {c : Prop} {_ : Decidable c} {p p' : Prog τ κ ε α} {q q' : Prog σ κ ε α} (h : c → Simulates get p q)
    (h' : ¬c → Simulates get p' q') : Simulates get (if c then p else p') (if c then q else q') := by
  split
  · exact h ‹_›
  · exact h' ‹_›

/-! ## Steps beside the part -/

/-- A program that leaves the part alone, and whose exceptions satisfy `E`. -/
def Silent (get : τ → σ) (E : ε → Prop) : Prog τ κ ε α → Prop
  | ret _ => True
  | raise e => E e
  | io f mid errs k => (∀ t, ∀ t' ∈ t :: (f t).2 :: mid t, get t' = get t) ∧ (∀ t, (k (f t).1).Silent get E) ∧
      ∀ e, errs e = true → (k (.error e)).Silent get E
  | acquire _ _ _ => False
  | release _ _ => False

theorem Silent.next {E : ε → Prop} {p p' : Prog τ κ ε α} {i : Outcome ε} {t t' : τ} (h : p.Silent get E)
    (hn : p.next i t = some (p', t')) : get t' = get t ∧ p'.Silent get E := by
  cases p with
  | ret a => cases hn
  | raise e => cases hn
  | io f mid errs k =>
    cases i with
    | ok =>
      cases hn
      exact ⟨h.1 t _ (by simp), h.2.1 t⟩
    | fault e n =>
      simp only [Prog.next] at hn
      split at hn
      · rename_i he
        obtain ⟨u, hu, hp⟩ := Option.map_eq_some_iff.mp hn
        cases hp
        exact ⟨h.1 t _ (List.mem_of_getElem? hu), h.2.2 e he⟩
      · cases hn
  | acquire l errs k => exact h.elim
  | release l k => exact h.elim

theorem Silent.reaches {E : ε → Prop} {p p' : Prog τ κ ε α} {t t' : τ} (h : p.Silent get E) (hr : p.Reaches t p' t') :
    get t' = get t ∧ p'.Silent get E := by
  obtain ⟨is, hr⟩ := hr
  induction is generalizing p t with
  | nil =>
    cases hr
    exact ⟨rfl, h⟩
  | cons i is ih =>
    obtain ⟨⟨q, u⟩, hn, hrest⟩ := Option.bind_eq_some_iff.mp hr
    obtain ⟨hget, hq⟩ := h.next hn
    obtain ⟨hget', hp'⟩ := ih hq hrest
    exact ⟨hget'.trans hget, hp'⟩

theorem silent_step {E : ε → Prop} {f : τ → Except ε α × τ} {mid : τ → List τ} {errs : ε → Bool}
    (h : ∀ t, ∀ t' ∈ t :: (f t).2 :: mid t, get t' = get t) (hf : ∀ t e, (f t).1 = .error e → E e)
    (herrs : ∀ e, errs e = true → E e) : (step f mid errs : Prog τ κ ε α).Silent get E := by
  refine ⟨h, fun t => ?_, herrs⟩
  cases hr : (f t).1 with
  | ok a => trivial
  | error e => exact hf t e hr

theorem silent_bind {E : ε → Prop} {p : Prog τ κ ε α} {g : α → Prog τ κ ε β} (hp : p.Silent get E)
    (hg : ∀ a, (g a).Silent get E) : (p >>= g).Silent get E := by
  rw [bind_eq]
  induction p with
  | ret a => exact hg a
  | raise e => exact hp
  | io f mid errs k ih => exact ⟨hp.1, fun t => ih _ (hp.2.1 t), fun e he => ih _ (hp.2.2 e he)⟩
  | acquire l errs k ih => exact hp.elim
  | release l k ih => exact hp.elim

/-- **Steps beside the part.** They count as nothing, and their exceptions as ones of what follows. -/
theorem simulates_before {E : ε → Prop} {p : Prog τ κ ε α} {r : Prog τ κ ε β} {q : Prog σ κ ε β} (hp : p.Silent get E)
    (hE : ∀ e, E e → ∀ s, q.Reaches s (raise e) s) (hr : Simulates get r q) : Simulates get (p >>= fun _ => r) q := by
  intro t x t' hx
  rw [bind_eq] at hx
  rcases reaches_andThen hx with ⟨p', hp', hend⟩ | ⟨res, t₁, hp', hrest⟩
  · obtain ⟨hget, -⟩ := hp.reaches hp'
    exact ⟨q, hget ▸ .refl _ _, .of_not_isEnd hend⟩
  · obtain ⟨hget, hsilent⟩ := hp.reaches hp'
    cases res with
    | ok a =>
      rw [← hget]
      exact hr t₁ x t' hrest
    | error e =>
      have hthrow : Simulates get (throw e : Prog τ κ ε β) (throw e : Prog σ κ ε β) := simulates_throw e
      obtain ⟨y, hy, hends⟩ := hthrow t₁ x t' hrest
      rw [← hget]
      exact ⟨y, (hE e hsilent (get t₁)).trans hy, hends⟩

end Durable.Prog
