import Kadalu.Durable.Interleave
import Mathlib.Logic.Relation

/-!
# Rely and guarantee under locks

Locks guard parts of a store. `G held` is what a process may do to the store while it holds the locks `held`. Between its
own steps it must expect what processes without these locks may do (`Rely G held`). `wpr G O Q held p s` is the contract of a
program `p` that holds `held` at the store `s`, relies on `G` and guarantees `O` itself; `safe` is its shape for programs that
drop the locks they take. A program may also find out what it guarantees on its way (`commits`).

* `Run.committed`: what every process of every run keeps to, and the program that it has come from.
* `Run.guaranteed`: if all programs are safe, every step of every run is one that some locks allow.
* the `safe_*` rules, one for each construct of programs.
-/

namespace Durable

variable {σ κ ε α β : Type} {G O : List κ → σ → σ → Prop} {held : List κ} {s s' t u : σ}

/-- What the others may have done next to a process that holds the locks `held`. -/
def Rely (G : List κ → σ → σ → Prop) (held : List κ) : σ → σ → Prop :=
  Relation.ReflTransGen fun s s' => ∃ others, (∀ l ∈ others, l ∉ held) ∧ G others s s'

theorem Rely.refl : Rely G held s s := Relation.ReflTransGen.refl

theorem Rely.trans (h : Rely G held s t) (h' : Rely G held t u) : Rely G held s u :=
  Relation.ReflTransGen.trans h h'

theorem Rely.single {others : List κ} (hne : ∀ l ∈ others, l ∉ held) (h : G others s s') : Rely G held s s' :=
  Relation.ReflTransGen.single ⟨others, hne, h⟩

/-- With fewer locks more is expected. -/
theorem Rely.mono {held' : List κ} (hle : ∀ l ∈ held', l ∈ held) (h : Rely G held s t) : Rely G held' s t :=
  Relation.ReflTransGen.mono (fun _ _ ⟨others, hne, hG⟩ => ⟨others, fun l hl hl' => hne l hl (hle l hl'), hG⟩) _ _ h

/-- What every step of the others preserves. -/
theorem Rely.invariant {P : σ → Prop}
    (hP : ∀ others s s', (∀ l ∈ others, l ∉ held) → G others s s' → P s → P s') (h : Rely G held s t) (hs : P s) :
    P t := by
  induction h with
  | refl => exact hs
  | tail _ hstep ih =>
    obtain ⟨others, hne, hG⟩ := hstep
    exact hP others _ _ hne hG ih

namespace Prog

variable [DecidableEq κ]

/-- Every step of the program keeps the guarantee `O`, whatever the others do in between, and it ends in `Q`. -/
def wpr (G O : List κ → σ → σ → Prop) (Q : List κ → Except ε α → σ → Prop) : List κ → Prog σ κ ε α → σ → Prop
  | held, ret a, s => Q held (.ok a) s
  | held, raise e, s => Q held (.error e) s
  | held, io f mid errs k, s =>
    (O held s (f s).2 ∧ ∀ t, Rely G held (f s).2 t → (k (f s).1).wpr G O Q held t) ∧
      ∀ e, errs e = true → ∀ s' ∈ s :: (f s).2 :: mid s, O held s s' ∧
        ∀ t, Rely G held s' t → (k (.error e)).wpr G O Q held t
  | held, acquire l errs k, s =>
    (∀ t, Rely G (l :: held) s t → (k (.ok ())).wpr G O Q (l :: held) t) ∧
      ∀ e, errs e = true → ∀ t, Rely G held s t → (k (.error e)).wpr G O Q held t
  | held, release l k, s => ∀ t, Rely G (held.erase l) s t → k.wpr G O Q (held.erase l) t

variable {Q Q' : List κ → Except ε α → σ → Prop}

theorem wpr_mono {p : Prog σ κ ε α} (hQ : ∀ held r t, Q held r t → Q' held r t) (h : p.wpr G O Q held s) :
    p.wpr G O Q' held s := by
  induction p generalizing held s with
  | ret a => exact hQ _ _ _ h
  | raise e => exact hQ _ _ _ h
  | io f mid errs k ih =>
    obtain ⟨⟨hg, hk⟩, hf⟩ := h
    exact ⟨⟨hg, fun t ht => ih _ (hk t ht)⟩,
      fun e he s' hs' => ⟨(hf e he s' hs').1, fun t ht => ih _ ((hf e he s' hs').2 t ht)⟩⟩
  | acquire l errs k ih => exact ⟨fun t ht => ih _ (h.1 t ht), fun e he t ht => ih _ (h.2 e he t ht)⟩
  | release l k ih => exact fun t ht => ih (h t ht)

theorem wpr_andThen {p : Prog σ κ ε α} {g : Except ε α → Prog σ κ ε β} {Q : List κ → Except ε β → σ → Prop} :
    (p.andThen g).wpr G O Q held s ↔ p.wpr G O (fun held r t => (g r).wpr G O Q held t) held s := by
  induction p generalizing held s with
  | ret a => exact Iff.rfl
  | raise e => exact Iff.rfl
  | io f mid errs k ih => simp only [andThen, wpr, ih]
  | acquire l errs k ih => simp only [andThen, wpr, ih]
  | release l k ih => simp only [andThen, wpr, ih]

theorem wpr_ofExcept {r : Except ε α} : (ofExcept r : Prog σ κ ε α).wpr G O Q held s ↔ Q held r s := by
  cases r <;> exact Iff.rfl

/-- One step of a program that takes and drops no lock in it. -/
theorem wpr_next {i : Outcome ε} {p' : Prog σ κ ε α} {f : σ → Except ε β × σ} {mid : σ → List σ} {errs : ε → Bool}
    {k : Except ε β → Prog σ κ ε α} (h : (io f mid errs k).wpr G O Q held s)
    (hn : (io f mid errs k).next i s = some (p', s')) :
    O held s s' ∧ ∀ t, Rely G held s' t → p'.wpr G O Q held t := by
  cases i with
  | ok =>
    cases hn
    exact h.1
  | fault e n =>
    simp only [next] at hn
    split at hn
    · rename_i he
      obtain ⟨t, ht, hp⟩ := Option.map_eq_some_iff.mp hn
      cases hp
      exact h.2 e he _ (List.mem_of_getElem? ht)
    · cases hn

/-! ## Rules -/

/-- The contract of a program that drops the locks it takes and ends in `Q` after a result. -/
def safe (G : List κ → σ → σ → Prop) (Q : α → σ → Prop) (held : List κ) (p : Prog σ κ ε α) (s : σ) : Prop :=
  p.wpr G G (fun held' r t => held' = held ∧ ∀ a, r = .ok a → Q a t) held s

section Rules

variable {Q Q' : α → σ → Prop} {errs : ε → Bool}

theorem safe_mono {p : Prog σ κ ε α} (hQ : ∀ a t, Q a t → Q' a t) (h : p.safe G Q held s) : p.safe G Q' held s :=
  wpr_mono (fun _ _ t h => ⟨h.1, fun a ha => hQ a t (h.2 a ha)⟩) h

theorem safe_pure {a : α} (h : Q a s) : (pure a : Prog σ κ ε α).safe G Q held s :=
  ⟨rfl, fun _ hb => by cases hb; exact h⟩

theorem safe_throw {e : ε} : (throw e : Prog σ κ ε α).safe G Q held s := ⟨rfl, fun _ hb => by cases hb⟩

theorem safe_ofExcept {r : Except ε α} (h : ∀ a, r = .ok a → Q a s) : (ofExcept r : Prog σ κ ε α).safe G Q held s :=
  wpr_ofExcept.mpr ⟨rfl, h⟩

theorem safe_bind {p : Prog σ κ ε α} {g : α → Prog σ κ ε β} {Q : β → σ → Prop}
    (h : p.safe G (fun a t => (g a).safe G Q held t) held s) : (p >>= g).safe G Q held s := by
  rw [bind_eq, safe, wpr_andThen]
  refine wpr_mono (fun held' r t ht => ?_) h
  obtain ⟨rfl, ht⟩ := ht
  cases r with
  | ok a => exact ht a rfl
  | error e => exact ⟨rfl, fun _ hb => by cases hb⟩

theorem safe_ite {c : Prop} {_ : Decidable c} {p q : Prog σ κ ε α} (hp : c → p.safe G Q held s)
    (hq : ¬c → q.safe G Q held s) : (if c then p else q).safe G Q held s := by
  split
  · exact hp ‹_›
  · exact hq ‹_›

/-- A step must keep the guarantee, also where it is interrupted; its postcondition must survive the others. -/
theorem safe_step {f : σ → Except ε α × σ} {mid : σ → List σ} (h : ∀ t ∈ s :: (f s).2 :: mid s, G held s t)
    (hQ : ∀ a, (f s).1 = .ok a → ∀ t, Rely G held (f s).2 t → Q a t) :
    (step f mid errs : Prog σ κ ε α).safe G Q held s :=
  ⟨⟨h _ (by simp), fun t ht => safe_ofExcept fun a ha => hQ a ha t ht⟩,
    fun _ _ s' hs' => ⟨h s' hs', fun _ _ => ⟨rfl, fun _ hb => by cases hb⟩⟩⟩

theorem safe_read {g : σ → Except ε α} (hs : G held s s) (hQ : ∀ a, g s = .ok a → ∀ t, Rely G held s t → Q a t) :
    (read errs g : Prog σ κ ε α).safe G Q held s :=
  safe_step (by simp [hs]) hQ

/-- Under a lock, less is expected of the others. -/
theorem safe_withLock {l : κ} {p : Prog σ κ ε α}
    (h : ∀ t, Rely G (l :: held) s t → p.safe G (fun a t => ∀ u, Rely G held t u → Q a u) (l :: held) t) :
    (withLock l errs p).safe G Q held s := by
  refine ⟨fun t ht => ?_, fun e _ t _ => ⟨rfl, fun _ hb => by cases hb⟩⟩
  rw [wpr_andThen]
  refine wpr_mono (fun held' r t hr u hu => ?_) (h t ht)
  obtain ⟨rfl, hr⟩ := hr
  rw [List.erase_cons_head] at hu ⊢
  exact wpr_ofExcept.mpr ⟨rfl, fun a ha => hr a ha u hu⟩

theorem safe_tryCatch {p : Prog σ κ ε α} {g : ε → Prog σ κ ε α} (hp : p.safe G Q held s)
    (hg : ∀ e t, (g e).safe G Q held t) : (tryCatch p g).safe G Q held s := by
  show (p.andThen _).wpr G G _ held s
  rw [wpr_andThen]
  refine wpr_mono (fun held' r t ht => ?_) hp
  obtain ⟨rfl, ht⟩ := ht
  cases r with
  | ok a => exact ⟨rfl, fun b hb => by cases hb; exact ht a rfl⟩
  | error e => exact hg e t

end Rules

/-! ## Rules that follow errors -/

/-- The contract of a program that drops the locks it takes and ends in `R`, with a result or an error. -/
def ensures (G O : List κ → σ → σ → Prop) (R : Except ε α → σ → Prop) (held : List κ) (p : Prog σ κ ε α) (s : σ) : Prop :=
  p.wpr G O (fun held' r t => held' = held ∧ R r t) held s

section Ensures

variable {R R' : Except ε α → σ → Prop} {errs : ε → Bool}

theorem ensures_mono {p : Prog σ κ ε α} (hR : ∀ r t, R r t → R' r t) (h : p.ensures G O R held s) : p.ensures G O R' held s :=
  wpr_mono (fun _ r t h => ⟨h.1, hR r t h.2⟩) h

theorem ensures_pure {a : α} (h : R (.ok a) s) : (pure a : Prog σ κ ε α).ensures G O R held s := ⟨rfl, h⟩

theorem ensures_throw {e : ε} (h : R (.error e) s) : (throw e : Prog σ κ ε α).ensures G O R held s := ⟨rfl, h⟩

theorem ensures_andThen {p : Prog σ κ ε α} {g : Except ε α → Prog σ κ ε β} {R : Except ε β → σ → Prop}
    (h : p.ensures G O (fun r t => (g r).ensures G O R held t) held s) : (p.andThen g).ensures G O R held s := by
  rw [ensures, wpr_andThen]
  refine wpr_mono (fun held' r t ht => ?_) h
  obtain ⟨rfl, ht⟩ := ht
  exact ht

theorem ensures_bind {p : Prog σ κ ε α} {g : α → Prog σ κ ε β} {R : Except ε β → σ → Prop}
    (h : p.ensures G O (fun r t => (∀ a, r = .ok a → (g a).ensures G O R held t) ∧ ∀ e, r = .error e → R (.error e) t) held s) :
    (p >>= g).ensures G O R held s := by
  refine ensures_andThen (ensures_mono (fun r t hr => ?_) h)
  cases r with
  | ok a => exact hr.1 a rfl
  | error e => exact ensures_throw (hr.2 e rfl)

theorem ensures_tryCatch {p : Prog σ κ ε α} {g : ε → Prog σ κ ε α}
    (h : p.ensures G O (fun r t => (∀ a, r = .ok a → R (.ok a) t) ∧ ∀ e, r = .error e → (g e).ensures G O R held t) held s) :
    (tryCatch p g).ensures G O R held s := by
  refine ensures_andThen (ensures_mono (fun r t hr => ?_) h)
  cases r with
  | ok a => exact ensures_pure (hr.1 a rfl)
  | error e => exact hr.2 e rfl

theorem ensures_ite {c : Prop} {_ : Decidable c} {p q : Prog σ κ ε α} (hp : c → p.ensures G O R held s)
    (hq : ¬c → q.ensures G O R held s) : (if c then p else q).ensures G O R held s := by
  split
  · exact hp ‹_›
  · exact hq ‹_›

theorem ensures_step {f : σ → Except ε α × σ} {mid : σ → List σ} (h : ∀ t ∈ s :: (f s).2 :: mid s, O held s t)
    (hR : ∀ t, Rely G held (f s).2 t → R (f s).1 t)
    (he : ∀ e, errs e = true → ∀ s' ∈ s :: (f s).2 :: mid s, ∀ t, Rely G held s' t → R (.error e) t) :
    (step f mid errs : Prog σ κ ε α).ensures G O R held s :=
  ⟨⟨h _ (by simp), fun t ht => wpr_ofExcept.mpr ⟨rfl, hR t ht⟩⟩,
    fun e herr s' hs' => ⟨h s' hs', fun t ht => ⟨rfl, he e herr s' hs' t ht⟩⟩⟩

theorem ensures_read {g : σ → Except ε α} (hs : O held s s) (hR : ∀ t, Rely G held s t → R (g s) t)
    (he : ∀ e, errs e = true → ∀ t, Rely G held s t → R (.error e) t) :
    (read errs g : Prog σ κ ε α).ensures G O R held s := by
  have hsame : ∀ t ∈ s :: s :: ([] : List σ), t = s := by simp
  refine ensures_step (fun t ht => ?_) hR fun e herr s' hs' => ?_
  · rw [hsame t ht]
    exact hs
  · rw [hsame s' hs']
    exact he e herr

/-- Under a lock that is taken without an error. -/
theorem ensures_withLock {l : κ} {p : Prog σ κ ε α}
    (h : ∀ t, Rely G (l :: held) s t → p.ensures G O (fun r t => ∀ u, Rely G held t u → R r u) (l :: held) t) :
    (withLock l (fun _ => false) p).ensures G O R held s := by
  refine ⟨fun t ht => ?_, fun e he => ?_⟩
  · rw [wpr_andThen]
    refine wpr_mono (fun held' r t hr u hu => ?_) (h t ht)
    obtain ⟨rfl, hr⟩ := hr
    rw [List.erase_cons_head] at hu ⊢
    exact wpr_ofExcept.mpr ⟨rfl, hr u hu⟩
  · cases he

end Ensures

/-! ## Programs that settle on a guarantee -/

section Commits

variable {ι : Type} {B : List κ → σ → σ → Prop} {W : ι → List κ → σ → σ → Prop} {P : ι → Prop} {p : Prog σ κ ε α}

/-- The program has settled on one of the guarantees `W i` for all its steps. -/
def settled (G : List κ → σ → σ → Prop) (W : ι → List κ → σ → σ → Prop) (P : ι → Prop) (held : List κ) (p : Prog σ κ ε α)
    (s : σ) : Prop :=
  ∃ i, P i ∧ ∀ t, Rely G held s t → p.wpr G (W i) (fun _ _ _ => True) held t

/-- The program settles on one of the guarantees `W i` before it takes a lock, and keeps `B` until then. -/
def commits (G B : List κ → σ → σ → Prop) (W : ι → List κ → σ → σ → Prop) (P : ι → Prop) (held : List κ) :
    Prog σ κ ε α → σ → Prop
  | io f mid errs k, s => (io f mid errs k).settled G W P held s ∨ ∀ t, Rely G held s t →
      (B held t (f t).2 ∧ (k (f t).1).commits G B W P held (f t).2) ∧
        ∀ e, errs e = true → ∀ s' ∈ t :: (f t).2 :: mid t, B held t s' ∧ (k (.error e)).commits G B W P held s'
  | p, s => p.settled G W P held s

theorem settled.rely (h : p.settled G W P held s) (ht : Rely G held s t) : p.settled G W P held t := by
  obtain ⟨i, hi, hp⟩ := h
  exact ⟨i, hi, fun u hu => hp u (ht.trans hu)⟩

theorem commits_of_settled (h : p.settled G W P held s) : p.commits G B W P held s := by
  cases p with
  | io f mid errs k => exact .inl h
  | _ => exact h

/-- The guarantee is known from the start. -/
theorem commits_of (i : ι) (hi : P i) (h : ∀ t, Rely G held s t → p.wpr G (W i) (fun _ _ _ => True) held t) :
    p.commits G B W P held s := commits_of_settled ⟨i, hi, h⟩

theorem commits.rely (h : p.commits G B W P held s) (ht : Rely G held s t) : p.commits G B W P held t := by
  cases p with
  | io f mid errs k => exact h.imp (fun h => h.rely ht) fun h u hu => h u (ht.trans hu)
  | _ => exact settled.rely h ht

theorem commits_mono {P' : ι → Prop} (hP : ∀ i, P i → P' i) (h : p.commits G B W P held s) : p.commits G B W P' held s := by
  have hsettled {p : Prog σ κ ε α} {s : σ} (h : p.settled G W P held s) : p.settled G W P' held s := by
    obtain ⟨i, hi, hp⟩ := h
    exact ⟨i, hP i hi, hp⟩
  induction p generalizing s with
  | io f mid errs k ih =>
    refine h.imp hsettled fun h t ht => ?_
    obtain ⟨hok, herr⟩ := h t ht
    exact ⟨⟨hok.1, ih _ hok.2⟩, fun e he s' hs' => ⟨(herr e he s' hs').1, ih _ (herr e he s' hs').2⟩⟩
  | _ => exact hsettled h

/-- What is read decides on the guarantee of the rest. -/
theorem commits_read_bind {errs : ε → Bool} {g : σ → Except ε β} {rest : β → Prog σ κ ε α} (i : ι) (hi : P i)
    (hB : ∀ t, B held t t) (h : ∀ t, Rely G held s t → ∀ a, g t = .ok a → (rest a).commits G B W P held t) :
    (read errs g >>= rest).commits G B W P held s := by
  have hraise : ∀ (e : ε) (t : σ), (raise e : Prog σ κ ε α).commits G B W P held t := fun _ _ => ⟨i, hi, fun _ _ => trivial⟩
  refine .inr fun t ht => ⟨⟨hB t, ?_⟩, fun e _ s' hs' => ?_⟩
  · show ((ofExcept (g t)).andThen (onOk rest)).commits G B W P held t
    cases hg : g t with
    | ok a => exact h t ht a hg
    | error e => exact hraise e t
  · simp only [List.mem_cons, List.not_mem_nil, or_false, or_self] at hs'
    exact ⟨hs' ▸ hB t, hraise e s'⟩

/-- What a program results in does not matter. -/
theorem commits_void (h : p.commits G B W P held s) : (p >>= fun _ => pure ()).commits G B W P held s := by
  have hsettled {p : Prog σ κ ε α} {s : σ} (h : p.settled G W P held s) :
      (p >>= fun _ => pure ()).settled G W P held s := by
    obtain ⟨i, hi, hp⟩ := h
    refine ⟨i, hi, fun t ht => ?_⟩
    rw [bind_eq, wpr_andThen]
    exact wpr_mono (fun _ r _ _ => by cases r <;> trivial) (hp t ht)
  induction p generalizing s with
  | io f mid errs k ih =>
    refine h.imp hsettled fun h t ht => ?_
    obtain ⟨hok, herr⟩ := h t ht
    exact ⟨⟨hok.1, ih _ hok.2⟩, fun e he s' hs' => ⟨(herr e he s' hs').1, ih _ (herr e he s' hs').2⟩⟩
  | _ => exact hsettled h

end Commits

end Prog

/-! ## Runs -/

section Runs

variable [DecidableEq κ] {allowed : Prog σ κ ε Unit → Prop} {C : σ → σ → Prop} {s₀ : σ} {a b : Sys σ κ ε} {ι : Type}
  {B : List κ → σ → σ → Prop} {W : ι → List κ → σ → σ → Prop} {P : Prog σ κ ε Unit → ι → Prop}

/-- What may have become of a process that was started with the program. -/
inductive Proc.Of (p : Prog σ κ ε Unit) : Proc σ κ ε → Prop
  | start : Of p ⟨p, []⟩
  | step {q q' : Proc σ κ ε} {others : List κ} {i : Outcome ε} {s s' : σ} (h : Of p q)
    (hn : q.next others i s = some (q', s')) : Of p q'

/-- The process keeps its contract whatever the others do next. -/
def Proc.Safe (G O : List κ → σ → σ → Prop) (q : Proc σ κ ε) (s : σ) : Prop :=
  ∀ t, Rely G q.held s t → q.prog.wpr G O (fun _ _ _ => True) q.held t

/-- No lock is held by both processes. -/
def Proc.Apart (q r : Proc σ κ ε) : Prop := ∀ l ∈ q.held, l ∉ r.held

omit [DecidableEq κ] in
theorem Proc.Apart.symm {q r : Proc σ κ ε} (h : q.Apart r) : r.Apart q := fun l hr hq => h l hq hr

/-- One step of a safe process: it keeps the guarantee, it stays safe, and it takes no lock that another one holds. -/
theorem Proc.Safe.next {others : List κ} {i : Outcome ε} {q q' : Proc σ κ ε} (hrefl : ∀ held s, O held s s)
    (h : q.Safe G O s) (hn : q.next others i s = some (q', s')) :
    O q.held s s' ∧ q'.Safe G O s' ∧ ∀ l ∈ q'.held, l ∈ q.held ∨ l ∉ others := by
  obtain ⟨p, held⟩ := q
  have hs := h s Rely.refl
  unfold Proc.next at hn
  dsimp only at hn hs
  split at hn
  · -- a lock is taken
    split at hn
    · cases hn
    · rename_i hfree
      cases hn
      refine ⟨hrefl _ _, hs.1, fun l hl => ?_⟩
      rcases List.mem_cons.mp hl with rfl | hl
      · exact .inr hfree
      · exact .inl hl
  · -- a lock is dropped
    cases hn
    exact ⟨hrefl _ _, hs, fun l hl => .inl (List.mem_of_mem_erase hl)⟩
  · rename_i hacq hrel
    obtain ⟨x, hx, he⟩ := Option.map_eq_some_iff.mp hn
    cases he
    cases p with
    | ret a => cases hx
    | raise e => cases hx
    | io f mid errs k =>
      obtain ⟨hg, hk⟩ := Prog.wpr_next hs hx
      exact ⟨hg, hk, fun l hl => .inl hl⟩
    | acquire l errs k =>
      cases i with
      | ok => exact absurd rfl (hacq l errs k rfl)
      | fault e n =>
        simp only [Prog.next] at hx
        split at hx
        · rename_i he
          cases hx
          exact ⟨hrefl _ _, hs.2 e he, fun l hl => .inl hl⟩
        · cases hx
    | release l k =>
      cases i with
      | ok => exact absurd rfl (hrel l k rfl)
      | fault e n => cases hx

/-- What a process keeps to next: the guarantee that it has settled on, or `B` as long as it has not. -/
def Proc.Keeps (G B : List κ → σ → σ → Prop) (W : ι → List κ → σ → σ → Prop) (P : ι → Prop) (q : Proc σ κ ε) (s : σ) : Prop :=
  (∃ i, P i ∧ q.Safe G (W i) s) ∨
    (∃ t, B q.held s t) ∧ ∀ others i q' s', q.next others i s = some (q', s') → B q.held s s'

/-- One step of a process that settles on a guarantee. -/
theorem Proc.commits_next {P : ι → Prop} {others : List κ} {i : Outcome ε} {q q' : Proc σ κ ε}
    (hrefl : ∀ i held s, W i held s s) (h : q.prog.commits G B W P q.held s) (hn : q.next others i s = some (q', s')) :
    ((∃ i, P i ∧ W i q.held s s') ∨ B q.held s s') ∧ q'.prog.commits G B W P q'.held s' ∧
      ∀ l ∈ q'.held, l ∈ q.held ∨ l ∉ others := by
  have hsettled (hq : q.prog.settled G W P q.held s) : ((∃ i, P i ∧ W i q.held s s') ∨ B q.held s s') ∧
      q'.prog.commits G B W P q'.held s' ∧ ∀ l ∈ q'.held, l ∈ q.held ∨ l ∉ others := by
    obtain ⟨j, hj, hsafe⟩ := hq
    obtain ⟨hstep, hnext, hheld⟩ := Proc.Safe.next (hrefl j) hsafe hn
    exact ⟨.inl ⟨j, hj, hstep⟩, Prog.commits_of j hj hnext, hheld⟩
  obtain ⟨p, held⟩ := q
  cases p with
  | io f mid errs k =>
    rcases h with h | h
    · exact hsettled h
    · obtain ⟨x, hx, he⟩ := Option.map_eq_some_iff.mp hn
      cases he
      obtain ⟨hok, herr⟩ := h s Rely.refl
      cases i with
      | ok =>
        cases hx
        exact ⟨.inr hok.1, hok.2, fun l hl => .inl hl⟩
      | fault e n =>
        simp only [Prog.next] at hx
        split at hx
        · rename_i he
          obtain ⟨t, ht, hp⟩ := Option.map_eq_some_iff.mp hx
          cases hp
          obtain ⟨hB, hk⟩ := herr e he _ (List.mem_of_getElem? ht)
          exact ⟨.inr hB, hk, fun l hl => .inl hl⟩
        · cases hx
  | _ => exact hsettled h

theorem Proc.keeps_of_commits {P : ι → Prop} {q : Proc σ κ ε} (h : q.prog.commits G B W P q.held s) :
    q.Keeps G B W P s := by
  obtain ⟨p, held⟩ := q
  cases p with
  | io f mid errs k =>
    refine h.imp id fun h => ?_
    obtain ⟨hok, herr⟩ := h s Rely.refl
    refine ⟨⟨_, hok.1⟩, fun others i q' s' hn => ?_⟩
    obtain ⟨x, hx, he⟩ := Option.map_eq_some_iff.mp hn
    cases he
    cases i with
    | ok =>
      cases hx
      exact hok.1
    | fault e n =>
      simp only [Prog.next] at hx
      split at hx
      · rename_i he
        obtain ⟨t, ht, hp⟩ := Option.map_eq_some_iff.mp hx
        cases hp
        exact (herr e he _ (List.mem_of_getElem? ht)).1
      · cases hx
  | _ => exact .inl h

/-- Each process has come from a program that is allowed, and settles as it; no lock has two holders. -/
structure Sys.Safe (allowed : Prog σ κ ε Unit → Prop) (G B : List κ → σ → σ → Prop) (W : ι → List κ → σ → σ → Prop)
    (P : Prog σ κ ε Unit → ι → Prop) (a : Sys σ κ ε) : Prop where
  safe : ∀ q ∈ a.procs, ∃ p, allowed p ∧ q.Of p ∧ q.prog.commits G B W (P p) q.held a.store
  apart : a.procs.Pairwise Proc.Apart

/-- A step of a safe system keeps the guarantee of some locks, and leaves it safe; the programs may rely on an invariant. -/
theorem Sys.Safe.step {J : σ → Prop} (hrefl : ∀ i held s, W i held s s) (hGrefl : ∀ held s, G held s s)
    (hW : ∀ i held s s', W i held s s' → G held s s') (hB : ∀ held s s', B held s s' → G held s s')
    (hall : ∀ p, allowed p → ∀ s, J s → p.commits G B W (P p) [] s) (h : a.Safe allowed G B W P) (ha : J a.store)
    (hstep : a.Step allowed b) : (∃ held, G held a.store b.store) ∧ b.Safe allowed G B W P := by
  cases hstep with
  | @start s qs p hp =>
    refine ⟨⟨[], hGrefl _ _⟩, fun q hq => ?_,
      List.pairwise_cons.mpr ⟨fun r _ l hl => absurd hl List.not_mem_nil, h.apart⟩⟩
    rcases List.mem_cons.mp hq with rfl | hq
    · exact ⟨p, hp, .start, hall p hp s ha⟩
    · exact h.safe q hq
  | @step s s' q q' before after i hn =>
    obtain ⟨hapart, hrest⟩ := List.pairwise_cons.mp ((List.pairwise_middle Proc.Apart.symm).mp h.apart)
    obtain ⟨p, hp, hof, hq⟩ := h.safe q (by simp)
    obtain ⟨hown, hq', hheld⟩ := Proc.commits_next hrefl hq hn
    have hg : G q.held s s' := hown.elim (fun ⟨j, _, hj⟩ => hW j _ _ _ hj) (hB _ _ _)
    refine ⟨⟨_, hg⟩, fun r hr => ?_, (List.pairwise_middle Proc.Apart.symm).mpr
      (List.pairwise_cons.mpr ⟨fun r hr l hl => ?_, hrest⟩)⟩
    · have hother : ∀ r ∈ before ++ after, ∃ p, allowed p ∧ r.Of p ∧ r.prog.commits G B W (P p) r.held s' := fun r hr => by
        have hr' : r ∈ before ++ q :: after := by
          rcases List.mem_append.mp hr with hr | hr
          · exact List.mem_append_left _ hr
          · exact List.mem_append_right _ (List.mem_cons_of_mem _ hr)
        obtain ⟨p, hp, hof, hcommits⟩ := h.safe r hr'
        exact ⟨p, hp, hof, hcommits.rely (Rely.single (hapart r hr) hg)⟩
      rcases List.mem_append.mp hr with hr | hr
      · exact hother r (List.mem_append_left _ hr)
      · rcases List.mem_cons.mp hr with rfl | hr
        · exact ⟨p, hp, hof.step hn, hq'⟩
        · exact hother r (List.mem_append_right _ hr)
    · rcases hheld l hl with hl | hfree
      · exact hapart r hr l hl
      · exact fun hlr => hfree (List.mem_flatMap.mpr ⟨r, hr, hlr⟩)
  | @crash s q before after =>
    have hsub : (before ++ after).Sublist (before ++ q :: after) :=
      List.Sublist.append_left (List.sublist_cons_self q after) before
    exact ⟨⟨[], hGrefl _ _⟩, fun r hr => h.safe r (hsub.subset hr), h.apart.sublist hsub⟩

theorem Run.safe {J : σ → Prop} (hrefl : ∀ i held s, W i held s s) (hGrefl : ∀ held s, G held s s)
    (hW : ∀ i held s s', W i held s s' → G held s s') (hB : ∀ held s s', B held s s' → G held s s')
    (hJ : ∀ held s s', J s → G held s s' → J s') (hall : ∀ p, allowed p → ∀ s, J s → p.commits G B W (P p) [] s)
    (h₀ : J s₀) (h : Run allowed C s₀ a) : J a.store ∧ a.Safe allowed G B W P := by
  induction h with
  | nil => exact ⟨h₀, fun q hq => (List.not_mem_nil hq).elim, List.Pairwise.nil⟩
  | cons _ hstep _ ih =>
    obtain ⟨⟨held, hG⟩, hsafe⟩ := ih.2.step hrefl hGrefl hW hB hall ih.1 hstep
    exact ⟨hJ held _ _ ih.1 hG, hsafe⟩

/-- **Programs that commit themselves.** In every run each process has come from an allowed program, and keeps to a guarantee of
that program from the step on that has settled it. -/
theorem Run.committed {J : σ → Prop} (hrefl : ∀ i held s, W i held s s) (hGrefl : ∀ held s, G held s s)
    (hW : ∀ i held s s', W i held s s' → G held s s') (hB : ∀ held s s', B held s s' → G held s s')
    (hJ : ∀ held s s', J s → G held s s' → J s') (hall : ∀ p, allowed p → ∀ s, J s → p.commits G B W (P p) [] s)
    (h₀ : J s₀) (h : Run allowed C s₀ a) :
    J a.store ∧ ∀ q ∈ a.procs, ∃ p, allowed p ∧ q.Of p ∧ q.Keeps G B W (P p) a.store := by
  obtain ⟨hstore, hsafe⟩ := h.safe hrefl hGrefl hW hB hJ hall h₀
  refine ⟨hstore, fun q hq => ?_⟩
  obtain ⟨p, hp, hof, hcommits⟩ := hsafe.safe q hq
  exact ⟨p, hp, hof, Proc.keeps_of_commits hcommits⟩

/-- **Safe programs.** Every step of every run of safe programs is one that some locks allow. -/
theorem Run.guaranteed (hrefl : ∀ held s, G held s s)
    (hall : ∀ p, allowed p → ∀ s, p.wpr G G (fun _ _ _ => True) [] s) (h : Run allowed C s₀ a)
    (hstep : a.Step allowed b) : ∃ held, G held a.store b.store := by
  have hcommits : ∀ p, allowed p → ∀ s, True → p.commits G G (fun _ : Unit => G) (fun _ => True) [] s :=
    fun p hp s _ => Prog.commits_of () trivial fun t _ => hall p hp t
  have hsafe := h.safe (P := fun _ _ => True) (J := fun _ => True) (fun _ => hrefl) hrefl (fun _ _ _ _ => id) (fun _ _ _ => id)
    (fun _ _ _ _ _ => trivial) hcommits trivial
  exact (hsafe.2.step (J := fun _ => True) (fun _ => hrefl) hrefl (fun _ _ _ _ => id) (fun _ _ _ => id) hcommits trivial hstep).1

end Runs

end Durable
