import Kadalu.Durable.Focus

/-!
# Systems of programs

A system is a store and the processes that work on it. A process takes its steps one at a time, between the steps of the
others; it waits for a lock while another process holds it, and a crash removes it together with its locks. `Run` is the
closure of these steps from a store without processes, every step of which satisfies a condition `C` on the store before
and after it.

* `Run.invariant`: an invariant of the steps of the programs is an invariant of every run.
* `Run.trans_visits`: a program that runs alone and crashes anywhere is a run.
-/

namespace Durable

variable {σ κ ε : Type}

/-- A process: what is left of its program, and the locks it holds. -/
structure Proc (σ κ ε : Type) : Type 1 where
  prog : Prog σ κ ε Unit
  held : List κ

/-- A store and the processes that work on it. -/
structure Sys (σ κ ε : Type) : Type 1 where
  store : σ
  procs : List (Proc σ κ ε)

/-- One step of a process next to others that hold the locks `others`; a process may take a lock again that it holds. -/
def Proc.next [DecidableEq κ] (others : List κ) (i : Outcome ε) (q : Proc σ κ ε) (s : σ) : Option (Proc σ κ ε × σ) :=
  match q.prog, i with
  | .acquire l _ k, .ok => if l ∈ others then none else some (⟨k (.ok ()), l :: q.held⟩, s)
  | .release l k, .ok => some (⟨k, q.held.erase l⟩, s)
  | p, i => (p.next i s).map fun x => (⟨x.1, q.held⟩, x.2)

/-- The locks of a list of processes. -/
def heldBy (qs : List (Proc σ κ ε)) : List κ := qs.flatMap Proc.held

/-- A step of a system: a process starts, takes a step, or crashes. -/
inductive Sys.Step [DecidableEq κ] (allowed : Prog σ κ ε Unit → Prop) : Sys σ κ ε → Sys σ κ ε → Prop
  | start {s qs} (p : Prog σ κ ε Unit) : allowed p → Step allowed ⟨s, qs⟩ ⟨s, ⟨p, []⟩ :: qs⟩
  | step {s s' q q'} (before after : List (Proc σ κ ε)) (i : Outcome ε) :
    q.next (heldBy (before ++ after)) i s = some (q', s') →
      Step allowed ⟨s, before ++ q :: after⟩ ⟨s', before ++ q' :: after⟩
  | crash {s q} (before after : List (Proc σ κ ε)) : Step allowed ⟨s, before ++ q :: after⟩ ⟨s, before ++ after⟩

/-- A run from the store `s₀`, all of whose steps satisfy `C`. -/
inductive Run [DecidableEq κ] (allowed : Prog σ κ ε Unit → Prop) (C : σ → σ → Prop) (s₀ : σ) : Sys σ κ ε → Prop
  | nil : Run allowed C s₀ ⟨s₀, []⟩
  | cons {a b : Sys σ κ ε} : Run allowed C s₀ a → a.Step allowed b → C a.store b.store → Run allowed C s₀ b

/-! ## The steps of a program -/

namespace Prog

variable {α β : Type} {G G' : σ → σ → Prop}

/-- Every step of the program, from any store, with or without a fault, is a `G`-step. -/
def Within (G : σ → σ → Prop) : Prog σ κ ε α → Prop
  | ret _ => True
  | raise _ => True
  | io f mid _ k => (∀ s, ∀ s' ∈ s :: (f s).2 :: mid s, G s s') ∧ ∀ r, (k r).Within G
  | acquire _ _ k => ∀ r, (k r).Within G
  | release _ k => k.Within G

theorem Within.mono {p : Prog σ κ ε α} (hG : ∀ s s', G s s' → G' s s') (h : p.Within G) : p.Within G' := by
  induction p with
  | ret a => trivial
  | raise e => trivial
  | io f mid errs k ih => exact ⟨fun s s' hs' => hG _ _ (h.1 s s' hs'), fun r => ih r (h.2 r)⟩
  | acquire l errs k ih => exact fun r => ih r (h r)
  | release l k ih => exact ih h

theorem within_andThen {p : Prog σ κ ε α} {g : Except ε α → Prog σ κ ε β} (hp : p.Within G)
    (hg : ∀ r, (g r).Within G) : (p.andThen g).Within G := by
  induction p with
  | ret a => exact hg _
  | raise e => exact hg _
  | io f mid errs k ih => exact ⟨hp.1, fun r => ih r (hp.2 r)⟩
  | acquire l errs k ih => exact fun r => ih r (hp r)
  | release l k ih => exact ih hp

theorem within_bind {p : Prog σ κ ε α} {g : α → Prog σ κ ε β} (hp : p.Within G) (hg : ∀ a, (g a).Within G) :
    (p >>= g).Within G :=
  within_andThen hp fun r => match r with
    | .ok a => hg a
    | .error _ => trivial

theorem within_pure (a : α) : (pure a : Prog σ κ ε α).Within G := trivial

theorem within_throw (e : ε) : (throw e : Prog σ κ ε α).Within G := trivial

theorem within_ofExcept (r : Except ε α) : (ofExcept r : Prog σ κ ε α).Within G := by cases r <;> trivial

theorem within_step {f : σ → Except ε α × σ} {mid : σ → List σ} {errs : ε → Bool}
    (h : ∀ s, ∀ s' ∈ s :: (f s).2 :: mid s, G s s') : (step f mid errs : Prog σ κ ε α).Within G :=
  ⟨h, fun r => within_ofExcept r⟩

theorem within_read {errs : ε → Bool} {g : σ → Except ε α} (hG : ∀ s, G s s) :
    (read errs g : Prog σ κ ε α).Within G :=
  within_step fun s s' hs' => by
    simp only [List.mem_cons, List.not_mem_nil, or_false, or_self] at hs'
    exact hs' ▸ hG s

theorem within_withLock {l : κ} {errs : ε → Bool} {p : Prog σ κ ε α} (h : p.Within G) :
    (withLock l errs p).Within G
  | .ok () => within_andThen h fun r => within_ofExcept r
  | .error _ => trivial

theorem within_tryCatch {p : Prog σ κ ε α} {g : ε → Prog σ κ ε α} (hp : p.Within G) (hg : ∀ e, (g e).Within G) :
    (tryCatch p g).Within G :=
  within_andThen hp fun r => match r with
    | .ok _ => trivial
    | .error e => hg e

theorem within_ite {c : Prop} {_ : Decidable c} {p q : Prog σ κ ε α} (hp : p.Within G) (hq : q.Within G) :
    (if c then p else q).Within G := by split <;> assumption

/-- A first part that is chosen, and the rest of a program. -/
theorem within_choice {c : Prop} {_ : Decidable c} {p q : Prog σ κ ε β} {rest : β → Prog σ κ ε α} (hp : p.Within G)
    (hq : q.Within G) (h : ∀ b, (rest b).Within G) : (if c then p >>= rest else q >>= rest).Within G :=
  within_ite (within_bind hp h) (within_bind hq h)

/-- A check before the rest of a program. -/
theorem within_guard {c : Prop} {_ : Decidable c} {e : ε} {rest : PUnit → Prog σ κ ε α} (h : ∀ r, (rest r).Within G) :
    (if c then throw e >>= rest else rest ⟨⟩).Within G := within_ite (within_bind (within_throw e) h) (h _)

/-- An optional first part of a program. -/
theorem within_when {c : Prop} {_ : Decidable c} {p : Prog σ κ ε PUnit} {rest : PUnit → Prog σ κ ε α} (hp : p.Within G)
    (h : ∀ r, (rest r).Within G) : (if c then p >>= rest else rest ⟨⟩).Within G :=
  within_ite (within_bind hp h) (h _)

/-- A program on one store of a family. -/
theorem within_focus {ι κ' : Type} [DecidableEq ι] {h : ι} {lock : κ → κ'} {p : Prog σ κ ε α} (hp : p.Within G) :
    (p.focus h lock).Within fun w w' => ∃ s', G (w h) s' ∧ w' = Function.update w h s' := by
  induction p with
  | ret a => trivial
  | raise e => trivial
  | io f mid errs k ih =>
    refine ⟨fun w w' hw' => ?_, fun r => ih r (hp.2 r)⟩
    simp only [List.mem_cons, List.mem_map] at hw'
    rcases hw' with hw' | hw' | ⟨s', hs', hw'⟩
    · exact ⟨w h, hp.1 (w h) _ (by simp), hw'.trans (Function.update_eq_self h w).symm⟩
    · exact ⟨_, hp.1 (w h) _ (by simp), hw'⟩
    · exact ⟨s', hp.1 (w h) _ (by simp [hs']), hw'.symm⟩
  | acquire l errs k ih => exact fun r => ih r (hp r)
  | release l k ih => exact ih hp

theorem Within.next {p p' : Prog σ κ ε α} {s s' : σ} {i : Outcome ε} (h : p.Within G) (hn : p.next i s = some (p', s')) :
    (s' = s ∨ G s s') ∧ p'.Within G := by
  cases p with
  | ret a => cases hn
  | raise e => cases hn
  | io f mid errs k =>
    cases i with
    | ok => cases hn; exact ⟨.inr (h.1 s _ (by simp)), h.2 _⟩
    | fault e n =>
      simp only [Prog.next] at hn
      split at hn
      · obtain ⟨t, ht, he⟩ := Option.map_eq_some_iff.mp hn
        simp only [Prod.mk.injEq] at he
        obtain ⟨rfl, rfl⟩ := he
        exact ⟨.inr (h.1 s t (List.mem_of_getElem? ht)), h.2 _⟩
      · cases hn
  | acquire l errs k =>
    cases i with
    | ok => cases hn; exact ⟨.inl rfl, h _⟩
    | fault e n =>
      simp only [Prog.next] at hn
      split at hn
      · cases hn; exact ⟨.inl rfl, h _⟩
      · cases hn
  | release l k =>
    cases i with
    | ok => cases hn; exact ⟨.inl rfl, h⟩
    | fault e n => cases hn

end Prog

/-! ## Runs -/

section Runs

variable [DecidableEq κ] {allowed : Prog σ κ ε Unit → Prop} {C : σ → σ → Prop} {s₀ : σ} {a b : Sys σ κ ε}

theorem Proc.next_within {G : σ → σ → Prop} {others : List κ} {i : Outcome ε} {q q' : Proc σ κ ε} {s s' : σ}
    (h : q.prog.Within G) (hn : q.next others i s = some (q', s')) : (s' = s ∨ G s s') ∧ q'.prog.Within G := by
  obtain ⟨p, held⟩ := q
  unfold Proc.next at hn
  dsimp only at hn h
  split at hn
  · split at hn
    · cases hn
    · cases hn
      exact ⟨.inl rfl, h _⟩
  · cases hn
    exact ⟨.inl rfl, h⟩
  · obtain ⟨x, hx, he⟩ := Option.map_eq_some_iff.mp hn
    cases he
    exact h.next hx

/-- A step of a system whose programs keep to `G` leaves the store or makes a `G`-step. -/
theorem Sys.Step.within {G : σ → σ → Prop} (hall : ∀ p, allowed p → p.Within G) (h : a.Step allowed b)
    (ha : ∀ q ∈ a.procs, q.prog.Within G) :
    (b.store = a.store ∨ G a.store b.store) ∧ ∀ q ∈ b.procs, q.prog.Within G := by
  cases h with
  | start p hp =>
    refine ⟨.inl rfl, fun q hq => ?_⟩
    rcases List.mem_cons.mp hq with rfl | hq
    · exact hall p hp
    · exact ha q hq
  | @step s s' q q' before after i hn =>
    obtain ⟨hG, hq'⟩ := Proc.next_within (ha q (by simp)) hn
    refine ⟨hG, fun r hr => ?_⟩
    rcases List.mem_append.mp hr with hr | hr
    · exact ha r (List.mem_append_left _ hr)
    · rcases List.mem_cons.mp hr with rfl | hr
      · exact hq'
      · exact ha r (List.mem_append_right _ (List.mem_cons_of_mem _ hr))
  | @crash s q before after =>
    refine ⟨.inl rfl, fun r hr => ha r ?_⟩
    rcases List.mem_append.mp hr with hr | hr
    · exact List.mem_append_left _ hr
    · exact List.mem_append_right _ (List.mem_cons_of_mem _ hr)

/-- **Invariants of runs.** What the steps of the programs preserve, under the condition of the run, holds throughout. -/
theorem Run.invariant {G : σ → σ → Prop} {J : σ → Prop} (hall : ∀ p, allowed p → p.Within G)
    (hJ : ∀ s s', J s → G s s' → C s s' → J s') (h₀ : J s₀) (h : Run allowed C s₀ a) : J a.store := by
  suffices J a.store ∧ ∀ q ∈ a.procs, q.prog.Within G from this.1
  induction h with
  | nil => exact ⟨h₀, by simp⟩
  | cons _ hstep hC ih =>
    obtain ⟨hG, hw⟩ := hstep.within hall ih.2
    refine ⟨?_, hw⟩
    rcases hG with he | hG
    · exact he ▸ ih.1
    · exact hJ _ _ ih.1 hG hC

end Runs

/-! ## Programs that run alone -/

/-- A step of a process that is alone. -/
theorem Proc.next_alone [DecidableEq κ] {i : Outcome ε} {q : Proc σ κ ε} {p' : Prog σ κ ε Unit} {s s' : σ}
    (h : q.prog.next i s = some (p', s')) : ∃ held, q.next [] i s = some (⟨p', held⟩, s') := by
  obtain ⟨p, held⟩ := q
  unfold Proc.next
  dsimp only at h ⊢
  split
  · cases h
    exact ⟨_, by rw [if_neg List.not_mem_nil]⟩
  · cases h
    exact ⟨_, rfl⟩
  · exact ⟨held, by rw [h]; rfl⟩

/-- A condition that every step satisfies. -/
abbrev Anywhere : σ → σ → Prop := fun _ _ => True

theorem Run.exec [DecidableEq κ] {allowed : Prog σ κ ε Unit → Prop} {s₀ : σ} :
    ∀ {is : List (Outcome ε)} {q : Proc σ κ ε} {s s' : σ} {p' : Prog σ κ ε Unit},
      Run allowed Anywhere s₀ ⟨s, [q]⟩ → Prog.exec is q.prog s = some (p', s') →
      ∃ held, Run allowed Anywhere s₀ ⟨s', [⟨p', held⟩]⟩
  | [], q, s, s', p', h, he => by
    cases he
    exact ⟨q.held, h⟩
  | i :: is, q, s, s', p', h, he => by
    obtain ⟨x, hx, he⟩ := Option.bind_eq_some_iff.mp he
    obtain ⟨held, hstep⟩ := Proc.next_alone hx
    exact Run.exec (q := ⟨x.1, held⟩) (h.cons (.step [] [] i hstep) trivial) he

/-- **Sequential runs.** A program that starts alone may run to any store that it visits, and crash there. -/
theorem Run.trans_visits [DecidableEq κ] {allowed : Prog σ κ ε Unit → Prop} {s₀ s s' : σ} {p : Prog σ κ ε Unit}
    (h : Run allowed Anywhere s₀ ⟨s, []⟩) (hp : allowed p) (hv : p.Visits s s') : Run allowed Anywhere s₀ ⟨s', []⟩ := by
  obtain ⟨p', is, he⟩ := hv
  obtain ⟨held, h⟩ := Run.exec (h.cons (.start p hp) trivial) he
  exact h.cons (.crash [] []) trivial

/-- The stores of the first `n` steps without faults. -/
def Prog.trace {α : Type} : Nat → Prog σ κ ε α → σ → List σ
  | n + 1, io f _ _ k, s => s :: (k (f s).1).trace n (f s).2
  | n + 1, acquire _ _ k, s => s :: (k (.ok ())).trace n s
  | n + 1, release _ k, s => s :: k.trace n s
  | _, _, s => [s]

/-- **Recorded runs.** A program that starts alone and crashes after some steps makes steps between the stores of its trace. -/
theorem Run.trans_after [DecidableEq κ] {allowed : Prog σ κ ε Unit → Prop} {C : σ → σ → Prop} {I : σ → Prop} {s₀ s : σ}
    {p : Prog σ κ ε Unit} (hC : ∀ t t', I t → I t' → C t t') (h : Run allowed C s₀ ⟨s, []⟩) (hp : allowed p) (n : Nat)
    (htrace : ∀ t ∈ p.trace n s, I t) : Run allowed C s₀ ⟨p.after n s, []⟩ := by
  have hself : ∀ (n : Nat) (p : Prog σ κ ε Unit) (s : σ), s ∈ p.trace n s := by
    intro n p s
    cases n <;> cases p <;> simp [Prog.trace]
  have hlast : ∀ (n : Nat) (q : Proc σ κ ε) (s : σ), Run allowed C s₀ ⟨s, [q]⟩ → (∀ t ∈ q.prog.trace n s, I t) →
      I (q.prog.after n s) ∧ ∃ q', Run allowed C s₀ ⟨q.prog.after n s, [q']⟩ := by
    intro n
    induction n with
    | zero =>
      intro q s h htrace
      exact ⟨htrace s (hself 0 q.prog s), q, h⟩
    | succ n ih =>
      intro q s h htrace
      have hs := htrace s (hself _ q.prog s)
      have hstep {p' : Prog σ κ ε Unit} {s' : σ} (hn : q.prog.next .ok s = some (p', s')) (hrest : ∀ t ∈ p'.trace n s', I t) :
          I (p'.after n s') ∧ ∃ q', Run allowed C s₀ ⟨p'.after n s', [q']⟩ := by
        obtain ⟨held, hn⟩ := Proc.next_alone hn
        exact ih ⟨p', held⟩ s' (h.cons (.step [] [] .ok hn) (hC s s' hs (hrest s' (hself n p' s')))) hrest
      obtain ⟨p, held⟩ := q
      cases p with
      | ret a => exact ⟨hs, _, h⟩
      | raise e => exact ⟨hs, _, h⟩
      | io f mid errs k => exact hstep rfl fun t ht => htrace t (List.mem_cons_of_mem _ ht)
      | acquire l errs k => exact hstep rfl fun t ht => htrace t (List.mem_cons_of_mem _ ht)
      | release l k => exact hstep rfl fun t ht => htrace t (List.mem_cons_of_mem _ ht)
  have hs := htrace s (hself n p s)
  obtain ⟨hlast, q, h⟩ := hlast n ⟨p, []⟩ s (h.cons (.start p hp) (hC s s hs hs)) htrace
  exact h.cons (.crash [] []) (hC _ _ hlast hlast)

end Durable
