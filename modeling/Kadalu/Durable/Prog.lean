import Mathlib.Logic.Basic
import Mathlib.Data.Option.Basic

/-!
# Programs of durable steps

A program works on a store `σ` in atomic steps. Each step (`io`) has its regular effect and the durable states `mid` in
which an interruption can leave the store; when it is interrupted, the program sees one of the exceptions `errs`, with
the store as before, as after, or in one of the states `mid`. Locks are taken and dropped by steps of their own, so that
a system of processes can order them (`Interleave.lean`); alone, a program never waits.

* `Prog.run`: the run without faults, a function.
* `Prog.exec`: the run under a schedule of outcomes. A crash after any step is a schedule that stops there.
-/

namespace Durable

/-- What the environment does to one step: it lets it pass, or interrupts it with exception `e`, leaving the `n`-th of
the possible states. -/
inductive Outcome (ε : Type) where
  | ok
  | fault (e : ε) (n : Nat)
  deriving DecidableEq, Repr

/-- A program on a store `σ` with locks `κ`, exceptions `ε` and result `α`. -/
inductive Prog (σ κ ε α : Type) : Type 1 where
  | ret (a : α)
  | raise (e : ε)
  | io {β : Type} (f : σ → Except ε β × σ) (mid : σ → List σ) (errs : ε → Bool) (k : Except ε β → Prog σ κ ε α)
  | acquire (l : κ) (errs : ε → Bool) (k : Except ε Unit → Prog σ κ ε α)
  | release (l : κ) (k : Prog σ κ ε α)

namespace Prog

variable {σ κ ε α β γ : Type}

/-- Continue with what the program ended with, a result or an exception. -/
def andThen : Prog σ κ ε α → (Except ε α → Prog σ κ ε β) → Prog σ κ ε β
  | ret a, g => g (.ok a)
  | raise e, g => g (.error e)
  | io f mid errs k, g => io f mid errs fun r => (k r).andThen g
  | acquire l errs k, g => acquire l errs fun r => (k r).andThen g
  | release l k, g => release l (k.andThen g)

/-- An exception skips the rest of the program. -/
def onOk (g : α → Prog σ κ ε β) : Except ε α → Prog σ κ ε β
  | .ok a => g a
  | .error e => raise e

instance : Monad (Prog σ κ ε) where
  pure := ret
  bind p g := p.andThen (onOk g)

instance : MonadExcept ε (Prog σ κ ε) where
  throw := raise
  tryCatch p h := p.andThen fun
    | .ok a => ret a
    | .error e => h e

/-- The result of a pure computation that may raise. -/
def ofExcept : Except ε α → Prog σ κ ε α
  | .ok a => ret a
  | .error e => raise e

/-- One atomic step. -/
def step (f : σ → Except ε β × σ) (mid : σ → List σ) (errs : ε → Bool) : Prog σ κ ε β := io f mid errs ofExcept

/-- One atomic step that only reads. -/
def read (errs : ε → Bool) (g : σ → Except ε β) : Prog σ κ ε β := step (fun s => (g s, s)) (fun _ => []) errs

/-- A body that holds the lock `l`, which it drops however it ends. -/
def withLock (l : κ) (errs : ε → Bool) (body : Prog σ κ ε α) : Prog σ κ ε α :=
  acquire l errs fun
    | .ok () => body.andThen fun r => release l (ofExcept r)
    | .error e => raise e

/-- The first result that is not `none`, over a list. -/
def firstM (g : γ → Prog σ κ ε (Option β)) : List γ → Prog σ κ ε (Option β)
  | [] => pure none
  | x :: xs => do
    match ← g x with
    | some b => pure (some b)
    | none => firstM g xs

/-! ## Runs -/

/-- The run without faults. -/
def run : Prog σ κ ε α → σ → Except ε α × σ
  | ret a, s => (.ok a, s)
  | raise e, s => (.error e, s)
  | io f _ _ k, s => (k (f s).1).run (f s).2
  | acquire _ _ k, s => (k (.ok ())).run s
  | release _ k, s => k.run s

/-- One step under an outcome; `none` at the end of the program and for an exception the step cannot raise. -/
def next (i : Outcome ε) : Prog σ κ ε α → σ → Option (Prog σ κ ε α × σ)
  | ret _, _ => none
  | raise _, _ => none
  | io f mid errs k, s =>
    match i with
    | .ok => some (k (f s).1, (f s).2)
    | .fault e n => if errs e then ((s :: (f s).2 :: mid s)[n]?).map fun s' => (k (.error e), s') else none
  | acquire _ errs k, s =>
    match i with
    | .ok => some (k (.ok ()), s)
    | .fault e _ => if errs e then some (k (.error e), s) else none
  | release _ k, s =>
    match i with
    | .ok => some (k, s)
    | .fault _ _ => none

/-- The run under a schedule of outcomes. -/
def exec : List (Outcome ε) → Prog σ κ ε α → σ → Option (Prog σ κ ε α × σ)
  | [], p, s => some (p, s)
  | i :: is, p, s => (p.next i s).bind fun x => exec is x.1 x.2

/-- The program reaches the store `s'` in some run, and is then `p'`. -/
def Reaches (p : Prog σ κ ε α) (s : σ) (p' : Prog σ κ ε α) (s' : σ) : Prop := ∃ is, exec is p s = some (p', s')

/-- The store after some run of the program that faults or a crash may end anywhere. -/
def Visits (p : Prog σ κ ε α) (s s' : σ) : Prop := ∃ p', p.Reaches s p' s'

theorem Visits.refl (p : Prog σ κ ε α) (s : σ) : p.Visits s s := ⟨p, [], rfl⟩

section Simp

variable {f : σ → Except ε β × σ} {mid : σ → List σ} {errs : ε → Bool} {s : σ}

@[simp] theorem pure_eq (a : α) : (pure a : Prog σ κ ε α) = ret a := rfl
@[simp] theorem throw_eq (e : ε) : (throw e : Prog σ κ ε α) = raise e := rfl
@[simp] theorem bind_eq (p : Prog σ κ ε α) (g : α → Prog σ κ ε β) : (p >>= g) = p.andThen (onOk g) := rfl
@[simp] theorem onOk_ok (g : α → Prog σ κ ε β) (a : α) : onOk g (.ok a) = g a := rfl
@[simp] theorem onOk_error (g : α → Prog σ κ ε β) (e : ε) : onOk g (.error e) = raise e := rfl
@[simp] theorem ofExcept_ok (a : α) : (ofExcept (.ok a) : Prog σ κ ε α) = ret a := rfl
@[simp] theorem ofExcept_error (e : ε) : (ofExcept (.error e) : Prog σ κ ε α) = raise e := rfl

@[simp] theorem run_ret (a : α) : (ret a : Prog σ κ ε α).run s = (.ok a, s) := rfl
@[simp] theorem run_raise (e : ε) : (raise e : Prog σ κ ε α).run s = (.error e, s) := rfl
@[simp] theorem run_release (l : κ) (k : Prog σ κ ε α) : (release l k).run s = k.run s := rfl
@[simp] theorem run_acquire (l : κ) (k : Except ε Unit → Prog σ κ ε α) :
    (acquire l errs k).run s = (k (.ok ())).run s := rfl

@[simp] theorem run_andThen (p : Prog σ κ ε α) (g : Except ε α → Prog σ κ ε β) (s : σ) :
    (p.andThen g).run s = (g (p.run s).1).run (p.run s).2 := by
  induction p generalizing s with
  | ret a => rfl
  | raise e => rfl
  | io f mid errs k ih => exact ih _ _
  | acquire l errs k ih => exact ih _ _
  | release l k ih => exact ih _

@[simp] theorem run_ofExcept (r : Except ε α) : (ofExcept r : Prog σ κ ε α).run s = (r, s) := by cases r <;> rfl

@[simp] theorem run_step : (step f mid errs : Prog σ κ ε β).run s = f s := by
  show (ofExcept (f s).1 : Prog σ κ ε β).run (f s).2 = f s
  rw [run_ofExcept]

@[simp] theorem run_read (g : σ → Except ε β) : (read errs g : Prog σ κ ε β).run s = (g s, s) := run_step

@[simp] theorem run_withLock (l : κ) (p : Prog σ κ ε α) : (withLock l errs p).run s = p.run s := by
  simp [withLock]

end Simp

theorem andThen_assoc (p : Prog σ κ ε α) (f : Except ε α → Prog σ κ ε β) (g : Except ε β → Prog σ κ ε γ) :
    (p.andThen f).andThen g = p.andThen fun r => (f r).andThen g := by
  induction p with
  | ret a => rfl
  | raise e => rfl
  | io h mid errs k ih => exact congrArg (io h mid errs) (funext ih)
  | acquire l errs k ih => exact congrArg (acquire l errs) (funext ih)
  | release l k ih => exact congrArg (release l) ih

/-! ## Schedules -/

theorem exec_append (is js : List (Outcome ε)) (p : Prog σ κ ε α) (s : σ) :
    exec (is ++ js) p s = (exec is p s).bind fun x => exec js x.1 x.2 := by
  induction is generalizing p s with
  | nil => rfl
  | cons i is ih =>
    simp only [List.cons_append, exec, Option.bind_assoc]
    congr 1
    funext x
    exact ih _ _

theorem Reaches.trans {p q r : Prog σ κ ε α} {s t u : σ} (h₁ : p.Reaches s q t) (h₂ : q.Reaches t r u) :
    p.Reaches s r u := by
  obtain ⟨is, h₁⟩ := h₁
  obtain ⟨js, h₂⟩ := h₂
  exact ⟨is ++ js, by rw [exec_append, h₁]; exact h₂⟩

/-- A run without faults is a run. -/
theorem run_reaches (p : Prog σ κ ε α) (s : σ) : p.Reaches s (ofExcept (p.run s).1) (p.run s).2 := by
  induction p generalizing s with
  | ret a => exact ⟨[], rfl⟩
  | raise e => exact ⟨[], rfl⟩
  | io f mid errs k ih => obtain ⟨is, h⟩ := ih (f s).1 (f s).2; exact ⟨.ok :: is, h⟩
  | acquire l errs k ih => obtain ⟨is, h⟩ := ih (.ok ()) s; exact ⟨.ok :: is, h⟩
  | release l k ih => obtain ⟨is, h⟩ := ih s; exact ⟨.ok :: is, h⟩

theorem run_visits (p : Prog σ κ ε α) (s : σ) : p.Visits s (p.run s).2 := ⟨_, p.run_reaches s⟩

/-- The store after `n` steps without faults. -/
def after : Nat → Prog σ κ ε α → σ → σ
  | n + 1, io f _ _ k, s => (k (f s).1).after n (f s).2
  | n + 1, acquire _ _ k, s => (k (.ok ())).after n s
  | n + 1, release _ k, s => k.after n s
  | _, _, s => s

theorem Visits.cons {p p' : Prog σ κ ε α} {s t u : σ} {i : Outcome ε} (hn : p.next i s = some (p', t))
    (h : p'.Visits t u) : p.Visits s u := by
  obtain ⟨q, is, h⟩ := h
  exact ⟨q, i :: is, by rw [exec, hn]; exact h⟩

theorem after_visits : ∀ (n : Nat) (p : Prog σ κ ε α) (s : σ), p.Visits s (p.after n s)
  | 0, p, s => .refl p s
  | _ + 1, ret _, s => .refl _ s
  | _ + 1, raise _, s => .refl _ s
  | n + 1, io f _ _ k, s => .cons (i := .ok) rfl (after_visits n (k (f s).1) (f s).2)
  | n + 1, acquire _ _ k, s => .cons (i := .ok) rfl (after_visits n (k (.ok ())) s)
  | n + 1, release _ k, s => .cons (i := .ok) rfl (after_visits n k s)

end Prog

end Durable
