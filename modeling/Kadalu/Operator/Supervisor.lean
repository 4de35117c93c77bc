import Mathlib.Logic.Function.Basic
import Mathlib.Logic.Relation
import Mathlib.Data.List.Nodup

/-!
# The supervisor of the operator

`OperatorMonitor` starts the operator and the metrics as child processes, polls each of them once a second and starts again what has
ended. The probe of the pod looks for a file. The operator writes it when it is ready, and removes it when it is not any more, when
it starts and when it ends. A process that is killed leaves it, so the supervisor removes it when a poll shows that the operator has
ended, and only then starts the next one.

Both `OperatorMonitor.monitor_proc` and `Monitor.monitor_proc` poll: an operator that ends between the two polls is started again
without the removal. Its successor removes the file when it starts.

* `Step`: one atomic step of the supervisor or of a child process, or a signal to the supervisor.
* `Sound`: no process outside of the table, and no readiness of another process. `Here`: what holds where the supervisor is.
* `supervision_honest`: what follows in every reachable state.
-/

namespace Kadalu.Supervisor

/-- A child process; the operator runs once it has removed the file, with whether it has said since that it is ready. -/
inductive Life where
  | ended
  | other
  | starting
  | running (ready : Bool)

/-- Where the supervisor is. A pass has what `terminating` was when it began, and the processes to come. -/
inductive Pc (N : Type) where
  | begin
  | starting (rest : List N)
  | loop
  | visit (terminating : Bool) (rest : List N)
  /-- the operator has ended -/
  | clearing (rest : List N)
  | poll (terminating cleared : Bool) (rest : List N)
  /-- the process has ended and is out of the table -/
  | restart (cleared : Bool) (name : N) (rest : List N)
  /-- before the last `clear_operator_ready`, and whether there has been an exception -/
  | leaving (raised : Bool)
  | gone (raised : Bool)

variable {N : Type} [DecidableEq N]

namespace Pc

omit [DecidableEq N] in
/-- Before `monitor` -/
def begins : Pc N → Bool
  | begin | starting _ => true
  | _ => false

omit [DecidableEq N] in
/-- In `monitor` -/
def monitors : Pc N → Bool
  | loop | visit _ _ | clearing _ | poll _ _ _ | restart _ _ _ => true
  | _ => false

end Pc

/-- The processes and the file. -/
structure World (N : Type) where
  subproc : N → Option Nat
  life : Nat → Life
  fresh : Nat
  ready : Bool

namespace World

/-- `clear_operator_ready` -/
def clear (w : World N) : World N := { w with ready := false }

/-- `ProcState.start` -/
def start (w : World N) (operator name : N) : World N :=
  { w with
    subproc := Function.update w.subproc name (some w.fresh)
    life := Function.update w.life w.fresh (if name = operator then .starting else .other)
    fresh := w.fresh + 1 }

/-- `ProcState.stop` -/
def stop (w : World N) (name : N) : World N :=
  match w.subproc name with
  | none => w
  | some p => { w with subproc := Function.update w.subproc name none, life := Function.update w.life p .ended }

/-- A child process is somewhere else, and has written or removed the file. -/
def become (w : World N) (p : Nat) (life : Life) (ready : Bool) : World N :=
  { w with life := Function.update w.life p life, ready := ready }

/-- No process of the operator is there. -/
def Quiet (w : World N) (operator : N) : Prop := ∀ p, w.subproc operator = some p → w.life p = .ended

end World

/-- The supervisor, with its `terminating`, and the rest. -/
structure State (N : Type) where
  pc : Pc N
  terminating : Bool
  world : World N

/-- Nothing has happened; the file may be there. -/
def initial (ready : Bool) : State N := ⟨.begin, false, ⟨fun _ => none, fun _ => .ended, 0, ready⟩⟩

/-- One step of a child process. -/
inductive ChildStep (w : World N) : World N → Prop
  | begins (p : Nat) (h : w.life p = .starting) : ChildStep w (w.become p (.running false) false)
  | mark (p : Nat) (ready : Bool) (h : w.life p = .running ready) : ChildStep w (w.become p (.running true) true)
  | unmark (p : Nat) (ready : Bool) (h : w.life p = .running ready) : ChildStep w (w.become p (.running false) false)
  | ends (p : Nat) : ChildStep w (w.become p .ended w.ready)

/-- One atomic step. -/
inductive Step (operator : N) (procs : List N) : State N → State N → Prop
  | clearFirst (b : Bool) (w : World N) : Step operator procs ⟨.begin, b, w⟩ ⟨.starting procs, b, w.clear⟩
  | start (name : N) (rest : List N) (b : Bool) (w : World N) :
    Step operator procs ⟨.starting (name :: rest), b, w⟩ ⟨.starting rest, b, w.start operator name⟩
  | started (b : Bool) (w : World N) : Step operator procs ⟨.starting [], b, w⟩ ⟨.loop, b, w⟩
  | beginFailed (pc : Pc N) (b : Bool) (w : World N) (h : pc.begins = true) : Step operator procs ⟨pc, b, w⟩ ⟨.gone true, b, w⟩
  | pass (b : Bool) (w : World N) : Step operator procs ⟨.loop, b, w⟩ ⟨.visit b procs, b, w⟩
  | look (terminating : Bool) (name : N) (rest : List N) (b : Bool) (w : World N)
    (h : terminating = false → name = operator → ∀ p, w.subproc name = some p → w.life p ≠ .ended) :
    Step operator procs ⟨.visit terminating (name :: rest), b, w⟩ ⟨.poll terminating false (name :: rest), b, w⟩
  | lookEnded (p : Nat) (rest : List N) (b : Bool) (w : World N) (h : w.subproc operator = some p) (hp : w.life p = .ended) :
    Step operator procs ⟨.visit false (operator :: rest), b, w⟩ ⟨.clearing (operator :: rest), b, w⟩
  | clear (rest : List N) (b : Bool) (w : World N) :
    Step operator procs ⟨.clearing rest, b, w⟩ ⟨.poll false true rest, b, w.clear⟩
  | stop (cleared : Bool) (name : N) (rest : List N) (b : Bool) (w : World N) :
    Step operator procs ⟨.poll true cleared (name :: rest), b, w⟩ ⟨.visit true rest, b, w.stop name⟩
  | alive (cleared : Bool) (p : Nat) (name : N) (rest : List N) (b : Bool) (w : World N) (h : w.subproc name = some p)
    (hp : w.life p ≠ .ended) : Step operator procs ⟨.poll false cleared (name :: rest), b, w⟩ ⟨.visit false rest, b, w⟩
  | ended (cleared : Bool) (p : Nat) (name : N) (rest : List N) (b : Bool) (w : World N) (h : w.subproc name = some p)
    (hp : w.life p = .ended) :
    Step operator procs ⟨.poll false cleared (name :: rest), b, w⟩ ⟨.restart cleared name rest, b, w.stop name⟩
  /-- `None` has no `poll` -/
  | unstarted (cleared : Bool) (name : N) (rest : List N) (b : Bool) (w : World N) (h : w.subproc name = none) :
    Step operator procs ⟨.poll false cleared (name :: rest), b, w⟩ ⟨.leaving true, b, w⟩
  | restarted (cleared : Bool) (name : N) (rest : List N) (b : Bool) (w : World N) :
    Step operator procs ⟨.restart cleared name rest, b, w⟩ ⟨.visit false rest, b, w.start operator name⟩
  | passed (b : Bool) (w : World N) : Step operator procs ⟨.visit false [], b, w⟩ ⟨.loop, b, w⟩
  | exit (b : Bool) (w : World N) : Step operator procs ⟨.visit true [], b, w⟩ ⟨.leaving false, b, w⟩
  | raised (pc : Pc N) (b : Bool) (w : World N) (h : pc.monitors = true) : Step operator procs ⟨pc, b, w⟩ ⟨.leaving true, b, w⟩
  | leave (raised : Bool) (b : Bool) (w : World N) : Step operator procs ⟨.leaving raised, b, w⟩ ⟨.gone raised, b, w.clear⟩
  | leaveFailed (raised : Bool) (b : Bool) (w : World N) : Step operator procs ⟨.leaving raised, b, w⟩ ⟨.gone true, b, w⟩
  /-- `exit_gracefully` -/
  | signal (pc : Pc N) (b : Bool) (w : World N) : Step operator procs ⟨pc, b, w⟩ ⟨pc, true, w⟩
  | child (pc : Pc N) (b : Bool) (w w' : World N) (h : ChildStep w w') : Step operator procs ⟨pc, b, w⟩ ⟨pc, b, w'⟩

/-! ## The invariant -/

/-- Every process is in the table, the operator's under its name, and a running operator has said itself that it is ready. -/
structure Sound (operator : N) (procs : List N) (w : World N) : Prop where
  listed : ∀ p, w.life p ≠ .ended → ∃ name ∈ procs, w.subproc name = some p
  lt : ∀ name p, w.subproc name = some p → p < w.fresh
  unique : ∀ name name' p, w.subproc name = some p → w.subproc name' = some p → name = name'
  others : ∀ name p, w.subproc name = some p → name ≠ operator → w.life p = .ended ∨ w.life p = .other
  honest : ∀ p ready, w.life p = .running ready → w.ready = true → ready = true

/-- What holds where the supervisor is. -/
def Here (operator : N) (procs : List N) (w : World N) : Pc N → Prop
  | .begin => ∀ name, w.subproc name = none
  | .starting rest => rest.Nodup ∧ rest ⊆ procs ∧ (∀ name ∈ rest, w.subproc name = none) ∧
    ∀ name ∈ procs, name ∉ rest → w.subproc name ≠ none
  | .loop => ∀ name ∈ procs, w.subproc name ≠ none
  | .visit false rest => rest ⊆ procs ∧ ∀ name ∈ procs, w.subproc name ≠ none
  | .clearing rest => rest ⊆ procs ∧ (∀ name ∈ procs, w.subproc name ≠ none) ∧ rest.head? = some operator ∧ w.Quiet operator
  | .poll false cleared rest => rest ⊆ procs ∧ (∀ name ∈ procs, w.subproc name ≠ none) ∧
    (cleared = true → rest.head? = some operator ∧ w.Quiet operator ∧ w.ready = false)
  | .restart cleared name rest => name ∈ procs ∧ rest ⊆ procs ∧ w.subproc name = none ∧
    (∀ name' ∈ procs, name' ≠ name → w.subproc name' ≠ none) ∧ (cleared = true → name = operator ∧ w.ready = false)
  | .visit true rest | .poll true _ rest => ∀ name ∈ procs, name ∉ rest → w.subproc name = none
  | .leaving false => ∀ name ∈ procs, w.subproc name = none
  | .gone false => (∀ name ∈ procs, w.subproc name = none) ∧ w.ready = false
  | .leaving true | .gone true => True

variable {operator name : N} {procs : List N} {w w' : World N} {s s' : State N}

theorem start_subproc (w : World N) (operator name name' : N) :
    (w.start operator name).subproc name' = if name' = name then some w.fresh else w.subproc name' := Function.update_apply _ _ _ _

theorem start_life (w : World N) (operator name : N) (p : Nat) :
    (w.start operator name).life p = if p = w.fresh then (if name = operator then .starting else .other) else w.life p :=
  Function.update_apply _ _ _ _

theorem stop_none (h : w.subproc name = none) : w.stop name = w := by
  unfold World.stop
  split
  · rfl
  · rename_i p hp
    rw [h] at hp
    cases hp

theorem stop_some {p : Nat} (h : w.subproc name = some p) : w.stop name =
    { w with subproc := Function.update w.subproc name none, life := Function.update w.life p .ended } := by
  unfold World.stop
  split
  · rename_i hp
    rw [h] at hp
    cases hp
  · rename_i p' hp
    rw [h] at hp
    cases hp
    rfl

theorem stop_subproc (w : World N) (name name' : N) : (w.stop name).subproc name' = if name' = name then none else w.subproc name' := by
  cases h : w.subproc name with
  | none =>
    rw [stop_none h]
    split
    · rename_i heq
      rw [heq, h]
    · rfl
  | some p =>
    rw [stop_some h]
    exact Function.update_apply _ _ _ _

theorem stop_life (w : World N) (name : N) (p : Nat) :
    (w.stop name).life p = if w.subproc name = some p then .ended else w.life p := by
  cases h : w.subproc name with
  | none => simp [stop_none h]
  | some p' => simp [stop_some h, Function.update_apply, eq_comm]

@[simp] theorem stop_fresh (w : World N) (name : N) : (w.stop name).fresh = w.fresh := by
  cases h : w.subproc name with
  | none => rw [stop_none h]
  | some p => rw [stop_some h]

@[simp] theorem stop_ready (w : World N) (name : N) : (w.stop name).ready = w.ready := by
  cases h : w.subproc name with
  | none => rw [stop_none h]
  | some p => rw [stop_some h]

namespace Sound

omit [DecidableEq N] in
theorem clear (h : Sound operator procs w) : Sound operator procs w.clear where
  listed := h.listed
  lt := h.lt
  unique := h.unique
  others := h.others
  honest _ _ _ hready := by cases hready

/-- A process starts under a name that has none. -/
theorem start (h : Sound operator procs w) (hname : name ∈ procs) (hnone : w.subproc name = none) :
    Sound operator procs (w.start operator name) where
  listed p hp := by
    rw [start_life] at hp
    split at hp
    · rename_i hfresh
      exact ⟨name, hname, by rw [start_subproc, if_pos rfl, hfresh]⟩
    · obtain ⟨other, hmem, hother⟩ := h.listed p hp
      have hne : other ≠ name := by
        rintro rfl
        rw [hnone] at hother
        cases hother
      exact ⟨other, hmem, by rw [start_subproc, if_neg hne, hother]⟩
  lt other p hother := by
    rw [start_subproc] at hother
    split at hother
    · cases hother
      exact Nat.lt_succ_self _
    · exact Nat.lt_succ_of_lt (h.lt other p hother)
  unique other other' p hother hother' := by
    rw [start_subproc] at hother hother'
    split at hother <;> split at hother'
    · rename_i heq heq'
      rw [heq, heq']
    · cases hother
      exact absurd (h.lt _ _ hother') (Nat.lt_irrefl _)
    · cases hother'
      exact absurd (h.lt _ _ hother) (Nat.lt_irrefl _)
    · exact h.unique other other' p hother hother'
  others other p hother hne := by
    rw [start_subproc] at hother
    rw [start_life]
    split at hother
    · rename_i heq
      cases hother
      rw [if_pos rfl, if_neg (heq ▸ hne)]
      exact .inr rfl
    · rw [if_neg (Nat.ne_of_lt (h.lt other p hother))]
      exact h.others other p hother hne
  honest p ready hp := by
    rw [start_life] at hp
    split at hp
    · split at hp <;> cases hp
    · exact h.honest p ready hp

/-- A process is stopped. -/
theorem stop (h : Sound operator procs w) : Sound operator procs (w.stop name) where
  listed p hp := by
    rw [stop_life] at hp
    split at hp
    · exact absurd rfl hp
    · rename_i hnot
      obtain ⟨other, hmem, hother⟩ := h.listed p hp
      have hne : other ≠ name := by
        rintro rfl
        exact hnot hother
      exact ⟨other, hmem, by rw [stop_subproc, if_neg hne, hother]⟩
  lt other p hother := by
    rw [stop_subproc] at hother
    split at hother
    · cases hother
    · rw [stop_fresh]
      exact h.lt other p hother
  unique other other' p hother hother' := by
    rw [stop_subproc] at hother hother'
    split at hother
    · cases hother
    · split at hother'
      · cases hother'
      · exact h.unique other other' p hother hother'
  others other p hother hne := by
    rw [stop_subproc] at hother
    rw [stop_life]
    split at hother
    · cases hother
    · split
      · exact .inl rfl
      · exact h.others other p hother hne
  honest p ready hp := by
    rw [stop_life] at hp
    rw [stop_ready]
    split at hp
    · cases hp
    · exact h.honest p ready hp

omit [DecidableEq N] in
/-- The only process of the operator is the one of the table. -/
theorem operator_subproc (h : Sound operator procs w) {p : Nat} (hended : w.life p ≠ .ended) (hother : w.life p ≠ .other) :
    operator ∈ procs ∧ w.subproc operator = some p := by
  obtain ⟨name, hmem, hname⟩ := h.listed p hended
  have heq : name = operator := by
    by_contra hne
    rcases h.others name p hname hne with hl | hl
    · exact hended hl
    · exact hother hl
  exact heq ▸ ⟨hmem, hname⟩

omit [DecidableEq N] in
theorem become {p : Nat} {life : Life} {ready : Bool} (h : Sound operator procs w) (hlive : w.life p = .ended → life = .ended)
    (hothers : ∀ name, w.subproc name = some p → name ≠ operator → life = .ended ∨ life = .other)
    (hhonest : ∀ p' r, (w.become p life ready).life p' = .running r → ready = true → r = true) :
    Sound operator procs (w.become p life ready) where
  listed p' hp' := by
    refine h.listed p' ?_
    by_cases heq : p' = p
    · subst heq
      intro hend
      exact hp' ((Function.update_self _ _ _).trans (hlive hend))
    · exact fun hend => hp' ((Function.update_of_ne heq _ _).trans hend)
  lt := h.lt
  unique := h.unique
  others name p' hname hne := by
    by_cases heq : p' = p
    · subst heq
      rw [show (w.become p' life ready).life p' = life from Function.update_self _ _ _]
      exact hothers name hname hne
    · rw [show (w.become p life ready).life p' = w.life p' from Function.update_of_ne heq _ _]
      exact h.others name p' hname hne
  honest := hhonest

omit [DecidableEq N] in
/-- A process of the operator moves on. -/
theorem operate {p : Nat} {life : Life} {ready : Bool} (h : Sound operator procs w) (hended : w.life p ≠ .ended)
    (hother : w.life p ≠ .other) (hready : ready = true → life = .running true) : Sound operator procs (w.become p life ready) := by
  obtain ⟨-, hmine⟩ := h.operator_subproc hended hother
  refine h.become (fun hp => absurd hp hended) (fun name hname hne => absurd (h.unique _ _ p hname hmine) hne) ?_
  intro p' r hp' htrue
  by_cases heq : p' = p
  · subst heq
    have hlife : life = .running r := (Function.update_self _ _ _).symm.trans hp'
    rw [hready htrue] at hlife
    cases hlife
    rfl
  · have hlife : w.life p' = .running r := (Function.update_of_ne heq _ _).symm.trans hp'
    obtain ⟨-, hmine'⟩ := h.operator_subproc (by rw [hlife]; rintro ⟨⟩) (by rw [hlife]; rintro ⟨⟩)
    rw [hmine] at hmine'
    cases hmine'
    exact absurd rfl heq

omit [DecidableEq N] in
theorem child (h : Sound operator procs w) (hs : ChildStep w w') : Sound operator procs w' := by
  cases hs with
  | begins p hp => exact h.operate (by rw [hp]; rintro ⟨⟩) (by rw [hp]; rintro ⟨⟩) (by rintro ⟨⟩)
  | mark p ready hp => exact h.operate (by rw [hp]; rintro ⟨⟩) (by rw [hp]; rintro ⟨⟩) fun _ => rfl
  | unmark p ready hp => exact h.operate (by rw [hp]; rintro ⟨⟩) (by rw [hp]; rintro ⟨⟩) (by rintro ⟨⟩)
  | ends p =>
    refine h.become (fun _ => rfl) (fun _ _ _ => .inl rfl) fun p' r hp' hready => ?_
    by_cases heq : p' = p
    · subst heq
      cases (Function.update_self _ _ _).symm.trans hp'
    · exact h.honest p' r ((Function.update_of_ne heq _ _).symm.trans hp') hready

end Sound

omit [DecidableEq N] in
theorem ChildStep.subproc (hs : ChildStep w w') : w'.subproc = w.subproc := by
  cases hs <;> rfl

omit [DecidableEq N] in
theorem ChildStep.ended {p : Nat} (hs : ChildStep w w') (hp : w.life p = .ended) : w'.life p = .ended := by
  cases hs with
  | ends q =>
    by_cases heq : p = q
    · subst heq
      exact Function.update_self _ _ _
    · exact (Function.update_of_ne heq _ _).trans hp
  | begins q hq =>
    have heq : p ≠ q := by
      rintro rfl
      rw [hp] at hq
      cases hq
    exact (Function.update_of_ne heq _ _).trans hp
  | mark q ready hq | unmark q ready hq =>
    have heq : p ≠ q := by
      rintro rfl
      rw [hp] at hq
      cases hq
    exact (Function.update_of_ne heq _ _).trans hp

omit [DecidableEq N] in
theorem ChildStep.quiet (hs : ChildStep w w') (h : w.Quiet operator) : w'.Quiet operator :=
  fun p hp => hs.ended (h p (hs.subproc ▸ hp))

omit [DecidableEq N] in
/-- Without a process of the operator, nobody writes the file. -/
theorem ChildStep.ready (hs : ChildStep w w') (h : Sound operator procs w) (hquiet : w.Quiet operator) (hready : w.ready = false) :
    w'.ready = false := by
  cases hs with
  | mark p ready hp =>
    have hended : w.life p ≠ .ended := by rw [hp]; rintro ⟨⟩
    obtain ⟨-, hmine⟩ := h.operator_subproc hended (by rw [hp]; rintro ⟨⟩)
    exact absurd (hquiet p hmine) hended
  | begins p hp => rfl
  | unmark p ready hp => rfl
  | ends p => exact hready

omit [DecidableEq N] in
theorem World.Quiet.of_none (h : w.subproc operator = none) : w.Quiet operator := by
  intro p hp
  rw [h] at hp
  cases hp

omit [DecidableEq N] in
/-- No process of the operator is there where none of the table is. -/
theorem Sound.quiet_of_none (h : Sound operator procs w) (hnone : ∀ name ∈ procs, w.subproc name = none) : w.Quiet operator := by
  intro p hp
  by_contra hended
  obtain ⟨name, hmem, hname⟩ := h.listed p hended
  rw [hnone name hmem] at hname
  cases hname

omit [DecidableEq N] in
theorem Here.child {pc : Pc N} (hs : ChildStep w w') (hsound : Sound operator procs w) (h : Here operator procs w pc) :
    Here operator procs w' pc := by
  have hsub := hs.subproc
  cases pc with
  | begin => exact fun name => hsub ▸ h name
  | starting rest =>
    unfold Here at h ⊢
    rwa [hsub]
  | loop =>
    unfold Here at h ⊢
    rwa [hsub]
  | visit terminating rest => cases terminating <;> · unfold Here at h ⊢; rwa [hsub]
  | clearing rest =>
    unfold Here at h ⊢
    rw [hsub]
    exact ⟨h.1, h.2.1, h.2.2.1, hs.quiet h.2.2.2⟩
  | poll terminating cleared rest =>
    cases terminating with
    | false =>
      unfold Here at h ⊢
      rw [hsub]
      refine ⟨h.1, h.2.1, fun hc => ?_⟩
      obtain ⟨hhead, hquiet, hready⟩ := h.2.2 hc
      exact ⟨hhead, hs.quiet hquiet, hs.ready hsound hquiet hready⟩
    | true =>
      unfold Here at h ⊢
      rwa [hsub]
  | restart cleared name rest =>
    unfold Here at h ⊢
    rw [hsub]
    refine ⟨h.1, h.2.1, h.2.2.1, h.2.2.2.1, fun hc => ?_⟩
    obtain ⟨rfl, hready⟩ := h.2.2.2.2 hc
    exact ⟨rfl, hs.ready hsound (.of_none h.2.2.1) hready⟩
  | leaving raised =>
    cases raised with
    | false =>
      unfold Here at h ⊢
      rwa [hsub]
    | true => trivial
  | gone raised =>
    cases raised with
    | false =>
      unfold Here at h ⊢
      rw [hsub]
      exact ⟨h.1, hs.ready hsound (hsound.quiet_of_none h.1) h.2⟩
    | true => trivial

/-- The invariant. -/
def Inv (operator : N) (procs : List N) (s : State N) : Prop := Sound operator procs s.world ∧ Here operator procs s.world s.pc

omit [DecidableEq N] in
theorem inv_initial (ready : Bool) : Inv operator procs (initial ready) := by
  refine ⟨⟨?_, ?_, ?_, ?_, ?_⟩, fun _ => rfl⟩
  · exact fun p hp => absurd rfl hp
  · rintro name p ⟨⟩
  · rintro name name' p ⟨⟩
  · rintro name p ⟨⟩
  · rintro p r ⟨⟩

theorem Inv.step (hprocs : procs.Nodup) (h : Inv operator procs s) (hs : Step operator procs s s') : Inv operator procs s' := by
  obtain ⟨hsound, hhere⟩ := h
  cases hs with
  | clearFirst b w =>
    exact ⟨hsound.clear, hprocs, fun _ => id, fun name _ => hhere name, fun name hmem hnot => absurd hmem hnot⟩
  | start name rest b w =>
    obtain ⟨hnodup, hsub, hnone, hsome⟩ := hhere
    obtain ⟨hname, hrest⟩ := List.nodup_cons.mp hnodup
    refine ⟨hsound.start (hsub List.mem_cons_self) (hnone name List.mem_cons_self), hrest, fun n hn => hsub (List.mem_cons_of_mem _ hn),
      fun n hn => ?_, fun n hn hnot => ?_⟩
    · have hne : n ≠ name := by
        rintro rfl
        exact hname hn
      rw [start_subproc, if_neg hne]
      exact hnone n (List.mem_cons_of_mem _ hn)
    · rw [start_subproc]
      split
      · rintro ⟨⟩
      · rename_i hne
        exact hsome n hn fun hmem => (List.mem_cons.mp hmem).elim hne hnot
  | started b w => exact ⟨hsound, fun name hmem => hhere.2.2.2 name hmem List.not_mem_nil⟩
  | beginFailed pc b w h => exact ⟨hsound, trivial⟩
  | pass b w =>
    refine ⟨hsound, ?_⟩
    cases b with
    | false => exact ⟨fun _ => id, hhere⟩
    | true => exact fun name hmem hnot => absurd hmem hnot
  | look terminating name rest b w hlook =>
    refine ⟨hsound, ?_⟩
    cases terminating with
    | false => exact ⟨hhere.1, hhere.2, by rintro ⟨⟩⟩
    | true => exact hhere
  | lookEnded p rest b w hp hended =>
    refine ⟨hsound, hhere.1, hhere.2, rfl, fun p' hp' => ?_⟩
    rw [hp] at hp'
    cases hp'
    exact hended
  | clear rest b w => exact ⟨hsound.clear, hhere.1, hhere.2.1, fun _ => ⟨hhere.2.2.1, hhere.2.2.2, rfl⟩⟩
  | stop cleared name rest b w =>
    refine ⟨hsound.stop, fun n hn hnot => ?_⟩
    rw [stop_subproc]
    split
    · rfl
    · rename_i hne
      exact hhere n hn fun hmem => (List.mem_cons.mp hmem).elim hne hnot
  | alive cleared p name rest b w hp hlive => exact ⟨hsound, fun n hn => hhere.1 (List.mem_cons_of_mem _ hn), hhere.2.1⟩
  | ended cleared p name rest b w hp hended =>
    refine ⟨hsound.stop, hhere.1 List.mem_cons_self, fun n hn => hhere.1 (List.mem_cons_of_mem _ hn), ?_, ?_, ?_⟩
    · rw [stop_subproc, if_pos rfl]
    · intro n hn hne
      rw [stop_subproc, if_neg hne]
      exact hhere.2.1 n hn
    · intro hc
      obtain ⟨hhead, -, hready⟩ := hhere.2.2 hc
      cases hhead
      exact ⟨rfl, (stop_ready _ _).trans hready⟩
  | unstarted cleared name rest b w hnone => exact ⟨hsound, trivial⟩
  | restarted cleared name rest b w =>
    obtain ⟨hmem, hsub, hnone, hsome, -⟩ := hhere
    refine ⟨hsound.start hmem hnone, hsub, fun n hn => ?_⟩
    rw [start_subproc]
    split
    · rintro ⟨⟩
    · rename_i hne
      exact hsome n hn hne
  | passed b w => exact ⟨hsound, hhere.2⟩
  | exit b w => exact ⟨hsound, fun n hn => hhere n hn List.not_mem_nil⟩
  | raised pc b w h => exact ⟨hsound, trivial⟩
  | leave raised b w =>
    refine ⟨hsound.clear, ?_⟩
    cases raised with
    | false => exact ⟨hhere, rfl⟩
    | true => trivial
  | leaveFailed raised b w => exact ⟨hsound, trivial⟩
  | signal pc b w => exact ⟨hsound, hhere⟩
  | child pc b w w' hchild => exact ⟨hsound.child hchild, hhere.child hchild hsound⟩

theorem inv_reachable {ready : Bool} (hprocs : procs.Nodup) (h : Relation.ReflTransGen (Step operator procs) (initial ready) s) :
    Inv operator procs s := by
  induction h with
  | refl => exact inv_initial ready
  | tail _ hs ih => exact ih.step hprocs hs

/--
No process is left behind, so that there is one operator at most. One that runs is ready only if it has said so itself; after a
removal for its predecessor it starts without the file. After a regular end there are no processes, and no file.
-/
theorem supervision_honest {ready : Bool} (hprocs : procs.Nodup)
    (h : Relation.ReflTransGen (Step operator procs) (initial ready) s) :
    (∀ p, s.world.life p ≠ .ended → ∃ name ∈ procs, s.world.subproc name = some p) ∧
      (∀ p, s.world.life p ≠ .ended → s.world.life p ≠ .other → s.world.subproc operator = some p) ∧
      (∀ p r, s.world.life p = .running r → s.world.ready = true → r = true) ∧
      (∀ cleared name rest, s.pc = .poll false cleared (name :: rest) → s.world.subproc name ≠ none) ∧
      (∀ name rest, s.pc = .restart true name rest → name = operator ∧ s.world.ready = false) ∧
      (s.pc = .gone false → s.world.ready = false ∧ ∀ p, s.world.life p = .ended) := by
  obtain ⟨hsound, hhere⟩ := inv_reachable hprocs h
  refine ⟨hsound.listed, fun p hp hother => (hsound.operator_subproc hp hother).2, hsound.honest, ?_, ?_, ?_⟩
  · intro cleared name rest hpc
    rw [hpc] at hhere
    exact hhere.2.1 name (hhere.1 List.mem_cons_self)
  · intro name rest hpc
    rw [hpc] at hhere
    exact hhere.2.2.2.2 rfl
  · intro hpc
    rw [hpc] at hhere
    refine ⟨hhere.2, fun p => ?_⟩
    by_contra hlive
    obtain ⟨name, hmem, hname⟩ := hsound.listed p hlive
    rw [hhere.1 name hmem] at hname
    cases hname

/-- An operator that ends between the two polls leaves the file to its successor, which has not started yet. -/
theorem supervision_honest_race : ∃ s : State Bool, s.world.ready = true ∧ s.world.subproc true = some 2 ∧ s.world.life 2 = .starting ∧
    ∀ p, s.world.life p ≠ .ended → ∃ name ∈ [true, false], s.world.subproc name = some p := by
  have hreached : Relation.ReflTransGen (Step true [true, false]) (initial false) _ :=
    .tail (.tail (.tail (.tail (.tail (.tail (.tail (.tail (.tail (.tail (.tail .refl (.clearFirst _ _)) (.start _ _ _ _)) (.start _ _ _ _))
      (.started _ _)) (.child _ _ _ _ (.begins 0 rfl))) (.child _ _ _ _ (.mark 0 false rfl))) (.pass _ _))
      (.look _ _ _ _ _ (by rintro - - p ⟨⟩; rintro ⟨⟩))) (.child _ _ _ _ (.ends 0))) (.ended _ 0 _ _ _ _ rfl rfl)) (.restarted _ _ _ _ _)
  exact ⟨_, rfl, rfl, rfl, (supervision_honest (by decide) hreached).1⟩

end Kadalu.Supervisor
