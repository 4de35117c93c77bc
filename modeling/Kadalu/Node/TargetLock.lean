import Mathlib.Data.Fintype.Card
import Mathlib.Logic.Function.Basic
import Mathlib.Logic.Relation
import Kadalu.Operator.Names

/-!
# Locks of publish targets

A node RPC runs under the lock of its target path (`_target_operation_lock`). The locks are entries of one map, each with
the number of operations that hold it or wait for it: an entry is made by the first of them and removed by the last. Every
access to the map and to a number is under one guard, but a lock itself is taken and released outside of it.

* `Step`: one atomic step of one thread; a body ends by returning or by raising.
* `Inv`: an operation that has an entry finds it in the map, and the number of an entry is that of its operations.
* `targetLock_safe`: what follows in every reachable state.
-/

namespace Kadalu.Node.TargetLock

open Operator (splitChars)

/-! ## Keys -/

/-- One component of `os.path.normpath` of an absolute path. -/
def normComponent (components : List (List Char)) (component : List Char) : List (List Char) :=
  if component = [] ∨ component = ['.'] then components
  else if component = ['.', '.'] then components.dropLast
  else components ++ [component]

/-- The slashes that an absolute path begins with after `os.path.normpath`: POSIX keeps exactly two. -/
def rootSlashes (path : List Char) : List Char :=
  if ['/', '/'].isPrefixOf path && !(['/', '/', '/'].isPrefixOf path) then ['/', '/'] else ['/']

/-- `os.path.normpath` of an absolute path -/
def normpath (path : List Char) : List Char :=
  rootSlashes path ++ ['/'].intercalate ((splitChars '/' path).foldl normComponent [])

/-- `os.path.join` -/
def join (cwd path : List Char) : List Char :=
  if ['/'].isPrefixOf path then path
  else if cwd = [] || cwd.getLast? = some '/' then cwd ++ path
  else cwd ++ ['/'] ++ path

/-- `os.path.normpath(os.path.abspath(target_path or os.curdir))`, in the working directory `cwd` -/
def targetKey (cwd targetPath : String) : String :=
  String.ofList (normpath (join cwd.toList (if targetPath = "" then ['.'] else targetPath.toList)))

/-! ## Threads -/

/-- Where a thread is in `_target_operation_lock`; an entry is known by its number. -/
inductive Pc where
  | idle
  | enter (key : String)
  | lookup (key : String)
  | insert (key : String)
  | count (key : String) (entry : Nat)
  | leave (key : String) (entry : Nat)
  | acquire (key : String) (entry : Nat)
  | body (key : String) (entry : Nat)
  | release (key : String) (entry : Nat)
  | reenter (key : String) (entry : Nat)
  | discount (key : String) (entry : Nat)
  | check (key : String) (entry : Nat)
  | exit
  deriving DecidableEq, Repr

namespace Pc

/-- The thread holds the guard. -/
def guarded : Pc → Bool
  | lookup _ | insert _ | count _ _ | leave _ _ | discount _ _ | check _ _ | exit => true
  | _ => false

/-- The entry that the thread has found or made, and its key. -/
def entry : Pc → Option (String × Nat)
  | count k e | leave k e | acquire k e | body k e | release k e | reenter k e | discount k e | check k e => some (k, e)
  | _ => none

/-- The thread is counted in its entry: it waits for the lock, holds it, or has not yet taken itself out. -/
def counted : Pc → Bool
  | leave _ _ | acquire _ _ | body _ _ | release _ _ | reenter _ _ | discount _ _ => true
  | _ => false

/-- The thread holds the lock of its entry. -/
def holds : Pc → Bool
  | body _ _ | release _ _ => true
  | _ => false

/-- The thread is counted in this entry. -/
def uses (e : Nat) (p : Pc) : Bool := p.counted && (p.entry.map Prod.snd == some e)

end Pc

/-- The map of the locks, and where the threads are. -/
structure State (T : Type) where
  guard : Option T
  targetLocks : String → Option Nat
  holder : Nat → Option T
  count : Nat → Int
  /-- the next entry that is made -/
  fresh : Nat
  pc : T → Pc

variable {T : Type}

/-- Nothing has happened. -/
def initial : State T where
  guard := none
  targetLocks _ := none
  holder _ := none
  count _ := 0
  fresh := 0
  pc _ := .idle

variable [DecidableEq T] {cwd : String} {s s' : State T} {t : T} {k : String} {e : Nat}

def State.goto (s : State T) (t : T) (p : Pc) : State T := { s with pc := Function.update s.pc t p }

/-- One atomic step. -/
inductive Step (cwd : String) (s : State T) : State T → Prop
  | call (t : T) (targetPath : String) (h : s.pc t = .idle) : Step cwd s (s.goto t (.enter (targetKey cwd targetPath)))
  | enter (t : T) (k : String) (h : s.pc t = .enter k) (hg : s.guard = none) :
    Step cwd s { s.goto t (.lookup k) with guard := some t }
  | found (t : T) (k : String) (e : Nat) (h : s.pc t = .lookup k) (he : s.targetLocks k = some e) :
    Step cwd s (s.goto t (.count k e))
  | missing (t : T) (k : String) (h : s.pc t = .lookup k) (he : s.targetLocks k = none) :
    Step cwd s (s.goto t (.insert k))
  | insert (t : T) (k : String) (h : s.pc t = .insert k) :
    Step cwd s { s.goto t (.count k s.fresh) with
      targetLocks := Function.update s.targetLocks k (some s.fresh)
      holder := Function.update s.holder s.fresh none
      count := Function.update s.count s.fresh 0
      fresh := s.fresh + 1 }
  | count (t : T) (k : String) (e : Nat) (h : s.pc t = .count k e) :
    Step cwd s { s.goto t (.leave k e) with count := Function.update s.count e (s.count e + 1) }
  | leave (t : T) (k : String) (e : Nat) (h : s.pc t = .leave k e) :
    Step cwd s { s.goto t (.acquire k e) with guard := none }
  | acquire (t : T) (k : String) (e : Nat) (h : s.pc t = .acquire k e) (hl : s.holder e = none) :
    Step cwd s { s.goto t (.body k e) with holder := Function.update s.holder e (some t) }
  | finish (t : T) (k : String) (e : Nat) (h : s.pc t = .body k e) : Step cwd s (s.goto t (.release k e))
  | release (t : T) (k : String) (e : Nat) (h : s.pc t = .release k e) :
    Step cwd s { s.goto t (.reenter k e) with holder := Function.update s.holder e none }
  | reenter (t : T) (k : String) (e : Nat) (h : s.pc t = .reenter k e) (hg : s.guard = none) :
    Step cwd s { s.goto t (.discount k e) with guard := some t }
  | discount (t : T) (k : String) (e : Nat) (h : s.pc t = .discount k e) :
    Step cwd s { s.goto t (.check k e) with count := Function.update s.count e (s.count e - 1) }
  | remove (t : T) (k : String) (e : Nat) (h : s.pc t = .check k e) (hz : s.count e = 0)
    (he : s.targetLocks k = some e) :
    Step cwd s { s.goto t .exit with targetLocks := Function.update s.targetLocks k none }
  | keep (t : T) (k : String) (e : Nat) (h : s.pc t = .check k e) (hk : ¬(s.count e = 0 ∧ s.targetLocks k = some e)) :
    Step cwd s (s.goto t .exit)
  | exit (t : T) (h : s.pc t = .exit) : Step cwd s { s.goto t .idle with guard := none }

/-! ## The invariant -/

variable [Fintype T]

/-- The operations that hold the lock of an entry or wait for it. -/
def State.users (s : State T) (e : Nat) : Nat := (Finset.univ.filter fun t => (s.pc t).uses e).card

/-- The map, the guard, the locks and the numbers agree with the threads. -/
structure Inv (s : State T) : Prop where
  guarded : ∀ t, (s.pc t).guarded = true ↔ s.guard = some t
  stored : ∀ t k e, (s.pc t).entry = some (k, e) → s.targetLocks k = some e
  fresh : ∀ k e, s.targetLocks k = some e → e < s.fresh
  injective : ∀ k k' e, s.targetLocks k = some e → s.targetLocks k' = some e → k = k'
  counts : ∀ e, e < s.fresh → s.count e = s.users e
  used : ∀ k e, s.targetLocks k = some e → ∃ t, (s.pc t).entry = some (k, e)
  held : ∀ t k e, (s.pc t).entry = some (k, e) → (s.pc t).holds = true → s.holder e = some t
  missing : ∀ t k, s.pc t = .insert k → s.targetLocks k = none

omit [DecidableEq T] in
theorem inv_initial : Inv (initial : State T) where
  guarded t := by simp [initial, Pc.guarded]
  stored t k e h := by cases h
  fresh k e h := by cases h
  injective k k' e h := by cases h
  counts e h := absurd h (Nat.not_lt_zero e)
  used k e h := by cases h
  held t k e h := by cases h
  missing t k h := by cases h

omit [Fintype T] in
@[simp] theorem goto_pc (s : State T) (t t' : T) (p : Pc) :
    (s.goto t p).pc t' = if t' = t then p else s.pc t' := by
  simp [State.goto, Function.update_apply]

omit [Fintype T] in
@[simp] theorem goto_guard (s : State T) (t : T) (p : Pc) : (s.goto t p).guard = s.guard := rfl

/-- The users of an entry when one thread moves. -/
theorem users_goto (s : State T) (t : T) (p : Pc) (e : Nat) :
    ((s.goto t p).users e : Int) = s.users e + (if p.uses e then 1 else 0) - if (s.pc t).uses e then 1 else 0 := by
  have hsplit : ∀ u : State T, (∀ t', t' ≠ t → u.pc t' = s.pc t') → (u.users e : Int) =
      ((Finset.univ.erase t).filter fun t' => (s.pc t').uses e).card + if (u.pc t).uses e then 1 else 0 := by
    intro u hu
    have hsame : (Finset.univ.erase t).filter (fun t' => (u.pc t').uses e) =
        (Finset.univ.erase t).filter fun t' => (s.pc t').uses e :=
      Finset.filter_congr fun t' ht' => by rw [hu t' (Finset.ne_of_mem_erase ht')]
    unfold State.users
    rw [← hsame]
    conv_lhs => rw [← Finset.insert_erase (Finset.mem_univ t), Finset.filter_insert]
    split
    · rw [Finset.card_insert_of_notMem (by simp)]
      simp
    · simp
  rw [hsplit _ fun t' ht' => by simp [ht'], hsplit s fun _ _ => rfl]
  simp only [goto_pc, if_true]
  omega

/-! ## Steps -/

/-- A thread that moves without touching the map, the numbers or its part in them; it may take or leave the guard. -/
theorem Inv.goto {p : Pc} {g : Option T} (h : Inv s) (hself : p.guarded = true ↔ g = some t)
    (hother : ∀ t', t' ≠ t → (g = some t' ↔ s.guard = some t')) (he : p.entry = (s.pc t).entry)
    (hc : p.counted = (s.pc t).counted) (hh : p.holds = (s.pc t).holds)
    (hm : ∀ k, p = .insert k → s.targetLocks k = none) : Inv { s.goto t p with guard := g } := by
  have hpc : ∀ t', ((s.goto t p).pc t').entry = (s.pc t').entry ∧ ((s.goto t p).pc t').holds = (s.pc t').holds := by
    intro t'
    rw [goto_pc]
    split
    · next heq => subst heq; exact ⟨he, hh⟩
    · exact ⟨rfl, rfl⟩
  have huses : ∀ e, p.uses e = (s.pc t).uses e := fun e => by rw [Pc.uses, Pc.uses, he, hc]
  constructor
  · intro t'
    show ((s.goto t p).pc t').guarded = true ↔ g = some t'
    rw [goto_pc]
    split
    · next heq => rw [heq]; exact hself
    · next hne => exact (h.guarded t').trans (hother t' hne).symm
  · intro t' k e ht'
    exact h.stored t' k e ((hpc t').1 ▸ ht')
  · exact h.fresh
  · exact h.injective
  · intro e hlt
    have hcount := h.counts e hlt
    have husers := users_goto s t p e
    rw [huses e] at husers
    show s.count e = ((s.goto t p).users e : Int)
    omega
  · intro k e hk
    obtain ⟨t', ht'⟩ := h.used k e hk
    exact ⟨t', (hpc t').1.trans ht'⟩
  · intro t' k e ht' hh'
    exact h.held t' k e ((hpc t').1 ▸ ht') ((hpc t').2 ▸ hh')
  · intro t' k ht'
    by_cases ht : t' = t
    · exact hm k (by simpa [ht] using ht')
    · exact h.missing t' k (by simpa [ht] using ht')

omit [DecidableEq T] in
/-- A key has one entry. -/
theorem Inv.same_entry (h : Inv s) {t t' : T} {k : String} {e e' : Nat} (ht : (s.pc t).entry = some (k, e))
    (ht' : (s.pc t').entry = some (k, e')) : e = e' := by
  have := (h.stored t k e ht).symm.trans (h.stored t' k e' ht')
  exact Option.some.inj this

omit [DecidableEq T] in
theorem Inv.entry_lt (h : Inv s) (ht : (s.pc t).entry = some (k, e)) : e < s.fresh := h.fresh k e (h.stored t k e ht)

omit [DecidableEq T] in
/-- The number of an entry with a user is positive. -/
theorem Inv.count_pos (h : Inv s) (ht : (s.pc t).entry = some (k, e)) (hc : (s.pc t).counted = true) :
    0 < s.count e := by
  rw [h.counts e (h.entry_lt ht)]
  have hmem : t ∈ Finset.univ.filter fun t' => (s.pc t').uses e :=
    Finset.mem_filter.mpr ⟨Finset.mem_univ t, by simp [Pc.uses, ht, hc]⟩
  exact_mod_cast Finset.card_pos.mpr ⟨t, hmem⟩

/-- A thread with an entry that is not counted in it holds the guard. -/
theorem guarded_of_not_counted {p : Pc} (he : p.entry.isSome = true) (hc : p.counted = false) : p.guarded = true := by
  cases p <;> simp_all [Pc.entry, Pc.counted, Pc.guarded]

omit [DecidableEq T] in
/-- Only the thread with the guard is uncounted in its entry. -/
theorem Inv.counted_other (h : Inv s) {t t' : T} (hg : (s.pc t).guarded = true) (hne : t' ≠ t)
    (he : (s.pc t').entry = some (k, e)) : (s.pc t').counted = true := by
  by_contra hc
  have hguard := guarded_of_not_counted (p := s.pc t') (by simp [he]) (by simpa using hc)
  have := ((h.guarded t').mp hguard).symm.trans ((h.guarded t).mp hg)
  exact hne (Option.some.inj this)

/-- A thread under the guard finds the entry of its key. -/
theorem Inv.found (h : Inv s) (hp : s.pc t = .lookup k) (he : s.targetLocks k = some e) : Inv (s.goto t (.count k e)) := by
  constructor
  · intro t'
    have := h.guarded t'
    by_cases ht : t' = t
    · subst ht
      simpa [hp, Pc.guarded] using this
    · simpa [ht] using this
  · intro t' k' e' ht'
    by_cases ht : t' = t
    · subst ht
      obtain ⟨rfl, rfl⟩ : k = k' ∧ e = e' := by simpa [Pc.entry] using ht'
      exact he
    · exact h.stored t' k' e' (by simpa [ht] using ht')
  · exact h.fresh
  · exact h.injective
  · intro e' hlt
    have hcount := h.counts e' hlt
    have husers := users_goto s t (.count k e) e'
    simp only [hp, Pc.uses, Pc.counted, Bool.false_and, if_false, Bool.false_eq_true] at husers
    show s.count e' = ((s.goto t (.count k e)).users e' : Int)
    omega
  · intro k' e' hk'
    obtain ⟨t', ht'⟩ := h.used k' e' hk'
    refine ⟨t', ?_⟩
    by_cases ht : t' = t
    · subst ht
      simp [hp, Pc.entry] at ht'
    · simpa [ht] using ht'
  · intro t' k' e' ht' hh'
    by_cases ht : t' = t
    · subst ht
      simp [Pc.holds] at hh'
    · exact h.held t' k' e' (by simpa [ht] using ht') (by simpa [ht] using hh')
  · intro t' k' ht'
    by_cases ht : t' = t
    · subst ht
      simp at ht'
    · exact h.missing t' k' (by simpa [ht] using ht')

omit [DecidableEq T] in
theorem Inv.unstored (h : Inv s) (he : s.targetLocks k = none) (ht : (s.pc t).entry = some (k, e)) : False := by
  have := h.stored t k e ht
  rw [he] at this
  cases this

/-- A thread under the guard makes the entry of its key. -/
theorem Inv.insert (h : Inv s) (hp : s.pc t = .insert k) :
    Inv { s.goto t (.count k s.fresh) with
      targetLocks := Function.update s.targetLocks k (some s.fresh)
      holder := Function.update s.holder s.fresh none
      count := Function.update s.count s.fresh 0
      fresh := s.fresh + 1 } := by
  have hnone := h.missing t k hp
  have hstored : ∀ k' e', Function.update s.targetLocks k (some s.fresh) k' = some e' →
      k' = k ∧ e' = s.fresh ∨ k' ≠ k ∧ s.targetLocks k' = some e' := by
    intro k' e' h'
    by_cases hk : k' = k
    · subst hk
      rw [Function.update_self] at h'
      exact .inl ⟨rfl, (Option.some.inj h').symm⟩
    · rw [Function.update_of_ne hk] at h'
      exact .inr ⟨hk, h'⟩
  constructor
  · intro t'
    have := h.guarded t'
    by_cases ht : t' = t
    · subst ht
      simpa [hp, Pc.guarded] using this
    · simpa [ht] using this
  · intro t' k' e' ht'
    by_cases ht : t' = t
    · subst ht
      obtain ⟨rfl, rfl⟩ : k = k' ∧ s.fresh = e' := by simpa [Pc.entry] using ht'
      exact Function.update_self ..
    · have hold : (s.pc t').entry = some (k', e') := by simpa [ht] using ht'
      have hk : k' ≠ k := fun hk => h.unstored hnone (hk ▸ hold)
      show Function.update s.targetLocks k (some s.fresh) k' = some e'
      rw [Function.update_of_ne hk]
      exact h.stored t' k' e' hold
  · intro k' e' hk'
    rcases hstored k' e' hk' with ⟨-, rfl⟩ | ⟨-, hk'⟩
    · exact Nat.lt_succ_self _
    · exact Nat.lt_succ_of_lt (h.fresh k' e' hk')
  · intro k₁ k₂ e' h₁ h₂
    rcases hstored k₁ e' h₁ with ⟨hk₁, he₁⟩ | ⟨-, hold₁⟩ <;> rcases hstored k₂ e' h₂ with ⟨hk₂, he₂⟩ | ⟨-, hold₂⟩
    · exact hk₁.trans hk₂.symm
    · exact absurd (h.fresh _ _ hold₂) (by omega)
    · exact absurd (h.fresh _ _ hold₁) (by omega)
    · exact h.injective k₁ k₂ e' hold₁ hold₂
  · intro e' hlt
    have husers := users_goto s t (.count k s.fresh) e'
    simp only [hp, Pc.uses, Pc.counted, Bool.false_and, if_false, Bool.false_eq_true] at husers
    show Function.update s.count s.fresh 0 e' = ((s.goto t (.count k s.fresh)).users e' : Int)
    by_cases he : e' = s.fresh
    · -- nobody has the new entry yet
      subst he
      have hnobody : s.users s.fresh = 0 := by
        refine Finset.card_eq_zero.mpr (Finset.filter_eq_empty_iff.mpr fun t' _ huse => ?_)
        simp only [Pc.uses, Bool.and_eq_true, beq_iff_eq, Option.map_eq_some_iff] at huse
        obtain ⟨-, ⟨k', e'⟩, hentry, rfl⟩ := huse
        exact absurd (h.entry_lt hentry) (lt_irrefl _)
      rw [Function.update_self]
      omega
    · rw [Function.update_of_ne he]
      have hcount := h.counts e' (lt_of_le_of_ne (Nat.lt_succ_iff.mp hlt) he)
      omega
  · intro k' e' hk'
    rcases hstored k' e' hk' with ⟨rfl, rfl⟩ | ⟨-, hk'⟩
    · exact ⟨t, by simp [Pc.entry]⟩
    · obtain ⟨t', ht'⟩ := h.used k' e' hk'
      refine ⟨t', ?_⟩
      by_cases ht : t' = t
      · subst ht
        simp [hp, Pc.entry] at ht'
      · simpa [ht] using ht'
  · intro t' k' e' ht' hh'
    by_cases ht : t' = t
    · subst ht
      simp [Pc.holds] at hh'
    · have ht' : (s.pc t').entry = some (k', e') := by simpa [ht] using ht'
      show Function.update s.holder s.fresh none e' = some t'
      rw [Function.update_of_ne (Nat.ne_of_lt (h.entry_lt ht'))]
      exact h.held t' k' e' ht' (by simpa [ht] using hh')
  · intro t' k' ht'
    by_cases ht : t' = t
    · subst ht
      simp at ht'
    · -- two threads would hold the guard
      have hold : s.pc t' = .insert k' := by simpa [ht] using ht'
      have hg' := (h.guarded t').mp (by rw [hold]; rfl)
      have hg := (h.guarded t).mp (by rw [hp]; rfl)
      exact absurd (Option.some.inj (hg'.symm.trans hg)) ht

/-- A thread under the guard counts itself in its entry, or takes itself out of it. -/
theorem Inv.recount {p : Pc} {d : Int} (h : Inv s) (hentry : (s.pc t).entry = some (k, e)) (he : p.entry = some (k, e))
    (hg : p.guarded = (s.pc t).guarded) (hh : p.holds = false)
    (hd : d = (if p.counted then 1 else 0) - if (s.pc t).counted then 1 else 0) :
    Inv { s.goto t p with count := Function.update s.count e (s.count e + d) } := by
  have hpc : ∀ t', ((s.goto t p).pc t').guarded = (s.pc t').guarded ∧ ((s.goto t p).pc t').entry = (s.pc t').entry := by
    intro t'
    rw [goto_pc]
    split
    · next heq => subst heq; exact ⟨hg, he.trans hentry.symm⟩
    · exact ⟨rfl, rfl⟩
  constructor
  · intro t'
    exact (hpc t').1 ▸ h.guarded t'
  · intro t' k' e' ht'
    exact h.stored t' k' e' ((hpc t').2 ▸ ht')
  · exact h.fresh
  · exact h.injective
  · intro e' hlt
    have hcount := h.counts e' hlt
    have husers := users_goto s t p e'
    simp only [Pc.uses, hentry, he, Option.map_some, Bool.and_eq_true, beq_iff_eq, Option.some.injEq] at husers
    show Function.update s.count e (s.count e + d) e' = ((s.goto t p).users e' : Int)
    by_cases hee : e' = e
    · subst hee
      rw [Function.update_self]
      simp only [and_true] at husers
      omega
    · rw [Function.update_of_ne hee]
      simp only [Ne.symm hee, and_false, if_false] at husers
      omega
  · intro k' e' hk'
    obtain ⟨t', ht'⟩ := h.used k' e' hk'
    exact ⟨t', (hpc t').2.trans ht'⟩
  · intro t' k' e' ht' hh'
    by_cases ht : t' = t
    · subst ht
      simp [hh] at hh'
    · exact h.held t' k' e' (by simpa [ht] using ht') (by simpa [ht] using hh')
  · intro t' k' ht'
    by_cases ht : t' = t
    · subst ht
      have hpi : p = .insert k' := by simpa using ht'
      rw [hpi] at he
      cases he
    · exact h.missing t' k' (by simpa [ht] using ht')

/-- A thread takes a free lock, or releases the one that it holds. -/
theorem Inv.lock {p : Pc} {o : Option T} (h : Inv s) (hentry : (s.pc t).entry = some (k, e)) (he : p.entry = some (k, e))
    (hg : p.guarded = (s.pc t).guarded) (hc : p.counted = (s.pc t).counted) (hself : p.holds = true → o = some t)
    (hother : s.holder e = none ∨ s.holder e = some t) :
    Inv { s.goto t p with holder := Function.update s.holder e o } := by
  have hpc : ∀ t', ((s.goto t p).pc t').guarded = (s.pc t').guarded ∧ ((s.goto t p).pc t').entry = (s.pc t').entry := by
    intro t'
    rw [goto_pc]
    split
    · next heq => subst heq; exact ⟨hg, he.trans hentry.symm⟩
    · exact ⟨rfl, rfl⟩
  have huses : ∀ e, p.uses e = (s.pc t).uses e := fun e => by rw [Pc.uses, Pc.uses, he, hentry, hc]
  constructor
  · intro t'
    exact (hpc t').1 ▸ h.guarded t'
  · intro t' k' e' ht'
    exact h.stored t' k' e' ((hpc t').2 ▸ ht')
  · exact h.fresh
  · exact h.injective
  · intro e' hlt
    have hcount := h.counts e' hlt
    have husers := users_goto s t p e'
    rw [huses e'] at husers
    show s.count e' = ((s.goto t p).users e' : Int)
    omega
  · intro k' e' hk'
    obtain ⟨t', ht'⟩ := h.used k' e' hk'
    exact ⟨t', (hpc t').2.trans ht'⟩
  · intro t' k' e' ht' hh'
    show Function.update s.holder e o e' = some t'
    by_cases ht : t' = t
    · subst ht
      have hsame := ((hpc t').2 ▸ ht').symm.trans hentry
      obtain ⟨-, rfl⟩ : k' = k ∧ e' = e := by simpa using hsame
      rw [Function.update_self]
      exact hself (by simpa using hh')
    · have hheld := h.held t' k' e' (by simpa [ht] using ht') (by simpa [ht] using hh')
      have hne : e' ≠ e := by
        rintro rfl
        rcases hother with ho | ho
        · exact nomatch ho.symm.trans hheld
        · exact ht (Option.some.inj (hheld.symm.trans ho))
      rw [Function.update_of_ne hne]
      exact hheld
  · intro t' k' ht'
    by_cases ht : t' = t
    · subst ht
      have hpi : p = .insert k' := by simpa using ht'
      rw [hpi] at he
      cases he
    · exact h.missing t' k' (by simpa [ht] using ht')

/-- The last thread of an entry removes it. -/
theorem Inv.remove (h : Inv s) (hp : s.pc t = .check k e) (hz : s.count e = 0) :
    Inv { s.goto t .exit with targetLocks := Function.update s.targetLocks k none } := by
  have hentry : (s.pc t).entry = some (k, e) := by rw [hp]; rfl
  have hlast : ∀ t', t' ≠ t → ∀ e', (s.pc t').entry ≠ some (k, e') := by
    intro t' hne e' ht'
    obtain rfl := h.same_entry ht' hentry
    have hpos := h.count_pos ht' (h.counted_other (t := t) (by rw [hp]; rfl) hne ht')
    omega
  constructor
  · intro t'
    have := h.guarded t'
    by_cases ht : t' = t
    · subst ht
      simpa [hp, Pc.guarded] using this
    · simpa [ht] using this
  · intro t' k' e' ht'
    by_cases ht : t' = t
    · subst ht
      simp [Pc.entry] at ht'
    · have hold : (s.pc t').entry = some (k', e') := by simpa [ht] using ht'
      have hk : k' ≠ k := fun hk => hlast t' ht e' (hk ▸ hold)
      show Function.update s.targetLocks k none k' = some e'
      rw [Function.update_of_ne hk]
      exact h.stored t' k' e' hold
  · intro k' e' hk'
    have hk : k' ≠ k := by
      rintro rfl
      simp at hk'
    exact h.fresh k' e' (by simpa [hk] using hk')
  · intro k₁ k₂ e' h₁ h₂
    have hk₁ : k₁ ≠ k := by
      rintro rfl
      simp at h₁
    have hk₂ : k₂ ≠ k := by
      rintro rfl
      simp at h₂
    exact h.injective k₁ k₂ e' (by simpa [hk₁] using h₁) (by simpa [hk₂] using h₂)
  · intro e' hlt
    have hcount := h.counts e' hlt
    have husers := users_goto s t .exit e'
    simp only [hp, Pc.uses, Pc.counted, Bool.false_and, if_false, Bool.false_eq_true] at husers
    show s.count e' = ((s.goto t .exit).users e' : Int)
    omega
  · intro k' e' hk'
    have hk : k' ≠ k := by
      rintro rfl
      simp at hk'
    obtain ⟨t', ht'⟩ := h.used k' e' (by simpa [hk] using hk')
    have ht : t' ≠ t := by
      rintro rfl
      have hsame := ht'.symm.trans hentry
      simp only [Option.some.injEq, Prod.mk.injEq] at hsame
      exact hk hsame.1
    exact ⟨t', by simpa [ht] using ht'⟩
  · intro t' k' e' ht' hh'
    by_cases ht : t' = t
    · subst ht
      simp [Pc.holds] at hh'
    · exact h.held t' k' e' (by simpa [ht] using ht') (by simpa [ht] using hh')
  · intro t' k' ht'
    by_cases ht : t' = t
    · subst ht
      simp at ht'
    · have hnone := h.missing t' k' (by simpa [ht] using ht')
      show Function.update s.targetLocks k none k' = none
      by_cases hk : k' = k
      · rw [hk, Function.update_self]
      · rw [Function.update_of_ne hk, hnone]

/-- A thread under the guard leaves an entry to others. -/
theorem Inv.keep (h : Inv s) (hp : s.pc t = .check k e) (hk : ¬(s.count e = 0 ∧ s.targetLocks k = some e)) :
    Inv (s.goto t .exit) := by
  have hentry : (s.pc t).entry = some (k, e) := by rw [hp]; rfl
  constructor
  · intro t'
    have := h.guarded t'
    by_cases ht : t' = t
    · subst ht
      simpa [hp, Pc.guarded] using this
    · simpa [ht] using this
  · intro t' k' e' ht'
    by_cases ht : t' = t
    · subst ht
      simp [Pc.entry] at ht'
    · exact h.stored t' k' e' (by simpa [ht] using ht')
  · exact h.fresh
  · exact h.injective
  · intro e' hlt
    have hcount := h.counts e' hlt
    have husers := users_goto s t .exit e'
    simp only [hp, Pc.uses, Pc.counted, Bool.false_and, if_false, Bool.false_eq_true] at husers
    show s.count e' = ((s.goto t .exit).users e' : Int)
    omega
  · intro k' e' hk'
    obtain ⟨t', ht'⟩ := h.used k' e' hk'
    by_cases ht : t' = t
    · subst ht
      obtain ⟨rfl, rfl⟩ : k = k' ∧ e = e' := by simpa using hentry.symm.trans ht'
      -- its number is not zero, so that somebody else is counted
      have hpos : s.users e ≠ 0 := by
        intro hzero
        exact hk ⟨by rw [h.counts e (h.entry_lt hentry), hzero]; rfl, hk'⟩
      obtain ⟨t', ht'⟩ := Finset.card_pos.mp (Nat.pos_of_ne_zero hpos)
      have huse := (Finset.mem_filter.mp ht').2
      simp only [Pc.uses, Bool.and_eq_true, beq_iff_eq, Option.map_eq_some_iff] at huse
      obtain ⟨hcounted, ⟨k₁, e₁⟩, he₁, rfl⟩ := huse
      obtain rfl := h.injective k₁ k e₁ (h.stored t' k₁ e₁ he₁) hk'
      refine ⟨t', ?_⟩
      rw [goto_pc, if_neg, he₁]
      rintro rfl
      rw [hp] at hcounted
      cases hcounted
    · exact ⟨t', by simpa [ht] using ht'⟩
  · intro t' k' e' ht' hh'
    by_cases ht : t' = t
    · subst ht
      simp [Pc.holds] at hh'
    · exact h.held t' k' e' (by simpa [ht] using ht') (by simpa [ht] using hh')
  · intro t' k' ht'
    by_cases ht : t' = t
    · subst ht
      simp at ht'
    · exact h.missing t' k' (by simpa [ht] using ht')

/-- **Step.** -/
theorem inv_step (h : Inv s) (hstep : Step cwd s s') : Inv s' := by
  cases hstep with
  | call t targetPath hp =>
    have hg := h.guarded t
    rw [hp] at hg
    exact h.goto (g := s.guard) hg (fun _ _ => Iff.rfl) (by rw [hp]; rfl) (by rw [hp]; rfl) (by rw [hp]; rfl) nofun
  | enter t k hp hg =>
    exact h.goto (by simp [Pc.guarded]) (fun t' ht' => by simp [hg, Ne.symm ht']) (by rw [hp]; rfl) (by rw [hp]; rfl)
      (by rw [hp]; rfl) nofun
  | found t k e hp he => exact h.found hp he
  | missing t k hp he =>
    have hg := h.guarded t
    rw [hp] at hg
    exact h.goto (g := s.guard) hg (fun _ _ => Iff.rfl) (by rw [hp]; rfl) (by rw [hp]; rfl) (by rw [hp]; rfl)
      fun k' hk' => by cases hk'; exact he
  | insert t k hp => exact h.insert hp
  | count t k e hp =>
    exact h.recount (k := k) (by rw [hp]; rfl) rfl (by rw [hp]; rfl) rfl (by rw [hp]; rfl)
  | leave t k e hp =>
    have hg : s.guard = some t := (h.guarded t).mp (by rw [hp]; rfl)
    exact h.goto (by simp [Pc.guarded]) (fun t' ht' => by simp [hg, Ne.symm ht']) (by rw [hp]; rfl) (by rw [hp]; rfl)
      (by rw [hp]; rfl) nofun
  | acquire t k e hp hl =>
    exact h.lock (k := k) (by rw [hp]; rfl) rfl (by rw [hp]; rfl) (by rw [hp]; rfl) (fun _ => rfl) (.inl hl)
  | finish t k e hp =>
    have hg := h.guarded t
    rw [hp] at hg
    exact h.goto (g := s.guard) hg (fun _ _ => Iff.rfl) (by rw [hp]; rfl) (by rw [hp]; rfl) (by rw [hp]; rfl) nofun
  | release t k e hp =>
    exact h.lock (k := k) (by rw [hp]; rfl) rfl (by rw [hp]; rfl) (by rw [hp]; rfl) nofun
      (.inr (h.held t k e (by rw [hp]; rfl) (by rw [hp]; rfl)))
  | reenter t k e hp hg =>
    exact h.goto (by simp [Pc.guarded]) (fun t' ht' => by simp [hg, Ne.symm ht']) (by rw [hp]; rfl) (by rw [hp]; rfl)
      (by rw [hp]; rfl) nofun
  | discount t k e hp =>
    exact h.recount (k := k) (by rw [hp]; rfl) rfl (by rw [hp]; rfl) rfl (by rw [hp]; rfl)
  | remove t k e hp hz he => exact h.remove hp hz
  | keep t k e hp hk => exact h.keep hp hk
  | exit t hp =>
    have hg : s.guard = some t := (h.guarded t).mp (by rw [hp]; rfl)
    exact h.goto (by simp [Pc.guarded]) (fun t' ht' => by simp [hg, Ne.symm ht']) (by rw [hp]; rfl) (by rw [hp]; rfl)
      (by rw [hp]; rfl) nofun

theorem inv_run (hrun : Relation.ReflTransGen (Step cwd) initial s) : Inv s := by
  induction hrun with
  | refl => exact inv_initial
  | tail _ hstep ih => exact inv_step ih hstep

/-! ## Safety -/

/-- The operations with this key that are counted: they wait for its lock, hold it, or have released it and not yet taken
themselves out. -/
def State.operations (s : State T) (k : String) : Nat :=
  (Finset.univ.filter fun t => (s.pc t).counted && ((s.pc t).entry.map Prod.fst == some k)).card

omit [DecidableEq T] in
theorem Inv.operations (h : Inv s) (hk : s.targetLocks k = some e) : s.count e = s.operations k := by
  rw [h.counts e (h.fresh k e hk)]
  unfold State.users State.operations
  congr 2
  refine Finset.filter_congr fun t _ => ?_
  simp only [Pc.uses, Bool.and_eq_true, beq_iff_eq, Option.map_eq_some_iff]
  refine and_congr_right fun _ => ⟨?_, ?_⟩
  · rintro ⟨⟨k', e'⟩, he, rfl⟩
    exact ⟨(k', e'), he, h.injective k' k e' (h.stored t k' e' he) hk⟩
  · rintro ⟨⟨k', e'⟩, he, rfl⟩
    exact ⟨(k', e'), he, Option.some.inj ((h.stored t k' e' he).symm.trans hk)⟩

/-- What the locks of the targets guarantee. -/
structure Safe (s : State T) : Prop where
  /-- bodies of one key exclude each other -/
  exclusive : ∀ t t' k e e', s.pc t = .body k e → s.pc t' = .body k e' → t = t'
  /-- the stored number of a key is that of its operations -/
  counts : ∀ k e, s.targetLocks k = some e → s.count e = s.operations k
  /-- an operation that holds a lock or waits for it finds no other lock under its key -/
  shared : ∀ t k e, (s.pc t).counted = true → (s.pc t).entry = some (k, e) → s.targetLocks k = some e
  /-- without operations the map is empty -/
  empty : (∀ t, s.pc t = .idle) → ∀ k, s.targetLocks k = none

omit [DecidableEq T] in
theorem Inv.safe (h : Inv s) : Safe s where
  exclusive t t' k e e' ht ht' := by
    have he : (s.pc t).entry = some (k, e) := by rw [ht]; rfl
    have he' : (s.pc t').entry = some (k, e') := by rw [ht']; rfl
    have hheld := h.held t k e he (by rw [ht]; rfl)
    obtain rfl := h.same_entry he he'
    exact Option.some.inj (hheld.symm.trans (h.held t' k e he' (by rw [ht']; rfl)))
  counts k e hk := h.operations hk
  shared t k e _ he := h.stored t k e he
  empty hidle k := by
    by_contra hne
    obtain ⟨e, he⟩ := Option.ne_none_iff_exists'.mp hne
    obtain ⟨t, ht⟩ := h.used k e he
    rw [hidle t] at ht
    cases ht

/-- A step takes an entry out of the map only at the number zero, when no operation uses it. -/
theorem Inv.removed (h : Inv s) (hstep : Step cwd s s') (hk : s.targetLocks k = some e)
    (hne : s'.targetLocks k ≠ some e) : s.count e = 0 ∧ s.operations k = 0 := by
  have hzero : s.count e = 0 := by
    cases hstep with
    | insert t k' hp =>
      have hkk : k ≠ k' := by
        rintro rfl
        exact nomatch (h.missing t k hp).symm.trans hk
      exact absurd (by simpa [hkk] using hk) hne
    | remove t k' e' hp hz he =>
      by_cases hkk : k = k'
      · subst hkk
        exact Option.some.inj (he.symm.trans hk) ▸ hz
      · exact absurd (by simpa [hkk] using hk) hne
    | _ => exact absurd hk hne
  have := h.operations hk
  exact ⟨hzero, by omega⟩

/-- **Locks of publish targets.** Every state that the threads can reach is safe, and a step removes an entry only when no
operation uses it. -/
theorem targetLock_safe (hrun : Relation.ReflTransGen (Step cwd) initial s) :
    Safe s ∧ ∀ s', Step cwd s s' → ∀ k e, s.targetLocks k = some e → s'.targetLocks k ≠ some e →
      s.count e = 0 ∧ s.operations k = 0 :=
  ⟨(inv_run hrun).safe, fun _ hstep _ _ hk hne => (inv_run hrun).removed hstep hk hne⟩

/-- Two threads publish at one target: the second waits for the lock of the first under two spellings of the path. -/
theorem contended_run : ∃ s : State Bool, Relation.ReflTransGen (Step "/") initial s ∧
    s.pc true = .body (targetKey "/" "/t") 0 ∧ s.pc false = .acquire (targetKey "/" "/t") 0 := by
  have hkey : targetKey "/" "t" = targetKey "/" "/t" := by decide +kernel
  refine ⟨_, .tail (.tail (.tail (.tail (.tail (.tail (.tail (.tail (.tail (.tail (.tail (.tail .refl
    (.call true "/t" rfl)) (.call false "t" rfl)) (.enter true (targetKey "/" "/t") ?_ rfl))
    (.missing true (targetKey "/" "/t") ?_ rfl)) (.insert true (targetKey "/" "/t") ?_))
    (.count true (targetKey "/" "/t") 0 ?_)) (.leave true (targetKey "/" "/t") 0 ?_))
    (.enter false (targetKey "/" "/t") ?_ rfl)) (.acquire true (targetKey "/" "/t") 0 ?_ ?_))
    (.found false (targetKey "/" "/t") 0 ?_ ?_)) (.count false (targetKey "/" "/t") 0 ?_))
    (.leave false (targetKey "/" "/t") 0 ?_), ?_, ?_⟩ <;> simp [State.goto, initial, hkey]

/-- The thread that waits finds the entry of the holder, which counts both. -/
theorem contended_safe : ∃ s : State Bool, s.pc true = .body (targetKey "/" "/t") 0 ∧
    s.pc false = .acquire (targetKey "/" "/t") 0 ∧ Safe s := by
  obtain ⟨s, hs, hbody, hwaits⟩ := contended_run
  exact ⟨s, hbody, hwaits, (targetLock_safe hs).1⟩

/-! ## After the release -/

/-- The key of the lock that a thread holds or waits for. -/
def Pc.lockKey : Pc → Option String
  | leave k _ | acquire k _ | body k _ | release k _ => some k
  | _ => none

/-- The operations that hold the lock of a key or wait for it. -/
def State.holdersAndWaiters (s : State T) (k : String) : Nat :=
  (Finset.univ.filter fun t => (s.pc t).lockKey = some k).card

/-- One thread goes through the lock of `/t` until it has released it. -/
theorem released_run : ∃ s : State Unit, Relation.ReflTransGen (Step "/") initial s ∧
    s.pc () = .reenter (targetKey "/" "/t") 0 ∧ s.targetLocks (targetKey "/" "/t") = some 0 ∧ s.count 0 = 1 := by
  refine ⟨_, .tail (.tail (.tail (.tail (.tail (.tail (.tail (.tail (.tail .refl (.call () "/t" rfl))
    (.enter () (targetKey "/" "/t") ?_ rfl)) (.missing () (targetKey "/" "/t") ?_ rfl))
    (.insert () (targetKey "/" "/t") ?_)) (.count () (targetKey "/" "/t") 0 ?_)) (.leave () (targetKey "/" "/t") 0 ?_))
    (.acquire () (targetKey "/" "/t") 0 ?_ ?_)) (.finish () (targetKey "/" "/t") 0 ?_))
    (.release () (targetKey "/" "/t") 0 ?_), ?_, ?_, ?_⟩ <;> simp [State.goto, initial]

/-- **A released lock.** Its operation is still counted in the entry. -/
theorem released_counted : ∃ s : State Unit, Relation.ReflTransGen (Step "/") initial s ∧
    ∃ k e, s.targetLocks k = some e ∧ s.count e ≠ s.holdersAndWaiters k := by
  obtain ⟨s, hs, hpc, hk, hcount⟩ := released_run
  refine ⟨s, hs, _, 0, hk, ?_⟩
  rw [hcount]
  simp [State.holdersAndWaiters, hpc, Pc.lockKey]

end Kadalu.Node.TargetLock
