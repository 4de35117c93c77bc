import Mathlib.Logic.Function.Basic
import Mathlib.Logic.Relation
import Mathlib.Data.List.Basic

/-!
# The lock of a pool

`single_pv_operation_lock` keeps other processes out by `flock`, on the mounted root of the pool, and other threads by the same
means: each opens the root anew, and the lock belongs to the opened file. A thread that holds the lock may take it again; it
remembers the file and a depth in `held_locks`, and only the outermost of its blocks locks and unlocks.

The programs of the driver take a lock in one step and drop it in one step. `operationLock_refines` says that this is what these
steps amount to, for any number of processes and threads, with errors, expired waits and crashes anywhere.

* `Frame`: where a thread is in one of its nested blocks. `Step`: one atomic step of one thread, or the crash of a process.
* `Inv`: `held_locks` is what the blocks of the thread say, and the locks of the files belong to them.
* `LockMove`: taking and dropping a lock, as one step.
-/

namespace Kadalu.OperationLock

/-- An opened file, with the thread that opened it. -/
structure Opened (T : Type) where
  thread : T
  number : Nat
  deriving DecidableEq

/-- Where a thread is in a block. -/
inductive Frame (T κ : Type) where
  /-- before `os.open` -/
  | opening (key : κ)
  /-- in `_acquire_operation_flock` -/
  | waiting (key : κ) (lockFd : Opened T)
  /-- before its entry in `held_locks` -/
  | locked (key : κ) (lockFd : Opened T)
  | body (key : κ) (lockFd : Opened T)
  /-- the body of a block inside another one for the same lock, with the depth that it found -/
  | nested (key : κ) (lockFd : Opened T) (depth : Nat)
  /-- without its entry, before `LOCK_UN` -/
  | unlocking (key : κ) (lockFd : Opened T)
  /-- before `os.close` -/
  | closing (key : κ) (lockFd : Opened T)

variable {T P κ : Type}

namespace Frame

def key : Frame T κ → κ
  | opening k | waiting k _ | locked k _ | body k _ | nested k _ _ | unlocking k _ | closing k _ => k

/-- The file that it has opened itself. -/
def lockFd : Frame T κ → Option (Opened T)
  | opening _ | nested _ _ _ => none
  | waiting _ fd | locked _ fd | body _ fd | unlocking _ fd | closing _ fd => some fd

/-- The thread is in the body. -/
def inBody : Frame T κ → Bool
  | body _ _ | nested _ _ _ => true
  | _ => false

/-- It has locked the file that it has opened. -/
def holds : Frame T κ → Bool
  | locked _ _ | body _ _ | unlocking _ _ => true
  | _ => false

/-- It has not been granted the lock yet. -/
def waits : Frame T κ → Bool
  | waiting _ _ => true
  | _ => false

theorem lockFd_of_holds {frame : Frame T κ} (h : frame.holds = true) : ∃ fd, frame.lockFd = some fd := by
  cases frame with
  | locked k fd | body k fd | unlocking k fd => exact ⟨fd, rfl⟩
  | _ => cases h

end Frame

/-- The locks of the files, the tables of the threads, and where they are, innermost block first. -/
structure State (T κ : Type) where
  holder : κ → Option (Opened T)
  fresh : Nat
  heldLocks : T → κ → Option (Opened T × Nat)
  blocks : T → List (Frame T κ)

/-- Nothing has happened. -/
def initial : State T κ := ⟨fun _ => none, 0, fun _ _ => none, fun _ => []⟩

/-- The locks whose bodies the thread is in, one for each of its blocks. -/
def State.bodies (s : State T κ) (t : T) : List κ := ((s.blocks t).filter Frame.inBody).map Frame.key

variable [DecidableEq T] [DecidableEq κ] [DecidableEq P] {process : T → P} {s s' : State T κ} {t t' : T} {k k' : κ} {fd : Opened T}

/-- The thread moves. -/
def State.goto (s : State T κ) (t : T) (blocks : List (Frame T κ)) : State T κ :=
  { s with blocks := Function.update s.blocks t blocks }

/-- The thread writes its table. -/
def State.note (s : State T κ) (t : T) (k : κ) (entry : Option (Opened T × Nat)) : State T κ :=
  { s with heldLocks := Function.update s.heldLocks t (Function.update (s.heldLocks t) k entry) }

/-- The lock of a file. -/
def State.setHolder (s : State T κ) (k : κ) (holder : Option (Opened T)) : State T κ :=
  { s with holder := Function.update s.holder k holder }

/-- A process is gone, with its threads, their tables and the locks of its files. -/
def State.crash (process : T → P) (s : State T κ) (p : P) : State T κ where
  holder k := (s.holder k).filter fun fd => process fd.thread ≠ p
  fresh := s.fresh
  heldLocks t := if process t = p then fun _ => none else s.heldLocks t
  blocks t := if process t = p then [] else s.blocks t

/-- The thread runs the code of a body, or is in no block. -/
def Running (blocks : List (Frame T κ)) : Prop := ∀ frame ∈ blocks.head?, frame.inBody = true

/-- One atomic step. -/
inductive Step (process : T → P) (s : State T κ) : State T κ → Prop
  | enter (t : T) (k : κ) (h : Running (s.blocks t)) (hk : s.heldLocks t k = none) :
    Step process s (s.goto t (.opening k :: s.blocks t))
  | reenter (t : T) (k : κ) (fd : Opened T) (depth : Nat) (h : Running (s.blocks t)) (hk : s.heldLocks t k = some (fd, depth)) :
    Step process s ((s.note t k (some (fd, depth + 1))).goto t (.nested k fd depth :: s.blocks t))
  | opened (t : T) (k : κ) (rest : List (Frame T κ)) (h : s.blocks t = .opening k :: rest) :
    Step process s { s.goto t (.waiting k ⟨t, s.fresh⟩ :: rest) with fresh := s.fresh + 1 }
  | openFailed (t : T) (k : κ) (rest : List (Frame T κ)) (h : s.blocks t = .opening k :: rest) : Step process s (s.goto t rest)
  | lock (t : T) (k : κ) (fd : Opened T) (rest : List (Frame T κ)) (h : s.blocks t = .waiting k fd :: rest)
    (hk : s.holder k = none) : Step process s ((s.setHolder k (some fd)).goto t (.locked k fd :: rest))
  | expired (t : T) (k : κ) (fd : Opened T) (rest : List (Frame T κ)) (h : s.blocks t = .waiting k fd :: rest) :
    Step process s (s.goto t (.closing k fd :: rest))
  | record (t : T) (k : κ) (fd : Opened T) (rest : List (Frame T κ)) (h : s.blocks t = .locked k fd :: rest) :
    Step process s ((s.note t k (some (fd, 1))).goto t (.body k fd :: rest))
  | leaveNested (t : T) (k : κ) (fd : Opened T) (depth : Nat) (rest : List (Frame T κ))
    (h : s.blocks t = .nested k fd depth :: rest) : Step process s ((s.note t k (some (fd, depth))).goto t rest)
  | leave (t : T) (k : κ) (fd : Opened T) (rest : List (Frame T κ)) (h : s.blocks t = .body k fd :: rest) :
    Step process s ((s.note t k none).goto t (.unlocking k fd :: rest))
  | unlock (t : T) (k : κ) (fd : Opened T) (rest : List (Frame T κ)) (h : s.blocks t = .unlocking k fd :: rest) :
    Step process s ((s.setHolder k none).goto t (.closing k fd :: rest))
  | unlockFailed (t : T) (k : κ) (fd : Opened T) (rest : List (Frame T κ)) (h : s.blocks t = .unlocking k fd :: rest) :
    Step process s (s.goto t (.closing k fd :: rest))
  | close (t : T) (k : κ) (fd : Opened T) (rest : List (Frame T κ)) (h : s.blocks t = .closing k fd :: rest) :
    Step process s ((s.setHolder k ((s.holder k).filter (· ≠ fd))).goto t rest)
  | crash (p : P) : Step process s (s.crash process p)

/-! ## The invariant -/

/-- What the blocks of a thread say about its table. -/
def entryOf (k : κ) : List (Frame T κ) → Option (Opened T × Nat)
  | [] => none
  | .body k' fd :: rest => if k' = k then some (fd, 1) else entryOf k rest
  | .nested k' fd depth :: rest => if k' = k then some (fd, depth + 1) else entryOf k rest
  | _ :: rest => entryOf k rest

/-- The blocks of a thread: a block is nested exactly in one for the same lock. -/
def WellNested : List (Frame T κ) → Prop
  | [] => True
  | frame :: rest => WellNested rest ∧ (∀ outer ∈ rest, outer.inBody = true) ∧ entryOf frame.key rest = match frame with
    | .nested _ fd depth => some (fd, depth)
    | _ => none

/-- The tables, the files and the locks agree with the blocks. -/
structure Inv (s : State T κ) : Prop where
  table : ∀ t k, s.heldLocks t k = entryOf k (s.blocks t)
  nested : ∀ t, WellNested (s.blocks t)
  opened : ∀ t, ∀ frame ∈ s.blocks t, ∀ fd, frame.lockFd = some fd → fd.thread = t ∧ fd.number < s.fresh
  holds : ∀ t, ∀ frame ∈ s.blocks t, frame.holds = true → s.holder frame.key = frame.lockFd
  held : ∀ k fd, s.holder k = some fd →
    ∃ frame ∈ s.blocks fd.thread, frame.key = k ∧ frame.lockFd = some fd ∧ frame.waits = false

omit [DecidableEq T] in
theorem inv_initial : Inv (initial : State T κ) where
  table _ _ := rfl
  nested _ := trivial
  opened _ frame h := by cases h
  holds _ frame h := by cases h
  held _ fd h := by cases h

section

variable {blocks rest : List (Frame T κ)} {frame : Frame T κ} {depth : Nat}

omit [DecidableEq T] in
/-- An entry is that of a block that has locked the file. -/
theorem body_of_entryOf (h : WellNested blocks) (hk : entryOf k blocks = some (fd, depth)) : .body k fd ∈ blocks := by
  induction blocks generalizing fd depth with
  | nil => cases hk
  | cons frame rest ih =>
    cases frame with
    | body k' fd' =>
      unfold entryOf at hk
      split at hk
      · rename_i hkey
        cases hk
        exact hkey ▸ List.mem_cons_self
      · exact List.mem_cons_of_mem _ (ih h.1 hk)
    | nested k' fd' depth' =>
      unfold entryOf at hk
      split at hk
      · rename_i hkey
        cases hk
        exact List.mem_cons_of_mem _ (ih h.1 (hkey ▸ h.2.2))
      · exact List.mem_cons_of_mem _ (ih h.1 hk)
    | _ => exact List.mem_cons_of_mem _ (ih h.1 hk)

omit [DecidableEq T] in
/-- A lock whose body the thread is in has an entry. -/
theorem entryOf_eq_none_iff : entryOf k blocks = none ↔ ∀ frame ∈ blocks, frame.inBody = true → frame.key ≠ k := by
  induction blocks with
  | nil => simp [entryOf]
  | cons frame rest ih =>
    rw [List.forall_mem_cons, ← ih]
    cases frame with
    | body k' fd' => by_cases hkey : k' = k <;> simp [entryOf, Frame.inBody, Frame.key, hkey]
    | nested k' fd' depth' => by_cases hkey : k' = k <;> simp [entryOf, Frame.inBody, Frame.key, hkey]
    | _ => simp [entryOf, Frame.inBody]

omit [DecidableEq T] in
/-- The blocks around one that is not nested are for other locks. -/
theorem key_ne_of_entryOf (hrest : ∀ outer ∈ rest, outer.inBody = true) (hk : entryOf k rest = none) :
    ∀ outer ∈ rest, outer.key ≠ k := fun outer houter => entryOf_eq_none_iff.mp hk outer houter (hrest outer houter)

omit [DecidableEq T] in
/-- Where the thread runs, all its blocks are in their bodies. -/
theorem Running.all (h : Running blocks) (hb : WellNested blocks) : ∀ frame ∈ blocks, frame.inBody = true := by
  cases blocks with
  | nil => simp
  | cons frame rest =>
    intro outer houter
    rcases List.mem_cons.mp houter with rfl | houter
    · exact h outer rfl
    · exact hb.2.1 outer houter

/-! ## The steps keep it -/

/-- One thread moves. -/
theorem Inv.moved (h : Inv s) (hblocks : s'.blocks = Function.update s.blocks t blocks)
    (hentries : ∀ t', t' ≠ t → s'.heldLocks t' = s.heldLocks t') (htable : ∀ k, s'.heldLocks t k = entryOf k blocks)
    (hnested : WellNested blocks) (hfresh : s.fresh ≤ s'.fresh)
    (hopened : ∀ frame ∈ blocks, ∀ fd, frame.lockFd = some fd → fd.thread = t ∧ fd.number < s'.fresh)
    (hholds : ∀ frame ∈ blocks, frame.holds = true → s'.holder frame.key = frame.lockFd)
    (hothers : ∀ k fd, fd.thread ≠ t → (s'.holder k = some fd ↔ s.holder k = some fd))
    (hheld : ∀ k fd, fd.thread = t → s'.holder k = some fd →
      ∃ frame ∈ blocks, frame.key = k ∧ frame.lockFd = some fd ∧ frame.waits = false) :
    Inv s' where
  table t' k := by
    by_cases ht : t' = t
    · rw [ht, hblocks, Function.update_self, htable]
    · rw [hblocks, Function.update_of_ne ht, hentries t' ht, h.table]
  nested t' := by
    by_cases ht : t' = t
    · rwa [ht, hblocks, Function.update_self]
    · rw [hblocks, Function.update_of_ne ht]
      exact h.nested t'
  opened t' frame hframe fd hfd := by
    by_cases ht : t' = t
    · rw [ht, hblocks, Function.update_self] at hframe
      rw [ht]
      exact hopened frame hframe fd hfd
    · rw [hblocks, Function.update_of_ne ht] at hframe
      have hold := h.opened t' frame hframe fd hfd
      exact ⟨hold.1, Nat.lt_of_lt_of_le hold.2 hfresh⟩
  holds t' frame hframe hholding := by
    by_cases ht : t' = t
    · rw [ht, hblocks, Function.update_self] at hframe
      exact hholds frame hframe hholding
    · rw [hblocks, Function.update_of_ne ht] at hframe
      have hold := h.holds t' frame hframe hholding
      obtain ⟨fd, hfd⟩ := Frame.lockFd_of_holds hholding
      have hthread := (h.opened t' frame hframe fd hfd).1
      rw [hfd] at hold ⊢
      exact (hothers _ fd (hthread ▸ ht)).mpr hold
  held k fd hfd := by
    by_cases ht : fd.thread = t
    · rw [ht, hblocks, Function.update_self]
      exact hheld k fd ht hfd
    · rw [hblocks, Function.update_of_ne ht]
      exact h.held k fd ((hothers k fd ht).mp hfd)

/-- A thread moves in its innermost block, and no lock changes. -/
theorem Inv.turn {frame' : Frame T κ} (h : Inv s) (hb : s.blocks t = frame :: rest)
    (hblocks : s'.blocks = Function.update s.blocks t (frame' :: rest)) (hkey : frame'.key = frame.key)
    (hfd : frame'.lockFd = frame.lockFd)
    (hholder : s'.holder = s.holder) (hfresh : s'.fresh = s.fresh) (hentries : ∀ t', t' ≠ t → s'.heldLocks t' = s.heldLocks t')
    (htable : ∀ k, s'.heldLocks t k = entryOf k (frame' :: rest)) (hnested : WellNested (frame' :: rest))
    (hholds : frame'.holds = true → frame.holds = true) (hwaits : frame'.waits = false) : Inv s' := by
  refine h.moved hblocks hentries htable hnested (Nat.le_of_eq hfresh.symm) ?_ ?_ (fun _ _ _ => by rw [hholder]) ?_
  · intro outer houter fd houterFd
    rw [hfresh]
    rcases List.mem_cons.mp houter with rfl | houter
    · exact h.opened t frame (hb ▸ List.mem_cons_self) fd (hfd ▸ houterFd)
    · exact h.opened t outer (hb ▸ List.mem_cons_of_mem _ houter) fd houterFd
  · intro outer houter houterHolds
    rw [hholder]
    rcases List.mem_cons.mp houter with rfl | houter
    · rw [hkey, hfd]
      exact h.holds t frame (hb ▸ List.mem_cons_self) (hholds houterHolds)
    · exact h.holds t outer (hb ▸ List.mem_cons_of_mem _ houter) houterHolds
  · rintro k fd rfl hk
    obtain ⟨outer, houter, hok, hofd, hgranted⟩ := h.held k fd (hholder ▸ hk)
    rw [hb] at houter
    rcases List.mem_cons.mp houter with rfl | houter
    · exact ⟨frame', List.mem_cons_self, hkey.trans hok, hfd.trans hofd, hwaits⟩
    · exact ⟨outer, List.mem_cons_of_mem _ houter, hok, hofd, hgranted⟩

/-- A block begins without a file of its own. -/
theorem Inv.push (h : Inv s) (hfd : frame.lockFd = none) (hblocks : s'.blocks = Function.update s.blocks t (frame :: s.blocks t))
    (hholder : s'.holder = s.holder) (hfresh : s'.fresh = s.fresh) (hentries : ∀ t', t' ≠ t → s'.heldLocks t' = s.heldLocks t')
    (htable : ∀ k, s'.heldLocks t k = entryOf k (frame :: s.blocks t)) (hnested : WellNested (frame :: s.blocks t)) : Inv s' := by
  refine h.moved hblocks hentries htable hnested (Nat.le_of_eq hfresh.symm) ?_ ?_ (fun _ _ _ => by rw [hholder]) ?_
  · intro outer houter fd houterFd
    rw [hfresh]
    rcases List.mem_cons.mp houter with rfl | houter
    · rw [hfd] at houterFd
      cases houterFd
    · exact h.opened t outer houter fd houterFd
  · intro outer houter houterHolds
    rw [hholder]
    rcases List.mem_cons.mp houter with rfl | houter
    · obtain ⟨fd, hsome⟩ := Frame.lockFd_of_holds houterHolds
      rw [hfd] at hsome
      cases hsome
    · exact h.holds t outer houter houterHolds
  · rintro k fd rfl hk
    obtain ⟨outer, houter, hok⟩ := h.held k fd (hholder ▸ hk)
    exact ⟨outer, List.mem_cons_of_mem _ houter, hok⟩

/-- It ends, also without one. -/
theorem Inv.pop (h : Inv s) (hb : s.blocks t = frame :: rest) (hfd : frame.lockFd = none)
    (hblocks : s'.blocks = Function.update s.blocks t rest) (hholder : s'.holder = s.holder) (hfresh : s'.fresh = s.fresh)
    (hentries : ∀ t', t' ≠ t → s'.heldLocks t' = s.heldLocks t') (htable : ∀ k, s'.heldLocks t k = entryOf k rest) : Inv s' := by
  have hnested := h.nested t
  rw [hb] at hnested
  refine h.moved hblocks hentries htable hnested.1 (Nat.le_of_eq hfresh.symm) ?_ ?_ (fun _ _ _ => by rw [hholder]) ?_
  · intro outer houter
    rw [hfresh]
    exact h.opened t outer (hb ▸ List.mem_cons_of_mem _ houter)
  · intro outer houter
    rw [hholder]
    exact h.holds t outer (hb ▸ List.mem_cons_of_mem _ houter)
  · rintro k fd rfl hk
    obtain ⟨outer, houter, hok, hofd, hgranted⟩ := h.held k fd (hholder ▸ hk)
    rw [hb] at houter
    rcases List.mem_cons.mp houter with rfl | houter
    · rw [hfd] at hofd
      cases hofd
    · exact ⟨outer, houter, hok, hofd, hgranted⟩

/-- The lock of the innermost block of a thread changes, from or to its own file. -/
theorem Inv.relock (h : Inv s) (hb : s.blocks t = frame :: rest) (hkeys : ∀ outer ∈ rest, outer.key ≠ frame.key)
    (hblocks : s'.blocks = Function.update s.blocks t blocks) (hfresh : s'.fresh = s.fresh)
    (hentries : ∀ t', t' ≠ t → s'.heldLocks t' = s.heldLocks t') (htable : ∀ k, s'.heldLocks t k = entryOf k blocks)
    (hnested : WellNested blocks) (hrest : ∀ outer ∈ rest, outer ∈ blocks)
    (hnew : ∀ outer ∈ blocks, outer ∈ rest ∨
      outer.lockFd = frame.lockFd ∧ (outer.holds = true → s'.holder outer.key = outer.lockFd))
    (hholder : ∀ k, k ≠ frame.key → s'.holder k = s.holder k)
    (hothers : ∀ fd, fd.thread ≠ t → (s'.holder frame.key = some fd ↔ s.holder frame.key = some fd))
    (hheld : ∀ fd, fd.thread = t → s'.holder frame.key = some fd →
      ∃ outer ∈ blocks, outer.key = frame.key ∧ outer.lockFd = some fd ∧ outer.waits = false) : Inv s' := by
  have hmem : ∀ outer ∈ rest, outer ∈ s.blocks t := fun outer houter => hb ▸ List.mem_cons_of_mem _ houter
  refine h.moved hblocks hentries htable hnested (Nat.le_of_eq hfresh.symm) ?_ ?_ ?_ ?_
  · intro outer houter fd houterFd
    rw [hfresh]
    rcases hnew outer houter with hold | ⟨hfd, -⟩
    · exact h.opened t outer (hmem outer hold) fd houterFd
    · exact h.opened t frame (hb ▸ List.mem_cons_self) fd (hfd ▸ houterFd)
  · intro outer houter houterHolds
    rcases hnew outer houter with hold | ⟨-, hlock⟩
    · rw [hholder _ (hkeys outer hold)]
      exact h.holds t outer (hmem outer hold) houterHolds
    · exact hlock houterHolds
  · intro k fd hne
    by_cases hk : k = frame.key
    · rw [hk]
      exact hothers fd hne
    · rw [hholder k hk]
  · intro k fd ht hfd
    by_cases hk : k = frame.key
    · rw [hk] at hfd ⊢
      exact hheld fd ht hfd
    · rw [hholder k hk] at hfd
      obtain ⟨outer, houter, hok, hgranted⟩ := h.held k fd hfd
      rw [ht, hb] at houter
      rcases List.mem_cons.mp houter with rfl | houter
      · exact absurd hok.symm hk
      · exact ⟨outer, hrest outer houter, hok, hgranted⟩

omit [DecidableEq T] in
theorem Inv.crash (h : Inv s) (p : P) : Inv (s.crash process p) where
  table t k := by
    by_cases hp : process t = p
    · simp only [State.crash, if_pos hp]
      rfl
    · simp only [State.crash, if_neg hp]
      exact h.table t k
  nested t := by
    by_cases hp : process t = p
    · simp only [State.crash, if_pos hp]
      trivial
    · simp only [State.crash, if_neg hp]
      exact h.nested t
  opened t frame hframe := by
    by_cases hp : process t = p
    · simp only [State.crash, if_pos hp] at hframe
      cases hframe
    · simp only [State.crash, if_neg hp] at hframe
      exact h.opened t frame hframe
  holds t frame hframe hholding := by
    by_cases hp : process t = p
    · simp only [State.crash, if_pos hp] at hframe
      cases hframe
    · simp only [State.crash, if_neg hp] at hframe
      obtain ⟨fd, hfd⟩ := Frame.lockFd_of_holds hholding
      have hthread := (h.opened t frame hframe fd hfd).1
      simp only [State.crash, h.holds t frame hframe hholding, hfd]
      exact Option.filter_some_pos (by simpa [hthread] using hp)
  held k fd hfd := by
    obtain ⟨hold, hp⟩ := Option.filter_eq_some_iff.mp hfd
    have hnot : process fd.thread ≠ p := of_decide_eq_true hp
    simp only [State.crash, if_neg hnot]
    exact h.held k fd hold

/-- The table of the thread, with an entry written. -/
theorem note_self (s : State T κ) (t : T) (k k' : κ) (entry : Option (Opened T × Nat)) :
    (s.note t k entry).heldLocks t k' = if k' = k then entry else s.heldLocks t k' := by
  simp [State.note, Function.update_apply]

theorem note_of_ne (s : State T κ) (k : κ) (entry : Option (Opened T × Nat)) (h : t' ≠ t) :
    (s.note t k entry).heldLocks t' = s.heldLocks t' := Function.update_of_ne h _ _

omit [DecidableEq T] in
/-- The files of a thread are its own. -/
theorem Inv.thread_eq (h : Inv s) (hb : s.blocks t = frame :: rest) (hfd : frame.lockFd = some fd) : fd.thread = t :=
  (h.opened t frame (hb ▸ List.mem_cons_self) fd hfd).1

theorem Inv.step (h : Inv s) (hs : Step process s s') : Inv s' := by
  cases hs with
  | enter t k hrun hk =>
    have hall := hrun.all (h.nested t)
    exact h.push rfl rfl rfl rfl (fun _ _ => rfl) (h.table t) ⟨h.nested t, hall, (h.table t k).symm.trans hk⟩
  | reenter t k fd depth hrun hk =>
    have hall := hrun.all (h.nested t)
    refine h.push rfl rfl rfl rfl (fun t' ht => note_of_ne s k _ ht) (fun k' => ?_)
      ⟨h.nested t, hall, (h.table t k).symm.trans hk⟩
    rw [show (State.goto _ t _).heldLocks = (s.note t k (some (fd, depth + 1))).heldLocks from rfl, note_self, h.table]
    simp only [entryOf, eq_comm]
  | opened t k rest hb =>
    have hnested := h.nested t
    have htable := h.table t
    rw [hb] at hnested htable
    refine h.moved (t := t) rfl (fun _ _ => rfl) htable hnested (Nat.le_succ _) ?_ ?_ (fun _ _ _ => Iff.rfl) ?_
    · intro outer houter fd houterFd
      rcases List.mem_cons.mp houter with rfl | houter
      · cases houterFd
        exact ⟨rfl, Nat.lt_succ_self _⟩
      · have hold := h.opened t outer (hb ▸ List.mem_cons_of_mem _ houter) fd houterFd
        exact ⟨hold.1, Nat.lt_succ_of_lt hold.2⟩
    · intro outer houter houterHolds
      rcases List.mem_cons.mp houter with rfl | houter
      · cases houterHolds
      · exact h.holds t outer (hb ▸ List.mem_cons_of_mem _ houter) houterHolds
    · rintro k' fd rfl hk
      obtain ⟨outer, houter, hok, hgranted⟩ := h.held k' fd hk
      rw [hb] at houter
      rcases List.mem_cons.mp houter with rfl | houter
      · cases hgranted.1
      · exact ⟨outer, List.mem_cons_of_mem _ houter, hok, hgranted⟩
  | openFailed t k rest hb =>
    have htable := h.table t
    rw [hb] at htable
    exact h.pop hb rfl rfl rfl rfl (fun _ _ => rfl) htable
  | lock t k fd rest hb hk =>
    have hnested := h.nested t
    have htable := h.table t
    rw [hb] at hnested htable
    have hthread := h.thread_eq hb rfl
    have hnew : ((s.setHolder k (some fd)).goto t (.locked k fd :: rest)).holder k = some fd := Function.update_self _ _ _
    refine h.relock hb (key_ne_of_entryOf hnested.2.1 hnested.2.2) rfl rfl (fun _ _ => rfl) htable hnested
      (fun outer houter => List.mem_cons_of_mem _ houter) ?_ (fun k' hkey => Function.update_of_ne hkey _ _) ?_ ?_
    · intro outer houter
      rcases List.mem_cons.mp houter with rfl | houter
      · exact .inr ⟨rfl, fun _ => Function.update_self _ _ _⟩
      · exact .inl houter
    · intro fd' hne
      rw [show (Frame.waiting k fd).key = k from rfl, hnew, hk]
      refine ⟨?_, by rintro ⟨⟩⟩
      rintro ⟨⟩
      exact absurd hthread hne
    · intro fd' _ hk'
      rw [show (Frame.waiting k fd).key = k from rfl, hnew] at hk'
      exact ⟨_, List.mem_cons_self, rfl, hk', rfl⟩
  | expired t k fd rest hb =>
    have hnested := h.nested t
    have htable := h.table t
    rw [hb] at hnested htable
    exact h.turn hb rfl rfl rfl rfl rfl (fun _ _ => rfl) htable hnested (by rintro ⟨⟩) rfl
  | record t k fd rest hb =>
    have hnested := h.nested t
    have htable := h.table t
    rw [hb] at hnested htable
    refine h.turn hb rfl rfl rfl rfl rfl (fun t' ht => note_of_ne s k _ ht) (fun k' => ?_) hnested (fun _ => rfl) rfl
    rw [show (State.goto _ t _).heldLocks = (s.note t k (some (fd, 1))).heldLocks from rfl, note_self, htable]
    simp only [entryOf, eq_comm]
  | leaveNested t k fd depth rest hb =>
    have hnested := h.nested t
    have htable := h.table t
    rw [hb] at hnested htable
    refine h.pop hb rfl rfl rfl rfl (fun t' ht => note_of_ne s k _ ht) (fun k' => ?_)
    rw [show (State.goto _ t _).heldLocks = (s.note t k (some (fd, depth))).heldLocks from rfl, note_self, htable]
    split
    · rename_i hkey
      exact hkey ▸ hnested.2.2.symm
    · rename_i hkey
      simp only [entryOf, if_neg (Ne.symm hkey)]
  | leave t k fd rest hb =>
    have hnested := h.nested t
    have htable := h.table t
    rw [hb] at hnested htable
    refine h.turn hb rfl rfl rfl rfl rfl (fun t' ht => note_of_ne s k _ ht) (fun k' => ?_) hnested (fun _ => rfl) rfl
    rw [show (State.goto _ t _).heldLocks = (s.note t k none).heldLocks from rfl, note_self, htable]
    split
    · rename_i hkey
      exact hkey ▸ hnested.2.2.symm
    · rename_i hkey
      simp only [entryOf, if_neg (Ne.symm hkey)]
  | unlock t k fd rest hb =>
    have hnested := h.nested t
    have htable := h.table t
    rw [hb] at hnested htable
    have hthread := h.thread_eq hb rfl
    have hmine : s.holder k = some fd := h.holds t (.unlocking k fd) (hb ▸ List.mem_cons_self) rfl
    have hnew : ((s.setHolder k none).goto t (.closing k fd :: rest)).holder k = none := Function.update_self _ _ _
    refine h.relock hb (key_ne_of_entryOf hnested.2.1 hnested.2.2) rfl rfl (fun _ _ => rfl) htable hnested
      (fun outer houter => List.mem_cons_of_mem _ houter) ?_ (fun k' hkey => Function.update_of_ne hkey _ _) ?_ ?_
    · intro outer houter
      rcases List.mem_cons.mp houter with rfl | houter
      · exact .inr ⟨rfl, by rintro ⟨⟩⟩
      · exact .inl houter
    · intro fd' hne
      rw [show (Frame.unlocking k fd).key = k from rfl, hnew, hmine]
      refine ⟨by rintro ⟨⟩, ?_⟩
      rintro ⟨⟩
      exact absurd hthread hne
    · intro fd' _ hk'
      rw [show (Frame.unlocking k fd).key = k from rfl, hnew] at hk'
      cases hk'
  | unlockFailed t k fd rest hb =>
    have hnested := h.nested t
    have htable := h.table t
    rw [hb] at hnested htable
    exact h.turn hb rfl rfl rfl rfl rfl (fun _ _ => rfl) htable hnested (by rintro ⟨⟩) rfl
  | close t k fd rest hb =>
    have hnested := h.nested t
    have htable := h.table t
    rw [hb] at hnested htable
    have hthread := h.thread_eq hb rfl
    have hkeys := key_ne_of_entryOf hnested.2.1 hnested.2.2
    have hself : ∀ fd', (s.setHolder k ((s.holder k).filter (· ≠ fd))).holder k = some fd' ↔ s.holder k = some fd' ∧ fd' ≠ fd := by
      intro fd'
      rw [show State.holder _ k = (s.holder k).filter (· ≠ fd) from Function.update_self _ _ _, Option.filter_eq_some_iff]
      simp
    refine h.relock hb hkeys rfl rfl (fun _ _ => rfl) htable hnested.1 (fun outer houter => houter)
      (fun outer houter => .inl houter) (fun k' hkey => Function.update_of_ne hkey _ _) ?_ ?_
    · intro fd' hne
      refine (hself fd').trans ⟨And.left, fun hk => ⟨hk, ?_⟩⟩
      rintro rfl
      exact hne hthread
    · intro fd' ht hk
      obtain ⟨hold, hne⟩ := (hself fd').mp hk
      obtain ⟨outer, houter, hok, hgranted⟩ := h.held k fd' hold
      rw [ht, hb] at houter
      rcases List.mem_cons.mp houter with rfl | houter
      · cases hgranted.1
        exact absurd rfl hne
      · exact absurd hok (hkeys outer houter)
  | crash p => exact h.crash p

end

/-! ## Taking and dropping a lock in one step -/

/-- One step of the locks that the threads hold, the innermost first: one is taken, the innermost is dropped, or a crash drops all of
a process. -/
inductive LockMove (process : T → P) (held : T → List κ) : (T → List κ) → Prop
  | idle : LockMove process held held
  | acquire (t : T) (k : κ) (h : ∀ t', t' ≠ t → k ∉ held t') : LockMove process held (Function.update held t (k :: held t))
  | release (t : T) (k : κ) (rest : List κ) (h : held t = k :: rest) : LockMove process held (Function.update held t rest)
  | crash (p : P) : LockMove process held fun t => if process t = p then [] else held t

omit [DecidableEq T] [DecidableEq κ] in
theorem mem_bodies : k ∈ s.bodies t ↔ ∃ frame ∈ s.blocks t, frame.inBody = true ∧ frame.key = k := by
  simp only [State.bodies, List.mem_map, List.mem_filter, and_assoc]

omit [DecidableEq T] in
/-- The table of a thread names the locks of its bodies. -/
theorem Inv.isSome_iff (h : Inv s) : (s.heldLocks t k).isSome = true ↔ k ∈ s.bodies t := by
  rw [h.table, Option.isSome_iff_ne_none, Ne, entryOf_eq_none_iff, mem_bodies]
  push Not
  rfl

omit [DecidableEq T] in
/-- The locks of a body are held. -/
theorem Inv.holder_of_mem (h : Inv s) (hk : k ∈ s.bodies t) : ∃ fd, s.holder k = some fd ∧ fd.thread = t := by
  obtain ⟨⟨fd, depth⟩, hentry⟩ := Option.isSome_iff_exists.mp (h.isSome_iff.mpr hk)
  rw [h.table] at hentry
  have hmine := body_of_entryOf (h.nested t) hentry
  exact ⟨fd, h.holds t _ hmine rfl, (h.opened t _ hmine fd rfl).1⟩

omit [DecidableEq T] in
/-- No two threads are in bodies for one lock. -/
theorem Inv.exclusive (h : Inv s) (hk : k ∈ s.bodies t) (hk' : k ∈ s.bodies t') : t = t' := by
  obtain ⟨fd, hfd, rfl⟩ := h.holder_of_mem hk
  obtain ⟨fd', hfd', rfl⟩ := h.holder_of_mem hk'
  rw [hfd] at hfd'
  cases hfd'
  rfl

omit [DecidableEq κ] in
theorem bodies_goto (s : State T κ) (t : T) (blocks : List (Frame T κ)) :
    (s.goto t blocks).bodies = Function.update s.bodies t ((blocks.filter Frame.inBody).map Frame.key) := by
  funext t'
  by_cases ht : t' = t
  · subst ht
    simp [State.bodies, State.goto]
  · simp [State.bodies, State.goto, Function.update_of_ne ht]

omit [DecidableEq T] [DecidableEq κ] in
theorem bodies_of_blocks {blocks : List (Frame T κ)} (hb : s.blocks t = blocks) :
    s.bodies t = (blocks.filter Frame.inBody).map Frame.key := by rw [State.bodies, hb]

omit [DecidableEq T] [DecidableEq κ] in
theorem bodies_crash (s : State T κ) (p : P) : (s.crash process p).bodies = fun t => if process t = p then [] else s.bodies t := by
  funext t
  by_cases hp : process t = p
  · simp [State.bodies, State.crash, hp]
  · simp [State.bodies, State.crash, hp]

omit [DecidableEq κ] in
/-- A thread that neither enters nor leaves a body. -/
theorem LockMove.of_same {blocks : List (Frame T κ)} (hs : s'.bodies = (s.goto t blocks).bodies)
    (hb : (blocks.filter Frame.inBody).map Frame.key = s.bodies t) : LockMove process s.bodies s'.bodies := by
  rw [hs, bodies_goto, hb, Function.update_eq_self]
  exact .idle

/-- One that enters a body, with a lock that is its own. -/
theorem LockMove.of_enter {blocks : List (Frame T κ)} (h : Inv s) (hs : s'.bodies = (s.goto t blocks).bodies)
    (hb : (blocks.filter Frame.inBody).map Frame.key = k :: s.bodies t) (hk : s.holder k = some fd) (ht : fd.thread = t) :
    LockMove process s.bodies s'.bodies := by
  rw [hs, bodies_goto, hb]
  refine .acquire t k fun t' hne hmem => ?_
  obtain ⟨fd', hfd', rfl⟩ := h.holder_of_mem hmem
  rw [hk] at hfd'
  cases hfd'
  exact hne ht

omit [DecidableEq κ] in
/-- One that leaves the innermost. -/
theorem LockMove.of_leave {blocks : List (Frame T κ)} (hs : s'.bodies = (s.goto t blocks).bodies)
    (hb : s.bodies t = k :: (blocks.filter Frame.inBody).map Frame.key) : LockMove process s.bodies s'.bodies := by
  rw [hs, bodies_goto]
  exact .release t k _ hb

/-- Each step takes or drops a lock, or neither. -/
theorem Inv.lockMove (h : Inv s) (hs : Step process s s') : LockMove process s.bodies s'.bodies := by
  cases hs with
  | enter t k hrun hk => exact .of_same rfl rfl
  | reenter t k fd depth hrun hk =>
    have hmine := body_of_entryOf (h.nested t) ((h.table t k).symm.trans hk)
    exact .of_enter h rfl rfl (h.holds t _ hmine rfl) (h.opened t _ hmine fd rfl).1
  | opened t k rest hb => exact .of_same rfl (bodies_of_blocks hb).symm
  | openFailed t k rest hb => exact .of_same rfl (bodies_of_blocks hb).symm
  | lock t k fd rest hb hk => exact .of_same rfl (bodies_of_blocks hb).symm
  | expired t k fd rest hb => exact .of_same rfl (bodies_of_blocks hb).symm
  | record t k fd rest hb =>
    have hmine : s.holder k = some fd := h.holds t (.locked k fd) (hb ▸ List.mem_cons_self) rfl
    exact .of_enter h rfl (congrArg (k :: ·) (bodies_of_blocks hb).symm) hmine (h.thread_eq hb rfl)
  | leaveNested t k fd depth rest hb => exact .of_leave rfl (bodies_of_blocks hb)
  | leave t k fd rest hb => exact .of_leave rfl (bodies_of_blocks hb)
  | unlock t k fd rest hb => exact .of_same rfl (bodies_of_blocks hb).symm
  | unlockFailed t k fd rest hb => exact .of_same rfl (bodies_of_blocks hb).symm
  | close t k fd rest hb => exact .of_same rfl (bodies_of_blocks hb).symm
  | crash p =>
    rw [bodies_crash]
    exact .crash p

theorem inv_reachable (h : Relation.ReflTransGen (Step process) initial s) : Inv s := by
  induction h with
  | refl => exact inv_initial
  | tail _ hs ih => exact ih.step hs

/-- A thread that waits can have the lock as soon as no other thread is in a block for it. -/
theorem Inv.grantable {rest : List (Frame T κ)} (h : Inv s) (hb : s.blocks t = .waiting k fd :: rest)
    (hothers : ∀ t', t' ≠ t → ∀ frame ∈ s.blocks t', frame.key ≠ k) : s.holder k = none := by
  by_contra hheld
  obtain ⟨fd', hfd'⟩ := Option.ne_none_iff_exists'.mp hheld
  obtain ⟨frame, hframe, hkey, hfile, hgranted⟩ := h.held k fd' hfd'
  have hthread : fd'.thread = t := by
    by_contra hne
    exact hothers fd'.thread hne frame hframe hkey
  rw [hthread, hb] at hframe
  have hnested := h.nested t
  rw [hb] at hnested
  rcases List.mem_cons.mp hframe with rfl | hrest
  · cases hgranted
  · exact key_ne_of_entryOf hnested.2.1 hnested.2.2 frame hrest hkey

/--
The lock of a pool is taken and dropped as the programs take and drop it; two threads are never in bodies for one lock, the table of a
thread names the locks that it holds, and no thread waits for itself or for a lock that nobody has any more.
-/
theorem operationLock_refines (h : Relation.ReflTransGen (Step process) initial s) :
    (∀ s', Step process s s' → LockMove process s.bodies s'.bodies) ∧
      (∀ t t' k, k ∈ s.bodies t → k ∈ s.bodies t' → t = t') ∧ (∀ t k, (s.heldLocks t k).isSome = true ↔ k ∈ s.bodies t) ∧
      ∀ t k fd rest, s.blocks t = .waiting k fd :: rest →
        k ∉ s.bodies t ∧ ((∀ t', t' ≠ t → ∀ frame ∈ s.blocks t', frame.key ≠ k) → s.holder k = none) := by
  have hinv := inv_reachable h
  refine ⟨fun s' hs => hinv.lockMove hs, fun t t' k hk hk' => hinv.exclusive hk hk', fun t k => hinv.isSome_iff, ?_⟩
  intro t k fd rest hb
  refine ⟨fun hk => ?_, hinv.grantable hb⟩
  have hnested := hinv.nested t
  rw [hb] at hnested
  obtain ⟨frame, hframe, hbody, hkey⟩ := mem_bodies.mp hk
  rw [hb] at hframe
  rcases List.mem_cons.mp hframe with rfl | hrest
  · cases hbody
  · exact key_ne_of_entryOf hnested.2.1 hnested.2.2 frame hrest hkey

/-- One process is in a block inside another one, and a second process waits. -/
theorem operationLock_refines_contended : ∃ s : State Bool Unit, s.bodies true = [(), ()] ∧
    s.blocks false = [.waiting () ⟨false, 1⟩] ∧ (∀ s', Step id s s' → LockMove id s.bodies s'.bodies) ∧ () ∉ s.bodies false := by
  have hrun : ∀ blocks : List (Frame Bool Unit), blocks = [] → Running blocks := by
    rintro _ rfl frame ⟨⟩
  have hreached : Relation.ReflTransGen (Step id) (initial : State Bool Unit) _ :=
    .tail (.tail (.tail (.tail (.tail (.tail (.tail .refl (.enter true () (hrun _ rfl) rfl)) (.opened true () [] rfl))
      (.lock true () ⟨true, 0⟩ [] rfl rfl)) (.record true () ⟨true, 0⟩ [] rfl))
      (.reenter true () ⟨true, 0⟩ 1 (by rintro frame ⟨⟩; rfl) rfl)) (.enter false () (hrun _ rfl) rfl)) (.opened false () [] rfl)
  have h := operationLock_refines hreached
  exact ⟨_, rfl, rfl, h.1, (h.2.2.2 false () ⟨false, 1⟩ [] rfl).1⟩

end Kadalu.OperationLock
