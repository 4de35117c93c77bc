import Kadalu.Calls.Prog
import Kadalu.Volume.Search

/-!
# The readiness of the provisioner

The provisioner is ready while a marker file is there. A thread of its own mounts the hosting volumes again and again, and
sets or removes the marker after each round; the main thread starts it again when it has ended. Every request may raise
anything, and a write of the marker that raises may have happened.

* `Honest`: when a round is over, a marker says that every volume of the round was mounted; no volume is tried after a
  failure while there is one; a new thread starts without it. The exception is a marker whose removal failed.
* `supervise_honest`: that is so at every moment of every run.

The role of the pod is `provisioner`; log messages are left out.
-/

namespace Kadalu.StorageReady

open Calls Calls.Prog

/-! ## Requests -/

/-- The exceptions of a round, as far as it tells them apart. -/
inductive MountErr where
  /-- `CommandException` -/
  | command
  /-- `MountTargetConflictError` -/
  | conflict
  /-- `OSError` -/
  | os
  /-- `ValueError` -/
  | value
  /-- any other `Exception` -/
  | other
  /-- what is no `Exception` and ends the thread -/
  | exit
  deriving DecidableEq, Repr

/-- What discovers no volumes is a failure of the round. -/
def MountErr.undiscovered : MountErr → Bool
  | os | value => true
  | _ => false

/-- What mounts no volume is a failure of the round. -/
def MountErr.unmounted : MountErr → Bool
  | command | conflict | os | value => true
  | _ => false

def MountErr.isException (e : MountErr) : Bool := e ≠ exit

inductive ReadyCall where
  /-- `get_pv_hosting_volumes({}, iteration=0)` -/
  | hostVolumes
  /-- `mount_glusterfs` of a hosting volume -/
  | mount (volume : HostVol)
  /-- `storage_ready_marker_exists` -/
  | markerExists
  /-- `mark_storage_ready` -/
  | markReady
  /-- `clear_storage_ready` -/
  | clearReady
  | sleep
  deriving DecidableEq

def ReadyCall.Answer : ReadyCall → Type
  | hostVolumes => List HostVol
  | markerExists => Bool
  | mount _ | markReady | clearReady | sleep => Unit

abbrev ReadyProg (α : Type) : Type := Prog ReadyCall ReadyCall.Answer MountErr α

abbrev ReadyEvent : Type := Event ReadyCall ReadyCall.Answer MountErr

def ReadyCall.ask (r : ReadyCall) : ReadyProg r.Answer := Prog.request r

open ReadyCall

/-! ## A round -/

/-- An error that is only logged. -/
def logged (p : ReadyProg Unit) : ReadyProg Unit :=
  tryCatch p fun e => if e.isException then pure () else throw e

/-- The marker goes before another volume is tried. -/
def withdrawReady : ReadyProg Unit := do
  let (marked : Bool) ← ask markerExists
  if marked then logged (ask clearReady) else pure ()

/-- The loop of `mount_storage` -/
def mountVolumes : List HostVol → ReadyProg Bool
  | [] => pure true
  | volume :: volumes =>
    if volume.singlePvPerPool then mountVolumes volumes
    else do
      let mounted ← tryCatch
        (do
          let (_ : Unit) ← ask (mount volume)
          pure true)
        fun e =>
          if e.unmounted then do
            withdrawReady
            pure false
          else throw e
      let rest ← mountVolumes volumes
      pure (mounted && rest)

/-- `mount_storage` -/
def mountStorage : ReadyProg Bool := do
  let found ← tryCatch (some <$> ask hostVolumes) fun e => if e.undiscovered then pure none else throw e
  match found with
  | none => pure false
  | some volumes => mountVolumes volumes

/-- The marker follows the outcome of a round. -/
def publish (allMounted : Bool) : ReadyProg Unit := do
  let (marked : Bool) ← ask markerExists
  if allMounted then
    if marked then pure () else ask markReady
  else if marked then ask clearReady
  else pure ()

/-- `reconcile_storage_mounts_once` -/
def reconcileStorageMountsOnce : ReadyProg Bool := do
  let allMounted ← mountStorage
  publish allMounted
  pure allMounted

/-- The loop of `reconcile_storage_mounts` -/
def reconcileStorageMounts : Nat → ReadyProg Unit
  | 0 => .cut
  | fuel + 1 => do
    tryCatch
      (do
        let _ ← reconcileStorageMountsOnce
        pure ())
      fun e => if e.isException then logged (ask clearReady) else throw e
    let (_ : Unit) ← ask sleep
    reconcileStorageMounts fuel

/-- `run_storage_mount_reconciler` -/
def runStorageMountReconciler (fuel : Nat) : ReadyProg Unit := finally' (reconcileStorageMounts fuel) (ask clearReady)

/-- `main`, with `ensure_storage_mount_reconciler` each time that the thread has ended. -/
def superviseReconciler (fuel : Nat) : Nat → ReadyProg Unit
  | 0 => .cut
  | threads + 1 => do
    let (_ : Unit) ← ask clearReady
    tryCatch (runStorageMountReconciler fuel) fun _ => pure ()
    superviseReconciler fuel threads

/-! ## The marker -/

/-- The marker, and the requests with their answers, the newest first. -/
structure Provisioner where
  ready : Bool
  log : List ReadyEvent := []

/-- A write that raises may have happened. -/
def Writes (s : Provisioner) (written : Bool) (a : Except MountErr Unit) (ready : Bool) : Prop :=
  ready = written ∨ ready = s.ready ∧ ∃ e, a = .error e

/-- What a request does to the marker. -/
def Does : (r : ReadyCall) → Provisioner → Except MountErr r.Answer → Bool → Prop
  | markerExists, s, a, ready => ready = s.ready ∧ ∀ marked, a = .ok marked → marked = s.ready
  | markReady, s, a, ready => Writes s true a ready
  | clearReady, s, a, ready => Writes s false a ready
  | _, s, _, ready => ready = s.ready

/-- One request, which is logged. -/
def sem (r : ReadyCall) (s : Provisioner) (a : Except MountErr r.Answer) (s' : Provisioner) : Prop :=
  ∃ ready, Does r s a ready ∧ s' = ⟨ready, ⟨r, a⟩ :: s.log⟩

/-- The part of a log since the volumes were listed. -/
def round (log : List ReadyEvent) : List ReadyEvent := log.takeWhile fun e => e.1 ≠ hostVolumes

/-- The listing that a round began with. -/
def listed (log : List ReadyEvent) : Option ReadyEvent := (log.dropWhile fun e => e.1 ≠ hostVolumes).head?

/-- The round has mounted every volume that it must. -/
def Mounted (log : List ReadyEvent) : Prop :=
  ∃ volumes : List HostVol, listed log = some ⟨hostVolumes, .ok volumes⟩ ∧
    ∀ volume ∈ volumes, volume.singlePvPerPool = false → ⟨mount volume, .ok ()⟩ ∈ round log

/-- No volume of the round has failed. -/
def Unfailed (log : List ReadyEvent) : Prop := ∀ volume e, ⟨mount volume, .error e⟩ ∉ round log

/-- A removal of the marker has failed in the round. -/
def Uncleared (log : List ReadyEvent) : Prop := ∃ e, ⟨clearReady, .error e⟩ ∈ round log

/-- What the marker says. -/
structure Honest (s : Provisioner) : Prop where
  rested : ∀ a older, s.log = ⟨sleep, a⟩ :: older → s.ready = true → Mounted older ∨ Uncleared older
  trying : ∀ volume a older, s.log = ⟨mount volume, a⟩ :: older → s.ready = true → Unfailed older ∨ Uncleared older
  started : ∀ a e older, s.log = ⟨hostVolumes, a⟩ :: e :: older → e.1 ≠ sleep → s.ready = false

/-! ## Rounds of a log -/

section

variable {e : ReadyEvent} {log : List ReadyEvent} {s t u : Provisioner}

theorem round_cons (h : e.1 ≠ hostVolumes) : round (e :: log) = e :: round log := by
  unfold round
  rw [List.takeWhile_cons_of_pos (by simpa using h)]

theorem listed_cons (h : e.1 ≠ hostVolumes) : listed (e :: log) = listed log := by
  unfold listed
  rw [List.dropWhile_cons_of_pos (by simpa using h)]

/-- The same round goes on. -/
def Grown (s t : Provisioner) : Prop := ∃ es, t.log = es ++ s.log ∧ ∀ e ∈ es, e.1 ≠ hostVolumes

theorem Grown.refl (s : Provisioner) : Grown s s := ⟨[], rfl, by simp⟩

theorem Grown.trans (h : Grown s t) (h' : Grown t u) : Grown s u := by
  obtain ⟨es, ht, hes⟩ := h
  obtain ⟨es', hu, hes'⟩ := h'
  refine ⟨es' ++ es, by rw [hu, ht, List.append_assoc], fun e he => ?_⟩
  exact (List.mem_append.mp he).elim (hes' e) (hes e)

theorem Grown.one {r : ReadyCall} {a : Except MountErr r.Answer} {ready : Bool} (h : r ≠ hostVolumes) :
    Grown s ⟨ready, ⟨r, a⟩ :: s.log⟩ := ⟨[⟨r, a⟩], rfl, by simpa using h⟩

theorem Grown.round (h : Grown s t) (he : e ∈ round s.log) : e ∈ round t.log := by
  obtain ⟨es, ht, hes⟩ := h
  rw [ht]
  clear ht
  induction es with
  | nil => exact he
  | cons e' es ih =>
    rw [List.cons_append, round_cons (hes e' (by simp))]
    exact List.mem_cons_of_mem _ (ih fun e he => hes e (by simp [he]))

theorem Grown.listed (h : Grown s t) : listed t.log = listed s.log := by
  obtain ⟨es, ht, hes⟩ := h
  rw [ht]
  clear ht
  induction es with
  | nil => rfl
  | cons e' es ih =>
    rw [List.cons_append, listed_cons (hes e' (by simp))]
    exact ih fun e he => hes e (by simp [he])

theorem Grown.uncleared (h : Grown s t) (hs : Uncleared s.log) : Uncleared t.log := by
  obtain ⟨e, he⟩ := hs
  exact ⟨e, h.round he⟩

/-- The marker is gone, unless its removal has failed. -/
def Down (s : Provisioner) : Prop := s.ready = false ∨ Uncleared s.log

theorem Down.keep (hs : Down s) (h : Grown s t) (hready : t.ready = true → s.ready = true) : Down t := by
  rcases hs with hs | hs
  · left
    cases ht : t.ready with
    | false => rfl
    | true => exact absurd (hready ht) (by simp [hs])
  · exact .inr (h.uncleared hs)

theorem Down.unready (hs : Down s) (h : s.ready = true) : Uncleared s.log :=
  hs.resolve_left (by simp [h])

end

/-! ## One request -/

section

variable {s : Provisioner}

/-- The moments of no promise. -/
theorem honest_aside {r : ReadyCall} {a : Except MountErr r.Answer} {ready : Bool} {log : List ReadyEvent}
    (hsleep : r ≠ sleep) (hmount : ∀ volume, r ≠ mount volume) (hlist : r ≠ hostVolumes) :
    Honest ⟨ready, ⟨r, a⟩ :: log⟩ := by
  constructor
  · rintro a older h
    cases h
    exact absurd rfl hsleep
  · rintro volume a older h
    cases h
    exact absurd rfl (hmount volume)
  · rintro a e older h
    cases h
    exact absurd rfl hlist

theorem wp_markerExists : wp sem Honest (fun r t => Grown s t ∧ t.ready = s.ready ∧ ∀ marked, r = .ok marked → marked = s.ready)
    (ask markerExists) s := by
  refine wp_request ?_
  rintro a s' ⟨ready, ⟨rfl, hmarked⟩, rfl⟩
  exact ⟨honest_aside nofun nofun nofun, .one nofun, rfl, hmarked⟩

theorem wp_markReady : wp sem Honest (fun _ t => Grown s t) (ask markReady) s := by
  refine wp_request ?_
  rintro a s' ⟨ready, -, rfl⟩
  exact ⟨honest_aside nofun nofun nofun, .one nofun⟩

/-- A removal that raises is remembered. -/
theorem wp_clearReady : wp sem Honest (fun r t => Grown s t ∧ Down t ∧ (r = .ok () → t.ready = false)) (ask clearReady) s := by
  refine wp_request ?_
  rintro a s' ⟨ready, hwrites, rfl⟩
  refine ⟨honest_aside nofun nofun nofun, .one nofun, ?_, ?_⟩
  · rcases hwrites with rfl | ⟨-, e, rfl⟩
    · exact .inl rfl
    · refine .inr ⟨e, ?_⟩
      rw [round_cons (by simp)]
      exact List.mem_cons_self
  · rintro rfl
    rcases hwrites with rfl | ⟨-, e, he⟩
    · rfl
    · cases he

theorem wp_mount {volume : HostVol} (h : s.ready = true → Unfailed s.log ∨ Uncleared s.log) :
    wp sem Honest (fun r t => Grown s t ∧ t.ready = s.ready ∧ (r = .ok () → ⟨mount volume, .ok ()⟩ ∈ round t.log) ∧
      ((∃ e, r = .error e) ∨ (Unfailed s.log → Unfailed t.log))) (ask (mount volume)) s := by
  refine wp_request ?_
  rintro a s' ⟨ready, hsame, rfl⟩
  obtain rfl : ready = s.ready := hsame
  refine ⟨⟨?_, ?_, ?_⟩, .one nofun, rfl, ?_, ?_⟩
  · rintro a' older hlog
    cases hlog
  · rintro volume' a' older hlog hready
    cases hlog
    exact h hready
  · rintro a' e older hlog
    cases hlog
  · rintro rfl
    rw [round_cons (by simp)]
    exact List.mem_cons_self
  · cases a with
    | error e => exact .inl ⟨e, rfl⟩
    | ok b =>
      refine .inr fun hs volume' e he => hs volume' e ?_
      rw [round_cons (by simp)] at he
      rcases List.mem_cons.mp he with he | he
      · cases he
      · exact he

theorem wp_sleep (h : s.ready = true → Mounted s.log ∨ Uncleared s.log) :
    wp sem Honest (fun _ t => ∃ a, t.log = ⟨sleep, a⟩ :: s.log) (ask sleep) s := by
  refine wp_request ?_
  rintro a s' ⟨ready, hsame, rfl⟩
  obtain rfl : ready = s.ready := hsame
  refine ⟨⟨?_, ?_, ?_⟩, a, rfl⟩
  · rintro a' older hlog hready
    cases hlog
    exact h hready
  · rintro volume a' older hlog
    cases hlog
  · rintro a' e older hlog
    cases hlog

/-- A thread starts without the marker, and a round after another one. -/
def Fresh (s : Provisioner) : Prop := s.ready = false ∨ ∃ a older, s.log = ⟨sleep, a⟩ :: older

theorem wp_hostVolumes (h : Fresh s) :
    wp sem Honest (fun r t => round t.log = [] ∧ ∀ volumes, r = .ok volumes → listed t.log = some ⟨hostVolumes, .ok volumes⟩)
      (ask hostVolumes) s := by
  refine wp_request ?_
  rintro a s' ⟨ready, hsame, rfl⟩
  obtain rfl : ready = s.ready := hsame
  refine ⟨⟨?_, ?_, ?_⟩, ?_, ?_⟩
  · rintro a' older hlog
    cases hlog
  · rintro volume a' older hlog
    cases hlog
  · rintro a' e older hlog hsleep
    obtain ⟨-, hs⟩ := List.cons.inj hlog
    rcases h with h | ⟨a, older', h⟩
    · exact h
    · rw [h] at hs
      cases hs
      exact absurd rfl hsleep
  · simp [round]
  · rintro volumes rfl
    simp [listed]

end

/-! ## A round -/

section

variable {s : Provisioner}

theorem wp_logged_clearReady : wp sem Honest (fun _ t => Grown s t ∧ Down t) (logged (ask clearReady)) s := by
  refine wp_tryCatch (wp_mono ?_ wp_clearReady)
  rintro r t ⟨hgrown, hdown, -⟩
  cases r with
  | ok a => exact ⟨hgrown, hdown⟩
  | error e => exact wp_ite (fun _ => wp_pure ⟨hgrown, hdown⟩) fun _ => wp_throw ⟨hgrown, hdown⟩

/-- A failure takes the marker away. -/
theorem wp_withdrawReady : wp sem Honest (fun r t => Grown s t ∧ (r = .ok () → Down t)) withdrawReady s := by
  refine wp_bind (wp_mono ?_ wp_markerExists)
  rintro r t ⟨hgrown, hready, hmarked⟩
  cases r with
  | error e => exact ⟨hgrown, nofun⟩
  | ok marked =>
    refine wp_ite (fun _ => wp_mono ?_ wp_logged_clearReady) fun hunmarked => wp_pure ⟨hgrown, fun _ => .inl ?_⟩
    · rintro r u ⟨hgrown', hdown⟩
      exact ⟨hgrown.trans hgrown', fun _ => hdown⟩
    · rw [hready, ← hmarked marked rfl]
      exact Bool.eq_false_iff.mpr hunmarked

/-- What is known while the volumes are mounted one after the other. -/
def Trying (s : Provisioner) : Prop := Unfailed s.log ∨ Down s

/-- One volume. -/
theorem wp_mountVolume {volume : HostVol} (h : Trying s) :
    wp sem Honest (fun r t => Grown s t ∧ (∀ mounted, r = .ok mounted → Trying t ∧ (Down s → Down t) ∧
        (mounted = true → ⟨mount volume, .ok ()⟩ ∈ round t.log) ∧ (mounted = false → Down t)))
      (tryCatch
        (do
          let (_ : Unit) ← ask (mount volume)
          pure true)
        fun e =>
          if e.unmounted then do
            withdrawReady
            pure false
          else throw e) s := by
  refine wp_tryCatch (wp_bind (wp_mono ?_ (wp_mount fun hs => h.imp_right fun hd => hd.unready hs)))
  rintro r t ⟨hgrown, hready, hmounted, hunfailed⟩
  have hkeep : Down s → Down t := fun hs => hs.keep hgrown fun ht => hready ▸ ht
  cases r with
  | ok a =>
    refine wp_pure ⟨hgrown, ?_⟩
    rintro mounted ⟨⟩
    have htrying : Unfailed s.log → Unfailed t.log := hunfailed.resolve_left nofun
    exact ⟨h.imp htrying hkeep, hkeep, fun _ => hmounted rfl, nofun⟩
  | error e =>
    refine wp_ite (fun _ => wp_bind (wp_mono ?_ wp_withdrawReady)) fun _ => wp_throw ⟨hgrown, nofun⟩
    rintro r u ⟨hgrown', hdown⟩
    cases r with
    | error e => exact ⟨hgrown.trans hgrown', nofun⟩
    | ok a =>
      refine wp_pure ⟨hgrown.trans hgrown', ?_⟩
      rintro mounted ⟨⟩
      exact ⟨.inr (hdown rfl), fun _ => hdown rfl, nofun, fun _ => hdown rfl⟩

/-- The volumes are all mounted, or the marker goes. -/
theorem wp_mountVolumes {volumes : List HostVol} (h : Trying s) :
    wp sem Honest (fun r t => Grown s t ∧ (∀ mounted, r = .ok mounted → (Down s → Down t) ∧ (mounted = false → Down t) ∧
        (mounted = true → ∀ volume ∈ volumes, volume.singlePvPerPool = false → ⟨mount volume, .ok ()⟩ ∈ round t.log)))
      (mountVolumes volumes) s := by
  induction volumes generalizing s with
  | nil =>
    refine wp_pure ⟨.refl s, ?_⟩
    rintro mounted ⟨⟩
    exact ⟨id, nofun, fun _ => by simp⟩
  | cons volume volumes ih =>
    refine wp_ite (fun hskip => wp_mono ?_ (ih h)) fun hneeded => wp_bind (wp_mono ?_ (wp_mountVolume h))
    · rintro r t ⟨hgrown, hresult⟩
      refine ⟨hgrown, fun mounted hr => ?_⟩
      obtain ⟨hkeep, hdown, hall⟩ := hresult mounted hr
      refine ⟨hkeep, hdown, fun hm => ?_⟩
      rintro volume' hv hrequired
      rcases List.mem_cons.mp hv with rfl | hv
      · rw [hskip] at hrequired
        cases hrequired
      · exact hall hm volume' hv hrequired
    · rintro r t ⟨hgrown, hresult⟩
      cases r with
      | error e => exact ⟨hgrown, nofun⟩
      | ok mounted =>
        obtain ⟨htrying, hkeep, hone, hfailed⟩ := hresult mounted rfl
        refine wp_bind (wp_mono ?_ (ih htrying))
        rintro r u ⟨hgrown', hresult'⟩
        cases r with
        | error e => exact ⟨hgrown.trans hgrown', nofun⟩
        | ok rest =>
          obtain ⟨hkeep', hdown', hall⟩ := hresult' rest rfl
          refine wp_pure ⟨hgrown.trans hgrown', ?_⟩
          rintro both ⟨⟩
          refine ⟨fun hs => hkeep' (hkeep hs), fun hboth => ?_, fun hboth => ?_⟩
          · cases mounted with
            | false => exact hkeep' (hfailed rfl)
            | true => exact hdown' (by simpa using hboth)
          · rw [Bool.and_eq_true] at hboth
            rintro volume' hv hrequired
            rcases List.mem_cons.mp hv with rfl | hv
            · exact hgrown'.round (hone hboth.1)
            · exact hall hboth.2 volume' hv hrequired

/-- A round has failed, or it has mounted its volumes. -/
theorem wp_mountStorage (h : Fresh s) :
    wp sem Honest (fun r t => r = .ok true → Mounted t.log) mountStorage s := by
  refine wp_bind (wp_tryCatch (wp_bind (wp_mono ?_ (wp_hostVolumes h))))
  rintro r t ⟨hround, hlisted⟩
  cases r with
  | error e => exact wp_ite (fun _ => wp_pure (wp_pure nofun)) fun _ => wp_throw nofun
  | ok volumes =>
    refine wp_pure ?_
    have hunfailed : Unfailed t.log := fun volume e he => by simp [hround] at he
    refine wp_mono ?_ (wp_mountVolumes (.inl hunfailed))
    rintro r u ⟨hgrown, hresult⟩ hr
    exact ⟨volumes, hgrown.listed.trans (hlisted volumes rfl), (hresult true hr).2.2 rfl⟩

/-- The marker may stay. -/
def Published (s : Provisioner) : Prop := s.ready = true → Mounted s.log ∨ Uncleared s.log

theorem Down.published (h : Down s) : Published s := fun hs => .inr (h.unready hs)

theorem Mounted.grown {t : Provisioner} (h : Mounted s.log) (hgrown : Grown s t) : Mounted t.log := by
  obtain ⟨volumes, hlisted, hall⟩ := h
  exact ⟨volumes, hgrown.listed.trans hlisted, fun volume hv hrequired => hgrown.round (hall volume hv hrequired)⟩

theorem wp_publish {allMounted : Bool} (h : allMounted = true → Mounted s.log) :
    wp sem Honest (fun r t => r = .ok () → Published t) (publish allMounted) s := by
  refine wp_bind (wp_mono ?_ wp_markerExists)
  rintro r t ⟨hgrown, hready, hmarked⟩
  cases r with
  | error e => exact nofun
  | ok marked =>
    refine wp_ite (fun hall => wp_ite (fun _ => wp_pure fun _ _ => ?_) fun _ => wp_mono ?_ wp_markReady) fun _ =>
      wp_ite (fun _ => wp_mono ?_ wp_clearReady) fun hunmarked => wp_pure fun _ hs => ?_
    · exact .inl ((h hall).grown hgrown)
    · exact fun r u hgrown' _ _ => .inl ((h hall).grown (hgrown.trans hgrown'))
    · exact fun r u hu _ => hu.2.1.published
    · rw [hready, ← hmarked marked rfl] at hs
      exact absurd hs hunmarked

/-- **A round.** When it is over, a marker says that the volumes were mounted. -/
theorem wp_reconcileStorageMountsOnce (h : Fresh s) :
    wp sem Honest (fun r t => (∃ allMounted, r = .ok allMounted) → Published t) reconcileStorageMountsOnce s := by
  refine wp_bind (wp_mono ?_ (wp_mountStorage h))
  intro r t hmounted
  cases r with
  | error e => exact nofun
  | ok allMounted =>
    refine wp_bind (wp_mono ?_ (wp_publish fun hall => hmounted (by rw [hall])))
    intro r u hpublished
    cases r with
    | error e => exact nofun
    | ok a => exact wp_pure fun _ => hpublished rfl

end

/-! ## Runs -/

section

variable {s : Provisioner}

/-- **The thread.** Whatever a round raises, the marker is honest. -/
theorem wp_reconcileStorageMounts (fuel : Nat) (h : Fresh s) :
    wp sem Honest (fun _ _ => True) (reconcileStorageMounts fuel) s := by
  induction fuel generalizing s with
  | zero => trivial
  | succ fuel ih =>
    have hpublished : wp sem Honest (fun r t => r = .ok () → Published t)
        (tryCatch
          (do
            let _ ← reconcileStorageMountsOnce
            pure ())
          fun e => if e.isException then logged (ask clearReady) else throw e) s := by
      refine wp_tryCatch (wp_bind (wp_mono ?_ (wp_reconcileStorageMountsOnce h)))
      intro r t ht
      cases r with
      | ok allMounted => exact wp_pure fun _ => ht ⟨allMounted, rfl⟩
      | error e =>
        refine wp_ite (fun _ => wp_mono ?_ wp_logged_clearReady) fun _ => wp_throw nofun
        exact fun r u hu _ => hu.2.published
    refine wp_bind (wp_mono ?_ hpublished)
    intro r t ht
    cases r with
    | error e => trivial
    | ok a =>
      refine wp_bind (wp_mono ?_ (wp_sleep (ht rfl)))
      rintro r u ⟨a, hlog⟩
      cases r with
      | error e => trivial
      | ok b => exact ih (.inr ⟨a, t.log, hlog⟩)

/-- The main thread starts it anew without the marker. -/
theorem wp_superviseReconciler (fuel threads : Nat) :
    wp sem Honest (fun _ _ => True) (superviseReconciler fuel threads) s := by
  induction threads generalizing s with
  | zero => trivial
  | succ threads ih =>
    refine wp_bind (wp_mono ?_ wp_clearReady)
    rintro r t ⟨-, -, hready⟩
    cases r with
    | error e => trivial
    | ok a =>
      have hthread : wp sem Honest (fun _ _ => True) (runStorageMountReconciler fuel) t := by
        refine wp_andThen.mpr (wp_mono ?_ (wp_reconcileStorageMounts fuel (.inl (hready rfl))))
        intro r u _
        refine wp_andThen.mpr (wp_mono ?_ wp_clearReady)
        intro r' v _
        cases r' with
        | ok b => exact wp_ofExcept.mpr trivial
        | error e => trivial
      refine wp_bind (wp_tryCatch (wp_mono ?_ hthread))
      intro r u _
      cases r with
      | ok b => exact ih
      | error e => exact ih

end

/-- **The marker is honest.** In every run of the provisioner, at every moment of it: from whatever marker an earlier process has
left, with anything raised by any request. -/
theorem supervise_honest {fuel threads : Nat} {ready : Bool} {p' : ReadyProg Unit} {s' : Provisioner}
    (hr : Exec sem (superviseReconciler fuel threads) ⟨ready, []⟩ p' s') : Honest s' := by
  have hstart : Honest ⟨ready, []⟩ := by constructor <;> (intros; contradiction)
  exact (wp_exec hstart (wp_superviseReconciler fuel threads) hr).1

/-- A provisioner with one pool, whose requests all succeed. -/
def onePool : (r : ReadyCall) → Provisioner → Except MountErr r.Answer × Provisioner
  | hostVolumes, s =>
    let a : Except MountErr (List HostVol) := .ok [{ name := "pool1", type := "Replica1" }]
    (a, ⟨s.ready, ⟨hostVolumes, a⟩ :: s.log⟩)
  | mount volume, s => (.ok (), ⟨s.ready, ⟨mount volume, .ok ()⟩ :: s.log⟩)
  | markerExists, s => (.ok s.ready, ⟨s.ready, ⟨markerExists, .ok s.ready⟩ :: s.log⟩)
  | markReady, s => (.ok (), ⟨true, ⟨markReady, .ok ()⟩ :: s.log⟩)
  | clearReady, s => (.ok (), ⟨false, ⟨clearReady, .ok ()⟩ :: s.log⟩)
  | sleep, s => (.ok (), ⟨s.ready, ⟨sleep, .ok ()⟩ :: s.log⟩)

/-- Its state after the first round. -/
def firstRound : Provisioner := (replay onePool 6 (superviseReconciler 2 1) ⟨true, []⟩).2

/-- The marker is there after it, and says so. -/
theorem firstRound_honest : firstRound.ready = true ∧ firstRound.log.length = 6 ∧ Honest firstRound := by
  have hanswer : ∀ r s, sem r s (onePool r s).1 (onePool r s).2 := by
    intro r s
    cases r with
    | markerExists => exact ⟨_, ⟨rfl, fun marked h => (Except.ok.inj h).symm⟩, rfl⟩
    | markReady => exact ⟨_, .inl rfl, rfl⟩
    | clearReady => exact ⟨_, .inl rfl, rfl⟩
    | _ => exact ⟨_, rfl, rfl⟩
  exact ⟨rfl, rfl, supervise_honest (exec_replay hanswer 6 (superviseReconciler 2 1) ⟨true, []⟩)⟩

end Kadalu.StorageReady
