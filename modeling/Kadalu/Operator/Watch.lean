import Kadalu.Operator.Serving

/-!
# The operator does not stay fenced

`CrdWatch` are the states of the operator between two passes. As long as no error that only starts the next pass comes under
a fence, every pass begins and ends while the operator serves (`watchStream_serves`). Such an error ends the program of a
fence but not the process, and the next pass need not find a reason for a fence (`watchStream_fenced`).
-/

namespace Kadalu.Runtime

open Calls Calls.Prog Operator Fingerprint Snapshot WatchCall

open Surface

variable {d : Prop} {α : Type}

/-! ## The handlers of the loops -/

/-- What a request of the loops does, in the terms of the fence. -/
def planCalm : (r : PlanRequest) → Surface → Except OpErr r.Answer → Surface → Prop
  | .handleAdded _ false, s, a, t => s.Serving → Serves Rejected a t
  | .handleDeleted _ false _, s, a, t => s.Serving → Serves Failed a t
  | .clearOperatorReady, _, a, t => Stops a ∧ (a = .ok () → t.Down)
  | .quiesceCsiProvisioner, s, a, t => s.Down → t.Down ∧ Stops a
  | .resumeCsiProvisioner, s, a, t => s.Down → (t.Down ∧ Stops a) ∧ (a = .ok () → t.replicas = 1)
  | .markOperatorReady, s, a, t => s.replicas = 1 → Stops a ∧ (a = .ok () → t.Serving)
  | _, s, a, t => Same s t ∧ (s.Down → Stops a)

section

variable [ConfigHash] [RequestChecks] [ObjectForm]

omit [ConfigHash] [RequestChecks] [ObjectForm] in
/-- What holds under a condition on the state. -/
theorem wp_of_imp {ρ : Type} {ans : ρ → Type} {S : (r : ρ) → Surface → Except OpErr (ans r) → Surface → Prop}
    {p : Prog ρ ans OpErr α} {Q : Except OpErr α → Surface → Prop} {s : Surface} {P : Prop}
    (h : P → wp S (fun _ => True) Q p s) : wp S (fun _ => True) (fun r t => P → Q r t) p s := by
  by_cases hP : P
  · exact wp_mono (fun _ _ hQ _ => hQ) (h hP)
  · exact wp_mono (fun _ _ _ h => absurd h hP) (gives_any p s)

theorem handler_calm {fuel : Nat} (r : PlanRequest) (s : Surface) :
    wp calm (fun _ => True) (planCalm r s) (handler fuel r) s := by
  have hquiet : ∀ {α : Type} {p : WatchProg α}, Quiet calm s.Down p →
      wp calm (fun _ => True) (fun a t => Same s t ∧ (s.Down → Stops a)) p s := fun hp => hp s id
  cases r with
  | prepare => exact hquiet (quiet_ask ⟨id, fun _ _ _ h => h⟩)
  | rollOut tolerations => exact hquiet (quiet_ask ⟨id, fun _ _ _ h => h⟩)
  | awaitRollout tolerations => exact hquiet (quiet_ask ⟨id, fun _ _ _ h => h⟩)
  | currentTolerations => exact hquiet (quiet_ask ⟨id, fun _ _ _ h => h⟩)
  | deployServers obj => exact hquiet (quiet_ask ⟨id, fun _ _ _ h => h⟩)
  | handleAdded obj fenced =>
    cases fenced with
    | true => exact hquiet quiet_handleAdded
    | false => exact wp_of_imp fun hs => safe_handleAdded s hs
  | handleDeleted orphan fenced storageClient =>
    cases fenced with
    | true => exact hquiet (quiet_onPool (quiet_handleDeleted rfl))
    | false => exact wp_of_imp fun hs => wp_onPool (safe_handleDeleted rfl s hs)
  | clearOperatorReady => exact wp_onPool (wp_clearReady s)
  | quiesceCsiProvisioner => exact wp_of_imp fun hs => wp_onPool (low_quiesceCsiProvisioner s hs)
  | resumeCsiProvisioner => exact wp_of_imp fun hs => wp_onPool (wp_setReplicas 1 hs)
  | waitForCsiProvisionerRollout => exact hquiet (quiet_onPool quiet_waitForCsiProvisionerRollout)
  | markOperatorReady => exact wp_of_imp fun hs => wp_onPool (wp_markReady hs)

theorem wp_onPlan {fuel : Nat} {p : PlanProg α} {Q : Except OpErr α → Surface → Prop} {s : Surface}
    (h : wp planCalm (fun _ => True) Q p s) : wp calm (fun _ => True) Q (onPlan fuel p) s := wp_expand handler_calm h

end

/-! ## The loops -/

section

variable {fuel : Nat} {plan : Plan} {current : Option (List Toleration)}

/-- The request leaves the surface as it is. -/
def PlanQuiet (r : PlanRequest) : Prop := ∀ s a t, planCalm r s a t → Same s t ∧ (s.Down → Stops a)

theorem quiet_plan {r : PlanRequest} (hr : PlanQuiet r) : Quiet planCalm d (PlanRequest.ask r) := quiet_request hr

theorem quiet_upgradeStoragePods {objs : List Dict} : Quiet planCalm d (upgradeStoragePods objs) := by
  induction objs with
  | nil => exact quiet_pure _
  | cons obj objs ih => exact quiet_bind (quiet_plan fun _ _ _ h => h) fun _ => ih

theorem quiet_advanceNodeplugin {gated : Option (List Toleration)} {desired : List Toleration} :
    Quiet planCalm d (advanceNodeplugin gated desired) := by
  refine quiet_ite (quiet_pure _) (quiet_bind (quiet_plan fun _ _ _ h => h) fun _ => ?_)
  exact quiet_bind (quiet_plan fun _ _ _ h => h) fun _ => quiet_pure _

theorem quiet_gateNodepluginUntilCurrent : Quiet planCalm d (gateNodepluginUntilCurrent fuel current plan) := by
  induction fuel generalizing current plan with
  | zero => exact quiet_cut
  | succ fuel ih =>
    refine quiet_bind quiet_advanceNodeplugin fun gated => quiet_bind (quiet_plan fun _ _ _ h => h) fun fresh => ?_
    exact quiet_ite (quiet_pure _) ih

variable [JsonText]

theorem quiet_reconcileInitialStorage {items : List Dict} : Quiet planCalm d (reconcileInitialStorage true items) := by
  induction items with
  | nil => exact quiet_pure _
  | cons item items ih =>
    refine quiet_ite (quiet_throw fun _ => rfl) (quiet_ite (quiet_bind ih fun _ => quiet_pure _) ?_)
    refine quiet_bind (quiet_plan fun _ _ _ h => h) fun answer => quiet_ite (quiet_throw fun _ => rfl) ?_
    exact quiet_bind ih fun _ => quiet_pure _

theorem quiet_reconcileDeletionOrphans {storageClient : Bool} {orphans : List Orphan} :
    Quiet planCalm d (reconcileDeletionOrphans true storageClient orphans) := by
  induction orphans with
  | nil => exact quiet_pure _
  | cons orphan orphans ih =>
    exact quiet_bind (quiet_plan fun _ _ _ h => h) fun _ => quiet_ite (quiet_throw fun _ => rfl) ih

theorem quiet_reconcileStoragePlan : Quiet planCalm d (reconcileStoragePlan plan) :=
  quiet_bind quiet_upgradeStoragePods fun _ =>
    quiet_bind quiet_reconcileInitialStorage fun _ => quiet_reconcileDeletionOrphans

theorem quiet_stableRounds {gated : List Toleration} : Quiet planCalm d (stableRounds fuel gated plan) := by
  induction fuel generalizing gated plan with
  | zero => exact quiet_cut
  | succ fuel ih =>
    refine quiet_bind quiet_reconcileStoragePlan fun _ => quiet_bind (quiet_plan fun _ _ _ h => h) fun fresh => ?_
    exact quiet_bind quiet_gateNodepluginUntilCurrent fun fresh => quiet_ite (quiet_pure _) ih

theorem quiet_reconcileStorageUntilStable : Quiet planCalm d (reconcileStorageUntilStable fuel plan) := quiet_stableRounds

/-- Nothing is a failure but an error. -/
abbrev Never {α : Type} (_ : α) : Prop := False

theorem safe_reconcileInitialStorage {items : List Dict} : Safe planCalm Never (reconcileInitialStorage false items) := by
  induction items with
  | nil => exact safe_pure _
  | cons item items ih =>
    have hrest {g : List Dict → List Dict} : Safe planCalm Never (do
        let after ← reconcileInitialStorage false items
        pure (g after)) :=
      safe_bind ih (fun _ => safe_pure _) fun _ => False.elim
    refine safe_ite (safe_of_quiet (quiet_throw fun _ => rfl)) (safe_ite hrest ?_)
    refine safe_bind (F := Rejected) (fun s hs => wp_request fun a t h => ⟨trivial, h hs⟩) (fun answer => ?_) ?_
    · exact safe_ite (safe_of_quiet (quiet_throw fun _ => rfl)) hrest
    · rintro ⟨_, after⟩ rfl s
      exact serves_throw rfl s

theorem safe_reconcileDeletionOrphans {storageClient : Bool} {orphans : List Orphan} :
    Safe planCalm Never (reconcileDeletionOrphans false storageClient orphans) := by
  induction orphans with
  | nil => exact safe_pure _
  | cons orphan orphans ih =>
    refine safe_bind (F := Failed) (fun s hs => wp_request fun a t h => ⟨trivial, h hs⟩) (fun deleted => ?_) ?_
    · exact safe_ite (safe_of_quiet (quiet_throw fun _ => rfl)) ih
    · rintro _ rfl s
      exact serves_throw rfl s

section

variable {Q : Except OpErr α → Surface → Prop} {rest : Unit → PlanProg α}

omit [JsonText] in
/-- The first step of a fence. -/
theorem wp_clear (hQ : ∀ e t, restartsWatch e = false → Q (.error e) t)
    (hrest : ∀ s, s.Down → wp planCalm (fun _ => True) Q (rest ()) s) (s : Surface) :
    wp planCalm (fun _ => True) Q (PlanRequest.ask .clearOperatorReady >>= rest) s := by
  refine wp_bind (wp_request ?_)
  rintro a t ⟨hstops, ht⟩
  refine ⟨trivial, ?_⟩
  cases a with
  | ok b => exact hrest t (ht rfl)
  | error e => exact hQ e t (hstops e rfl)

omit [JsonText] in
/-- The second step of a fence. -/
theorem wp_quiesce (hQ : ∀ e t, restartsWatch e = false → Q (.error e) t)
    (hrest : ∀ s, s.Down → wp planCalm (fun _ => True) Q (rest ()) s) (s : Surface) (hs : s.Down) :
    wp planCalm (fun _ => True) Q (PlanRequest.ask .quiesceCsiProvisioner >>= rest) s := by
  refine wp_bind (wp_request fun a t h => ⟨trivial, ?_⟩)
  obtain ⟨ht, hstops⟩ := h hs
  cases a with
  | ok b => exact hrest t ht
  | error e => exact hQ e t (hstops e rfl)

end

omit [JsonText] in
/-- The end of a fence that the loop has set itself. -/
theorem wp_resume (result : α) {s : Surface} (hs : s.Down) :
    wp planCalm (fun _ => True) (fun r t => Stops r ∧ ((∃ a, r = .ok a) → t.Serving))
      (do
        let (_ : Unit) ← PlanRequest.ask .resumeCsiProvisioner
        let (_ : Unit) ← PlanRequest.ask .waitForCsiProvisionerRollout
        let (_ : Unit) ← PlanRequest.ask .markOperatorReady
        pure result) s := by
  refine wp_bind (wp_request fun a t h => ⟨trivial, ?_⟩)
  obtain ⟨⟨ht, hstops⟩, hreplicas⟩ := h hs
  cases a with
  | error e => exact ⟨stops_error (hstops e rfl), nofun⟩
  | ok b =>
    refine wp_bind (wp_request fun a u h => ⟨trivial, ?_⟩)
    obtain ⟨htu, hstops⟩ := h
    cases a with
    | error e => exact ⟨stops_error (hstops ht e rfl), nofun⟩
    | ok b =>
      refine wp_bind (wp_request fun a v h => ⟨trivial, ?_⟩)
      obtain ⟨hstops, hserving⟩ := h (htu.replicas.trans (hreplicas rfl))
      cases a with
      | error e => exact ⟨stops_error (hstops e rfl), nofun⟩
      | ok b => exact wp_pure ⟨stops_ok _, fun _ => hserving rfl⟩

/-- **A fence of the loop.** When it returns, the operator serves again. -/
theorem serves_reconcileFencedWatchStorage (s : Surface) :
    wp planCalm (fun _ => True) (Serves Never) (reconcileFencedWatchStorage fuel plan current) s := by
  refine wp_clear (fun _ _ => serves_error) (wp_quiesce (fun _ _ => serves_error) fun s hs => wp_bind ?_) s
  have hbody : Quiet planCalm True (do
      let plan ← gateNodepluginUntilCurrent fuel current plan
      reconcileStorageUntilStable fuel plan) :=
    quiet_bind quiet_gateNodepluginUntilCurrent fun _ => quiet_reconcileStorageUntilStable
  refine wp_tryCatch (wp_mono ?_ (hbody s fun _ => hs))
  rintro r t ⟨hst, hr⟩
  cases r with
  | error e =>
    refine wp_clear ?_ ?_ t
    · exact fun _ _ => serves_error
    · exact fun s _ => wp_throw (serves_error (hr trivial e rfl))
  | ok plan =>
    refine wp_tryCatch (wp_mono ?_ (wp_resume plan (hst.down hs)))
    rintro r u ⟨hstops, hu⟩
    cases r with
    | ok plan => exact .inl (hu ⟨plan, rfl⟩)
    | error e =>
      refine wp_clear (fun _ _ => serves_error) (wp_quiesce (fun _ _ => serves_error) ?_) u
      exact fun s _ => wp_throw (serves_error (hstops e rfl))

theorem safe_watchRounds : Safe planCalm Never (watchRounds fuel current plan) := by
  induction fuel generalizing plan with
  | zero => exact fun _ _ => trivial
  | succ fuel ih =>
    refine safe_ite (fun s _ => serves_reconcileFencedWatchStorage s) ?_
    refine safe_bind safe_reconcileInitialStorage (fun after => ?_) fun _ => False.elim
    refine safe_bind safe_reconcileDeletionOrphans (fun _ => ?_) fun _ => False.elim
    refine safe_ite (safe_pure _) (safe_quiet_bind (quiet_plan fun _ _ _ h => h) fun fresh => ?_)
    exact safe_ite (safe_pure _) ih

/-- **Watched plans.** A reconciliation that begins while the operator serves ends so, or ends the process. -/
theorem safe_reconcileWatchStorageUntilStable : Safe planCalm Never (reconcileWatchStorageUntilStable fuel plan) :=
  safe_quiet_bind (quiet_plan fun _ _ _ h => h) fun _ => safe_watchRounds

end

/-! ## Passes -/

section

variable [ConfigHash] [RequestChecks] [ObjectForm] [JsonText] {fuel : Nat}

theorem safe_reconcileSnapshot : Safe calm Never (reconcileSnapshot fuel) :=
  safe_quiet_bind (quiet_ask ⟨id, fun _ _ _ h => h⟩) fun _ s hs => wp_onPlan (safe_reconcileWatchStorageUntilStable s hs)

omit [JsonText] in
theorem quiet_eventQuarantined {event : WatchEvent} : Quiet calm d (eventQuarantined event) := by
  refine quiet_ite (quiet_pure _) (quiet_onPool (quiet_ite (quiet_pure _) (quiet_bind (quiet_call id id) fun config => ?_)))
  split
  · exact quiet_runtime
  · exact quiet_pure _
  · exact quiet_bind (quiet_ofExcept stops_validateStoredPoolIdentity) fun _ => quiet_pure _

omit [RequestChecks] [JsonText] in
theorem safe_finishTombstone {event : WatchEvent} {quarantined : Bool} {plan : Plan} :
    Safe calm Never (finishTombstone fuel event quarantined plan) := by
  refine safe_ite (safe_quiet_bind (quiet_onPool quiet_readDeletionStorageInfo) fun data => ?_) (safe_pure _)
  refine safe_ite (safe_pure _) (safe_bind (F := Failed) ?_ (fun deleted => ?_) ?_)
  · exact fun s hs => wp_onPool (safe_handleDeleted rfl s hs)
  · exact safe_ite (safe_of_quiet (quiet_throw fun _ => rfl)) (safe_pure _)
  · rintro _ rfl s
    exact serves_throw rfl s

theorem safe_handleEvent {event : WatchEvent} : Safe calm Never (handleEvent fuel event) := by
  refine safe_quiet_bind quiet_eventQuarantined fun quarantined => ?_
  refine safe_bind safe_reconcileSnapshot (fun plan => ?_) fun _ => False.elim
  exact safe_bind safe_finishTombstone (fun _ => safe_pure _) fun _ => False.elim

theorem safe_watchEvents {rounds version : Nat} : Safe calm Never (watchEvents fuel rounds version) := by
  induction rounds generalizing version with
  | zero => exact fun _ _ => trivial
  | succ rounds ih =>
    refine safe_quiet_bind (quiet_ask ⟨id, fun _ _ _ h => h⟩) fun event => ?_
    have hevent {event : WatchEvent} : Safe calm Never (if event.resourceVersion.isNone then
        throw (.runtime "Kadalustorage event has no resourceVersion") else handleEvent fuel event) :=
      safe_ite (safe_of_quiet (quiet_throw fun _ => rfl)) safe_handleEvent
    cases event with
    | none => exact safe_pure _
    | some event =>
      -- the error of the watch itself comes while the operator serves
      have herror : Safe calm Never (throw (.api event.status) : WatchProg Nat) := safe_of_quiet (quiet_throw False.elim)
      dsimp only
      split
      · exact herror
      · exact ih
      · exact ih
      · exact hevent
      · exact hevent
      · exact hevent

/-- **A pass.** -/
theorem safe_watchStream : Safe calm Never (watchStream fuel) :=
  safe_bind safe_reconcileSnapshot (fun _ => safe_watchEvents) fun _ => False.elim

omit [JsonText] in
theorem quiet_onPlan {α : Type} {p : PlanProg α} (h : Quiet planCalm d p) : Quiet calm d (onPlan fuel p) :=
  fun s hs => wp_onPlan (h s hs)

omit [ConfigHash] [RequestChecks] [ObjectForm] [JsonText] in
theorem wp_deployCsiPods {n : Nat} {tolerations : List Toleration} {s : Surface} (hs : s.Down) :
    wp calm (fun _ => True) (fun r t => (t.Down ∧ Stops r) ∧ (r = .ok () → t.replicas = n))
      (ask (deployCsiPods n tolerations)) s := by
  refine wp_request ?_
  rintro a s' ⟨⟨u, time, hwrites, -, rfl⟩, hcalm⟩
  obtain ⟨hdown, hreplicas⟩ := writes_down hs hwrites
  exact ⟨trivial, ⟨hdown, hcalm hs.not_serving id⟩, hreplicas⟩

omit [JsonText] in
theorem low_deployCsiUpgrade : Low calm (deployCsiUpgrade fuel) := by
  have hask {r : WatchCall} (hr : Passive r) : Low calm (ask r) := low_of_quiet (quiet_ask hr)
  refine low_bind (hask ⟨id, fun _ _ _ h => h⟩) fun plan => low_bind (hask ⟨id, fun _ _ _ h => h⟩) fun _ => ?_
  refine low_bind (hask ⟨id, fun _ _ _ h => h⟩) fun _ => ?_
  refine low_bind (fun s hs => wp_onPool (low_quiesceCsiProvisioner s hs)) fun _ => ?_
  refine low_bind (hask ⟨id, fun _ _ _ h => h⟩) fun plan => low_bind (hask ⟨id, fun _ _ _ h => h⟩) fun _ => ?_
  refine low_bind (fun s hs => wp_mono (fun _ _ ht => ht.1) (wp_deployCsiPods hs)) fun _ => ?_
  refine low_bind (hask ⟨id, fun _ _ _ h => h⟩) fun _ => low_of_quiet ?_
  exact quiet_onPlan quiet_gateNodepluginUntilCurrent

/-- **The components.** A new configuration goes through a fence. -/
theorem safe_reconcileComponentConfiguration {fingerprint : String} {version : Nat} :
    Safe calm Never (reconcileComponentConfiguration fuel fingerprint version) := by
  refine safe_quiet_bind (quiet_ask ⟨id, fun _ _ _ h => h⟩) fun components => safe_ite (safe_pure _) fun s _ => ?_
  refine wp_bind (wp_mono ?_ (wp_onPool (wp_clearReady s)))
  rintro r t ⟨hr, ht⟩
  cases r with
  | error e => exact serves_error (hr e rfl)
  | ok a =>
    refine (recovers_bind low_deployCsiUpgrade fun plan => ?_) t (ht rfl)
    refine recovers_bind (low_of_quiet (quiet_onPlan quiet_reconcileStorageUntilStable)) fun plan s hs => ?_
    refine wp_bind (wp_mono ?_ (wp_deployCsiPods hs))
    rintro r u ⟨⟨hu, hr⟩, hreplicas⟩
    cases r with
    | error e => exact serves_error (hr e rfl)
    | ok a =>
      refine wp_bind (wp_mono ?_ (wp_onPool (quiet_waitForCsiProvisionerRollout (d := True) u fun _ => hu)))
      rintro r v ⟨huv, hr⟩
      cases r with
      | error e => exact serves_error (hr trivial e rfl)
      | ok a =>
        refine wp_bind (wp_mono ?_ (wp_onPool (wp_markReady (huv.replicas.trans (hreplicas rfl)))))
        rintro r w ⟨hr, hw⟩
        cases r with
        | error e => exact serves_error (hr e rfl)
        | ok a => exact wp_pure (.inl (hw rfl))

/-! ## Every run -/

theorem safe_watchPass {fingerprint : String} : Safe calm Never (watchPass fuel fingerprint) :=
  safe_bind safe_watchStream (fun _ => safe_reconcileComponentConfiguration) fun _ => False.elim

/-- `crd_watch` between two passes, with the newest configuration of the components that it has reconciled. -/
inductive CrdWatch (S : (r : WatchCall) → Surface → Except OpErr r.Answer → Surface → Prop) (fuel : Nat) (start : String)
    (s₀ : Surface) : String → Surface → Prop
  | start : CrdWatch S fuel start s₀ start s₀
  | completed {fingerprint fingerprint' version s s'} (h : CrdWatch S fuel start s₀ fingerprint s)
      (hpass : Exec S (watchPass fuel fingerprint) s (ret (fingerprint', version)) s') :
      CrdWatch S fuel start s₀ fingerprint' s'
  | restarted {fingerprint e s s'} (h : CrdWatch S fuel start s₀ fingerprint s)
      (hpass : Exec S (watchPass fuel fingerprint) s (raise e) s') (he : restartsWatch e = true) :
      CrdWatch S fuel start s₀ fingerprint s'

omit [ConfigHash] [RequestChecks] [ObjectForm] [JsonText] in
/-- What a program leaves that began while the operator served. -/
theorem Safe.exec {F : α → Prop} {p : WatchProg α} (hp : Safe calm F p) {s t : Surface} (hs : s.Serving)
    {r : Except OpErr α} (h : Exec calm p s (Prog.ofExcept r) t) : Serves F r t :=
  wp_ofExcept.mp (wp_exec trivial (hp s hs) h).2

variable {start fingerprint : String} {s₀ s t : Surface}

/-- Every pass begins while the operator serves. -/
theorem CrdWatch.serving (h₀ : s₀.Serving) (h : CrdWatch calm fuel start s₀ fingerprint s) : s.Serving := by
  induction h with
  | start => exact h₀
  | completed _ hpass ih => exact (safe_watchPass.exec (r := .ok _) ih hpass).elim id fun hfail => (hfail.2 _ rfl).elim
  | restarted _ hpass he ih =>
    refine (safe_watchPass.exec (r := .error _) ih hpass).elim id fun hfail => ?_
    rw [hfail.1 _ rfl] at he
    cases he

/-- **The fence ends.** In a run in which no error that only starts the next pass comes while the provisioner is fenced, the
operator serves after every pass. -/
theorem watchStream_serves (h₀ : s₀.Serving) (h : CrdWatch calm fuel start s₀ fingerprint s) {version : Nat}
    (hpass : Exec calm (watchStream fuel) s (ret version) t) : t.Serving :=
  (safe_watchStream.exec (r := .ok _) (h.serving h₀) hpass).elim id fun hfail => (hfail.2 _ rfl).elim

end

/-! ## A new toleration -/

section

/-- Only names are read: there is no pool. -/
abbrev namedForm : ObjectForm where
  storage obj := { name := (nameOf obj).getD "", type := none }
  deleted obj := { name := (nameOf obj).getD "", className := storageClassName (nameOf obj) none }
  record _ := { volname := none, type := none, volumeId := none }
  identified obj _ := obj

attribute [local instance] sampleJson extHash extChecks namedForm

/-- The plan of a cluster without pools that wants one toleration. -/
def newToleration : Plan :=
  { items := [], reconcileItems := [], invalidItems := [], resourceVersion := 1, upgradeObjects := [], deletionOrphans := [],
    nodepluginTolerations := [⟨"Exists", "storage", "", "", none⟩] }

/-- A rollout that is complete. -/
def rolledOut : StatefulSet :=
  ⟨some ⟨some 1⟩, some ⟨some 1⟩, some ⟨some 1, some "r", some "r", some 1, some 1, some 1, some 1, some 1⟩⟩

/-- The cluster answers, except that a list is lost with its connection at the time `lost`; from then on the nodeplugins are
current. -/
def clusterAnswer (lost : Option Int) : (r : WatchCall) → Surface → Except OpErr r.Answer × Surface
  | .prepare, s => (if some s.time = lost then .error .connection else .ok newToleration, { s with time := s.time + 1 })
  | .currentTolerations, s =>
    (.ok (if s.time < 8 then none else some newToleration.nodepluginTolerations), { s with time := s.time + 1 })
  | .rollOut _, s | .awaitRollout _, s => (.ok (), { s with time := s.time + 1 })
  | .pool (.setReplicas n), s => (.ok (), { s with replicas := n, time := s.time + 1 })
  | .pool .clearReady, s => (.ok (), { s with ready := false, time := s.time + 1 })
  | .pool .markReady, s => (.ok (), { s with ready := true, time := s.time + 1 })
  | .pool .monotonic, s => (.ok s.time, { s with time := s.time + 1 })
  | .pool .listPods, s => (.ok [], { s with time := s.time + 1 })
  | .pool .readProvisioner, s => (.ok (some rolledOut), { s with time := s.time + 1 })
  | .nextEvent, s => (.ok none, { s with time := s.time + 1 })
  | .readComponents, s => (.ok "components", { s with time := s.time + 1 })
  | _, s => (.error .other, { s with time := s.time + 1 })

def serving : Surface := ⟨1, true, 0⟩

theorem clusterAnswer_sem (lost : Option Int) (r : WatchCall) (s : Surface) :
    sem r s (clusterAnswer lost r s).1 (clusterAnswer lost r s).2 := by
  have htime : s.time ≤ s.time + 1 := by omega
  cases r with
  | pool c =>
    cases c with
    | setReplicas n => exact ⟨{ s with replicas := n }, _, .inl ⟨rfl, rfl⟩, htime, rfl⟩
    | clearReady => exact ⟨{ s with ready := false }, _, .inl ⟨rfl, rfl⟩, htime, rfl⟩
    | markReady => exact ⟨{ s with ready := true }, _, .inl ⟨rfl, rfl⟩, htime, rfl⟩
    | monotonic => exact ⟨s, _, ⟨rfl, fun now h => by cases h; rfl⟩, htime, rfl⟩
    | _ => exact ⟨s, _, rfl, htime, rfl⟩
  | deployCsiPods n tolerations => exact ⟨s, _, .inr ⟨_, rfl, .inl rfl⟩, htime, rfl⟩
  | _ => exact ⟨s, _, rfl, htime, rfl⟩

/-- Nothing is lost. -/
theorem clusterAnswer_calm (r : WatchCall) (s : Surface) :
    calm r s (clusterAnswer none r s).1 (clusterAnswer none r s).2 := by
  refine ⟨clusterAnswer_sem none r s, fun _ _ => ?_⟩
  cases r with
  | pool c => cases c <;> first | exact stops_ok _ | exact stops_error rfl
  | _ => first | exact stops_ok _ | exact stops_error rfl

/-- The nodeplugins get the toleration under a fence. -/
def rolloutPass : WatchProg (String × Nat) × Surface := replay (clusterAnswer none) 17 (watchPass 3 "components") serving

/-- The pass after it. -/
def quietPass : WatchProg Nat × Surface := replay (clusterAnswer none) 3 (watchStream 3) rolloutPass.2

theorem watchStream_serves_rollout : quietPass.1.ended = some (.ok 1) ∧ quietPass.2.Serving := by
  have hended : rolloutPass.1 = ret ("components", 1) := rfl
  have hpass : Exec calm (watchPass 3 "components") serving (ret ("components", 1)) rolloutPass.2 :=
    hended ▸ exec_replay clusterAnswer_calm 17 _ _
  have hended' : quietPass.1 = ret 1 := rfl
  have hquiet : Exec calm (watchStream 3) rolloutPass.2 (ret 1) quietPass.2 := hended' ▸ exec_replay clusterAnswer_calm 3 _ _
  exact ⟨by rw [hended']; rfl, watchStream_serves ⟨rfl, rfl⟩ (.completed .start hpass) hquiet⟩

/-- The list that follows the rollout is lost with its connection. -/
def lostPass : WatchProg (String × Nat) × Surface := replay (clusterAnswer (some 8)) 10 (watchPass 3 "components") serving

/-- The pass after it finds the nodeplugins current, and has nothing to fence. -/
def fencedPass : WatchProg Nat × Surface := replay (clusterAnswer (some 8)) 3 (watchStream 3) lostPass.2

theorem watchStream_fenced : ¬∀ (fuel : Nat) (start fingerprint : String) (s₀ s t : Surface) (version : Nat), s₀.Serving →
    CrdWatch sem fuel start s₀ fingerprint s → Exec sem (watchStream fuel) s (ret version) t → t.Serving := by
  intro h
  have hended : lostPass.1 = raise .connection := rfl
  have hpass : Exec sem (watchPass 3 "components") serving (raise .connection) lostPass.2 :=
    hended ▸ exec_replay (clusterAnswer_sem _) 10 _ _
  have hended' : fencedPass.1 = ret 1 := rfl
  have hfenced : Exec sem (watchStream 3) lostPass.2 (ret 1) fencedPass.2 :=
    hended' ▸ exec_replay (clusterAnswer_sem _) 3 _ _
  have hserving := h 3 _ _ serving _ _ 1 ⟨rfl, rfl⟩ (.restarted .start hpass rfl) hfenced
  exact absurd hserving.1 (by decide)

end

end Kadalu.Runtime
