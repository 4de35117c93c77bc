import Kadalu.Operator.Surface

/-!
# Handlers and their fences

The handlers of one object leave the surface as it is under the fence of their caller (`quiet_handleDeleted`,
`quiet_handleAdded`). With a fence of their own they end it, unless they fail (`safe_handleDeleted`, `safe_handleAdded`).
-/

namespace Kadalu.Runtime

open Calls Calls.Prog Operator Fingerprint Snapshot WatchCall

open Surface

variable {d : Prop} {α : Type}

/-! ## Checks -/

section

variable [ConfigHash] {volname : String} {data expected current : PoolRecord}

theorem stops_validateStoredPoolIdentity : Stops (validateStoredPoolIdentity volname data) := by
  unfold validateStoredPoolIdentity
  split_ifs <;> first | exact stops_runtime _ | exact stops_ok _

omit [ConfigHash] in
theorem stops_validateStoredBricks : Stops (validateStoredBricks volname data) := by
  unfold validateStoredBricks
  split
  · exact stops_runtime _
  · split
    · exact stops_runtime _
    · split_ifs <;> first | exact stops_runtime _ | exact stops_ok _

theorem stops_validateStoredRecord : Stops (validateStoredRecord volname data) := by
  refine stops_bind stops_validateStoredPoolIdentity fun _ => ?_
  exact stops_ite stops_validateStoredBricks (stops_ok _)

omit [ConfigHash] in
theorem stops_deletionInfo {config : ConfigMap} : Stops (config.deletionInfo volname) := by
  unfold ConfigMap.deletionInfo
  split
  · exact stops_ok _
  · split
    · exact stops_runtime _
    · exact stops_ok _

omit [ConfigHash] in
theorem stops_validateDeletionRecordOwner {obj : DeletedStorage} : Stops (validateDeletionRecordOwner obj data) :=
  stops_ite (stops_runtime _) (stops_ite (stops_runtime _) (stops_ok _))

theorem stops_validateDeletionSnapshot {obj : DeletedStorage} : Stops (validateDeletionSnapshot obj expected current) :=
  stops_bind stops_validateStoredRecord fun _ => stops_bind stops_validateDeletionRecordOwner fun _ =>
    stops_ite (stops_runtime _) (stops_ok _)

theorem stops_validateDisabled : Stops (validateDisabled volname expected current) :=
  stops_bind stops_validateStoredPoolIdentity fun _ => stops_ite (stops_runtime _) (stops_ok _)

theorem stops_validateSealed : Stops (validateSealed volname expected current) :=
  stops_bind stops_validateStoredRecord fun _ => stops_ite (stops_runtime _) (stops_ok _)

omit [ConfigHash] in
theorem stops_validateRequestedBackendIdentity {obj : KadaluStorage} :
    Stops (validateRequestedBackendIdentity obj data) := by
  unfold validateRequestedBackendIdentity
  split_ifs <;> first | exact stops_runtime _ | exact stops_ok _

end

/-! ## Deletion -/

section

variable {volname : String} {obj : DeletedStorage} {data expected current : PoolRecord}

theorem quiet_readDeletionStorageInfo : Quiet poolCalm d (readDeletionStorageInfo volname) :=
  quiet_bind (quiet_call id id) fun _ => quiet_ofExcept stops_deletionInfo

theorem quiet_getNumPvs : Quiet poolCalm d (getNumPvs data) := quiet_bind (quiet_call id id) fun _ => quiet_pure _

theorem quiet_runtime {msg : String} : Quiet poolCalm d (throw (.runtime msg) : PoolHandler α) := quiet_throw fun _ => rfl

theorem quiet_validateStorageRecordOwner {uid volumeId : Option String} :
    Quiet poolCalm d (validateStorageRecordOwner volname uid volumeId data) := by
  have hpredates : Quiet poolCalm d (legacyCrPredates volname volumeId) := quiet_ite (quiet_call id id) (quiet_pure _)
  refine quiet_ite (quiet_pure _) (quiet_ite (quiet_ite quiet_runtime (quiet_pure _)) (quiet_ite (quiet_pure _) ?_))
  exact quiet_bind hpredates fun _ => quiet_ite (quiet_pure _) quiet_runtime

theorem quiet_verifyLegacyDeletionResource {hasStorageClient : Bool} :
    Quiet poolCalm d (verifyLegacyDeletionResource hasStorageClient obj data) := by
  have hcurrent := quiet_map (α := CurrentStorage) (d := d) some (quiet_call (c := .getStorage obj.name) id id)
  refine quiet_ite quiet_runtime (quiet_bind (quiet_tryCatch hcurrent fun e he => ?_) fun current => ?_)
  · exact quiet_ite (quiet_throw he) (quiet_ite quiet_runtime (quiet_pure _))
  · cases current with
    | none => exact quiet_pure _
    | some current =>
      refine quiet_ite (quiet_pure _) (quiet_ite quiet_runtime (quiet_ite (quiet_pure _) (quiet_ite quiet_runtime ?_)))
      exact quiet_validateStorageRecordOwner

theorem quiet_cleanupOwned {uid : Option String} {quarantine : Bool} :
    Quiet poolCalm d (cleanupOwned obj data uid quarantine) := by
  refine quiet_ite (quiet_pure _) (quiet_ite quiet_runtime (quiet_tryCatch ?_ fun e he => ?_))
  · exact quiet_bind (quiet_call id id) fun _ => quiet_pure _
  · cases e with
    | runtime msg => exact quiet_pure _
    | _ => exact quiet_throw he

theorem quiet_writeSealed {config : ConfigMap} {updated : PoolRecord} :
    Quiet poolCalm d (writeSealed obj config current updated) :=
  quiet_bind (quiet_ite (quiet_pure _) (quiet_call id id)) fun _ => quiet_bind quiet_readDeletionStorageInfo fun _ =>
    quiet_ite quiet_runtime (quiet_pure _)

variable [ConfigHash]

theorem quiet_disablePoolProvisioning : Quiet poolCalm d (disablePoolProvisioning volname expected) := by
  refine quiet_bind (quiet_call id id) fun config => ?_
  split
  · exact quiet_runtime
  · refine quiet_bind (quiet_ofExcept stops_validateDisabled) fun _ => quiet_ite (quiet_pure _) ?_
    exact quiet_bind (quiet_call id id) fun _ => quiet_pure _

theorem quiet_sealLegacyDeletionRecord {hasStorageClient : Bool} {uid : Option String} {quarantine : Bool} :
    Quiet poolCalm d (sealLegacyDeletionRecord hasStorageClient obj expected uid quarantine) := by
  refine quiet_ite quiet_runtime (quiet_bind quiet_verifyLegacyDeletionResource fun _ => quiet_bind (quiet_call id id)
    fun config => quiet_ite quiet_runtime ?_)
  split
  · exact quiet_runtime
  · refine quiet_bind (quiet_ofExcept stops_validateSealed) fun _ => quiet_bind quiet_getNumPvs fun _ =>
      quiet_ite quiet_runtime (quiet_bind quiet_cleanupOwned fun _ => quiet_bind quiet_writeSealed fun _ => quiet_pure _)

omit [ConfigHash] in
theorem quiet_deletePoolServers {hostvolType : Option String} :
    Quiet poolCalm d (deletePoolServers volname hostvolType data) := by
  have hservers : ∀ bricks, Quiet poolCalm d (deleteServerPods volname bricks) := by
    intro bricks
    induction bricks with
    | nil => exact quiet_pure _
    | cons brick bricks ih => exact quiet_bind (quiet_call id id) fun _ => ih
  exact quiet_ite (quiet_pure _) (quiet_bind (hservers _) fun _ => quiet_call id id)

theorem quiet_deleteConfigMap : Quiet poolCalm d (deleteConfigMap obj expected) := by
  refine quiet_bind (quiet_call id id) fun config => ?_
  split
  · exact quiet_runtime
  · exact quiet_bind (quiet_ofExcept stops_validateDeletionSnapshot) fun _ => quiet_call id id

theorem quiet_removePool : Quiet poolCalm d (removePool obj data) := by
  refine quiet_bind quiet_getNumPvs fun _ => quiet_ite (quiet_pure _) (quiet_ite (quiet_pure _) ?_)
  refine quiet_bind quiet_readDeletionStorageInfo fun latest => ?_
  cases latest with
  | none => exact quiet_pure _
  | some latest =>
    exact quiet_bind (quiet_ofExcept stops_validateDeletionSnapshot) fun _ => quiet_bind quiet_deletePoolServers fun _ =>
      quiet_bind quiet_deleteConfigMap fun _ => quiet_pure _

end

/-! ## The fence -/

/-- A change of the replicas, while the operator is not ready. -/
theorem writes_down {n : Nat} {s u : Surface} {a : Except OpErr Unit} {time : Int} (hs : s.Down)
    (h : Writes s { s with replicas := n } a u) : Down { u with time := time } ∧ (a = .ok () → u.replicas = n) := by
  rcases h with ⟨rfl, rfl⟩ | ⟨e, rfl, rfl | rfl⟩
  · exact ⟨hs, fun _ => rfl⟩
  · exact ⟨hs, nofun⟩
  · exact ⟨hs, nofun⟩

theorem wp_setReplicas (n : Nat) {s : Surface} (hs : s.Down) :
    wp poolCalm (fun _ => True) (fun r t => (t.Down ∧ Stops r) ∧ (r = .ok () → t.replicas = n))
      (request (Call.setReplicas n)) s := by
  refine wp_request ?_
  rintro a s' ⟨⟨u, time, hwrites, -, rfl⟩, hcalm⟩
  obtain ⟨hdown, hreplicas⟩ := writes_down hs hwrites
  exact ⟨trivial, ⟨hdown, hcalm hs.not_serving id⟩, hreplicas⟩

theorem low_quiesceRounds {deadline : Int} (fuel : Nat) : Low poolCalm (quiesceRounds deadline fuel) := by
  induction fuel with
  | zero => exact fun _ _ => trivial
  | succ fuel ih =>
    refine low_bind (low_of_quiet (quiet_call id id)) fun pods => ?_
    split
    · exact low_of_quiet (quiet_pure _)
    · refine low_bind (low_of_quiet (quiet_call id id)) fun now => ?_
      split
      · exact low_of_quiet (quiet_throw fun _ => rfl)
      · exact low_bind (low_of_quiet (quiet_call id id)) fun _ => ih

theorem low_quiesceCsiProvisioner {fuel : Nat} : Low poolCalm (quiesceCsiProvisioner fuel) := by
  have hscale : Low poolCalm (request (Call.setReplicas 0)) := fun s hs => wp_mono (fun _ _ ht => ht.1) (wp_setReplicas 0 hs)
  refine low_bind (low_tryCatch hscale fun e he => low_of_quiet ?_) fun _ => ?_
  · exact quiet_ite (quiet_pure _) (quiet_throw fun _ => he)
  · exact low_bind (low_of_quiet (quiet_call id id)) fun _ => low_quiesceRounds fuel

/-- The readiness ends, or the process does. -/
theorem wp_clearReady (s : Surface) :
    wp poolCalm (fun _ => True) (fun r t => Stops r ∧ (r = .ok () → t.Down)) (request Call.clearReady) s := by
  refine wp_request ?_
  rintro a s' ⟨⟨u, time, hmarks, -, rfl⟩, -⟩
  rcases hmarks with ⟨rfl, rfl⟩ | ⟨rfl, -⟩
  · exact ⟨trivial, stops_ok _, fun _ => rfl⟩
  · exact ⟨trivial, stops_error rfl, nofun⟩

theorem wp_markReady {s : Surface} (hs : s.replicas = 1) :
    wp poolCalm (fun _ => True) (fun r t => Stops r ∧ (r = .ok () → t.Serving)) (request Call.markReady) s := by
  refine wp_request ?_
  rintro a s' ⟨⟨u, time, hmarks, -, rfl⟩, -⟩
  rcases hmarks with ⟨rfl, rfl⟩ | ⟨rfl, -⟩
  · exact ⟨trivial, stops_ok _, fun _ => ⟨hs, rfl⟩⟩
  · exact ⟨trivial, stops_error rfl, nofun⟩

theorem wp_fence {fuel : Nat} (s : Surface) :
    wp poolCalm (fun _ => True) (fun r t => Stops r ∧ (r = .ok () → t.Down)) (fence fuel) s := by
  refine wp_bind (wp_mono ?_ (wp_clearReady s))
  rintro r t ⟨hr, ht⟩
  cases r with
  | ok a => exact wp_mono (fun _ _ hu => ⟨hu.2, fun _ => hu.1⟩) (low_quiesceCsiProvisioner t (ht rfl))
  | error e => exact ⟨hr, nofun⟩

theorem quiet_waitForCsiProvisionerRollout {fuel : Nat} : Quiet poolCalm d (waitForCsiProvisionerRollout fuel) := by
  have hrounds : ∀ deadline fuel, Quiet poolCalm d (provisionerRounds deadline fuel) := by
    intro deadline fuel
    induction fuel with
    | zero => exact quiet_cut
    | succ fuel ih =>
      refine quiet_bind (quiet_call id id) fun statefulSet => quiet_ite (quiet_pure _) ?_
      refine quiet_bind (quiet_call id id) fun now => quiet_ite (quiet_throw fun _ => rfl) ?_
      exact quiet_bind (quiet_call id id) fun _ => ih
  exact quiet_bind (quiet_call id id) fun _ => hrounds _ _

/-- The end of a fence: after a success the operator serves again. -/
theorem wp_unfence {fuel : Nat} {succeeded : Bool} {s : Surface} (hs : s.Down) :
    wp poolCalm (fun _ => True) (fun r t => Stops r ∧ (r = .ok () → succeeded = true → t.Serving))
      (unfence fuel succeeded) s := by
  have hresume : wp poolCalm (fun _ => True) (fun r t => Stops r ∧ (r = .ok () → succeeded = true → t.Serving))
      (do resumeCsiProvisioner; waitForCsiProvisionerRollout fuel; if succeeded then request Call.markReady) s := by
    refine wp_bind (wp_mono ?_ (wp_setReplicas 1 hs))
    rintro r t ⟨⟨ht, hr⟩, hreplicas⟩
    cases r with
    | error e => exact ⟨hr, nofun⟩
    | ok a =>
      refine wp_bind (wp_mono ?_ (quiet_waitForCsiProvisionerRollout (d := True) t fun _ => ht))
      rintro r u ⟨htu, hr⟩
      cases r with
      | error e => exact ⟨hr trivial, nofun⟩
      | ok a =>
        refine wp_ite (fun _ => ?_) fun hfailed => ?_
        · refine wp_mono ?_ (wp_markReady (htu.replicas.trans (hreplicas rfl)))
          exact fun r v hv => ⟨hv.1, fun hr _ => hv.2 hr⟩
        · exact wp_pure ⟨stops_ok _, fun _ hsucceeded => absurd hsucceeded hfailed⟩
  refine wp_tryCatch (wp_mono ?_ hresume)
  rintro r t ⟨hr, ht⟩
  cases r with
  | ok a => exact ⟨stops_ok _, fun _ => ht rfl⟩
  | error e =>
    -- the error of the body is raised again, unless the fence has one of its own
    refine wp_bind (wp_mono ?_ (wp_fence t))
    rintro r' u ⟨hr', -⟩
    cases r' with
    | ok a => exact wp_throw ⟨stops_error (hr e rfl), nofun⟩
    | error e' => exact ⟨hr', nofun⟩

/-! ## The handler of deletions -/

section

variable [ConfigHash] {obj : DeletedStorage} {q : DeletionRequest} {data : PoolRecord} {fuel : Nat}

/-- A record with its tombstone. -/
def Marked : FencedRecord → Prop
  | .tombstoned data => storageRecordCleanupOnly data = true
  | _ => True

theorem gives_disablePoolProvisioning {volname : String} {expected : PoolRecord} :
    Gives poolCalm (fun data => storageRecordCleanupOnly data = true) (disablePoolProvisioning volname expected) := by
  refine gives_bind fun config => ?_
  split
  · exact gives_throw
  · refine gives_bind fun _ => gives_ite (fun h => gives_pure ?_) fun _ => gives_bind fun _ => gives_pure ?_
    · simp only [Bool.and_eq_true, decide_eq_true_eq] at h
      simp [storageRecordCleanupOnly, h.2]
    · simp [storageRecordCleanupOnly, PoolRecord.disabled]

theorem gives_authoritativeRecord : Gives poolCalm Marked (authoritativeRecord obj q data) := by
  refine gives_bind fun authoritative => ?_
  cases authoritative with
  | none => exact gives_pure trivial
  | some authoritative =>
    refine gives_bind fun _ => gives_ite (fun _ => ?_) fun _ => gives_ite (fun h => gives_pure (P := Marked) h) fun _ => ?_
    · exact gives_ite (fun _ => gives_throw) fun _ => gives_pure trivial
    · intro s
      refine wp_bind (wp_mono ?_ (gives_disablePoolProvisioning s))
      rintro r t h
      cases r with
      | ok data =>
        have hmarked : Marked (.tombstoned data) := h data rfl
        exact gives_pure hmarked t
      | error e =>
        intro a ha
        cases ha

theorem quiet_authoritativeRecord : Quiet poolCalm d (authoritativeRecord obj q data) := by
  refine quiet_bind quiet_readDeletionStorageInfo fun authoritative => ?_
  cases authoritative with
  | none => exact quiet_pure _
  | some authoritative =>
    refine quiet_bind (quiet_ofExcept stops_validateDeletionSnapshot) fun _ => quiet_ite ?_ (quiet_ite (quiet_pure _) ?_)
    · exact quiet_ite quiet_runtime (quiet_pure _)
    · exact quiet_bind quiet_disablePoolProvisioning fun _ => quiet_pure _

omit [ConfigHash] in
/-- The StorageClass of a pool with its tombstone may stay: its error is put off. -/
theorem quiet_retireClass (hdata : storageRecordCleanupOnly data = true) : Quiet poolCalm d (retireClass data) := by
  have hdeferred : (data.deletion.deletionCleanupOnly = some true ||
      data.storageUid.any fun uid => CLEANUP_ONLY_STORAGE_UID_PREFIX.toList.isPrefixOf uid.toList) = true := by
    simp only [storageRecordCleanupOnly, Bool.or_eq_true, Bool.and_eq_true] at hdata ⊢
    exact hdata.imp_right And.right
  intro s hs
  refine wp_tryCatch (wp_bind (wp_request ?_))
  rintro a s' ⟨⟨u, time, hdoes, -, rfl⟩, -⟩
  obtain rfl : u = s := hdoes
  refine ⟨trivial, ?_⟩
  cases a with
  | ok b => exact wp_pure ⟨⟨rfl, rfl⟩, fun _ => stops_ok _⟩
  | error e =>
    show wp _ _ _ (if _ then _ else _) _
    rw [if_pos hdeferred]
    exact wp_pure ⟨⟨rfl, rfl⟩, fun _ => stops_ok _⟩

theorem quiet_finishDeletion {record : FencedRecord} (hrecord : Marked record) :
    Quiet poolCalm d (finishDeletion obj record) := by
  cases record with
  | absent data => exact quiet_bind (quiet_call id id) fun _ => quiet_pure _
  | preserved data => exact quiet_ite (quiet_pure _) (quiet_bind quiet_disablePoolProvisioning fun _ => quiet_pure _)
  | tombstoned data => exact quiet_bind (quiet_retireClass hrecord) fun _ => quiet_ite quiet_removePool (quiet_pure _)

theorem quiet_legacyDeletion : Quiet poolCalm d (legacyDeletion obj q data) := by
  refine quiet_bind quiet_sealLegacyDeletionRecord ?_
  rintro ⟨confirmed, owned⟩
  refine quiet_ite (quiet_pure _) (quiet_bind (quiet_ofExcept stops_validateDeletionRecordOwner) fun _ => ?_)
  exact quiet_bind_gives quiet_authoritativeRecord gives_authoritativeRecord fun _ => quiet_finishDeletion

theorem quiet_fencedDeletion (hq : q.ownsFence = false) : Quiet poolCalm d (fencedDeletion fuel obj q data) := by
  unfold fencedDeletion fenceOwned restoring
  simp only [hq, Bool.false_eq_true, if_false]
  refine quiet_bind (quiet_pure _) fun _ => quiet_ite quiet_legacyDeletion ?_
  exact quiet_bind_gives quiet_authoritativeRecord gives_authoritativeRecord fun _ => quiet_finishDeletion

/-- A failed deletion. -/
abbrev Failed (deleted : Bool) : Prop := deleted = false

omit [ConfigHash] in
theorem recovers_restoring {body : PoolHandler Bool} (hbody : Quiet poolCalm True body) :
    Recovers poolCalm Failed (restoring fuel true body) := by
  intro s hs
  refine wp_andThen.mpr (wp_mono ?_ (hbody s fun _ => hs))
  rintro r t ⟨hst, hr⟩
  refine wp_bind (wp_mono ?_ (wp_unfence (hst.down hs)))
  rintro r' u ⟨hr', hu⟩
  cases r' with
  | error e => exact serves_error (hr' e rfl)
  | ok a =>
    cases r with
    | error e => exact .inr ⟨hr trivial, nofun⟩
    | ok deleted =>
      cases deleted with
      | true => exact .inl (hu rfl rfl)
      | false => exact .inr ⟨stops_ok _, fun b hb => by cases hb; rfl⟩

omit [ConfigHash] in
theorem safe_fence {β : Type} {F : β → Prop} {g : Unit → PoolHandler β} (hg : ∀ a, Recovers poolCalm F (g a)) :
    Safe poolCalm F (fence fuel >>= g) := by
  intro s _
  refine wp_bind (wp_mono ?_ (wp_fence s))
  rintro r t ⟨hr, ht⟩
  cases r with
  | ok a => exact hg a t (ht rfl)
  | error e => exact serves_error (hr e rfl)

theorem safe_fencedDeletion (hq : q.ownsFence = true) : Safe poolCalm Failed (fencedDeletion fuel obj q data) := by
  unfold fencedDeletion fenceOwned
  simp only [hq, if_true]
  refine safe_fence fun _ => recovers_ite (recovers_restoring quiet_legacyDeletion) ?_
  intro s hs
  refine wp_bind (wp_mono ?_ (wp_and (quiet_authoritativeRecord (d := True) s fun _ => hs) (gives_authoritativeRecord s)))
  rintro r t ⟨⟨hst, hr⟩, hmarked⟩
  cases r with
  | ok record => exact recovers_restoring (quiet_finishDeletion (hmarked record rfl)) t (hst.down hs)
  | error e => exact serves_error (hr trivial e rfl)

theorem quiet_preliminaryCount : Quiet poolCalm d (preliminaryCount obj q data) := by
  refine quiet_ite (quiet_pure _) (quiet_bind quiet_readDeletionStorageInfo fun authoritative => ?_)
  cases authoritative with
  | none => exact quiet_pure _
  | some authoritative =>
    refine quiet_bind (quiet_ofExcept stops_validateDeletionSnapshot) fun _ => quiet_ite (quiet_pure _) ?_
    exact quiet_bind quiet_getNumPvs fun _ => quiet_ite (quiet_pure _) (quiet_ite (quiet_pure _) (quiet_pure _))

theorem quiet_preserveQuarantined : Quiet poolCalm d (preserveQuarantined obj data) := by
  refine quiet_bind quiet_readDeletionStorageInfo fun authoritative => ?_
  cases authoritative with
  | none => exact quiet_pure _
  | some authoritative =>
    exact quiet_bind (quiet_ofExcept stops_validateStoredRecord) fun _ => quiet_ite quiet_runtime (quiet_pure _)

theorem quiet_deleteRecorded (hq : q.ownsFence = false) : Quiet poolCalm d (deleteRecorded fuel obj q data) := by
  unfold deleteRecorded
  split
  · exact quiet_pure _
  · refine quiet_ite quiet_preserveQuarantined (quiet_bind quiet_preliminaryCount fun outcome => ?_)
    cases outcome with
    | error done => exact quiet_pure _
    | ok data => exact quiet_ite (quiet_pure _) (quiet_fencedDeletion hq)

theorem safe_deleteRecorded (hq : q.ownsFence = true) : Safe poolCalm Failed (deleteRecorded fuel obj q data) := by
  unfold deleteRecorded
  split
  · exact safe_pure _
  · refine safe_ite (safe_of_quiet quiet_preserveQuarantined) (safe_quiet_bind quiet_preliminaryCount fun outcome => ?_)
    cases outcome with
    | error done => exact safe_pure _
    | ok data => exact safe_ite (safe_pure _) (safe_fencedDeletion hq)

omit [ConfigHash] in
theorem quiet_interruptedCleanup : Quiet poolCalm d (interruptedCleanup obj) := by
  refine quiet_tryCatch (quiet_bind (quiet_call id id) fun _ => quiet_pure _) fun e he => ?_
  cases e with
  | runtime msg => exact quiet_pure _
  | _ => exact quiet_throw he

/-- **Under a fence.** The handler leaves the fence to its caller. -/
theorem quiet_handleDeleted (hq : q.ownsFence = false) : Quiet poolCalm d (Operator.handleDeleted fuel obj q) := by
  unfold Operator.handleDeleted
  split
  · exact quiet_deleteRecorded hq
  · refine quiet_bind quiet_readDeletionStorageInfo fun data => ?_
    cases data with
    | none => exact quiet_interruptedCleanup
    | some data => exact quiet_deleteRecorded hq

/-- **With its own fence.** The operator serves again, unless the deletion fails. -/
theorem safe_handleDeleted (hq : q.ownsFence = true) : Safe poolCalm Failed (Operator.handleDeleted fuel obj q) := by
  unfold Operator.handleDeleted
  split
  · exact safe_deleteRecorded hq
  · refine safe_quiet_bind quiet_readDeletionStorageInfo fun data => ?_
    cases data with
    | none => exact safe_of_quiet quiet_interruptedCleanup
    | some data => exact safe_deleteRecorded hq

end

/-! ## The handler of additions -/

section

variable {volname : String} {storage : KadaluStorage} {data : PoolRecord} {existing : Option PoolRecord} {config : ConfigMap}

theorem quiet_reconcilePoolPvReclaimPolicy {policy className : String} {before : Option Bool} :
    Quiet poolCalm d (reconcilePoolPvReclaimPolicy volname policy before className) := by
  have hpatches : ∀ reclaimPolicy pvs, Quiet poolCalm d (patchPolicies volname reclaimPolicy pvs) := by
    intro reclaimPolicy pvs
    induction pvs with
    | nil => exact quiet_pure _
    | cons pv pvs ih => exact quiet_ite (quiet_bind (quiet_call id id) fun _ => ih) ih
  exact quiet_ite (quiet_pure _) (quiet_bind (quiet_call id id) fun _ => hpatches _ _)

theorem quiet_applyPolicy : Quiet poolCalm d (applyPolicy storage config existing data) := by
  have hwrite : Quiet poolCalm d (writeRecord config storage.name existing data) :=
    quiet_ite (quiet_pure _) (quiet_call id id)
  exact quiet_bind quiet_reconcilePoolPvReclaimPolicy fun _ => quiet_bind hwrite fun _ => quiet_reconcilePoolPvReclaimPolicy

theorem quiet_recoveredSinglePvOwner : Quiet poolCalm d (recoveredSinglePvOwner data) := by
  refine quiet_ite (quiet_pure _) (quiet_bind (quiet_call id id) fun pvs => ?_)
  split <;> exact quiet_pure _

variable [ConfigHash]

theorem quiet_applyPoolMountMetadataForWrite {recovered : Option String} :
    Quiet poolCalm d (applyPoolMountMetadataForWrite data existing recovered) := by
  have howner : Quiet poolCalm d (recoveredOwnerForWrite data existing) := by
    cases existing with
    | none => exact quiet_recoveredSinglePvOwner
    | some record => exact quiet_pure _
  refine quiet_bind howner fun owner => ?_
  cases owner with
  | none => exact quiet_pure _
  | some owner => exact quiet_bind (quiet_call id id) fun _ => quiet_pure _

theorem quiet_updateConfigMap {recovered : Option String} : Quiet poolCalm d (updateConfigMap storage recovered) := by
  refine quiet_bind (quiet_call id id) fun config => ?_
  split
  · exact quiet_pure _
  · refine quiet_bind quiet_applyPoolMountMetadataForWrite fun data => ?_
    cases data with
    | none => exact quiet_pure _
    | some data => exact quiet_bind quiet_applyPolicy fun _ => quiet_pure _

omit [ConfigHash] in
theorem quiet_externalEvidence {recovered : Option String} :
    Quiet poolCalm d (externalEvidence storage existing recovered) := by
  cases existing with
  | none =>
    refine quiet_bind (quiet_call id id) fun _ => quiet_bind (quiet_call id id) fun _ => ?_
    exact quiet_ite (quiet_pure _) (quiet_ite (quiet_pure _) (quiet_ite (quiet_pure _) (quiet_pure _)))
  | some record =>
    refine quiet_bind (quiet_call id id) fun identity => quiet_bind (quiet_call id id) fun _ => ?_
    cases identity with
    | none => exact quiet_pure _
    | some identity => exact quiet_ite (quiet_pure _) (quiet_pure _)

theorem quiet_handleExternalStorageAddition {recovered : Option String} :
    Quiet poolCalm d (handleExternalStorageAddition storage recovered) := by
  refine quiet_bind (quiet_call id id) fun config => ?_
  split
  · exact quiet_pure _
  · refine quiet_bind quiet_externalEvidence fun evidence => ?_
    cases evidence with
    | none => exact quiet_pure _
    | some recovered =>
      refine quiet_bind quiet_applyPoolMountMetadataForWrite fun data => ?_
      cases data with
      | none => exact quiet_pure _
      | some data =>
        refine quiet_bind (quiet_call id id) fun _ => quiet_bind quiet_applyPolicy fun _ => ?_
        refine quiet_bind (quiet_call id id) fun _ => ?_
        exact quiet_bind quiet_reconcilePoolPvReclaimPolicy fun _ => quiet_pure _

omit [ConfigHash] in
theorem quiet_validateRuntimeStorageRecord [ConfigHash] : Quiet poolCalm d (validateRuntimeStorageRecord storage data) := by
  refine quiet_bind (quiet_ofExcept stops_validateStoredRecord) fun _ => ?_
  refine quiet_bind quiet_validateStorageRecordOwner fun _ => ?_
  exact quiet_ite quiet_runtime (quiet_ofExcept stops_validateRequestedBackendIdentity)

theorem quiet_acceptsRecord : Quiet poolCalm d (acceptsRecord storage data) := by
  refine quiet_bind (quiet_tryCatch ?_ fun e he => ?_) fun _ => quiet_pure _
  · exact quiet_bind quiet_validateRuntimeStorageRecord fun _ => quiet_pure _
  · cases e with
    | runtime msg => exact quiet_pure _
    | _ => exact quiet_throw he

theorem quiet_poolIdentity : Quiet calm d (poolIdentity storage existing) := by
  cases existing with
  | some data => exact quiet_bind (quiet_onPool quiet_acceptsRecord) fun _ => quiet_pure _
  | none =>
    refine quiet_tryCatch (quiet_map _ (quiet_ask ⟨id, fun _ _ _ h => h⟩)) fun e he => ?_
    cases e with
    | runtime msg => exact quiet_pure _
    | value msg => exact quiet_pure _
    | _ => exact quiet_throw he

omit [ConfigHash] in
theorem quiet_preflightClass {recovered : Option String} : Quiet poolCalm d (preflightClass storage existing recovered) := by
  cases existing with
  | some data => exact quiet_bind (quiet_call id id) fun _ => quiet_bind (quiet_call id id) fun _ => quiet_pure _
  | none => exact quiet_ite (quiet_pure _) (quiet_bind (quiet_call id id) fun _ => quiet_pure _)

theorem quiet_writePool {obj : Dict} {mountIdentity : Option String} :
    Quiet calm d (writePool obj storage mountIdentity) := by
  refine quiet_ite (quiet_onPool quiet_handleExternalStorageAddition) ?_
  refine quiet_bind (quiet_onPool quiet_updateConfigMap) fun _ => ?_
  refine quiet_ite (quiet_pure _) (quiet_bind (quiet_ask ⟨id, fun _ _ _ h => h⟩) fun _ => ?_)
  exact quiet_bind (quiet_ask ⟨id, fun _ _ _ h => h⟩) fun _ => quiet_pure _

variable [RequestChecks] [ObjectForm] {obj : Dict} {fuel : Nat}

theorem quiet_addFencedStorage : Quiet calm d (addFencedStorage obj) := by
  refine quiet_ite (quiet_pure _) (quiet_bind (quiet_onPool (quiet_call id id)) fun _ => ?_)
  refine quiet_bind (quiet_onPool (quiet_call id id)) fun config => ?_
  split
  · exact quiet_pure _
  · next existing _ =>
    refine quiet_bind quiet_poolIdentity fun found => ?_
    cases found with
    | none => exact quiet_pure _
    | some identity =>
      refine quiet_bind (quiet_onPool quiet_preflightClass) fun mountIdentity => quiet_bind ?_ fun _ => quiet_pure _
      refine quiet_bind (by cases existing <;> exact quiet_pure none) fun transitioned => ?_
      cases transitioned with
      | none => exact quiet_writePool
      | some result => exact quiet_pure _

/-- A failed addition. -/
abbrev Rejected (result : Bool × Dict) : Prop := result.1 = false

/-- A failed change of the reclaim policy. -/
abbrev Refused (transitioned : Option Bool) : Prop := transitioned = some false

theorem safe_addStorage {transition : Dict → KadaluStorage → PoolRecord → WatchProg (Option Bool)}
    (ht : ∀ obj storage data, Safe calm Refused (transition obj storage data)) :
    Safe calm Rejected (addStorage transition obj) := by
  refine safe_ite (safe_pure _) (safe_quiet_bind (quiet_onPool (quiet_call id id)) fun _ => ?_)
  refine safe_quiet_bind (quiet_onPool (quiet_call id id)) fun config => ?_
  split
  · exact safe_pure _
  · next existing _ =>
    refine safe_quiet_bind quiet_poolIdentity fun found => ?_
    cases found with
    | none => exact safe_pure _
    | some identity =>
      refine safe_quiet_bind (quiet_onPool quiet_preflightClass) fun mountIdentity => ?_
      refine safe_bind (F := Failed) (safe_bind (F := Refused) ?_ (fun transitioned => ?_) ?_)
        (fun _ => safe_pure _) fun result hresult => serves_fails hresult
      · cases existing with
        | none => exact safe_pure none
        | some data => exact ht _ _ data
      · cases transitioned with
        | none => exact safe_of_quiet quiet_writePool
        | some result => exact safe_pure _
      · rintro transitioned rfl
        exact serves_fails rfl

omit [ConfigHash] in
theorem quiet_readCurrentStorageResource : Quiet calm d (readCurrentStorageResource obj) := by
  have hcheck : ∀ current, Stops (checkCurrentStorage obj current) := fun current =>
    stops_ite (stops_runtime _) (stops_ite (stops_runtime _) (stops_ite (stops_runtime _) (stops_ok _)))
  refine quiet_ite (quiet_throw fun _ => rfl) (quiet_bind (quiet_tryCatch (quiet_ask ⟨id, fun _ _ _ h => h⟩) fun e he => ?_)
    fun current => quiet_ofExcept (hcheck current))
  exact quiet_ite (quiet_throw fun _ => rfl) (quiet_throw he)

omit [RequestChecks] [ObjectForm] in
theorem quiet_verifyRuntimeReclaimPolicyTransition : Quiet calm d (verifyRuntimeReclaimPolicyTransition storage) := by
  have hrefusal {msg : String} : Quiet calm d (throw (.runtime msg) : WatchProg Unit) := quiet_throw fun _ => rfl
  refine quiet_bind (quiet_onPool (quiet_call id id)) fun config => ?_
  split
  · exact hrefusal
  · refine quiet_bind (quiet_onPool quiet_validateRuntimeStorageRecord) fun _ => quiet_ite hrefusal ?_
    refine quiet_bind (quiet_ask ⟨id, fun _ _ _ h => h⟩) fun policy => quiet_ite hrefusal (quiet_ite hrefusal ?_)
    exact quiet_bind (quiet_onPool (quiet_call id id)) fun _ => quiet_ite hrefusal (quiet_pure _)

theorem quiet_transitionRounds (candidate : Dict) : Quiet calm d (transitionRounds obj fuel candidate) := by
  induction fuel generalizing candidate with
  | zero => exact quiet_cut
  | succ fuel ih =>
    refine quiet_bind quiet_addFencedStorage ?_
    rintro ⟨reconciled, after⟩
    refine quiet_ite (quiet_pure _) (quiet_bind quiet_verifyRuntimeReclaimPolicyTransition fun _ => ?_)
    exact quiet_bind quiet_readCurrentStorageResource fun current => quiet_ite (quiet_pure _) (ih current)

/-- **A changed policy.** After its fence the operator serves again, unless the transition fails. -/
theorem safe_reconcileRuntimeReclaimPolicyTransition :
    Safe calm Refused (reconcileRuntimeReclaimPolicyTransition fuel obj storage data) := by
  refine safe_ite (safe_pure _) fun s _ => ?_
  refine wp_bind (wp_mono ?_ (wp_onPool (wp_fence s)))
  rintro r t ⟨hr, ht⟩
  cases r with
  | error e => exact serves_error (hr e rfl)
  | ok a =>
    refine (recovers_bind (low_of_quiet quiet_readCurrentStorageResource) fun candidate => ?_) t (ht rfl)
    refine recovers_bind (low_of_quiet (quiet_transitionRounds candidate)) fun reconciled => ?_
    have hrefused : Refused (some false) := rfl
    refine recovers_ite (fun s _ => serves_fails hrefused s) fun s hs => ?_
    refine wp_bind (wp_mono ?_ (wp_onPool (wp_unfence hs)))
    rintro r u ⟨hr, hu⟩
    cases r with
    | ok a => exact wp_pure (.inl (hu rfl rfl))
    | error e => exact serves_error (hr e rfl)

theorem quiet_handleAdded : Quiet calm d (handleAdded fuel obj true) := quiet_addFencedStorage

theorem safe_handleAdded : Safe calm Rejected (handleAdded fuel obj false) :=
  safe_addStorage fun _ _ _ => safe_reconcileRuntimeReclaimPolicyTransition

end

end Kadalu.Runtime
