import Kadalu.Operator.Agreement
import Kadalu.Operator.Deletion
import Kadalu.Operator.Request
import Kadalu.Operator.Settled

/-!
# The operator at work

The operator works in passes. One (`watchStream`) lists the custom resources, reconciles them and waits for events, and after
it the configuration of the components is looked at (`watchPass`). Errors of the connection, and the one that says that the
watch is too old, only start the next pass (`restartsWatch`); any other ends the process.

The loops over plans ask for their handlers (`PlanRequest`); `handler` says which program a request stands for. Steps in
which the CSI provisioner and the readiness of the operator have no part are one request each. The clients of the Kubernetes
API are there, and the fingerprint of the components is known.
-/

namespace Kadalu.Runtime

open Calls Calls.Prog Operator Fingerprint Snapshot

/-! ## Requests -/

/-- The `type` of an event. -/
inductive Operation where
  | added
  | modified
  | deleted
  | bookmark
  | error
  | unknown
  deriving DecidableEq, Repr

/-- An event of the watch; `status` is the `code` of an error. -/
structure WatchEvent where
  operation : Operation
  object : Dict
  resourceVersion : Option Nat := none
  status : Option Nat := none

/-- What the operator asks for. -/
inductive WatchCall where
  /-- what the pool handlers ask -/
  | pool (c : Call)
  /-- `prepare_storage_upgrade` of `list_storage_resources` -/
  | prepare
  /-- `reconcile_nodeplugin_tolerations` -/
  | rollOut (tolerations : List Toleration)
  /-- `wait_for_csi_nodeplugin_rollout` -/
  | awaitRollout (tolerations : List Toleration)
  /-- `current_csi_nodeplugin_tolerations` -/
  | currentTolerations
  /-- `deploy_server_pods` -/
  | deployServers (obj : Dict)
  /-- the CR with this name -/
  | getStorage (name : String)
  /-- `recover_missing_pool_identity`: the volume and mount identities -/
  | recoverIdentity (obj : KadaluStorage)
  /-- `deploy_storage_class` -/
  | deployClass (obj : KadaluStorage)
  /-- the reclaim policy of the StorageClass of a record, whose owner is checked -/
  | classPolicy (data : PoolRecord)
  /-- `deploy_csi_pods` -/
  | deployCsiPods (replicas : Nat) (tolerations : List Toleration)
  /-- `read_component_configuration`: the fingerprint -/
  | readComponents
  /-- `ensure_kadalu_block_volumes_absent`, where a legacy migration is required -/
  | checkMigration
  /-- `preflight_existing_storage_heal` -/
  | preflightHeal (plan : Plan)
  /-- `migrate_legacy_single_pv_claims` -/
  | migrateClaims
  /-- the next event of the watch, or its end -/
  | nextEvent

def WatchCall.Answer : WatchCall → Type
  | pool c => c.Answer
  | prepare => Plan
  | currentTolerations => Option (List Toleration)
  | getStorage _ => Dict
  | recoverIdentity _ => String × Option String
  | classPolicy _ => Option String
  | readComponents => String
  | nextEvent => Option WatchEvent
  | rollOut _ | awaitRollout _ | deployServers _ | deployClass _ | deployCsiPods _ _ | checkMigration | preflightHeal _
  | migrateClaims => Unit

abbrev WatchProg (α : Type) : Type := Prog WatchCall WatchCall.Answer OpErr α

def WatchCall.ask (r : WatchCall) : WatchProg r.Answer := Prog.request r

open WatchCall

/-- A program of the pool handlers. -/
def onPool {α : Type} (p : PoolHandler α) : WatchProg α := p.expand fun c => ask (pool c)

/-- How the JSON of a custom resource and of a record is read, and a custom resource with its volume identity and node IDs
filled in. -/
class ObjectForm where
  storage : Dict → KadaluStorage
  deleted : Dict → DeletedStorage
  record : Dict → PoolRecord
  identified : Dict → String → Dict

/-! ## Addition of a pool -/

section

variable [ConfigHash]

/-- `_validate_runtime_storage_record` -/
def validateRuntimeStorageRecord (obj : KadaluStorage) (data : PoolRecord) : PoolHandler Unit := do
  Prog.ofExcept (validateStoredRecord obj.name data)
  validateStorageRecordOwner obj.name obj.uid obj.volumeId data
  if obj.className ≠ data.className then
    throw (.runtime s!"Kadalustorage {obj.name} requests an immutable StorageClass name change")
  else Prog.ofExcept (validateRequestedBackendIdentity obj data)

/-- The checks of a record before a CR is reconciled with it. -/
def acceptsRecord (obj : KadaluStorage) (data : PoolRecord) : PoolHandler Bool := do
  let valid ← tryCatch (do validateRuntimeStorageRecord obj data; pure true) fun
    | .runtime _ => pure false
    | e => throw e
  pure (valid && obj.singlePvPerPool = data.singlePvPerPool && truthy data.volumeId &&
    (obj.volumeId.isNone || obj.volumeId = data.volumeId))

/-- The identities that the pool goes on with: the ID of its hosting volume, and what is known of its mount identity. `none`
is a refusal. -/
def poolIdentity (obj : KadaluStorage) : Option PoolRecord → WatchProg (Option (String × Option String))
  | some data => do
    let accepted ← onPool (acceptsRecord obj data)
    pure (if accepted then some (data.volumeId.getD "", none) else none)
  | none =>
    tryCatch (some <$> ask (recoverIdentity obj)) fun
      | .runtime _ | .value _ => pure none
      | e => throw e

omit [ConfigHash] in
/-- The StorageClass of the pool is checked; one that is there may tell the mount identity. -/
def preflightClass (obj : KadaluStorage) (existing : Option PoolRecord) (recovered : Option String) :
    PoolHandler (Option String) :=
  match existing with
  | some data => do
    let identity ← request (Call.preflightExistingClass obj.name)
    request (Call.preflightClassOwner data.className)
    pure identity
  | none =>
    if obj.type = some VOLUME_TYPE_EXTERNAL then pure recovered
    else do
      request (Call.preflightClassOwner obj.className)
      pure recovered

/-- The last part of `handle_added` -/
def writePool (obj : Dict) (storage : KadaluStorage) (mountIdentity : Option String) : WatchProg Bool :=
  if storage.type = some VOLUME_TYPE_EXTERNAL then onPool (handleExternalStorageAddition storage mountIdentity)
  else do
    let written ← onPool (updateConfigMap storage mountIdentity)
    if !written then pure false
    else do
      let (_ : Unit) ← ask (deployClass storage)
      let (_ : Unit) ← ask (deployServers obj)
      pure true

variable [RequestChecks] [ObjectForm]

omit [RequestChecks] [ObjectForm] in
/-- The end of `handle_added`, unless a changed reclaim policy is its whole work. -/
def finishAddition (transition : WatchProg (Option Bool)) (obj : Dict) (storage : KadaluStorage)
    (mountIdentity : Option String) : WatchProg Bool := do
  match ← transition with
  | some result => pure result
  | none => writePool obj storage mountIdentity

/-- `handle_added`; `transition` is what it does about a changed reclaim policy of a pool with a record. The other result is
the object as the handler leaves it. -/
def addStorage (transition : Dict → KadaluStorage → PoolRecord → WatchProg (Option Bool)) (obj : Dict) :
    WatchProg (Bool × Dict) :=
  let storage := ObjectForm.storage obj
  if !validateVolumeRequest storage then pure (false, obj)
  else do
    let _ ← onPool (request Call.listPods)
    let config ← onPool Call.readConfig
    match config.existing storage.name with
    | none => pure (false, obj)
    | some existing => do
      let found ← poolIdentity storage existing
      match found with
      | none => pure (false, obj)
      | some (volumeId, recovered) => do
        let obj := ObjectForm.identified obj volumeId
        let storage := { storage with volumeId := some volumeId }
        let mountIdentity ← onPool (preflightClass storage existing recovered)
        let result ← finishAddition ((existing.map (transition obj storage)).getD (pure none)) obj storage mountIdentity
        pure (result, obj)

/-- `handle_added` under the fence of its caller -/
def addFencedStorage (obj : Dict) : WatchProg (Bool × Dict) := addStorage (fun _ _ _ => pure none) obj

/-! ## Changes of the reclaim policy -/

omit [ConfigHash] in
/-- What `read_current_storage_resource` demands of the CR that it reads. -/
def checkCurrentStorage (obj current : Dict) : Except OpErr Dict :=
  let name := (ObjectForm.storage obj).name
  if (ObjectForm.storage current).name ≠ name ∨ (ObjectForm.storage current).uid ≠ (ObjectForm.storage obj).uid then
    .error (.runtime s!"Kadalustorage {name} changed identity under the CSI provisioner fence")
  else if !isNull (Dict.getD (metadata current) "deletionTimestamp" .null) then
    .error (.runtime s!"Kadalustorage {name} is being deleted under the CSI provisioner fence")
  else if !validateVolumeRequest (ObjectForm.storage current) then
    .error (.runtime s!"Kadalustorage {name} became invalid under the CSI provisioner fence")
  else .ok current

omit [ConfigHash] in
/-- `read_current_storage_resource` -/
def readCurrentStorageResource (obj : Dict) : WatchProg Dict :=
  let name := (ObjectForm.storage obj).name
  if name = "" ∨ !truthy (ObjectForm.storage obj).uid then
    throw (.runtime "A fenced reclaim policy transition requires Kadalustorage name and UID")
  else do
    let current ← tryCatch (ask (getStorage name)) fun e =>
      if e.notFound then throw (.runtime s!"Kadalustorage {name} no longer exists under the CSI provisioner fence")
      else throw e
    Prog.ofExcept (checkCurrentStorage obj current)

omit [RequestChecks] [ObjectForm] in
/-- The volumes of the pool that may be changed and do not follow its policy. -/
def inconsistentPvs (obj : KadaluStorage) (data : PoolRecord) (pvs : PersistentVolumes) : List String :=
  ((poolPersistentVolumes pvs obj.name data.className).filter fun e =>
    e.2.mutable obj.name && e.2.policy ≠ storageClassReclaimPolicy obj.pvReclaimPolicy).map Prod.fst

omit [RequestChecks] [ObjectForm] in
/-- `verify_runtime_reclaim_policy_transition` -/
def verifyRuntimeReclaimPolicyTransition (obj : KadaluStorage) : WatchProg Unit := do
  let config ← onPool Call.readConfig
  match config.decoded obj.name with
  | none => throw (.runtime s!"Storage metadata for {obj.name} disappeared during reclaim policy transition")
  | some data => do
    onPool (validateRuntimeStorageRecord obj data)
    if data.pvReclaimPolicy.getD "delete" ≠ obj.pvReclaimPolicy then
      throw (.runtime s!"Storage metadata for {obj.name} has an inconsistent reclaim behavior")
    else do
      let (policy : Option String) ← ask (classPolicy data)
      if policy = none then throw (.runtime s!"StorageClass {data.className} is absent after reclaim policy transition")
      else if policy ≠ some (storageClassReclaimPolicy obj.pvReclaimPolicy) then
        throw (.runtime s!"StorageClass {data.className} has an inconsistent reclaim policy")
      else do
        let pvs ← onPool Call.listPvs
        if inconsistentPvs obj data pvs ≠ [] then
          throw (.runtime s!"PersistentVolumes for {obj.name} have an inconsistent reclaim policy")
        else pure ()

/-- The loop of `reconcile_runtime_reclaim_policy_transition` -/
def transitionRounds (obj : Dict) : Nat → Dict → WatchProg Bool
  | 0, _ => .cut
  | fuel + 1, candidate => do
    let (reconciled, _) ← addFencedStorage candidate
    if !reconciled then pure false
    else do
      verifyRuntimeReclaimPolicyTransition (ObjectForm.storage candidate)
      let current ← readCurrentStorageResource obj
      if objectFingerprint current = objectFingerprint candidate then pure true
      else transitionRounds obj fuel current

/-- `reconcile_runtime_reclaim_policy_transition`, outside a fence; `none` is a policy that has not changed. -/
def reconcileRuntimeReclaimPolicyTransition (fuel : Nat) (obj : Dict) (storage : KadaluStorage) (existing : PoolRecord) :
    WatchProg (Option Bool) :=
  if existing.pvReclaimPolicy.getD "delete" = storage.pvReclaimPolicy then pure none
  else do
    onPool (fence fuel)
    let candidate ← readCurrentStorageResource obj
    let reconciled ← transitionRounds obj fuel candidate
    if !reconciled then pure (some false)
    else do
      onPool (unfence fuel true)
      pure (some true)

/-- `handle_added` -/
def handleAdded (fuel : Nat) (obj : Dict) (fenced : Bool) : WatchProg (Bool × Dict) :=
  if fenced then addFencedStorage obj else addStorage (reconcileRuntimeReclaimPolicyTransition fuel) obj

/-! ## Handlers of the loops -/

omit [RequestChecks] [ConfigHash] in
/-- What `reconcile_deletion_orphans` passes to `handle_deleted`. -/
def deletionRequest (orphan : Orphan) (fenced storageClient : Bool) : DeletionRequest where
  storageInfo := some (ObjectForm.record orphan.record)
  provisionerFenced := fenced
  hasStorageClient := storageClient
  legacyStorageUid := orphan.legacyStorageUid
  legacyQuarantine := orphan.legacyQuarantine
  cleanupQuarantine := orphan.cleanupQuarantine

/-- The program that a request of the loops stands for. -/
def handler (fuel : Nat) : (r : PlanRequest) → WatchProg r.Answer
  | .prepare => ask prepare
  | .rollOut tolerations => ask (rollOut tolerations)
  | .awaitRollout tolerations => ask (awaitRollout tolerations)
  | .currentTolerations => ask currentTolerations
  | .deployServers obj => ask (deployServers obj)
  | .handleAdded obj fenced => handleAdded fuel obj fenced
  | .handleDeleted orphan fenced storageClient =>
    onPool (handleDeleted fuel (ObjectForm.deleted orphan.object) (deletionRequest orphan fenced storageClient))
  | .clearOperatorReady => onPool (request Call.clearReady)
  | .quiesceCsiProvisioner => onPool (quiesceCsiProvisioner fuel)
  | .resumeCsiProvisioner => onPool resumeCsiProvisioner
  | .waitForCsiProvisionerRollout => onPool (waitForCsiProvisionerRollout fuel)
  | .markOperatorReady => onPool (request Call.markReady)

/-- A loop over plans, with its handlers. -/
def onPlan {α : Type} (fuel : Nat) (p : PlanProg α) : WatchProg α := p.expand (handler fuel)

variable [JsonText]

/-! ## A pass -/

/-- A fresh list, reconciled. -/
def reconcileSnapshot (fuel : Nat) : WatchProg Plan := do
  let (plan : Plan) ← ask prepare
  onPlan fuel (reconcileWatchStorageUntilStable fuel plan)

omit [JsonText] [RequestChecks] [ObjectForm] in
/-- `event_targets_deletion_blocked_record` -/
def eventTargetsDeletionBlockedRecord (volname : String) : PoolHandler Bool :=
  if volname = "" then pure false
  else do
    let config ← Call.readConfig
    match config.existing volname with
    | none => throw (.runtime s!"Storage metadata for {volname} is invalid during event dispatch")
    | some none => pure false
    | some (some data) => do
      Prog.ofExcept (validateStoredPoolIdentity volname data)
      pure (storageRecordCleanupOnly data || data.deletion.deletionQuarantined = some true ||
        data.deletion.provisioningDisabled = some true)

/-- An invalid object, or one whose pool is being deleted, is not reconciled for its own sake. -/
def eventQuarantined (event : WatchEvent) : WatchProg Bool :=
  if event.operation ≠ .deleted && !validateVolumeRequest (ObjectForm.storage event.object) then pure true
  else onPool (eventTargetsDeletionBlockedRecord ((nameOf event.object).getD ""))

/-- The end of a deletion whose record is gone. -/
def finishTombstone (fuel : Nat) (event : WatchEvent) (quarantined : Bool) (plan : Plan) : WatchProg Unit :=
  let shadowed := (plan.items ++ plan.deletionOrphans.map Orphan.object).any fun obj => nameOf obj = nameOf event.object
  if event.operation = .deleted && !quarantined && !shadowed then do
    let data ← onPool (readDeletionStorageInfo ((nameOf event.object).getD ""))
    if data.isSome then pure ()
    else do
      let deleted ← onPool (handleDeleted fuel (ObjectForm.deleted event.object) {})
      if !deleted then throw (.runtime "DELETED tombstone reconciliation failed")
      else pure ()
  else pure ()

/-- An event ends the pass: what follows it is reconciled from a list. -/
def handleEvent (fuel : Nat) (event : WatchEvent) : WatchProg Nat := do
  let quarantined ← eventQuarantined event
  let plan ← reconcileSnapshot fuel
  finishTombstone fuel event quarantined plan
  pure plan.resourceVersion

/-- The loop of `watch_stream` over the events; the argument is `acknowledged_version`. -/
def watchEvents (fuel : Nat) : Nat → Nat → WatchProg Nat
  | 0, _ => .cut
  | rounds + 1, version => do
    let (event : Option WatchEvent) ← ask nextEvent
    match event with
    | none => pure version
    | some event =>
      match event.operation with
      -- a `WatchStatusError` has a status like an error of the API server
      | .error => throw (.api event.status)
      | .bookmark => watchEvents fuel rounds (event.resourceVersion.getD version)
      | .unknown => watchEvents fuel rounds version
      | .added | .modified | .deleted =>
        if event.resourceVersion.isNone then throw (.runtime "Kadalustorage event has no resourceVersion")
        else handleEvent fuel event

/-- `watch_stream`; with and without a version to go on from it lists the resources first. -/
def watchStream (fuel : Nat) : WatchProg Nat := do
  let plan ← reconcileSnapshot fuel
  watchEvents fuel fuel plan.resourceVersion

/-! ## Components -/

/-- `deploy_csi_upgrade` -/
def deployCsiUpgrade (fuel : Nat) : WatchProg Plan := do
  let (plan : Plan) ← ask prepare
  let (_ : Unit) ← ask checkMigration
  let (_ : Unit) ← ask (preflightHeal plan)
  onPool (quiesceCsiProvisioner fuel)
  let (plan : Plan) ← ask prepare
  let (_ : Unit) ← ask checkMigration
  let (_ : Unit) ← ask (deployCsiPods 0 plan.nodepluginTolerations)
  let (_ : Unit) ← ask migrateClaims
  onPlan fuel (gateNodepluginUntilCurrent fuel none plan)

/-- `reconcile_component_configuration` -/
def reconcileComponentConfiguration (fuel : Nat) (currentFingerprint : String) (resourceVersion : Nat) :
    WatchProg (String × Nat) := do
  let (fingerprint : String) ← ask readComponents
  if fingerprint = currentFingerprint then pure (currentFingerprint, resourceVersion)
  else do
    onPool (request Call.clearReady)
    let plan ← deployCsiUpgrade fuel
    let plan ← onPlan fuel (reconcileStorageUntilStable fuel plan)
    let (_ : Unit) ← ask (deployCsiPods 1 plan.nodepluginTolerations)
    onPool (waitForCsiProvisionerRollout fuel)
    onPool (request Call.markReady)
    pure (fingerprint, plan.resourceVersion)

/-! ## The loop -/

/-- `ProtocolError`, `NewConnectionError` and the status 410 start the next pass. -/
def restartsWatch : OpErr → Bool
  | .connection => true
  | .api status => status = some 410
  | _ => false

/-- A pass of `crd_watch`, with what it does between two of them; `fingerprint` is that of the components. -/
def watchPass (fuel : Nat) (fingerprint : String) : WatchProg (String × Nat) := do
  let version ← watchStream fuel
  reconcileComponentConfiguration fuel fingerprint version

end

end Kadalu.Runtime
