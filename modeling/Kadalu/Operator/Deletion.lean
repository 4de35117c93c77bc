import Kadalu.Operator.Policy
import Kadalu.Operator.Provisioner

/-!
# Deletion of a pool

`handleDeleted` removes a pool that has no PersistentVolume any more. Before anything is removed the provisioner is fenced
and the record of the pool is marked, which is its tombstone: no new volume is placed into the pool. A pool whose record
has no UID is first claimed or put aside (`sealLegacyDeletionRecord`).

The clients of the Kubernetes API are there, except those that a caller may leave out.
-/

namespace Kadalu.Operator

open Calls Calls.Prog

/-! ## Records of a deletion -/

/-- The deleted `KadaluStorage`, or what stands for it when only its record is left. -/
structure DeletedStorage where
  name : String
  uid : Option String := none
  className : String
  deriving DecidableEq, Repr

/-- The record of a pool in the ConfigMap that was read; one that cannot be decoded is an error. -/
def ConfigMap.deletionInfo (config : ConfigMap) (volname : String) : Except OpErr (Option PoolRecord) :=
  match config.data.lookup volname with
  | none => .ok none
  | some serialized =>
    match serialized.decode with
    | none => .error (.runtime s!"Storage metadata for {volname} is invalid")
    | some data => .ok (some data)

/-- `_read_deletion_storage_info` -/
def readDeletionStorageInfo (volname : String) : PoolHandler (Option PoolRecord) := do
  let config ← Call.readConfig
  Prog.ofExcept (config.deletionInfo volname)

/-- The record of a pool that must be there. -/
def ConfigMap.decoded (config : ConfigMap) (volname : String) : Option PoolRecord :=
  (config.data.lookup volname).bind Serialized.decode

/-- `_validate_deletion_record_owner` -/
def validateDeletionRecordOwner (obj : DeletedStorage) (data : PoolRecord) : Except OpErr Unit :=
  if !truthy data.storageUid then
    throw (.runtime s!"Storage pool {obj.name} has no deletion owner proof")
  else if truthy obj.uid && obj.uid ≠ data.storageUid then
    throw (.runtime s!"Kadalustorage {obj.name} does not own the pool being deleted")
  else pure ()

/-- `get_num_pvs` -/
def getNumPvs (data : PoolRecord) : PoolHandler Int := do
  let pvs ← Call.listPvs
  pure (Int.ofNat (poolPersistentVolumes pvs (data.volname.getD "") data.className).length)

/-- The record with its tombstone. -/
def PoolRecord.disabled (data : PoolRecord) : PoolRecord :=
  { data with deletion := { data.deletion with provisioningDisabled := some true, deletionCleanupOnly := some true } }

variable [ConfigHash]

/-- `_validate_deletion_snapshot` -/
def validateDeletionSnapshot (obj : DeletedStorage) (expected current : PoolRecord) : Except OpErr Unit := do
  validateStoredRecord obj.name current
  validateDeletionRecordOwner obj current
  if deletionRecordIdentity current ≠ deletionRecordIdentity expected then
    throw (.runtime s!"Storage pool {obj.name} changed during deletion")

/-- The checks of `disable_pool_provisioning` -/
def validateDisabled (volname : String) (expected record : PoolRecord) : Except OpErr Unit := do
  validateStoredPoolIdentity volname record
  if deletionRecordIdentity record ≠ deletionRecordIdentity expected then
    throw (.runtime s!"Storage pool {volname} changed before its deletion tombstone")

/-- `disable_pool_provisioning` -/
def disablePoolProvisioning (volname : String) (expected : PoolRecord) : PoolHandler PoolRecord := do
  let config ← Call.readConfig
  match config.decoded volname with
  | none => throw (.runtime s!"Storage metadata for {volname} disappeared during deletion")
  | some record => do
    Prog.ofExcept (validateDisabled volname expected record)
    if record.deletion.provisioningDisabled = some true && record.deletion.deletionCleanupOnly = some true then
      pure record
    else do
      Call.patchConfig { data := config.data.insert volname (.record record.disabled) } config.resourceVersion
      pure record.disabled

/-! ## Records without an owner -/

omit [ConfigHash] in
/-- A CR that requests no volume identity may prove its age instead. -/
def legacyCrPredates (name : String) (volumeId : Option String) : PoolHandler Bool :=
  if volumeId.isNone then request (Call.predatesStorage name) else pure false

omit [ConfigHash] in
/-- `_validate_storage_record_owner` of a CR with this UID and requested volume identity. -/
def validateStorageRecordOwner (name : String) (uid volumeId : Option String) (data : PoolRecord) : PoolHandler Unit :=
  if !truthy uid then pure ()
  else if truthy data.storageUid then
    if data.storageUid ≠ uid then
      throw (.runtime s!"Kadalustorage {name} does not own its existing storage pool record")
    else pure ()
  else if truthy data.volumeId && volumeId = data.volumeId then pure ()
  else do
    let predates ← legacyCrPredates name volumeId
    if predates then pure ()
    else throw (.runtime s!"Legacy storage pool {name} requires its existing volume_id before ownership can be established")

omit [ConfigHash] in
/-- What `_verify_legacy_deletion_resource` demands of the CR that it reads. -/
def verifyCurrentStorage (obj : DeletedStorage) (record : PoolRecord) (current : CurrentStorage) : PoolHandler Unit :=
  if !truthy obj.uid then pure ()
  else if current.name ≠ obj.name then
    throw (.runtime s!"Legacy deletion lookup for {obj.name} returned another object")
  else if current.uid ≠ obj.uid then pure ()
  else if !current.deleting then
    throw (.runtime s!"Kadalustorage {obj.name} is no longer deleting while its legacy record is being sealed")
  else validateStorageRecordOwner current.name current.uid current.volumeId record

omit [ConfigHash] in
/-- `_verify_legacy_deletion_resource` -/
def verifyLegacyDeletionResource (hasStorageClient : Bool) (obj : DeletedStorage) (record : PoolRecord) : PoolHandler Unit :=
  if !hasStorageClient then
    throw (.runtime s!"UID-less storage pool {obj.name} cannot be sealed without an authoritative Kadalustorage client")
  else do
    let current ← tryCatch (some <$> request (Call.getStorage obj.name)) fun e =>
      if !e.notFound then throw e
      else if truthy obj.uid then
        throw (.runtime s!"Deleting Kadalustorage {obj.name} disappeared before its legacy record could be sealed")
      else pure none
    match current with
    | none => pure ()
    | some current => verifyCurrentStorage obj record current

omit [ConfigHash] in
/-- The owner that a record without a UID is to get. -/
def DeletedStorage.expectedUid (obj : DeletedStorage) (current : PoolRecord) : Option String :=
  if truthy obj.uid then obj.uid else some (CLEANUP_ONLY_STORAGE_UID_PREFIX ++ current.volumeId.getD "")

omit [ConfigHash] in
/-- Whether the record may be claimed for its deletion; a StorageClass that contradicts it only sets the pool aside. -/
def cleanupOwned (obj : DeletedStorage) (current : PoolRecord) (legacyStorageUid : Option String) (legacyQuarantine : Bool) :
    PoolHandler Bool :=
  if legacyQuarantine then pure false
  else if legacyStorageUid ≠ obj.expectedUid current then
    throw (.runtime s!"Storage pool {obj.name} has an invalid legacy deletion owner")
  else
    tryCatch
      (do
        request (Call.preflightLegacyClass current.className)
        pure true)
      fun
        | .runtime _ => pure false
        | e => throw e

omit [ConfigHash] in
/-- The sealed record. -/
def PoolRecord.sealed (current : PoolRecord) (legacyStorageUid : Option String) (owned : Bool) : PoolRecord :=
  if owned then
    { current with
      storageUid := legacyStorageUid
      deletion := ⟨some true, some true, none⟩ }
  else
    { current with
      deletion := { current.deletion with provisioningDisabled := some true, deletionQuarantined := some true } }

/-- The record that `seal_legacy_deletion_record` demands to find. -/
def validateSealed (volname : String) (expected current : PoolRecord) : Except OpErr Unit := do
  validateStoredRecord volname current
  if current ≠ expected then
    throw (.runtime s!"Storage pool {volname} changed before legacy orphan sealing")

omit [ConfigHash] in
/-- The write of the sealed record, if it has changed. -/
def replaceSealed (obj : DeletedStorage) (config : ConfigMap) (current updated : PoolRecord) : PoolHandler Unit :=
  if updated = current then pure ()
  else Call.replaceConfig (config.data.insert obj.name (.record updated)) config.resourceVersion

omit [ConfigHash] in
/-- The write of the sealed record, which is read again. -/
def writeSealed (obj : DeletedStorage) (config : ConfigMap) (current updated : PoolRecord) : PoolHandler PoolRecord := do
  replaceSealed obj config current updated
  let confirmed ← readDeletionStorageInfo obj.name
  if confirmed ≠ some updated then
    throw (.runtime s!"Storage pool {obj.name} changed while sealing its legacy deletion record")
  else pure updated

/-- `seal_legacy_deletion_record`: the sealed record, and whether it is claimed. -/
def sealLegacyDeletionRecord (hasStorageClient : Bool) (obj : DeletedStorage) (expected : PoolRecord)
    (legacyStorageUid : Option String) (legacyQuarantine : Bool) : PoolHandler (PoolRecord × Bool) :=
  if truthy expected.storageUid then
    throw (.runtime s!"Storage pool {obj.name} is not a UID-less legacy record")
  else do
    verifyLegacyDeletionResource hasStorageClient obj expected
    let config ← Call.readConfig
    if !truthy config.resourceVersion then
      throw (.runtime s!"Storage metadata for {obj.name} has no resourceVersion for legacy orphan sealing")
    else
      match config.decoded obj.name with
      | none => throw (.runtime s!"Storage metadata for {obj.name} disappeared before legacy orphan sealing")
      | some current => do
        Prog.ofExcept (validateSealed obj.name expected current)
        let pvCount ← getNumPvs current
        if pvCount = -1 then
          throw (.runtime s!"PersistentVolumes for legacy storage pool {obj.name} could not be verified")
        else do
          let owned ← cleanupOwned obj current legacyStorageUid legacyQuarantine
          let confirmed ← writeSealed obj config current (current.sealed legacyStorageUid owned)
          pure (confirmed, owned)

/-! ## Removal of a pool -/

/-- What the caller of `handle_deleted` passes besides the object. -/
structure DeletionRequest where
  storageInfo : Option PoolRecord := none
  hasApps : Bool := true
  provisionerFenced : Bool := false
  hasStorageClient : Bool := false
  legacyStorageUid : Option String := none
  legacyQuarantine : Bool := false
  cleanupQuarantine : Bool := false
  deriving DecidableEq

def DeletionRequest.ownsFence (q : DeletionRequest) : Bool := !q.provisionerFenced

def DeletionRequest.legacy (q : DeletionRequest) : Bool := q.legacyStorageUid.isSome || q.legacyQuarantine

omit [ConfigHash] in
/-- The loop of `delete_server_pods` -/
def deleteServerPods (volname : String) : List PoolBrick → PoolHandler Unit
  | [] => pure ()
  | brick :: bricks => do
    request (Call.deleteServer (getBrickHostname volname (brick.brickIndex.getD 0).toNat))
    deleteServerPods volname bricks

omit [ConfigHash] in
/-- The servers and the service of a native pool. -/
def deletePoolServers (volname : String) (hostvolType : Option String) (data : PoolRecord) : PoolHandler Unit :=
  if hostvolType = some VOLUME_TYPE_EXTERNAL then pure ()
  else do
    deleteServerPods volname (data.bricks.getD [])
    request (Call.deleteService volname)

/-- `delete_config_map` -/
def deleteConfigMap (obj : DeletedStorage) (expected : PoolRecord) : PoolHandler Unit := do
  let config ← Call.readConfig
  match config.decoded obj.name with
  | none => throw (.runtime s!"Storage metadata for {obj.name} disappeared before cleanup")
  | some current => do
    Prog.ofExcept (validateDeletionSnapshot obj expected current)
    Call.patchConfig { data := config.data, removed := some obj.name } config.resourceVersion

/-- The removal of a pool whose StorageClass is retired, unless it has volumes. -/
def removePool (obj : DeletedStorage) (data : PoolRecord) : PoolHandler Bool := do
  let pvCount ← getNumPvs data
  if pvCount = -1 then pure false
  else if pvCount ≠ 0 then pure true
  else do
    match ← readDeletionStorageInfo obj.name with
    | none => pure true
    | some latest => do
      Prog.ofExcept (validateDeletionSnapshot obj data latest)
      deletePoolServers obj.name data.type latest
      deleteConfigMap obj latest
      pure true

omit [ConfigHash] in
/-- The retirement of the StorageClass; `false` is one that is put off. -/
def retireClass (data : PoolRecord) : PoolHandler Bool :=
  tryCatch
    (do
      request (Call.deleteClass data.className (some data) none)
      pure true)
    fun e =>
      if data.deletion.deletionCleanupOnly = some true ||
          data.storageUid.any fun uid => CLEANUP_ONLY_STORAGE_UID_PREFIX.toList.isPrefixOf uid.toList then pure false
      else throw e

/-- What is found under the fence. -/
inductive FencedRecord where
  /-- the record is gone; this is the last that was known -/
  | absent (data : PoolRecord)
  /-- the pool is only to be put aside -/
  | preserved (data : PoolRecord)
  | tombstoned (data : PoolRecord)

/-- The record under the fence, which gets its tombstone. -/
def authoritativeRecord (obj : DeletedStorage) (q : DeletionRequest) (data : PoolRecord) : PoolHandler FencedRecord := do
  match ← readDeletionStorageInfo obj.name with
  | none => pure (.absent data)
  | some authoritative => do
    Prog.ofExcept (validateDeletionSnapshot obj data authoritative)
    if q.cleanupQuarantine then
      if authoritative.deletion.provisioningDisabled ≠ some true then
        throw (.runtime s!"Cleanup-only storage pool {obj.name} has no durable provisioning tombstone")
      else pure (.preserved authoritative)
    else if storageRecordCleanupOnly authoritative then pure (.tombstoned authoritative)
    else do
      let disabled ← disablePoolProvisioning obj.name authoritative
      pure (.tombstoned disabled)

/-- What is done with it; from here on the provisioner may come back. -/
def finishDeletion (obj : DeletedStorage) : FencedRecord → PoolHandler Bool
  | .absent data => do
    request (Call.deleteClass data.className none (if truthy obj.uid then obj.uid else data.storageUid))
    pure true
  | .preserved data => do
    if storageRecordCleanupOnly data then pure true
    else do
      let _ ← disablePoolProvisioning obj.name data
      pure true
  | .tombstoned data => do
    let retired ← retireClass data
    if retired = true then removePool obj data else pure true

/-- A record without an owner is sealed before it is deleted. -/
def legacyDeletion (obj : DeletedStorage) (q : DeletionRequest) (data : PoolRecord) : PoolHandler Bool := do
  let (confirmed, owned) ←
    sealLegacyDeletionRecord q.hasStorageClient obj data q.legacyStorageUid q.legacyQuarantine
  if !owned then pure true
  else do
    Prog.ofExcept (validateDeletionRecordOwner obj confirmed)
    let record ← authoritativeRecord obj q confirmed
    finishDeletion obj record

omit [ConfigHash] in
/-- The provisioner comes back after `body`, however it ends, when the fence is the handler's own. -/
def restoring (fuel : Nat) (ownsFence : Bool) (body : PoolHandler Bool) : PoolHandler Bool :=
  if ownsFence then
    body.andThen fun r => do
      unfence fuel (match r with
        | .ok succeeded => succeeded
        | .error _ => false)
      Prog.ofExcept r
  else body

omit [ConfigHash] in
/-- The fence of the handler, unless its caller has set one. -/
def fenceOwned (fuel : Nat) (ownsFence : Bool) : PoolHandler Unit :=
  if ownsFence then fence fuel else pure ()

/-- The part of the deletion that needs the fence. The tombstone of a legacy record is restrictive, so that even its failure
lets the provisioner come back. -/
def fencedDeletion (fuel : Nat) (obj : DeletedStorage) (q : DeletionRequest) (data : PoolRecord) : PoolHandler Bool := do
  fenceOwned fuel q.ownsFence
  if q.legacy then restoring fuel q.ownsFence (legacyDeletion obj q data)
  else do
    let record ← authoritativeRecord obj q data
    restoring fuel q.ownsFence (finishDeletion obj record)

/-! ## The handler -/

/-- The checks of a deletion before anything else. -/
def validateDeletion (obj : DeletedStorage) (q : DeletionRequest) (data : PoolRecord) : Except OpErr Unit := do
  validateStoredRecord obj.name data
  if !q.legacy then validateDeletionRecordOwner obj data

/-- A pool that is put aside stays so. -/
def preserveQuarantined (obj : DeletedStorage) (data : PoolRecord) : PoolHandler Bool := do
  match ← readDeletionStorageInfo obj.name with
  | none => pure true
  | some authoritative => do
    Prog.ofExcept (validateStoredRecord obj.name authoritative)
    if deletionRecordIdentity authoritative ≠ deletionRecordIdentity data then
      throw (.runtime s!"Quarantined storage pool {obj.name} changed during deletion")
    else pure true

/-- A pool that already has its tombstone is not worth a fence while it has volumes: an error is the outcome of the handler
without one. -/
def preliminaryCount (obj : DeletedStorage) (q : DeletionRequest) (data : PoolRecord) :
    PoolHandler (Except Bool PoolRecord) :=
  if q.provisionerFenced || !storageRecordCleanupOnly data then pure (.ok data)
  else do
    match ← readDeletionStorageInfo obj.name with
    | none => pure (.error true)
    | some authoritative => do
      Prog.ofExcept (validateDeletionSnapshot obj data authoritative)
      if q.cleanupQuarantine then pure (.error true)
      else do
        let pvCount ← getNumPvs authoritative
        if pvCount = -1 then pure (.error false)
        else if pvCount ≠ 0 then pure (.error true)
        else pure (.ok authoritative)

/-- The deletion of a pool with this record. -/
def deleteRecorded (fuel : Nat) (obj : DeletedStorage) (q : DeletionRequest) (data : PoolRecord) : PoolHandler Bool :=
  match validateDeletion obj q data with
  | .error _ => pure false
  | .ok _ =>
    if q.legacyQuarantine && data.deletion.deletionQuarantined = some true then preserveQuarantined obj data
    else do
      match ← preliminaryCount obj q data with
      | .error done => pure done
      | .ok data => if q.ownsFence && !q.hasApps then pure false else fencedDeletion fuel obj q data

omit [ConfigHash] in
/-- The cleanup of a pool whose record is gone. -/
def interruptedCleanup (obj : DeletedStorage) : PoolHandler Bool :=
  tryCatch
    (do
      request (Call.deleteClass obj.className none obj.uid)
      pure true)
    fun
      | .runtime _ => pure false
      | e => throw e

/-- `handle_deleted` -/
def handleDeleted (fuel : Nat) (obj : DeletedStorage) (q : DeletionRequest) : PoolHandler Bool :=
  match q.storageInfo with
  | some data => deleteRecorded fuel obj q data
  | none => do
    match ← readDeletionStorageInfo obj.name with
    | none => interruptedCleanup obj
    | some data => deleteRecorded fuel obj q data

end Kadalu.Operator
