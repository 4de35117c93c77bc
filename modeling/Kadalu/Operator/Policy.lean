import Kadalu.Operator.Cluster

/-!
# Reclaim policies

An update of a pool writes its record and patches its PersistentVolumes. A pool that is to retain its data has them patched
before its record says so, any other pool after it (`reconcilePoolPvReclaimPolicy`).
-/

namespace Kadalu.Operator

open Calls.Prog

/-! ## Volumes of a pool -/

/-- `_pool_persistent_volumes` selects by the hosting volume or by the StorageClass. -/
def PersistentVolume.attributable (pv : PersistentVolume) (volname className : String) : Bool :=
  (pv.driver = some CSI_DRIVER_NAME && pv.hostvol = some volname) || pv.storageClassName = some className

/-- `_pool_persistent_volume_is_mutable` -/
def PersistentVolume.mutable (pv : PersistentVolume) (volname : String) : Bool :=
  pv.driver = some CSI_DRIVER_NAME && (!truthy pv.hostvol || pv.hostvol = some volname)

/-- The policy of a volume, `Delete` unless it says something else. -/
def PersistentVolume.policy (pv : PersistentVolume) : String :=
  if truthy pv.reclaimPolicy then pv.reclaimPolicy.getD "Delete" else "Delete"

/-- `_pool_persistent_volumes` -/
def poolPersistentVolumes (pvs : PersistentVolumes) (volname className : String) :
    List (String × PersistentVolume) :=
  (pvs.entries.map fun e => (e.1, e.2)).filter fun e => e.2.attributable volname className

/-- `storage_class_reclaim_policy` -/
def storageClassReclaimPolicy (pvReclaimPolicy : String) : String :=
  if pvReclaimPolicy = "retain" then "Retain" else "Delete"

/-- The loop of `reconcile_pool_pv_reclaim_policy` -/
def patchPolicies (volname reclaimPolicy : String) : List (String × PersistentVolume) → PoolHandler Unit
  | [] => pure ()
  | (name, pv) :: pvs =>
    if pv.mutable volname && pv.policy ≠ reclaimPolicy then do
      Call.patchPv name reclaimPolicy
      patchPolicies volname reclaimPolicy pvs
    else patchPolicies volname reclaimPolicy pvs

/-- `reconcile_pool_pv_reclaim_policy` -/
def reconcilePoolPvReclaimPolicy (volname poolPolicy : String) (beforeConfigWrite : Option Bool) (className : String) :
    PoolHandler Unit :=
  let reclaimPolicy := storageClassReclaimPolicy poolPolicy
  if beforeConfigWrite.any (decide (reclaimPolicy = "Retain") ≠ ·) then pure ()
  else do
    let pvs ← Call.listPvs
    patchPolicies volname reclaimPolicy (poolPersistentVolumes pvs volname className)

/-! ## Updates of a pool -/

/-- `recovered_single_pv_owner`; `none` is its refusal. -/
def recoveredSinglePvOwner (data : PoolRecord) : PoolHandler (Option (Option String)) :=
  if !data.singlePvPerPool then pure (some none)
  else do
    let pvs ← Call.listPvs
    match ((pvs.entries.filterMap fun e =>
        if e.2.driver = some CSI_DRIVER_NAME && e.2.hostvol = data.volname then e.2.singlePvOwner else none).dedup) with
    | [] => pure (some none)
    | [owner] => pure (some (some owner))
    | _ => pure none

/-- Only a record that is new takes its owner from the volumes. -/
def recoveredOwnerForWrite (data : PoolRecord) : Option PoolRecord → PoolHandler (Option (Option String))
  | none => recoveredSinglePvOwner data
  | some _ => pure (some none)

variable [ConfigHash]

/-- `apply_pool_mount_metadata_for_write` -/
def applyPoolMountMetadataForWrite (data : PoolRecord) (existing : Option PoolRecord)
    (recoveredMountIdentity : Option String) : PoolHandler (Option PoolRecord) := do
  match ← recoveredOwnerForWrite data existing with
  | none => pure none
  | some owner => do
    let fresh ← Call.uuid4
    pure (applyPoolMountMetadata data existing owner false recoveredMountIdentity fresh)

omit [ConfigHash] in
/-- The write of a record that has changed, between the two passes over the volumes. -/
def writeRecord (config : ConfigMap) (volname : String) (existing : Option PoolRecord) (data : PoolRecord) :
    PoolHandler Unit :=
  if existing = some data then pure ()
  else Call.patchConfig { data := config.data.insert volname (.record data) } config.resourceVersion

omit [ConfigHash] in
/-- The part of an update that changes the cluster, for the record `data`. -/
def applyPolicy (obj : KadaluStorage) (config : ConfigMap) (existing : Option PoolRecord) (data : PoolRecord) :
    PoolHandler Unit := do
  reconcilePoolPvReclaimPolicy obj.name obj.pvReclaimPolicy (some true) data.className
  writeRecord config obj.name existing data
  reconcilePoolPvReclaimPolicy obj.name obj.pvReclaimPolicy (some false) data.className

omit [ConfigHash] in
/-- The record of a pool in a ConfigMap that was read; the outer `none` is one that cannot be decoded. -/
def ConfigMap.existing (config : ConfigMap) (volname : String) : Option (Option PoolRecord) :=
  match config.data.lookup volname with
  | none => some none
  | some serialized => serialized.decode.map some

/-- `update_config_map` -/
def updateConfigMap (obj : KadaluStorage) (recoveredMountIdentity : Option String) : PoolHandler Bool := do
  let config ← Call.readConfig
  match config.existing obj.name with
  | none => pure false
  | some existing => do
    match ← applyPoolMountMetadataForWrite (nativeRecord obj existing) existing recoveredMountIdentity with
    | none => pure false
    | some data => do
      applyPolicy obj config existing data
      pure true

omit [ConfigHash] in
/-- The evidence that `handle_external_storage_addition` demands before it writes: the recovered mount identity to go on
with, or `none` for its refusal. -/
def externalEvidence (obj : KadaluStorage) (existing : Option PoolRecord) (recoveredMountIdentity : Option String) :
    PoolHandler (Option (Option String)) :=
  match existing with
  | none => do
    let durable ← request (Call.recoverClassIdentity obj.className)
    let pvs ← Call.listPvs
    if poolPersistentVolumes pvs obj.name obj.className ≠ [] && durable.isNone then pure none
    else if durable.any fun d => obj.volumeId ≠ some d.1 || recoveredMountIdentity ≠ some d.2 then pure none
    else if recoveredMountIdentity.isSome && durable.isNone then pure none
    else pure (some recoveredMountIdentity)
  | some _ => do
    let classMountIdentity ← request (Call.preflightExistingClass obj.name)
    request (Call.preflightClassOwner obj.className)
    match classMountIdentity with
    | none => pure (some recoveredMountIdentity)
    | some identity =>
      if recoveredMountIdentity.any (· ≠ identity) then pure none else pure (some (some identity))

/-- `handle_external_storage_addition` -/
def handleExternalStorageAddition (obj : KadaluStorage) (recoveredMountIdentity : Option String) :
    PoolHandler Bool := do
  let config ← Call.readConfig
  match config.existing obj.name with
  | none => pure false
  | some existing => do
    match ← externalEvidence obj existing recoveredMountIdentity with
    | none => pure false
    | some recovered => do
      match ← applyPoolMountMetadataForWrite (externalRecord obj existing) existing recovered with
      | none => pure false
      | some data => do
        request (Call.preflightClassOwner data.className)
        applyPolicy obj config existing data
        request (Call.reconcileClass data.className (storageClassReclaimPolicy obj.pvReclaimPolicy))
        reconcilePoolPvReclaimPolicy obj.name obj.pvReclaimPolicy none data.className
        pure true

end Kadalu.Operator
