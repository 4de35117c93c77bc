import Kadalu.Operator.Record

/-!
# What the operator writes into a pool record

A record is built anew from its `KadaluStorage` on every reconciliation (`nativeRecord`, `externalRecord`). What belongs to
the pool and not to the request is carried over from the record that exists: `applyPoolMountMetadata` refuses a change of
the pool's identity, and keeps its mount identity and the ownership of a dedicated pool.
-/

namespace Kadalu.Operator

/-! ## Requests -/

/-- `spec.details` of an External pool -/
structure ExternalDetails where
  glusterHost : Option String := none
  glusterHosts : List String := []
  glusterVolname : Option String := none
  glusterOptions : String := ""
  glusterPort : Int := 24007
  deriving DecidableEq, Repr

/-- A `KadaluStorage`, with the defaults of its optional fields. -/
structure KadaluStorage where
  name : String
  uid : Option String := none
  type : Option String
  volumeId : Option String := none
  storageClassName : Option String := none
  pvReclaimPolicy : String := "delete"
  singlePvPerPool : Bool := false
  storage : List StorageBrick := []
  options : List (String × String) := []
  disperse : Disperse := {}
  tiebreaker : Option Tiebreaker := none
  tolerations : Option String := none
  details : ExternalDetails := {}
  deriving DecidableEq, Repr

def KadaluStorage.className (obj : KadaluStorage) : String := Operator.storageClassName (some obj.name) obj.storageClassName

/-- The endpoints of an External pool. -/
def ExternalDetails.hosts (details : ExternalDetails) : List String :=
  (details.glusterHost.filter (· ≠ "")).toList ++ details.glusterHosts

/-- `_requested_external_backend_identity` and `_requested_native_backend_identity` -/
def KadaluStorage.backendIdentity (obj : KadaluStorage) : BackendIdentity :=
  if obj.type = some VOLUME_TYPE_EXTERNAL then
    .external (canonicalGlusterHosts obj.details.hosts) obj.details.glusterVolname obj.details.glusterOptions
  else
    let geometry := canonicalNativeGeometry obj.type obj.disperse obj.tiebreaker
    .native (obj.storage.map fun brick => { brick with decommissioned := "" }) geometry.1 geometry.2

/-! ## Fresh records -/

/-- `get_brick_device_dir` -/
def getBrickDeviceDir (brick : StorageBrick) : String :=
  if brick.device ≠ "" && !("/dev/".toList.isPrefixOf brick.device.toList) then
    match ((splitChars '/' brick.device.toList).dropLast).map String.ofList with
    | [""] => "/"
    | components => "/".intercalate components
  else ""

/-- The brick with index `idx` of a native record. -/
def storedBrick (volname : String) (idx : Nat) (storage : StorageBrick) : PoolBrick where
  brickPath := some ("/bricks/" ++ volname ++ "/data/brick")
  kubeHostname := some storage.node
  node := some (getBrickHostname volname idx ++ "-0." ++ volname)
  nodeId := some ("node-" ++ idx.repr)
  hostBrickPath := some storage.path
  brickDevice := some storage.device
  pvcName := some storage.pvc
  brickDeviceDir := getBrickDeviceDir storage
  decommissioned := storage.decommissioned
  brickIndex := some idx

/-- The UID of a record: that of the request, or else the one that is stored. -/
def recordUid (obj : KadaluStorage) (existing : Option PoolRecord) : Option String :=
  if truthy obj.uid then obj.uid else (existing.bind (·.storageUid)).filter (· ≠ "")

/-- The record that `update_config_map` builds from a request. -/
def nativeRecord (obj : KadaluStorage) (existing : Option PoolRecord) : PoolRecord where
  volname := some obj.name
  type := obj.type
  volumeId := obj.volumeId
  storageClassName := some obj.className
  singlePvPerPool := obj.singlePvPerPool
  pvReclaimPolicy := some obj.pvReclaimPolicy
  bricks := some (obj.storage.mapIdx (storedBrick obj.name))
  disperse := obj.disperse
  options := obj.options
  tiebreaker :=
    if obj.type = some VOLUME_TYPE_REPLICA_2 then
      obj.tiebreaker.map fun t => { t with port := some (if t.port = some 0 then 24007 else t.port.getD 24007) }
    else none
  tolerations := obj.tolerations
  storageUid := recordUid obj existing

/-- `",".join(hosts)` -/
def joinHosts (hosts : List String) : String := String.ofList ([','].intercalate (hosts.map String.toList))

/-- `hosts.split(",")` -/
def splitHosts (hosts : String) : List String := (splitChars ',' hosts.toList).map String.ofList

/-- The record that `handle_external_storage_addition` builds from a request; its endpoints are written as one text and
read as a list. -/
def externalRecord (obj : KadaluStorage) (existing : Option PoolRecord) : PoolRecord where
  volname := some obj.name
  type := some VOLUME_TYPE_EXTERNAL
  volumeId := obj.volumeId
  storageClassName := some obj.className
  singlePvPerPool := obj.singlePvPerPool
  pvReclaimPolicy := some obj.pvReclaimPolicy
  tolerations := obj.tolerations
  glusterHosts := splitHosts (joinHosts (canonicalGlusterHosts obj.details.hosts))
  glusterVolname := obj.details.glusterVolname
  glusterOptions := obj.details.glusterOptions
  storageUid := recordUid obj existing

/-! ## Metadata of the pool -/

/-- The ownership that `_preserve_single_pv_claim_metadata` gives a record; `none` is its refusal. -/
def preserveSinglePvClaimMetadata (singlePvPerPool : Bool) (existing : Option PoolRecord)
    (recoveredLegacyOwner : Option String) : Option ClaimMetadata :=
  match existing with
  | none =>
    if singlePvPerPool then
      match recoveredLegacyOwner with
      | none => some { singlePvClaimVersion := some SINGLE_PV_CLAIM_VERSION }
      | some owner => some { legacySinglePvVolumeId := some owner }
    else some {}
  | some existing =>
    if singlePvPerPool ≠ existing.singlePvPerPool then none
    else if !existing.singlePvPerPool then some {}
    else if existing.claim.singlePvClaimVersion = some SINGLE_PV_CLAIM_VERSION then
      some { singlePvClaimVersion := some SINGLE_PV_CLAIM_VERSION }
    else if truthy existing.claim.legacySinglePvVolumeId then
      some { legacySinglePvVolumeId := existing.claim.legacySinglePvVolumeId }
    else some {}

/-- The checks of `_apply_pool_mount_metadata` that the pool stays the same. -/
def samePool (data existing : PoolRecord) : Bool :=
  existing.type.all (data.type = some ·) && existing.volname.all (data.volname = some ·) &&
    existing.volumeId.all (data.volumeId = some ·) && data.className = existing.className &&
    (if existing.isExternal then externalBackendIdentity data = externalBackendIdentity existing
      else storedNativeBackendIdentity data = storedNativeBackendIdentity existing)

/-- The mount identity that `_apply_pool_mount_metadata` settles on: the stored one, a recovered one, or a fresh one. -/
def settleMountIdentity (stored recovered : Option String) (fresh : String) : Option String :=
  match stored with
  | some stored => canonicalUuid stored
  | none =>
    match recovered with
    | some recovered => if isCanonicalUuid recovered then some recovered else none
    | none => some fresh

variable [ConfigHash]

/-- The marker of a pool that is migrated: the fingerprint that its mounts have before they carry an identity. -/
def legacyFingerprint (data : PoolRecord) (existing : Option PoolRecord) (legacyMountMigration : Bool) :
    Option (Option String) :=
  if legacyMountMigration then
    if existing.all (·.mount.mountIdentity.isSome) then none else some (some (mountConfigFingerprint data))
  else some (existing.bind (·.mount.legacyMountConfigFingerprint))

/-- `_apply_pool_mount_metadata`; `none` is its refusal, and `fresh` the UUID that it would draw. -/
def applyPoolMountMetadata (data : PoolRecord) (existing : Option PoolRecord) (recoveredLegacyOwner : Option String)
    (legacyMountMigration : Bool) (recoveredMountIdentity : Option String) (fresh : String) : Option PoolRecord :=
  match preserveSinglePvClaimMetadata data.singlePvPerPool existing recoveredLegacyOwner with
  | none => none
  | some claim =>
    if !existing.all (samePool data) then none
    else
      match settleMountIdentity (existing.bind (·.mount.mountIdentity)) recoveredMountIdentity fresh with
      | none => none
      | some mountIdentity =>
        match legacyFingerprint data existing legacyMountMigration with
        | none => none
        | some legacy => some { data with
            claim := claim
            mount := ⟨some mountIdentity, some (mountConfigFingerprint data), legacy⟩ }

/-! ## What is carried over -/

/-- The record that `_apply_pool_mount_metadata` makes of `data`. -/
structure Carried (data : PoolRecord) (existing : Option PoolRecord) (owner recovered : Option String) (migration : Bool)
    (fresh : String) (claim : ClaimMetadata) (mountIdentity : String) (legacy : Option String) : Prop where
  claim : preserveSinglePvClaimMetadata data.singlePvPerPool existing owner = some claim
  same : ∀ old, existing = some old → samePool data old = true
  identity : settleMountIdentity (existing.bind (·.mount.mountIdentity)) recovered fresh = some mountIdentity
  legacy : legacyFingerprint data existing migration = some legacy

theorem applyPoolMountMetadata_some {data data' : PoolRecord} {existing : Option PoolRecord}
    {owner recovered : Option String} {migration : Bool} {fresh : String}
    (h : applyPoolMountMetadata data existing owner migration recovered fresh = some data') :
    ∃ claim mountIdentity legacy, Carried data existing owner recovered migration fresh claim mountIdentity legacy ∧
      data' = { data with
        claim := claim
        mount := ⟨some mountIdentity, some (mountConfigFingerprint data), legacy⟩ } := by
  unfold applyPoolMountMetadata at h
  split at h
  · cases h
  · rename_i claim hclaim
    split at h
    · cases h
    · rename_i hsame
      split at h
      · cases h
      · rename_i identity hidentity
        split at h
        · cases h
        · rename_i legacy hlegacy
          refine ⟨claim, identity, legacy, ⟨hclaim, ?_, hidentity, hlegacy⟩, (Option.some.inj h).symm⟩
          rintro old rfl
          simpa using hsame

end Kadalu.Operator
