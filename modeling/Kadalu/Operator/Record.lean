import Kadalu.Operator.Names
import Kadalu.Data.Result

/-!
# Pool records

The ConfigMap of the operator holds one record for each pool, a JSON object. A field that is absent is `none` here, and
`single_pv_per_pool` is what `get_single_pv_per_pool` reads of it. The fields of the ownership, the mount and the deletion of
a pool are grouped; `rest` stands for the fields that no check looks at.

* `validateStoredPoolIdentity`, `validateStoredBricks`: what every reader of a record demands of it.
* `backendIdentity`: where the data of the pool is. It never changes.
* `deletionRecordIdentity`: what must not change while the pool is deleted.
-/

namespace Kadalu.Operator

open Except

def VOLUME_TYPE_REPLICA_2 : String := "Replica2"
def VOLUME_TYPE_EXTERNAL : String := "External"
def VOLUME_TYPE_DISPERSE : String := "Disperse"
def VALID_HOSTING_VOLUME_TYPES : List String := ["Replica1", "Replica2", "Replica3", "Disperse", "External", "Arbiter"]

def SINGLE_PV_CLAIM_VERSION : Int := 1
def STORAGE_CLASS_NAME_PREFIX : String := "kadalu."
def CLEANUP_ONLY_STORAGE_UID_PREFIX : String := "orphan:"

/-! ## Bricks -/

/-- A brick of a `KadaluStorage`; a field that is not given is empty. -/
structure StorageBrick where
  node : String := ""
  path : String := ""
  device : String := ""
  pvc : String := ""
  decommissioned : String := ""
  deriving DecidableEq, Repr

/-- A brick of a pool record. -/
structure PoolBrick where
  brickPath : Option String
  kubeHostname : Option String
  node : Option String
  nodeId : Option String
  hostBrickPath : Option String
  brickDevice : Option String
  pvcName : Option String
  brickDeviceDir : String := ""
  decommissioned : String := ""
  brickIndex : Option Int
  deriving DecidableEq, Repr

/-- The backing of a stored brick, as a `KadaluStorage` gives it. -/
def PoolBrick.logical (brick : PoolBrick) : StorageBrick where
  node := brick.kubeHostname.getD ""
  path := brick.hostBrickPath.getD ""
  device := brick.brickDevice.getD ""
  pvc := brick.pvcName.getD ""

/-- The required fields of a stored brick are there. -/
def PoolBrick.complete (brick : PoolBrick) : Bool :=
  [brick.brickPath, brick.node, brick.nodeId, brick.hostBrickPath, brick.kubeHostname, brick.brickDevice,
    brick.pvcName].all Option.isSome

/-- A backing field that is not given. -/
def emptyBacking (value : String) : Bool := value = ""

/-- The checks of a backing field that is given. -/
def validBacking (value : String) : Bool :=
  strip value.toList = value.toList && value.toList.all fun c => !isControl c

/-- A component of a normal path. -/
def isNormalComponent (component : List Char) : Bool := component ≠ [] && component ≠ ['.'] && component ≠ ['.', '.']

/-- `os.path.normpath(value) == value` for an absolute path; POSIX keeps two leading slashes. -/
def isCanonicalPath (value : String) : Bool :=
  value = "/" || value = "//" || match splitChars '/' value.toList with
    | [] :: [] :: components => components.all isNormalComponent
    | [] :: components => components.all isNormalComponent
    | _ => false

/-- What tells the backing of one brick from that of another. -/
inductive BrickIdentity where
  | pvc (value : String)
  | path (node value : String)
  | device (node value : String)
  deriving DecidableEq, Repr

/-- The identity of a brick that passes its own checks. -/
def brickIdentity (brick : StorageBrick) : Option BrickIdentity :=
  let given := [brick.pvc, brick.path, brick.device].filter (!emptyBacking ·)
  if !given.all validBacking || given.length ≠ 1 then none
  else if brick.node ≠ "" && !(strip brick.node.toList = brick.node.toList && validLabelValue brick.node) then none
  else if brick.pvc ≠ "" then
    if brick.pvc.length ≤ 253 && isDnsSubdomain brick.pvc.toList then some (.pvc brick.pvc) else none
  else if brick.node = "" then none
  else if brick.path ≠ "" then
    if isCanonicalPath brick.path then some (.path brick.node brick.path) else none
  else if isCanonicalPath brick.device && brick.device ≠ "/" && brick.device ≠ "//" then some (.device brick.node brick.device)
  else none

/-- `bricks_validation` -/
def bricksValidation (bricks : List StorageBrick) : Bool :=
  match bricks.mapM brickIdentity with
  | none => false
  | some identities => bricks ≠ [] && decide identities.Nodup

/-! ## Records -/

/-- `disperse` of a pool -/
structure Disperse where
  data : Int := 0
  redundancy : Int := 0
  deriving DecidableEq, Repr

/-- `tiebreaker` of a pool; one that is empty is not there. -/
structure Tiebreaker where
  deployment : String := ""
  node : String := ""
  path : String := ""
  port : Option Int := none
  deriving DecidableEq, Repr

/-- The ownership of a dedicated pool in its record. -/
structure ClaimMetadata where
  singlePvClaimVersion : Option Int := none
  legacySinglePvVolumeId : Option String := none
  deriving DecidableEq, Repr

/-- The mount of a pool in its record. -/
structure MountMetadata where
  mountIdentity : Option String := none
  mountConfigFingerprint : Option String := none
  legacyMountConfigFingerprint : Option String := none
  deriving DecidableEq, Repr

/-- The deletion of a pool in its record. -/
structure DeletionMetadata where
  provisioningDisabled : Option Bool := none
  deletionCleanupOnly : Option Bool := none
  deletionQuarantined : Option Bool := none
  deriving DecidableEq, Repr

/-- A pool record. -/
structure PoolRecord where
  volname : Option String
  type : Option String
  volumeId : Option String
  storageClassName : Option String := none
  singlePvPerPool : Bool := false
  pvReclaimPolicy : Option String := none
  bricks : Option (List PoolBrick) := none
  disperse : Disperse := {}
  options : List (String × String) := []
  tiebreaker : Option Tiebreaker := none
  tolerations : Option String := none
  glusterHosts : List String := []
  glusterVolname : Option String := none
  glusterOptions : String := ""
  storageUid : Option String := none
  claim : ClaimMetadata := {}
  mount : MountMetadata := {}
  deletion : DeletionMetadata := {}
  rest : String := ""
  deriving DecidableEq, Repr

/-- A string that counts as set in Python: one that is there and not empty. -/
def truthy (value : Option String) : Bool := value.any (· ≠ "")

/-- `storage_class_name`, of a pool with this name -/
def storageClassName (volname configured : Option String) : String :=
  configured.getD (STORAGE_CLASS_NAME_PREFIX ++ volname.getD "None")

def PoolRecord.className (data : PoolRecord) : String := Operator.storageClassName data.volname data.storageClassName

def PoolRecord.isExternal (data : PoolRecord) : Bool := data.type = some VOLUME_TYPE_EXTERNAL

/-! ## The backend -/

/-- Where the data of a pool is. -/
inductive BackendIdentity where
  | external (glusterHosts : List String) (glusterVolname : Option String) (glusterOptions : String)
  | native (bricks : List StorageBrick) (disperse : Option Disperse) (tiebreaker : Option Tiebreaker)
  deriving DecidableEq, Repr

/-- `_canonical_native_geometry` -/
def canonicalNativeGeometry (type : Option String) (disperse : Disperse) (tiebreaker : Option Tiebreaker) :
    Option Disperse × Option Tiebreaker :=
  (if type = some VOLUME_TYPE_DISPERSE then some disperse else none,
    if type = some VOLUME_TYPE_REPLICA_2 then
      tiebreaker.map fun t => { t with port := some (if t.port = some 0 then 24007 else t.port.getD 24007) }
    else none)

/-- The order of the bricks by their index. -/
def PoolBrick.le (a b : PoolBrick) : Prop := a.brickIndex.getD (-1) ≤ b.brickIndex.getD (-1)

instance : DecidableRel PoolBrick.le := fun _ _ => inferInstanceAs (Decidable (_ ≤ _))

/-- `_external_backend_identity` -/
def externalBackendIdentity (data : PoolRecord) : BackendIdentity :=
  .external (canonicalGlusterHosts data.glusterHosts) data.glusterVolname data.glusterOptions

/-- `_stored_native_backend_identity` -/
def storedNativeBackendIdentity (data : PoolRecord) : BackendIdentity :=
  let geometry := canonicalNativeGeometry data.type data.disperse data.tiebreaker
  .native (((data.bricks.getD []).insertionSort PoolBrick.le).map PoolBrick.logical) geometry.1 geometry.2

def PoolRecord.backendIdentity (data : PoolRecord) : BackendIdentity :=
  if data.isExternal then externalBackendIdentity data else storedNativeBackendIdentity data

/-! ## Fingerprints -/

/-- The parts of a mount configuration that depend on the kind of its backend. -/
inductive MountBackend where
  | external (glusterHosts : List String) (glusterVolname : Option String) (glusterOptions : String)
  | native (bricks : List PoolBrick) (disperse : Disperse) (options : List (String × String))
      (tiebreaker : Option Tiebreaker)
  deriving DecidableEq, Repr

/-- The backend configuration of a mount. -/
structure MountConfig where
  type : Option String
  volname : Option String
  volumeId : Option String
  singlePvPerPool : Bool
  backend : MountBackend
  deriving DecidableEq, Repr

/-- The immutable backend of a StorageClass. -/
structure BackendConfig where
  name : Option String
  type : Option String
  singlePvPerPool : Bool
  backend : BackendIdentity
  deriving DecidableEq, Repr

/-- The SHA-256 digests of the JSON forms. -/
class ConfigHash where
  mountDigest : MountConfig → String
  backendDigest : BackendConfig → String

variable [ConfigHash]

/-- `mount_config_fingerprint` -/
def mountConfigFingerprint (data : PoolRecord) : String :=
  ConfigHash.mountDigest {
    type := data.type
    volname := data.volname
    volumeId := data.volumeId
    singlePvPerPool := data.singlePvPerPool
    backend :=
      if data.isExternal then
        .external (canonicalGlusterHosts data.glusterHosts) data.glusterVolname data.glusterOptions
      else
        .native ((data.bricks.getD []).map fun brick => { brick with brickDeviceDir := "" }) data.disperse data.options
          data.tiebreaker }

/-- `storage_class_backend_fingerprint` -/
def storageClassBackendFingerprint (data : PoolRecord) : String :=
  ConfigHash.backendDigest ⟨data.volname, data.type, data.singlePvPerPool, data.backendIdentity⟩

/-! ## Validation -/

omit [ConfigHash] in
/-- `generated_resource_names_validation` -/
def generatedResourceNamesValidation (volname type storageClass : Option String) (bricks : Nat) : Bool :=
  match volname with
  | none => false
  | some volname =>
    let className := storageClassName (some volname) storageClass
    volname.length ≤ 63 && isDnsLabel volname.toList && className.length ≤ 253 && isDnsSubdomain className.toList &&
      (type = some VOLUME_TYPE_EXTERNAL ||
        (List.range bricks).all fun index =>
          let hostname := getBrickHostname volname index ++ "-0"
          hostname.length ≤ 63 && isDnsLabel hostname.toList)

/-- `_validate_stored_pool_identity` -/
def validateStoredPoolIdentity (volname : String) (data : PoolRecord) : Except OpErr Unit :=
  if data.volname ≠ some volname then
    throw (.runtime s!"Storage pool record {volname} has an inconsistent volname")
  else if !generatedResourceNamesValidation (some volname) data.type data.storageClassName (data.bricks.getD []).length then
    throw (.runtime s!"Storage pool {volname} has unsafe generated resource names")
  else if !data.volumeId.any isCanonicalUuid then
    throw (.runtime s!"Storage pool {volname} has an invalid stored volume identity")
  else if data.deletion.deletionCleanupOnly = some false then
    throw (.runtime s!"Storage pool {volname} has invalid cleanup-only metadata")
  else if data.deletion.deletionCleanupOnly = some true && (!truthy data.storageUid || data.deletion.provisioningDisabled ≠ some true) then
    throw (.runtime s!"Storage pool {volname} has incomplete cleanup-only metadata")
  else if data.deletion.deletionQuarantined = some false then
    throw (.runtime s!"Storage pool {volname} has invalid deletion quarantine metadata")
  else if data.deletion.deletionQuarantined = some true &&
      (data.deletion.provisioningDisabled ≠ some true || data.storageUid.isSome || data.deletion.deletionCleanupOnly = some true) then
    throw (.runtime s!"Storage pool {volname} has inconsistent deletion quarantine metadata")
  else if data.mount.mountIdentity.any (!isCanonicalUuid ·) then
    throw (.runtime s!"Storage pool {volname} has an invalid stored mount identity")
  else if data.mount.mountConfigFingerprint.any (· ≠ mountConfigFingerprint data) then
    throw (.runtime s!"Storage pool {volname} has inconsistent stored mount metadata")
  else pure ()

omit [ConfigHash] in
/-- The identity of one stored brick. -/
def consistentBrick (volname : String) (brick : PoolBrick) (index : Nat) : Bool :=
  brick.nodeId = some ("node-" ++ index.repr) && brick.node = some (getBrickHostname volname index ++ "-0." ++ volname) &&
    brick.brickPath = some ("/bricks/" ++ volname ++ "/data/brick")

omit [ConfigHash] in
/-- `_validate_stored_bricks` -/
def validateStoredBricks (volname : String) (data : PoolRecord) : Except OpErr Unit :=
  match data.bricks with
  | none => throw (.runtime s!"Storage pool {volname} has invalid stored bricks")
  | some bricks =>
    match bricks.mapM PoolBrick.brickIndex with
    | none => throw (.runtime s!"Storage pool {volname} has unsafe brick indices")
    | some indices =>
      if indices.insertionSort (· ≤ ·) ≠ (List.range bricks.length).map Int.ofNat then
        throw (.runtime s!"Storage pool {volname} has unsafe brick indices")
      else if !bricks.all PoolBrick.complete then
        throw (.runtime s!"Storage pool {volname} has an incomplete stored brick")
      else if !bricks.all fun brick => consistentBrick volname brick (brick.brickIndex.getD 0).toNat then
        throw (.runtime s!"Storage pool {volname} has inconsistent stored brick identity")
      else if !bricksValidation ((bricks.insertionSort PoolBrick.le).map PoolBrick.logical) then
        throw (.runtime s!"Storage pool {volname} has invalid stored brick backing")
      else pure ()

/-- The checks that every reader makes of the record of the pool `volname`. -/
def validateStoredRecord (volname : String) (data : PoolRecord) : Except OpErr Unit := do
  validateStoredPoolIdentity volname data
  if !data.isExternal then validateStoredBricks volname data

/-! ## Deletion -/

omit [ConfigHash] in
/-- `storage_record_cleanup_only` -/
def storageRecordCleanupOnly (data : PoolRecord) : Bool :=
  data.deletion.deletionCleanupOnly = some true ||
    (data.deletion.provisioningDisabled = some true &&
      data.storageUid.any fun uid => CLEANUP_ONLY_STORAGE_UID_PREFIX.toList.isPrefixOf uid.toList)

/-- What must not change while a pool is deleted. -/
structure DeletionIdentity where
  volname : Option String
  type : Option String
  storageClassName : String
  storageUid : Option String
  deletionCleanupOnly : Option Bool
  deletionQuarantined : Option Bool
  volumeId : Option String
  mountIdentity : Option String
  mountConfigFingerprint : Option String
  singlePvPerPool : Bool
  backendFingerprint : String
  deriving DecidableEq, Repr

/-- `_deletion_record_identity` -/
def deletionRecordIdentity (data : PoolRecord) : DeletionIdentity where
  volname := data.volname
  type := data.type
  storageClassName := data.className
  storageUid := data.storageUid
  deletionCleanupOnly := data.deletion.deletionCleanupOnly
  deletionQuarantined := data.deletion.deletionQuarantined
  volumeId := data.volumeId
  mountIdentity := data.mount.mountIdentity
  mountConfigFingerprint := data.mount.mountConfigFingerprint
  singlePvPerPool := data.singlePvPerPool
  backendFingerprint := storageClassBackendFingerprint data

end Kadalu.Operator
