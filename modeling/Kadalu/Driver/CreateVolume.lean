import Kadalu.Driver.Rpc

/-!
# `CreateVolume`

A fresh request selects a pool by its StorageClass parameters and reserves the volume there with a durable intent; a
retry finds the volume, or its intent, by its ID and resumes on the same pool. External pools go through a second
selection that matches the Gluster volume named by the parameters.
-/

namespace Kadalu

open Durable

variable [VolnameHash]

/-! ## Requests -/

/-- A volume capability: block or mount, and whether its access mode is `SINGLE_NODE_WRITER`. -/
structure VolumeCapability where
  block : Bool
  singleNodeWriter : Bool
  deriving DecidableEq, Repr

/-- `CreateVolumeRequest` -/
structure CreateRequest where
  name : String
  capacityRange : Option CapacityRange := none
  volumeCapabilities : List VolumeCapability
  parameters : List (String × String)
  deriving DecidableEq, Repr

/-- `parameters.get(key)` -/
def CreateRequest.get (request : CreateRequest) (key : String) : Option String := request.parameters.lookup key

/-- `str.lower`, on the characters whose lower case is ASCII. -/
def lower (s : String) : String :=
  String.ofList (s.toList.map fun c => if c = Char.ofNat 0x212A then 'k' else c.toLower)

/-- `get_single_pv_per_pool` of StorageClass parameters -/
def CreateRequest.singlePvPerPool (request : CreateRequest) : Bool :=
  match request.get "kadalu_format" with
  | some kformat => lower kformat ≠ "native"
  | none => lower ((request.get "single_pv_per_pool").getD "False") = "true"

/-- `is_block_request` -/
def CreateRequest.isBlockRequest (request : CreateRequest) : Bool := request.volumeCapabilities.any (·.block)

/-- The StorageClass asks for a block volume with a filesystem. -/
def CreateRequest.wantsVirtblock (request : CreateRequest) : Bool := lower ((request.get "pv_type").getD "") = "block"

/-- `pvc_access_mode` is `SINGLE_NODE_WRITER`. -/
def CreateRequest.singleNodeWriter (request : CreateRequest) : Bool :=
  (request.volumeCapabilities.head?.map (·.singleNodeWriter)).getD false

/-- The volume type of a request. -/
def CreateRequest.pvtype (request : CreateRequest) : PvType :=
  if request.isBlockRequest then .rawblock else if request.wantsVirtblock then .virtblock else .subvol

def CreateRequest.requiredBytes (request : CreateRequest) : Int :=
  (request.capacityRange.map CapacityRange.requiredBytes).getD 0

def CreateRequest.limitBytes (request : CreateRequest) : Int :=
  (request.capacityRange.map CapacityRange.limitBytes).getD 0

/-- `valid_creation_request_shape` -/
def CreateRequest.validShape (request : CreateRequest) : Bool :=
  !request.volumeCapabilities.isEmpty &&
    (request.pvtype = .subvol || (request.singleNodeWriter && !request.singlePvPerPool)) &&
    request.capacityRange.all validRange

/-! ## Responses -/

/-- `volume_context`; an entry that the source leaves out is `none`. -/
structure VolumeContext where
  type : Option String
  hostvol : String
  pvtype : PvType
  path : Option Path := none
  gvolname : Option String := none
  gserver : Option String := none
  options : Option String := none
  singlePvPerPool : Bool
  singlePvClaimVersion : Option Int := none
  deriving DecidableEq, Repr

structure CreateResponse where
  volumeId : String
  capacityBytes : Int
  volumeContext : VolumeContext
  deriving DecidableEq, Repr

/-- `existing_volume_response` -/
def existingVolumeResponse (volume : Volume) : CreateResponse :=
  let external := volume.host.type = "External"
  { volumeId := volume.volname
    capacityBytes := volume.size
    volumeContext :=
      { type := some volume.host.type
        hostvol := volume.hostvol
        pvtype := volume.voltype
        path := if volume.singlePvPerPool then none else some volume.volpath
        gvolname := if external then volume.host.gVolname else none
        gserver := if external then volume.host.gHost else none
        options := if external then some volume.host.gOptions else none
        singlePvPerPool := volume.singlePvPerPool
        singlePvClaimVersion := if volume.singlePvPerPool then volume.singlePvClaimVersion else none } }

/-- A parameter that is given and not empty. -/
def given (parameter : Option String) : Option String := parameter.filter (· ≠ "")

/-- `existing_volume_is_compatible` -/
def existingVolumeIsCompatible (volume : Volume) (request : CreateRequest) (pvtype : PvType) : Bool :=
  request.requiredBytes ≤ volume.size &&
  (request.limitBytes = 0 || volume.size ≤ request.limitBytes) &&
  volume.voltype = pvtype &&
  (given (request.get "storage_name")).all (· = volume.hostvol) &&
  (given ((request.get "storage_type").or (request.get "hostvol_type"))).all (· = volume.host.type) &&
  (given (request.get "node_affinity")).all (some · = volume.host.nodeAffinity) &&
  (volume.host.type ≠ "External" ||
    (request.get "gluster_hosts" = volume.host.gHost && request.get "gluster_volname" = volume.host.gVolname &&
      (request.get "gluster_options").getD "" = volume.host.gOptions)) &&
  request.singlePvPerPool = volume.singlePvPerPool

/-! ## Hosting volumes -/

/-- The filters of `get_pv_hosting_volumes`: node affinity, storage type, supported type and storage name. -/
def filterHost (request : CreateRequest) (host : HostVol) : Bool :=
  (request.get "storage_name").all (· = host.name) &&
  (request.get "node_affinity").all (fun node => host.type = "Replica1" && host.nodeAffinity = some node) &&
  ((request.get "storage_type").or (request.get "hostvol_type")).all (· = host.type) &&
  (host.supportedPvtype = "all" || (request.get "supported_pvtype").all (· = host.supportedPvtype))

/-- `get_pv_hosting_volumes` -/
def getPvHostingVolumes (hosts : List HostVol) (request : CreateRequest) : List HostVol :=
  hosts.filter (filterHost request)

/-- `new_volume_hosting_candidates` -/
def newVolumeHostingCandidates (hosts : List HostVol) : List HostVol := hosts.filter (!·.provisioningDisabled)

/-! ## Selection -/

/-- The exceptions of opening the accounting database and its transaction: `sqlite3.Error` there marks the pool
unavailable. -/
def openErr (e : Err) : Bool := e = .reconciliation || e.isOs

/-- The stages of a pool's checks. -/
inductive SelectionStage where
  | mount
  | stat
  | capacity
  deriving DecidableEq, Repr

/-- The exceptions of a stage after which the next pool is tried. -/
def SelectionStage.skips : SelectionStage → Err → Bool
  | mount, e => e.isCommand || e.isOs || e.isValue
  | stat, e => e.isOs
  | capacity, e => e = .reconciliation

/-- The admission of one volume on the mounted pool. -/
def admitStep (volumeId : String) (pvtype : PvType) (requiredSize : Int) (uuid : String) : PoolProg Bool := do
  Prog.read openErr fun _ => pure ()
  transaction (fun s => admitVolumeCreation s s.capacity volumeId pvtype requiredSize uuid) dbErr

/-- One stage of a pool's checks: its result, or the failure that skips the pool. -/
def SelectionStage.check {α : Type} (stage : SelectionStage) (p : WorldProg α) : WorldProg (Except Err α) :=
  tryCatch (do pure (.ok (← p))) fun e => if stage.skips e then pure (.error e) else throw e

/-- The return code of `HostingVolumeSelectionError`. -/
def selectionReturnCode (failures : List Err) : Int :=
  if failures ≠ [] ∧ failures.all (· = .command 124) then 124 else -1

/-- `mount_and_select_hosting_volume` for a volume to create: the name of the pool that admits it. -/
def mountAndSelectHostingVolume (requiredSize : Int) (volumeId : String) (pvtype : PvType) (uuid : String) :
    List HostVol → List Err → WorldProg (Option String)
  | [], failures => if failures.isEmpty then pure none else throw (.command (selectionReturnCode failures))
  | volume :: volumes, failures =>
    let next := mountAndSelectHostingVolume requiredSize volumeId pvtype uuid volumes
    if volume.singlePvPerPool then next failures
    else do
      match ← SelectionStage.mount.check (Prog.read mountErr fun _ => pure ()) with
      | .error e => next (e :: failures)
      | .ok () =>
        match ← SelectionStage.stat.check (Prog.read Err.isOs fun _ => pure ()) with
        | .error e => next (e :: failures)
        | .ok () =>
          match ← SelectionStage.capacity.check
              (onPool volume.name (admitStep volumeId pvtype requiredSize uuid)) with
          | .error e => next (e :: failures)
          | .ok true => pure (some volume.name)
          | .ok false => next failures

/-- `mount_single_pv_hosting_volume`: the only claimable dedicated pool and its capacity. -/
def mountSinglePvHostingVolume (hosts : List HostVol) (requiredSize limitSize : Int) : WorldProg (String × Int) :=
  let dedicated := hosts.filter (·.singlePvPerPool)
  let eligible := dedicated.filter fun volume => volume.singlePvClaimVersion = some SINGLE_PV_CLAIM_VERSION
  if !dedicated.isEmpty && eligible.isEmpty then
    throw (.legacyUnclaimed "legacy single-PV pool has no authoritative ownership marker")
  else
    match eligible with
    | [volume] => do
      let capacity ← Prog.read mountErr fun w => pure (w volume.name).capacity
      if capacity < requiredSize ∨ (limitSize ≠ 0 ∧ limitSize < capacity) then
        throw (.capacityRange "dedicated pool capacity is outside the requested range")
      else pure (volume.name, capacity)
    | _ => throw (.value "single_pv_per_pool requires exactly one hosting volume")

/-- A StorageClass parameter that the code reads by subscript. -/
def CreateRequest.subscript (request : CreateRequest) (key : String) : Except Err String :=
  match request.get key with
  | some value => pure value
  | none => throw (.key key)

/-- The loop of `check_external_volume`: the parameters are only read for pools of the requested kind. -/
def findExternalVolume (request : CreateRequest) : List HostVol → Except Err (Option HostVol)
  | [] => pure none
  | vol :: hosts =>
    if vol.type ≠ "External" then findExternalVolume request hosts
    else if vol.singlePvPerPool ≠ request.singlePvPerPool then findExternalVolume request hosts
    else do
      let glusterVolname ← request.subscript "gluster_volname"
      if vol.gVolname ≠ some glusterVolname then findExternalVolume request hosts
      else do
        let glusterHosts ← request.subscript "gluster_hosts"
        if vol.gHost ≠ some glusterHosts then findExternalVolume request hosts
        else pure (some vol)

/-- `check_external_volume`; a failed mount raises. -/
def checkExternalVolume (request : CreateRequest) (hosts : List HostVol) : WorldProg (Option HostVol) := do
  match ← Prog.ofExcept (findExternalVolume request hosts) with
  | none => pure none
  | some vol =>
    Prog.read mountErr fun _ => pure ()
    pure (some vol)

/-- `verify_creation_reservation` -/
def verifyCreationReservation (hosts : List HostVol) (hostvol volumeId : String) (pvtype : PvType) (size : Int) :
    WorldProg Unit := do
  match ← searchVolume hosts volumeId with
  | none => throw (.conflict "Creation reservation disappeared before mutation")
  | some reserved =>
    if reserved.hostvol ≠ hostvol ∨ reserved.voltype ≠ pvtype ∨ reserved.size ≠ size ∨
        ¬(reserved.state = none ∨ reserved.state = some .creating) then
      throw (.conflict "Creation reservation changed before payload mutation")
    else pure ()

/-! ## Creation on the selected pool -/

/-- The environment of one call: the order of the shuffled pools, the fresh UUIDs and the quota credentials. -/
structure CreateEnv where
  shuffle : List HostVol → List HostVol
  intentUuid : String
  retryUuid : String
  sshQuota : Bool

/-- The creation of a native volume under its lifecycle lock. -/
def createNative (env : CreateEnv) (request : CreateRequest) (pvsize : Int) : PoolProg Path := do
  let path ←
    if request.pvtype = .subvol then createSubdirVolume request.name pvsize false true env.retryUuid
    else createBlockVolume request.pvtype request.name pvsize env.retryUuid
  updateFreeSizeStep request.name (-pvsize)
  pure path

/-- The creation of a volume on an external pool under its lifecycle lock. -/
def createExternal (env : CreateEnv) (request : CreateRequest) (pvsize : Int) : PoolProg Path := do
  let path ←
    if request.pvtype ≠ .subvol then createBlockVolume request.pvtype request.name pvsize env.retryUuid
    else do
      let path ← createSubdirVolume request.name pvsize env.sshQuota (!env.sshQuota) env.retryUuid
      if env.sshQuota then
        executeGlusterQuotaCommand path pvsize
        match ← readPool fun s => readVolumeCreationIntent s request.name .subvol path with
        | none => throw (.conflict "Creation reservation disappeared before metadata commit")
        | some intent => commitCreation request.name .subvol path pvsize intent env.retryUuid
      pure path
  updateFreeSizeStep request.name (-pvsize)
  pure path

/-- The lifecycle lock of a volume to create. -/
def volumeOperationLock {α : Type} (hostvol volumeId : String) (body : WorldProg α) : WorldProg α :=
  Prog.withLock (.pool hostvol (.volume volumeId)) Err.isOs body

/-- The status of a failed claim of a dedicated pool; other exceptions are raised. -/
def claimError : Err → Option Status
  | .capacityRange _ => some .outOfRange
  | .legacyUnclaimed _ => some .failedPrecondition
  | .claimed _ => some .alreadyExists
  | .retired _ => some .failedPrecondition
  | .singlePvNotEmpty _ => some .failedPrecondition
  | e => if e.isOs || e.isValue then some (storageError e) else none

/-- A claim whose exceptions become a status. -/
def claiming {α : Type} (p : WorldProg (Reply α)) : WorldProg (Reply α) :=
  tryCatch p fun e => match claimError e with
    | some code => pure (.status code)
    | none => throw e

/-- The claim of a whole external Gluster volume. -/
def claimExternalPool (request : CreateRequest) (pvsize : Int) (hostvoltype : Option String) (ext : HostVol) :
    WorldProg (Reply CreateResponse) :=
  claiming do
    let (_, capacity) ← mountSinglePvHostingVolume [ext] pvsize request.limitBytes
    let _ ← onPool ext.name (claimSinglePvVolume request.name capacity)
    pure (.ok
      { volumeId := request.name
        capacityBytes := capacity
        volumeContext :=
          { type := hostvoltype, hostvol := ext.name, pvtype := request.pvtype, gvolname := ext.gVolname,
            gserver := ext.gHost, options := some ext.gOptions, singlePvPerPool := request.singlePvPerPool,
            singlePvClaimVersion := some 1 } })

/-- A whole external Gluster volume as one PV; the controller keeps no mount of it. -/
def claimExternal (request : CreateRequest) (pvsize : Int) (hostvoltype : Option String) (ext : HostVol) :
    WorldProg (Reply CreateResponse) :=
  (claimExternalPool request pvsize hostvoltype ext).andThen fun reply => do
    Prog.read Err.isCommand fun _ => pure ()
    Prog.ofExcept reply

/-- The part of `CreateVolume` for `hostvoltype == 'External'`. -/
def createOnExternal (env : CreateEnv) (hosts candidates : List HostVol) (request : CreateRequest) (pvsize : Int)
    (pending : Option Volume) (hostvoltype : Option String) : WorldProg (Reply CreateResponse) := do
  let externalCandidates := match pending with
    | some volume => candidates.filter (·.name = volume.hostvol)
    | none => candidates
  match ← checkExternalVolume request externalCandidates with
  | none => pure (.status .invalidArgument)
  | some ext =>
    if pending.any (·.hostvol ≠ ext.name) then pure (.status .failedPrecondition)
    else if request.singlePvPerPool then claimExternal request pvsize hostvoltype ext
    else
      let free ←
        if pending.isSome then pure true
        else onPool ext.name (admitStep request.name request.pvtype pvsize env.intentUuid)
      if !free then pure (.status .resourceExhausted)
      else
        let path ← volumeOperationLock ext.name request.name do
          verifyCreationReservation hosts ext.name request.name request.pvtype pvsize
          onPool ext.name (createExternal env request pvsize)
        pure (.ok
          { volumeId := request.name
            capacityBytes := pvsize
            volumeContext :=
              { type := hostvoltype, hostvol := ext.name, pvtype := request.pvtype, path := some path,
                gvolname := ext.gVolname, gserver := ext.gHost, options := some ext.gOptions,
                singlePvPerPool := request.singlePvPerPool } })

/-- A whole dedicated pool as one PV. -/
def claimNative (request : CreateRequest) (pvsize : Int) (hostvoltype : Option String) (hostvol : String) :
    WorldProg (Reply CreateResponse) :=
  claiming do
    let _ ← onPool hostvol (claimSinglePvVolume request.name pvsize)
    pure (.ok
      { volumeId := request.name
        capacityBytes := pvsize
        volumeContext :=
          { type := hostvoltype, hostvol, pvtype := request.pvtype, singlePvPerPool := request.singlePvPerPool } })

/-- The end of `CreateVolume` on a native pool. -/
def createOnNative (env : CreateEnv) (hosts : List HostVol) (request : CreateRequest) (pvsize : Int)
    (hostvoltype : Option String) (hostvol : String) : WorldProg (Reply CreateResponse) :=
  if request.singlePvPerPool then claimNative request pvsize hostvoltype hostvol
  else do
    let path ← volumeOperationLock hostvol request.name do
      verifyCreationReservation hosts hostvol request.name request.pvtype pvsize
      onPool hostvol (createNative env request pvsize)
    pure (.ok
      { volumeId := request.name
        capacityBytes := pvsize
        volumeContext :=
          { type := hostvoltype, hostvol, pvtype := request.pvtype, path := some path,
            singlePvPerPool := request.singlePvPerPool } })

/-! ## The request -/

/-- The selection of a pool by a request that names no hosting-volume type: the pool and the volume size, or the
status that ends the request. -/
def selectGeneric (env : CreateEnv) (candidates : List HostVol) (request : CreateRequest) (pvsize : Int) :
    WorldProg (Reply (Option String × Int)) :=
  tryCatch (do
    if request.singlePvPerPool then
      let (hostvol, capacity) ← mountSinglePvHostingVolume (env.shuffle candidates) pvsize request.limitBytes
      pure (.ok (some hostvol, capacity))
    else
      let hostvol ← mountAndSelectHostingVolume pvsize request.name request.pvtype env.intentUuid
        (env.shuffle candidates) []
      pure (.ok (hostvol, pvsize))) fun
    | .capacityRange _ => pure (.status .outOfRange)
    | .legacyUnclaimed _ => pure (.status .failedPrecondition)
    | e => if isStorageError e then pure (.status (storageError e)) else throw e

/-- `CreateVolume` after the search, with the pending create it found. -/
def createSelected (env : CreateEnv) (hosts : List HostVol) (request : CreateRequest) (pvsize : Int)
    (pending : Option Volume) : WorldProg (Reply CreateResponse) := do
  let filtered := getPvHostingVolumes hosts request
  let candidates := if pending.isNone then newVolumeHostingCandidates filtered else filtered
  let hostvol := pending.map Volume.hostvol
  let hostvoltype := given (match pending with
    | some volume => some volume.host.type
    | none => request.get "hostvol_type")
  if pending.any fun volume => !candidates.any (·.name = volume.hostvol) then pure (.status .alreadyExists)
  else
    match hostvoltype with
    | some hostvoltype =>
      if hostvoltype = "External" then
        createOnExternal env hosts candidates request pvsize pending (some hostvoltype)
      else
        match hostvol with
        | some hostvol => createOnNative env hosts request pvsize (some hostvoltype) hostvol
        | none =>
          match ← mountAndSelectHostingVolume pvsize request.name request.pvtype env.intentUuid
              (env.shuffle candidates) [] with
          | none => pure (.status .resourceExhausted)
          | some hostvol => createOnNative env hosts request pvsize (some hostvoltype) hostvol
    | none =>
      match ← selectGeneric env candidates request pvsize with
      | .status code => pure (.status code)
      | .ok (none, _) => pure (.status .resourceExhausted)
      | .ok (some hostvol, pvsize) =>
        -- the type of the selected pool, from its record
        match hosts.find? (·.name = hostvol) with
        | none => throw .fileNotFound
        | some data =>
          if data.type = "External" then
            createOnExternal env hosts candidates request pvsize pending (some data.type)
          else createOnNative env hosts request pvsize (some data.type) hostvol

/-- `CreateVolume` on what its search found. -/
def createFound (env : CreateEnv) (hosts : List HostVol) (request : CreateRequest) (pvsize : Int) :
    Option Volume → WorldProg (Reply CreateResponse)
  | none => createSelected env hosts request pvsize none
  | some volume =>
    if volume.state = some .creating then
      if !existingVolumeIsCompatible volume request request.pvtype then pure (.status .alreadyExists)
      -- the intent selected the exact size
      else createSelected env hosts request volume.size (some volume)
    else if volume.state.isSome then pure (.status .failedPrecondition)
    else if volume.singlePvPerPool && volume.singlePvClaimState ≠ some .active then
      pure (.status .failedPrecondition)
    else if existingVolumeIsCompatible volume request request.pvtype then do
      if !volume.singlePvPerPool then
        onPool volume.hostvol do
          finishCommittedCreation volume
          reconcileCommittedCapacity volume.volname volume.size
      pure (.ok (existingVolumeResponse volume))
    else pure (.status .alreadyExists)

/-- `CreateVolume` without its decorators. -/
def createVolumeBody (env : CreateEnv) (hosts : List HostVol) (request : CreateRequest) :
    WorldProg (Reply CreateResponse) :=
  if !isValidCsiIdentifier request.name then pure (.status .invalidArgument)
  else if request.volumeCapabilities.isEmpty then pure (.status .invalidArgument)
  else
    match requestedCapacity request.capacityRange with
    | none => pure (.status .invalidArgument)
    | some pvsize =>
      if request.pvtype ≠ .subvol && !request.singleNodeWriter then pure (.status .invalidArgument)
      else if request.singlePvPerPool && request.pvtype ≠ .subvol then pure (.status .invalidArgument)
      else do
        let volume ← tryCatch (do pure (Except.ok (← searchVolume hosts request.name))) fun e =>
          if isStorageError e then pure (Except.error (storageError e)) else throw e
        match volume with
        | .error code => pure (.status code)
        | .ok volume => createFound env hosts request pvsize volume

/-- `serialized_volume_creation_identity` -/
def serializedVolumeCreationIdentity (request : CreateRequest) (method : WorldProg (Reply CreateResponse)) :
    WorldProg (Reply CreateResponse) :=
  if !isValidCsiIdentifier request.name || !request.validShape then method
  else abortOnConflict (Prog.withLock (.createIdentity request.name) Err.isOs method)

/-- `CreateVolume` -/
def createVolume (env : CreateEnv) (hosts : List HostVol) (request : CreateRequest) :
    WorldProg (Reply CreateResponse) :=
  translateStorageErrors
    (serializedVolumeCreationIdentity request
      (serializedExistingVolumeOperation hosts request.name request.validShape true
        (createVolumeBody env hosts request)))

/-! ## A sample deployment -/

/-- A native pool. -/
def samplePool : HostVol := { name := "pool", type := "Replica3" }

/-- A request for a subvolume of 1000 bytes on a native pool. -/
def sampleRequest : CreateRequest :=
  { name := "pvc-1", capacityRange := some ⟨1000, 0⟩, volumeCapabilities := [⟨false, false⟩],
    parameters := [("hostvol_type", "Replica3")] }

def sampleEnv : CreateEnv :=
  { shuffle := id, intentUuid := "00000000-0000-4000-8000-000000000001",
    retryUuid := "00000000-0000-4000-8000-000000000002", sshQuota := false }

/-- A hexadecimal draw of `uuid4`. -/
def sampleUuid : String := "00000000000040008000000000000003"

/-- Pools without any file. -/
def emptyWorld (capacity : Int) : World := fun _ => { capacity }

end Kadalu
