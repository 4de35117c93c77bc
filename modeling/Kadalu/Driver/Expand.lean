import Kadalu.Driver.Rpc

/-!
# `ControllerExpandVolume`

An expansion reserves its absolute target, sets the quota, commits the size in the metadata and drops its intent. A
request below the committed size only repairs quota and accounting.
-/

namespace Kadalu

open Durable

variable [VolnameHash]

/-- The transaction of `reserve_volume_expansion` on the mounted pool, whose size is the capacity of its mount. -/
def reserveVolumeExpansionStep (volumeId : String) (pvtype : PvType) (volpath : Path) (fromSize toSize : Int) :
    PoolProg (Option ExpansionIntent) :=
  transaction (fun s => reserveVolumeExpansion s s.capacity volumeId pvtype volpath fromSize toSize) dbErr

/-- The part of `ControllerExpandVolume` that grows a volume. -/
def growVolume (volume : Volume) (fromSize targetSize : Int) (sshQuota : Bool) : PoolProg (Reply Int) := do
  match ← reserveVolumeExpansionStep volume.volname volume.voltype volume.volpath fromSize targetSize with
  | none => pure (.status .resourceExhausted)
  | some intent =>
    match ← applySubdirQuota volume targetSize true sshQuota with
    | some code => pure (.status code)
    | none =>
      update fun s => finishVolumeExpansion s volume.volname volume.voltype volume.volpath intent
      pure (.ok targetSize)

/-- The part of `ControllerExpandVolume` after its checks of the request. -/
def expandExisting (volume : Volume) (requested : Int) (sshQuota : Bool) : PoolProg (Reply Int) := do
  let pending ←
    if !volume.singlePvPerPool && volume.voltype = .subvol then
      readPool fun s => readVolumeExpansionIntent s volume.volname volume.voltype volume.volpath
    else pure none
  if pending.any fun intent => requested ≠ intent.toSize then pure (.status .failedPrecondition)
  else if pending.any fun intent => volume.size ≠ intent.fromSize ∧ volume.size ≠ intent.toSize then
    throw (.value "Pending expansion does not match committed metadata")
  else
    if !volume.singlePvPerPool then
      reconcileCommittedCapacity volume.volname ((pending.map ExpansionIntent.toSize).getD volume.size)
    match pending with
    | some intent => growVolume volume intent.fromSize intent.toSize sshQuota
    | none =>
      if requested ≤ volume.size then
        -- reapplying the absolute quota repairs an interrupted final step
        let failed ←
          if !volume.singlePvPerPool && volume.voltype = .subvol then applySubdirQuota volume volume.size false sshQuota
          else pure none
        match failed with
        | some code => pure (.status code)
        | none => pure (.ok volume.size)
      else growVolume volume volume.size requested sshQuota

/-- `ControllerExpandVolume` without its decorators. -/
def expandVolume (hosts : List HostVol) (volumeId : String) (range : Option CapacityRange) (sshQuota : Bool) :
    WorldProg (Reply Int) := do
  match range, requestedCapacity range with
  | none, _ => pure (.status .invalidArgument)
  | _, none => pure (.status .invalidArgument)
  | some range, some requested =>
    if !isValidCsiIdentifier volumeId then pure (.status .invalidArgument)
    else
      match ← searchVolume hosts volumeId with
      | none => pure (.status .notFound)
      | some volume =>
        if volume.state.isSome then pure (.status .failedPrecondition)
        else if volume.singlePvPerPool && volume.singlePvClaimState ≠ some .active then
          pure (.status .failedPrecondition)
        else if volume.size ≤ 0 then pure (.status .internal)
        else if range.limitBytes ≠ 0 ∧ range.limitBytes < volume.size then pure (.status .outOfRange)
        else if volume.size < requested ∧ volume.singlePvPerPool then pure (.status .failedPrecondition)
        else if volume.size < requested ∧ volume.voltype ≠ .subvol then pure (.status .failedPrecondition)
        else onPool volume.hostvol (expandExisting volume requested sshQuota)

/-- `ControllerExpandVolume` -/
def controllerExpandVolume (hosts : List HostVol) (volumeId : String) (range : Option CapacityRange)
    (sshQuota : Bool) : WorldProg (Reply Int) :=
  translateStorageErrors
    (serializedExistingVolumeOperation hosts volumeId (range.any validRange) false
      (expandVolume hosts volumeId range sshQuota))

end Kadalu
