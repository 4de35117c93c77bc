import Kadalu.Volume.Create
import Kadalu.Volume.Delete

/-!
# RPC replies

What the controller answers: a response or a CSI status. Storage exceptions that an RPC translates become a status
(`translateStorageErrors`); every other exception leaves the RPC without an answer. An RPC on an existing volume finds the
volume, takes its lock, and finds it again before it runs (`serializedExistingVolumeOperation`).
-/

namespace Kadalu

open Durable

inductive Status where
  | aborted
  | alreadyExists
  | deadlineExceeded
  | failedPrecondition
  | internal
  | invalidArgument
  | notFound
  | outOfRange
  | resourceExhausted
  | unavailable
  deriving DecidableEq, Repr

/-- The answer of an RPC. -/
inductive Reply (α : Type) where
  | ok (response : α)
  | status (code : Status)
  deriving DecidableEq, Repr

/-- The status of `set_storage_error`; which `OSError`s are transient is not part of the model. -/
def storageError : Err → Status
  | .conflict _ | .lockTimeout => .aborted
  | .command ret => if ret = 124 then .deadlineExceeded else .unavailable
  | _ => .internal

/-- The exceptions that `translate_storage_errors` turns into a status. -/
def isStorageError (e : Err) : Bool := e.isCommand || e.isOs || e.isValue

/-- `translate_storage_errors` -/
def translateStorageErrors {α : Type} (method : WorldProg (Reply α)) : WorldProg (Reply α) :=
  tryCatch method fun e => if isStorageError e then pure (.status (storageError e)) else throw e

/-- The handler of a lock conflict around an RPC. -/
def abortOnConflict {α : Type} (method : WorldProg (Reply α)) : WorldProg (Reply α) :=
  tryCatch method fun
    | .conflict _ | .lockTimeout => pure (.status .aborted)
    | e => throw e

variable [VolnameHash]

/-- The body of `serialized_existing_volume_operation` under the lock of the volume. -/
def refoundVolumeOperation {α : Type} (hosts : List HostVol) (volume : Volume) (observed : Incarnation)
    (missingIsConflict : Bool) (method : WorldProg (Reply α)) : WorldProg (Reply α) := do
  match ← searchVolume hosts volume.volname with
  | none =>
    if missingIsConflict then throw (.conflict "Volume changed while waiting for its lifecycle lock") else method
  | some lockedVolume =>
    if lockedVolume.hostvol ≠ volume.hostvol then
      throw (.conflict "Volume hosting pool changed while waiting for its lifecycle lock")
    else
      let incarnation ← readIncarnation lockedVolume
      if incarnation ≠ observed then
        throw (.conflict "Volume was replaced while waiting for its lifecycle lock")
      else method

/-- `serialized_existing_volume_operation` -/
def serializedExistingVolumeOperation {α : Type} (hosts : List HostVol) (volumeId : String) (ready : Bool)
    (missingIsConflict : Bool) (method : WorldProg (Reply α)) : WorldProg (Reply α) :=
  if !isValidCsiIdentifier volumeId || !ready then method
  else do
    match ← searchVolume hosts volumeId with
    | none => method
    | some volume =>
      let observed ← readIncarnation volume
      let lock := if volume.singlePvPerPool then .singlePv else .volume volumeId
      abortOnConflict
        (Prog.withLock (.pool volume.hostvol lock) Err.isOs
          (refoundVolumeOperation hosts volume observed missingIsConflict method))

/-! ## Capacity -/

/-- `CapacityRange` -/
structure CapacityRange where
  requiredBytes : Int
  limitBytes : Int
  deriving DecidableEq, Repr

def DEFAULT_VOLUME_SIZE : Int := 1024 * 1024 * 1024

/-- `requested_capacity`; `none` is an invalid range. -/
def requestedCapacity : Option CapacityRange → Option Int
  | none => some DEFAULT_VOLUME_SIZE
  | some ⟨required, limit⟩ =>
    if required < 0 ∨ limit < 0 then none
    else if limit ≠ 0 ∧ limit < required then none
    else if required = 0 ∧ limit = 0 then none
    else some (if required ≠ 0 then required else limit)

/-- The range checks of `valid_expansion_request_shape` and `valid_creation_request_shape`. -/
def validRange (range : CapacityRange) : Bool :=
  0 ≤ range.requiredBytes && 0 ≤ range.limitBytes &&
    (range.limitBytes = 0 || range.requiredBytes ≤ range.limitBytes) &&
    (0 < range.requiredBytes || 0 < range.limitBytes)

/-! ## Quota -/

/-- `execute_gluster_quota_command`: an `ssh` command on the external cluster, which limits the volume to 95 % of its
size. -/
def executeGlusterQuotaCommand (p : Path) (size : Int) : PoolProg Unit :=
  Prog.step (fun s => match s.payloads.lookup p with
    | none => (.error (.command 1), s)
    | some payload =>
      (.ok (), { s with payloads := s.payloads.insert p { payload with glusterQuota := some (95 * size) } }))
    (fun _ => []) Err.isCommand

/-- `apply_subdir_quota`; `sshQuota` says whether the driver has credentials for external quotas. The answer is the
status of a failed command. -/
def applySubdirQuota (volume : Volume) (size : Int) (updateMetadata sshQuota : Bool) : PoolProg (Option Status) := do
  if volume.host.type ≠ "External" || !sshQuota then
    updateSubdirVolume volume.volname size updateMetadata
    pure none
  else
    let failed ← tryCatch (do executeGlusterQuotaCommand volume.volpath size; pure none) fun e =>
      if e.isCommand then pure (some (storageError e)) else throw e
    if failed.isSome then pure failed
    else
      if updateMetadata then updatePvMetadata volume.volpath size
      pure none

end Kadalu
