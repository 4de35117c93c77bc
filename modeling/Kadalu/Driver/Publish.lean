import Kadalu.Driver.Rpc

/-!
# `NodePublishVolume`

A node mounts the source of a volume: its payload on a shared pool, the root of a dedicated one. A dedicated pool is
mounted for its owner only: the claim is adopted or checked first, and checked again under the lock of the mount root,
before and after the source is held open.
-/

namespace Kadalu

open Durable

variable [VolnameHash]

/-- The parts of `NodePublishVolumeRequest` that say what is mounted; `path` is empty for a whole pool. -/
structure PublishRequest where
  volumeId : String
  path : Path := []
  pvtype : PvType := .subvol
  type : Option String
  deriving DecidableEq, Repr

/-- `_validate_volume_paths` -/
def validateVolumePaths (host : HostVol) (request : PublishRequest) : Except Err Unit :=
  if !isValidCsiIdentifier request.volumeId then
    throw (.value "volume ID does not satisfy the CSI identifier contract")
  else if request.path ≠ [] ∧ host.singlePvPerPool then
    throw (.value "single-PV pools require an empty volume path")
  else if request.path ≠ [] then do
    if request.path ∉ (← canonicalVolumePaths request.volumeId request.pvtype) then
      throw (.value "path does not match the controller-generated path")
    else pure ()
  else if !host.singlePvPerPool then throw (.value "empty path requires an authoritative single-PV pool")
  else pure ()

/-- The check of the claim before a whole pool is mounted. -/
def ownsSource (request : PublishRequest) : PoolProg Bool :=
  if request.path = [] then singlePvClaimMatches request.volumeId else pure true

/-- `_expected_source_type`; the root of a pool is a directory. -/
def expectedSource (request : PublishRequest) (s : Pool) : Except Err Bool :=
  if request.path = [] then
    if request.pvtype = .subvol then pure true else throw (.value "path has the wrong source type for pvtype")
  else
    match s.payloads.lookup request.path with
    | none => pure false
    | some payload =>
      if payload.isDir ≠ (request.pvtype = .subvol) then throw (.value "path has the wrong source type for pvtype")
      else pure true

/-- `mount_volume` -/
def mountVolume (volumeId : String) (path : Path) : PoolProg Unit :=
  Prog.step (fun s => (.ok (), { s with published := (volumeId, path) :: s.published })) (fun _ => []) mountErr

/-- The part of `NodePublishVolume` under its claim guard. -/
def publishSource (request : PublishRequest) : PoolProg (Reply Unit) := do
  if !(← ownsSource request) then pure (.status .notFound)
  else
    let found ← readPool (expectedSource request)
    if !found then pure (.status .notFound)
    -- the source inode is held open from here on
    else if !(← ownsSource request) then pure (.status .notFound)
    else
      mountVolume request.volumeId request.path
      pure (.ok ())

/-- The claim guard: the lock of the mount root for a whole pool, nothing else. -/
def claimGuard {α : Type} (request : PublishRequest) (body : PoolProg α) : PoolProg α :=
  if request.path = [] then singlePvOperationLock body else body

/-- A part of `NodePublishVolume` whose exceptions become a status; which `OSError`s are transient is not part of the
model. -/
def publishing {α : Type} (command os value : Status) (p : PoolProg α) : PoolProg (Except Status α) :=
  tryCatch (do pure (.ok (← p))) fun e =>
    if e.isCommand then pure (.error command)
    else if e.isOs then pure (.error os)
    else if e.isValue then pure (.error value)
    else throw e

/-- The ownership that a publish needs before it looks at the source. -/
def ownershipEnsured (host : HostVol) (request : PublishRequest) : PoolProg Bool :=
  if request.path = [] then ensureSinglePvClaim request.volumeId host.legacySinglePvVolumeId else pure true

/-- `NodePublishVolume` on the pool that its request names. -/
def nodePublishVolume (host : HostVol) (request : PublishRequest) : PoolProg (Reply Unit) :=
  match validateVolumePaths host request with
  | .error _ => pure (.status .invalidArgument)
  | .ok () =>
    if request.type ≠ some host.type then pure (.status .failedPrecondition)
    else do
      match ← publishing .unavailable .internal .internal (Prog.read mountErr fun _ => pure ()) with
      | .error code => pure (.status code)
      | .ok () =>
        match ← publishing .internal .unavailable .internal (ownershipEnsured host request) with
        | .error code => pure (.status code)
        | .ok false => pure (.status .notFound)
        | .ok true =>
          match ← publishing .internal .internal .invalidArgument (claimGuard request (publishSource request)) with
          | .error code => pure (.status code)
          | .ok reply => pure reply

end Kadalu
