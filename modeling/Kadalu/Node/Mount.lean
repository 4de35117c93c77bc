import Kadalu.Node.State

/-!
# `mount_volume` and `unmount_volume`

The arguments of `mount_volume` are those that `NodePublishVolume` gives it: the logical path and the volume path are
always there, and the request names no mount identity exactly for a pool without one. Both functions work on one target,
under its lock. A target that is named with two leading slashes is the same one, but no entry of the mount table has that name.

Commands may fail, and so may every access to a file; a failed command or write may have had its effect. What `losetup` says
of a device that is detached is such a failure.
-/

namespace Kadalu.Node

open Durable

abbrev NodeProg := Prog Target Empty NodeErr

/-- The arguments of `mount_volume`. The source is held open: `file` is its node in the Gluster client of the request, and
`number` the loop device that the kernel picks for it. -/
structure MountRequest where
  volumeId : String
  pvtype : PvType
  volumePath : Path
  logicalSourcePath : String
  hostVolumeName : String
  hostMountIdentity : Option MountIdentity
  readonly : Bool := false
  mountFlags : List String := []
  allowLegacyHostMount : Bool := false
  generation : String
  file : FileNode
  number : Nat
  /-- the target is named with two leading slashes -/
  doubled : Bool := false
  deriving DecidableEq, Repr

/-! ## Flags -/

def driverControlled : List String :=
  ["bind", "move", "private", "rbind", "remount", "rprivate", "rshared", "rslave", "runbindable", "rw", "ro", "shared",
    "slave", "unbindable"]

/-- `[A-Za-z0-9][A-Za-z0-9._=:-]*` -/
def isMountFlag (flag : String) : Bool :=
  match flag.toList with
  | [] => false
  | c :: cs => (c.isAlphanum) && cs.all fun c => c.isAlphanum || c ∈ ['.', '_', '=', ':', '-']

/-- `_validated_mount_flags` -/
def validatedMountFlags : List String → Except NodeErr (List String)
  | [] => .ok []
  | flag :: flags =>
    if !isMountFlag flag then .error (.value "mount flags contain unsupported characters")
    else if (String.ofList ((flag.toList.takeWhile (· ≠ '=')).map Char.toLower)) ∈ driverControlled then
      .error (.value "mount flag is controlled by the CSI driver")
    else (validatedMountFlags flags).map (flag :: ·)

/-! ## The publish record -/

/-- `_publish_state` -/
def publishState (q : MountRequest) : Option PublishState :=
  q.hostMountIdentity.map fun identity => ⟨q.volumeId, q.pvtype, q.volumePath, q.hostVolumeName, identity⟩

/-- The comparison of `_publish_state_matches`. -/
def PublishState.authorizes (actual expected : PublishState) (allowMountConfigRevision : Bool) : Bool :=
  actual = expected ||
    (allowMountConfigRevision && sameMountIdentityGeneration actual.hostMountIdentity expected.hostMountIdentity &&
      { actual with hostMountIdentity := expected.hostMountIdentity } = expected)

/-- The sidecar of the target. -/
def readPublishState : NodeProg PublishState :=
  Prog.read NodeErr.isOs fun s => s.record.elim (.error .fileNotFound) .ok

/-- `_publish_state_matches` -/
def publishStateMatches (expected : Option PublishState) (allowMountConfigRevision : Bool) : NodeProg Bool :=
  match expected with
  | none => pure false
  | some expected =>
    tryCatch (do pure ((← readPublishState).authorizes expected allowMountConfigRevision)) fun _ => pure false

/-- `_record_publish_state` -/
def recordPublishState : Option PublishState → NodeProg Unit
  | none => pure ()
  | some state => Prog.step (fun s => (.ok (), { s with record := some state })) (fun _ => []) NodeErr.isOs

/-! ## What is mounted -/

/-- `_target_mount_entry` -/
def targetMountEntry (doubled : Bool) : NodeProg (Option MountEntry) :=
  Prog.read NodeErr.isOs fun s => .ok (if doubled then none else s.mount)

/-- A change of files that leaves the mount and the sidecar alone. -/
def touch : NodeProg Unit := Prog.read NodeErr.isOs fun _ => .ok ()

/-- `os.stat(pvpath)` -/
def statSource (q : MountRequest) : NodeProg FileNode := Prog.read NodeErr.isOs fun _ => .ok q.file

/-- `losetup` with the columns of a device -/
def losetupShow (number : Nat) : NodeProg (Option LoopDevice) := Prog.read NodeErr.isCommand fun s => .ok (s.backing number)

/-- `_loop_backing_identity` -/
def loopBackingIdentity (number : Nat) : NodeProg (Option FileNode) := do
  pure ((← losetupShow number).map (·.file))

/-- `_loop_backing_path` -/
def loopBackingPath (number : Nat) : NodeProg (Option String) := do
  pure ((← losetupShow number).map (·.backFile))

/-- `_mounted_volume_source_matches` -/
def mountedVolumeSourceMatches (q : MountRequest) : NodeProg Bool := do
  match ← targetMountEntry q.doubled with
  | none => pure false
  | some entry =>
    if q.pvtype = .subvol then do
      let source ← statSource q
      pure (entry.fs = .gluster source.device q.volumePath)
    else
      match entry.loopDevice with
      | none => pure false
      | some number =>
        tryCatch (do
            let backing ← loopBackingIdentity number
            pure (backing = some (← statSource q)))
          fun e => if e.isCommand || e = .fileNotFound then pure false else throw e

/-- `mounted_volume_matches` -/
def mountedVolumeMatches (q : MountRequest) : NodeProg Bool := do
  if !(← mountedVolumeSourceMatches q) then pure false
  else
    match ← targetMountEntry q.doubled with
    | none => pure false
    | some entry =>
      pure ((("ro" ∈ entry.options && "rw" ∉ entry.options) == q.readonly) &&
        q.mountFlags.all fun flag => flag ∈ entry.options)

/-- The identity check of `_same_logical_stale_source` for a bind of a Gluster client. -/
def sameHostMount (q : MountRequest) (source : HostSource) : NodeProg Bool :=
  match q.hostMountIdentity with
  | none => pure true
  | some hostMountIdentity =>
    match source.glusterMountIdentity with
    | none => pure (q.allowLegacyHostMount && source = .kadalu q.hostVolumeName none)
    | some identity =>
      if identity = hostMountIdentity then pure true
      else if sameMountIdentityGeneration identity hostMountIdentity then publishStateMatches (publishState q) true
      else pure false

/-- `_same_logical_stale_source` -/
def sameLogicalStaleSource (K : Kernel) (q : MountRequest) : NodeProg Bool := do
  match ← targetMountEntry q.doubled with
  | none => pure false
  | some entry =>
    if q.pvtype = .subvol then
      match entry.fs with
      | .gluster device root =>
        if root ≠ q.volumePath then pure false
        else if (K.client device).source.glusterVolumeName ≠ some q.hostVolumeName then pure false
        else sameHostMount q (K.client device).source
      | _ => pure false
    else
      match entry.loopDevice with
      | some number =>
        if (publishState q).isSome then publishStateMatches (publishState q) true
        else do
          -- without a record only the recorded name of the backing file is left
          let backFile ← loopBackingPath number
          pure (backFile.any fun backFile => q.logicalSourcePath.toList.isSuffixOf backFile.toList)
      | none => pure false

/-! ## Mounting and unmounting -/

/-- `umount -l`: the topmost mount goes. -/
def umount : NodeProg Unit :=
  Prog.step (fun s => (.ok (), { s with mounts := s.mounts.tail })) (fun _ => []) NodeErr.isCommand

/-- `losetup -f --show`, for which the kernel picks the number -/
def losetupAttach (loop : LoopDevice) : NodeProg Unit :=
  Prog.step (fun s => (.ok (), s.attach loop)) (fun _ => []) NodeErr.isCommand

/-- `mount`, also over what is mounted there; a file gets a loop device of its own. -/
def mount (entry : MountEntry) : NodeProg Unit :=
  Prog.step (fun s => (.ok (),
    { s with mounts := entry :: s.mounts, detached := s.detached.filter fun number => !entry.keepsBusy number }))
    (fun _ => []) NodeErr.isCommand

/-- `losetup -d`: a device whose file system is mounted stays attached until that is unmounted. -/
def losetupDetach (number : Nat) : NodeProg Unit :=
  Prog.step (fun s => (.ok (), { s with detached := number :: s.detached })) (fun _ => []) NodeErr.isCommand

/-- `_detach_loop_device`; after a failure the device may still be configured, and the failure is raised again, or not. -/
def detachLoopDevice (number : Nat) : NodeProg Unit :=
  tryCatch (losetupDetach number) fun e =>
    if e.isCommand then Prog.read NodeErr.isCommand fun _ => .ok () else throw e

/-- The first part of `unmount_volume`. -/
def unmountTarget (doubled : Bool) : NodeProg Unit := do
  match ← targetMountEntry doubled with
  | none => pure ()
  | some entry => do
    match entry.loopDevice with
    | some number => detachLoopDevice number
    | none => pure ()
    umount

/-- Remove the directory or file of the target, which is busy while something is mounted there. -/
def removeTarget : NodeProg Unit :=
  Prog.read NodeErr.isOs fun s => if s.mounts.isEmpty then .ok () else .error .os

/-- `_durable_unlink` of the sidecar -/
def removePublishState : NodeProg Unit :=
  Prog.step (fun s => (.ok (), { s with record := none })) (fun _ => []) NodeErr.isOs

/-- `unmount_volume` -/
def unmountVolume (doubled : Bool) : NodeProg Unit := do
  unmountTarget doubled
  removeTarget
  removePublishState

/-- The options of the second step of a bind mount, at the topmost mount. -/
def Target.remount (q : MountRequest) (s : Target) : Target :=
  match s.mounts with
  | [] => s
  | entry :: below =>
    { s with mounts := { entry with options := (if q.readonly then "ro" else "rw") :: q.mountFlags } :: below }

/-- `_remount_bind` -/
def remountBind (q : MountRequest) : NodeProg Unit :=
  if q.readonly || q.mountFlags ≠ [] then Prog.step (fun s => (.ok (), s.remount q)) (fun _ => []) NodeErr.isCommand
  else pure ()

/-- Take a bind mount back whose options cannot be set; a failure of that is only logged. -/
def rollBack : NodeProg Unit := tryCatch umount fun e => if e.isCommand then pure () else throw e

/-- The bind mount of `q`, with the flags of its second step; `cleanup` is the last part of the handler of its failures. -/
def mountBind (q : MountRequest) (fs : Fs) (cleanup : NodeProg Unit) : NodeProg Unit := do
  tryCatch (mount ⟨["rw"], fs⟩) fun e => do
    cleanup
    throw e
  tryCatch (remountBind q) fun e => do
    rollBack
    cleanup
    throw e

/-- The loop device of a request. -/
def MountRequest.loop (q : MountRequest) : LoopDevice := ⟨q.number, q.file, q.logicalSourcePath⟩

/-- `_mount_raw_block` -/
def mountRawBlock (q : MountRequest) : NodeProg Unit := do
  losetupAttach q.loop
  touch
  mountBind q (.loop q.loop false) (losetupDetach q.number)

/-- Mount the file system of the source at the target. -/
def mountFs (q : MountRequest) : NodeProg Unit :=
  if q.pvtype = .virtblock then
    mount ⟨(if q.readonly then "ro" else "rw") :: q.mountFlags, .loop q.loop true⟩
  else mountBind q (.gluster q.file.device q.volumePath) (pure ())

/-- `os.chmod`, for a writable target -/
def openTarget (q : MountRequest) : NodeProg Unit := if q.readonly then pure () else touch

/-- The part of `mount_volume` that establishes the target. -/
def establish (q : MountRequest) : NodeProg Bool :=
  if q.pvtype = .rawblock then do
    mountRawBlock q
    recordPublishState (publishState q)
    pure true
  else do
    touch
    mountFs q
    openTarget q
    recordPublishState (publishState q)
    pure true

/-- The check of `mount_volume` at an occupied target: a mount that fits is recorded, and an exception that says that the
hosting mount is stale is kept. -/
def recogniseMount (q : MountRequest) : NodeProg (Bool × Option NodeErr) :=
  tryCatch (do
      if ← mountedVolumeMatches q then do
        recordPublishState (publishState q)
        pure (true, none)
      else if ← mountedVolumeSourceMatches q then
        throw (.conflict "mount target options do not match this request")
      else pure (false, none))
    fun e => if e = .transient then pure (false, some e) else throw e

/-- The part of `mount_volume` for a target that is free by now; it must never invent a missing source. -/
def mountSource (q : MountRequest) : NodeProg Bool := do
  match ← (tryCatch (do pure (some (← statSource q))) fun e => if e = .fileNotFound then pure none else throw e) with
  | none => pure false
  | some _ => establish q

/-- `mount_volume` -/
def mountVolume (K : Kernel) (q : MountRequest) : NodeProg Bool := do
  let _ ← Prog.ofExcept (validatedMountFlags q.mountFlags)
  if (← targetMountEntry q.doubled).isSome then do
    let (recognised, sourceError) ← recogniseMount q
    if recognised then pure true
    else if !(← sameLogicalStaleSource K q) then
      match sourceError with
      | some e => throw e
      | none => throw (.conflict "mount target is occupied by an incompatible volume")
    else do
      unmountVolume q.doubled
      mountSource q
  else mountSource q

end Kadalu.Node
