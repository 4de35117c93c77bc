import Kadalu.Durable.RelyGuarantee
import Kadalu.Node.GlusterClient
import Kadalu.Operator.Fingerprint

/-!
# The mounts of the pools

A host runs Gluster clients, and its mount table has their mounts. A mount outlives its client, and is then stale. All mounting is
done under `mount_lock`, by `mount_glusterfs` and `handle_external_volume`; `unmount_glusterfs` does not take it.

A client mounts before the command that starts it has ended, or never. Whatever else its outcome is, it is one of `Launch`.
-/

namespace Kadalu.Node.Gluster

open Durable TargetLock Fingerprint

/-! ## Hosts -/

/-- A failed command: its exit status and its standard error. -/
structure CommandError where
  ret : Int
  err : List Char
  deriving DecidableEq, Repr

/-- The client complains about its options. -/
def CommandError.rejectsOptions (error : CommandError) : Bool :=
  "invalid option".toList <:+: error.err || "unrecognized option".toList <:+: error.err

/-- What a command that starts a client does. One that complains about its options has started nothing. -/
inductive Launch where
  | mounts
  | mountsWith (error : CommandError) (accepted : error.rejectsOptions = false)
  | exits
  | fails (error : CommandError)

/-- A mount of type `fuse.glusterfs` -/
structure GlusterEntry where
  source : List Char
  target : List Char
  deriving DecidableEq, Repr

/-- The file of a native pool: the hosts of its bricks, and its record. -/
structure PoolInfo where
  nodes : List (List Char)
  data : Dict

/-- A host: its processes, its mounts with the oldest first, and what its commands and its network will do. -/
structure Host where
  procs : List (List (List Char)) := []
  mounts : List GlusterEntry := []
  info : List Char → Option PoolInfo := fun _ => none
  launch : Launch := .mounts
  serverReachable : Bool := true
  reachableHost : Option (List Char) := none
  glusterQuota : Bool := false

inductive GlusterErr where
  | command (error : CommandError)
  /-- `MountTargetConflictError` -/
  | conflict (sources : List (List Char))
  /-- `ValueError` -/
  | value (error : MountError)
  | fileNotFound
  | os
  deriving DecidableEq

def GlusterErr.isOs : GlusterErr → Bool
  | .os => true
  | _ => false

/-- What a command may raise. -/
def GlusterErr.ofCommand : GlusterErr → Bool
  | .os | .command _ => true
  | _ => false

abbrev GlusterProg := Prog Host Unit GlusterErr

/-! ## What is there -/

/-- `is_gluster_mount_proc_running` -/
def isGlusterMountProcRunning (volname mountpoint : List Char) (mountIdentity : Option (List Char)) : GlusterProg Bool :=
  Prog.read GlusterErr.isOs fun s => .ok (s.procs.any (isGlusterProcess · volname mountpoint mountIdentity))

/-- `_read_gluster_mounts` -/
def readGlusterMounts : GlusterProg (List GlusterEntry) := Prog.read GlusterErr.isOs fun s => .ok s.mounts

/-- The entry is of this volume, at this target, and of this generation if one is asked for. -/
def GlusterEntry.matches (volname target : List Char) (mountIdentity : Option (List Char)) (entry : GlusterEntry) : Bool :=
  entry.target = target && glusterVolumeName entry.source = some volname &&
    (mountIdentity = none || glusterMountIdentity entry.source = mountIdentity)

/-- `_has_exact_gluster_mount` -/
def hasExactGlusterMount (volname mountpoint : List Char) (mountIdentity : Option (List Char)) : GlusterProg Bool := do
  let mounts ← readGlusterMounts
  pure (mounts.any (GlusterEntry.matches volname (normpath mountpoint) mountIdentity))

/-- `is_gluster_mount_established`, as `_gluster_mount_is_current` calls it -/
def glusterMountIsCurrent (volname mountpoint : List Char) (mountIdentity : Option (List Char)) : GlusterProg Bool := do
  let normalizedTarget := normpath mountpoint
  if ← isGlusterMountProcRunning volname normalizedTarget mountIdentity then
    hasExactGlusterMount volname normalizedTarget mountIdentity
  else pure false

/-- `_wait_for_gluster_mount` -/
def waitForGlusterMount (volname mountpoint : List Char) (mountIdentity : Option (List Char)) : Nat → GlusterProg Bool
  | 0 => pure false
  | attempts + 1 => do
    if ← glusterMountIsCurrent volname mountpoint mountIdentity then pure true
    else waitForGlusterMount volname mountpoint mountIdentity attempts

/-! ## Commands -/

/-- The mounts without the newest one at a target. -/
def detach (target : List Char) (mounts : List GlusterEntry) : List GlusterEntry :=
  (mounts.reverse.eraseP (·.target = target)).reverse

def notMounted : CommandError := ⟨32, "umount: not mounted".toList⟩

/-- `umount -l` -/
def umount (target : List Char) : GlusterProg Unit :=
  Prog.step (fun s => if s.mounts.any (·.target = target) then (.ok (), { s with mounts := detach target s.mounts })
    else (.error (.command notMounted), s)) (fun _ => []) GlusterErr.ofCommand

/-- A command that does nothing to the mounts. -/
def execute : GlusterProg Unit := Prog.read GlusterErr.ofCommand fun _ => .ok ()

/-- A client that is to be started, and the mount that it makes. -/
structure Client where
  args : List (List Char)
  entry : GlusterEntry

/-- The host with a client and its mount. -/
def Host.mounted (s : Host) (client : Client) : Host :=
  { s with procs := s.procs ++ [cmdline client.args], mounts := s.mounts ++ [client.entry] }

/-- The command that starts a client. -/
def launch (client : Client) : GlusterProg Unit :=
  Prog.step (fun s => match s.launch with
    | .mounts => (.ok (), s.mounted client)
    | .mountsWith error _ => (.error (.command error), s.mounted client)
    | .exits => (.ok (), s)
    | .fails error => (.error (.command error), s)) (fun _ => []) GlusterErr.isOs

/-- `_remove_stale_gluster_mount`; the generation that it is given only decides what it logs. -/
def removeStaleGlusterMount (volname mountpoint : List Char) : GlusterProg Unit := do
  let normalizedTarget := normpath mountpoint
  let sources := ((← readGlusterMounts).filter (·.target = normalizedTarget)).map (·.source)
  if sources = [] then pure ()
  else
    let conflictingSources := sources.filter (glusterVolumeName · ≠ some volname)
    if conflictingSources ≠ [] then throw (.conflict conflictingSources)
    else umount normalizedTarget

/-- `unmount_glusterfs` -/
def unmountGlusterfs (mountpoint volname : List Char) : GlusterProg Unit := do
  if ← hasExactGlusterMount volname mountpoint none then umount (normpath mountpoint)

/-! ## Mounting -/

/-- `_mount_succeeded_after_command_error` -/
def mountSucceededAfterCommandError (error : CommandError) (volname mountpoint : List Char)
    (mountIdentity : Option (List Char)) : GlusterProg Bool :=
  if error.ret ≠ 32 then pure false else glusterMountIsCurrent volname mountpoint mountIdentity

def notEstablished : CommandError := ⟨-1, "Gluster client exited successfully without establishing its mount".toList⟩

/-- The command of `_execute_glusterfs_mount`, and whether it has failed with the mount there all the same. -/
def executeMountCommand (client : Client) (volname mountpoint : List Char) (mountIdentity : Option (List Char)) :
    GlusterProg Bool :=
  tryCatch (do launch client; pure false) fun
    | .command error => do
      if ← mountSucceededAfterCommandError error volname mountpoint mountIdentity then pure true else throw (.command error)
    | e => throw e

/-- `_execute_glusterfs_mount` -/
def executeGlusterfsMount (client : Client) (volname mountpoint : List Char) (mountIdentity : Option (List Char)) :
    GlusterProg Unit := do
  if ← executeMountCommand client volname mountpoint mountIdentity then pure ()
  else if !(← waitForGlusterMount volname mountpoint mountIdentity 20) then throw (.command notEstablished)

/-- The client of a command line. -/
def clientOf (args : List (List Char)) (volname mountpoint : List Char) (mountIdentity : Option (List Char)) : Client :=
  ⟨args, ⟨displayName volname mountIdentity, normpath mountpoint⟩⟩

/-- `mount_glusterfs_with_host` -/
def mountGlusterfsWithHost (volname mountpoint hosts options : List Char) (mountIdentity : Option (List Char)) :
    GlusterProg Unit := do
  Prog.read GlusterErr.isOs fun _ => .ok ()
  let mount := fun gOps => executeGlusterfsMount
    (clientOf (externalCommand volname mountpoint hosts mountIdentity gOps) volname mountpoint mountIdentity)
    volname mountpoint mountIdentity
  tryCatch (mount (optionArgs options)) fun
    | .command error => if error.rejectsOptions then mount [] else throw (.command error)
    | e => throw e

variable [JsonText]

/-- `_mount_identity` -/
def mountToken (data : Dict) : GlusterProg (Option (List Char)) :=
  match mountIdentity data with
  | .ok token => pure (token.map String.toList)
  | .error e => throw (.value e)

/-- What a mount needs of a hosting volume; `type` is its type, and `data` what its mount identity is computed from. -/
structure HostVolume where
  name : List Char
  external : Bool
  gVolname : List Char := []
  gHost : List Char := []
  gOptions : List Char := []
  data : Dict := []

omit [JsonText] in
/-- The last part of `handle_external_volume`, which sets the quota option. -/
def setQuotaOption (mountpoint : List Char) : GlusterProg (Option (List Char)) := do
  if !(← Prog.read (fun _ => false) fun s => .ok s.glusterQuota) then pure (some mountpoint)
  else
    match ← Prog.read (fun _ => false) fun s => .ok s.reachableHost with
    | none => pure none
    | some _ => do
      execute
      pure (some mountpoint)

/-- `handle_external_volume` -/
def handleExternalVolume (volume : HostVolume) (mountpoint : List Char) : GlusterProg (Option (List Char)) := do
  let volname := volume.gVolname
  let mountIdentity ← mountToken volume.data
  if ← glusterMountIsCurrent volname mountpoint mountIdentity then pure (some mountpoint)
  else
    let already ← Prog.withLock () (fun _ => false) do
      if ← glusterMountIsCurrent volname mountpoint mountIdentity then pure true
      else do
        removeStaleGlusterMount volname mountpoint
        mountGlusterfsWithHost volname mountpoint volume.gHost volume.gOptions mountIdentity
        pure false
    if already then pure (some mountpoint) else setQuotaOption mountpoint

def noServerReachable : CommandError := ⟨-1, "Cannot establish a socket connection with any server pod".toList⟩

/-- `mount_glusterfs`; the result is the mount point, or nothing. -/
def mountGlusterfs (volume : HostVolume) (mountpoint : List Char) (isClient : Bool) : GlusterProg (Option (List Char)) := do
  if volume.external then handleExternalVolume volume mountpoint
  else do
    let volname := volume.name
    let info ← Prog.read GlusterErr.isOs fun s => ((s.info volname).elim (.error .fileNotFound) .ok)
    let mountIdentity ← mountToken info.data
    if ← glusterMountIsCurrent volname mountpoint mountIdentity then pure (some mountpoint)
    else do
      if !(← Prog.read GlusterErr.isOs fun s => .ok s.serverReachable) then throw (.command noServerReachable)
      Prog.withLock () (fun _ => false) do
        if ← glusterMountIsCurrent volname mountpoint mountIdentity then pure ()
        else do
          removeStaleGlusterMount volname mountpoint
          Prog.read GlusterErr.isOs fun _ => .ok ()
          let command := nativeCommand volname mountpoint mountIdentity isClient info.nodes
          executeGlusterfsMount (clientOf command volname mountpoint mountIdentity) volname mountpoint mountIdentity
      pure (some mountpoint)

end Kadalu.Node.Gluster
