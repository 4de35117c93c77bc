import Kadalu.Pool.SinglePv

/-!
# Finding a volume

`searchVolume` looks for a volume by its ID on every hosting volume: active metadata first, then an archive that was
interrupted after its metadata moved, then a pending create. Two hits are an error.
-/

namespace Kadalu

open Durable

variable [VolnameHash]

/-! ## Hosting volumes -/

/-- The operator's record of one storage pool, as `get_pv_hosting_volumes` returns it. -/
structure HostVol where
  name : String
  type : String
  gVolname : Option String := none
  gHost : Option String := none
  gOptions : String := ""
  singlePvPerPool : Bool := false
  singlePvClaimVersion : Option Int := none
  legacySinglePvVolumeId : Option String := none
  nodeAffinity : Option String := none
  supportedPvtype : String := "all"
  provisioningDisabled : Bool := false
  pvReclaimPolicy : Option String := none
  deriving DecidableEq, Repr

/-- `extra["state"]` of a found volume; `none` is a committed volume. -/
inductive Lifecycle where
  | archiving
  | deleting
  | creating
  deriving DecidableEq, Repr

/-- `Volume` -/
structure Volume where
  volname : String
  voltype : PvType
  host : HostVol
  size : Int
  volpath : Path
  singlePvPerPool : Bool := false
  state : Option Lifecycle := none
  metadataPath : Option Path := none
  incarnation : Option String := none
  creationIntent : Option CreationIntent := none
  archiveName : Option String := none
  singlePvClaimState : Option ClaimState := none
  singlePvClaimVersion : Option Int := none
  deriving DecidableEq, Repr

def Volume.hostvol (vol : Volume) : String := vol.host.name

/-! ## One pool -/

/-- The paths that `search_volume` tries, with their types. -/
def searchPathsOf (volname : String) (t : PvType) : Except Err (List (PvType × Path)) := do
  pure ((← canonicalVolumePaths volname t).map (t, ·))

def searchPaths (volname : String) : Except Err (List (PvType × Path)) := do
  pure (← PvType.all.mapM (searchPathsOf volname)).flatten

/-- `_single_pv_volume` -/
def singlePvVolume (host : HostVol) (s : Pool) (volname : String) : Except Err (Option Volume) := do
  let found (volumeId : String) (size : Int) (state : ClaimState) : Option Volume :=
    if volumeId ≠ volname then none
    else some
      { volname, voltype := .subvol, host, size, volpath := [], singlePvPerPool := true,
        singlePvClaimState := some state, singlePvClaimVersion := host.singlePvClaimVersion }
  match ← readSinglePvClaim s with
  | some claim => pure (found claim.volumeId claim.size claim.state)
  | none =>
    if host.legacySinglePvVolumeId ≠ some volname then pure none
    else pure (found volname s.capacity .active)

/-- The state that active metadata may carry. -/
def activeState : Option VolState → Except Err (Option Lifecycle)
  | none => pure none
  | some .archiving => pure (some .archiving)
  | some .deleting => pure (some .deleting)
  | some .archived | some .reclaiming => throw (.value "Archive state found at an active metadata path")
  | some (.other _) => throw (.value "Volume metadata contains an invalid state")

/-- One metadata file of `_metadata_volume`. -/
def activeVolume (host : HostVol) (volname : String) (t : PvType) (p : Path) (data : Metadata) :
    Except Err Volume := do
  let state ← activeState data.state
  if data.volumeId.any (· ≠ volname) then throw (.value "Volume metadata identity does not match its path")
  else if !data.incarnation.all canonicalUuid then throw (.value "Volume metadata has an invalid incarnation")
  else pure { volname, voltype := t, host, size := data.size, volpath := p, state, metadataPath := some p,
              incarnation := data.incarnation }

/-- The type and the old path of an interrupted archive. -/
def transitionalPath (volname : String) (paths : List (PvType × Path)) (data : Metadata) :
    Except Err (PvType × Path) :=
  match data.pvtype.bind fun name => PvType.all.find? fun t => t.name = name with
  | some t => do pure (t, ← canonicalPath t volname)
  | none =>
    match paths.filter fun path => some path.2.dirname = data.pathPrefix with
    | [path] => pure path
    | _ => throw (.value "Interrupted archive metadata has no valid volume type")

/-- The loop of `_transitional_archive_volume` over the files of `info/archive`. -/
def transitionalArchives (host : HostVol) (volname : String) (paths : List (PvType × Path)) :
    List (Sigma fun _ : Path => Metadata) → Option Volume → Except Err (Option Volume)
  | [], found => pure found
  | ⟨p, data⟩ :: files, found =>
    if p.dirname ≠ ["archive"] ∨ data.state ≠ some .archiving ∨ data.originalVolumeId ≠ some volname then
      transitionalArchives host volname paths files found
    else do
      let _ ← archiveMetadataDetails p data
      let (t, volpath) ← transitionalPath volname paths data
      if found.isSome then throw (.value "Duplicate interrupted archives for volume ID")
      else
        transitionalArchives host volname paths files
          (some { volname, voltype := t, host, size := data.size, volpath, state := some .archiving,
                  metadataPath := some p, archiveName := data.archiveName })

/-- `_transitional_archive_volume` -/
def transitionalArchiveVolume (host : HostVol) (s : Pool) (volname : String) (paths : List (PvType × Path)) :
    Except Err (Option Volume) :=
  transitionalArchives host volname paths s.metadata.entries none

/-- `_metadata_volume` -/
def metadataVolume (host : HostVol) (s : Pool) (volname : String) (paths : List (PvType × Path)) :
    Except Err (Option Volume) :=
  match paths.find? fun path => (s.metadata.lookup path.2).isSome with
  | some (t, p) =>
    match s.metadata.lookup p with
    | some data => do pure (some (← activeVolume host volname t p data))
    | none => pure none
  | none => transitionalArchiveVolume host s volname paths

/-- `_pending_creation_volume` -/
def pendingCreationVolume (host : HostVol) (s : Pool) (volname : String) : Except Err (Option Volume) := do
  let intents ← creationIntentRecords s
  match intents.lookup volname with
  | none => pure none
  | some intent =>
    pure (some { volname, voltype := intent.pvtype, host, size := intent.size, volpath := intent.path,
                 state := some .creating, creationIntent := some intent })

/-- The search on one hosting volume. -/
def searchPool (host : HostVol) (s : Pool) (volname : String) (paths : List (PvType × Path)) :
    Except Err (Option Volume) :=
  if host.singlePvPerPool then singlePvVolume host s volname
  else do
    match ← metadataVolume host s volname paths with
    | some found => pure (some found)
    | none => pendingCreationVolume host s volname

/-! ## All pools -/

/-- The loop of `search_volume` over the hosting volumes; each is mounted before it is read. -/
def searchHosts (volname : String) (paths : List (PvType × Path)) : List HostVol → Option Volume →
    WorldProg (Option Volume)
  | [], foundVolume => pure foundVolume
  | host :: hosts, foundVolume => do
    let found ← Prog.read mountErr fun w => searchPool host (w host.name) volname paths
    if found.isSome && foundVolume.isSome then throw (.value "Duplicate volume identity across hosting volumes")
    else searchHosts volname paths hosts (found.or foundVolume)

/-- `search_volume` -/
def searchVolume (hosts : List HostVol) (volname : String) : WorldProg (Option Volume) := do
  let paths ← Prog.ofExcept (searchPaths volname)
  searchHosts volname paths hosts none

/-! ## Incarnations -/

/-- `volume_incarnation`: evidence for one observed volume generation. Metadata stands for its digest. -/
inductive Incarnation where
  | singlePv (hostvol volname : String) (claimVersion : Option Int) (claimState : Option ClaimState) (size : Int)
  | creating (hostvol : String) (voltype : PvType) (volpath : Path) (intent : Option CreationIntent)
  | metadata (hostvol : String) (voltype : PvType) (volpath : Path) (data : Metadata)
  | synthetic (hostvol : String) (voltype : PvType) (volpath : Path) (size : Int)
  deriving DecidableEq, Repr

def volumeIncarnation (s : Pool) (vol : Volume) : Incarnation :=
  if vol.singlePvPerPool then
    .singlePv vol.hostvol vol.volname vol.singlePvClaimVersion vol.singlePvClaimState vol.size
  else if vol.state = some .creating then .creating vol.hostvol vol.voltype vol.volpath vol.creationIntent
  else
    match s.metadata.lookup (vol.metadataPath.getD vol.volpath) with
    | some data => .metadata vol.hostvol vol.voltype vol.volpath data
    | none => .synthetic vol.hostvol vol.voltype vol.volpath vol.size

/-- Read the incarnation of a volume from its pool. -/
def readIncarnation (vol : Volume) : WorldProg Incarnation :=
  Prog.read Err.isOs fun w => pure (volumeIncarnation (w vol.hostvol) vol)

end Kadalu
