import Kadalu.Volume.Search

/-!
# Creating and expanding volumes

Every step of a create is authorized by its durable intent: the payload is made, its size is set, the metadata commits
the volume, and only then the intent goes. An interrupted create is resumed from its intent. An expansion likewise keeps
its intent until the new size is in the metadata.
-/

namespace Kadalu

open Durable

variable [VolnameHash]

/-! ## Metadata -/

/-- `save_pv_metadata`; `uuid` is drawn when the intent carries no incarnation. -/
def savePvMetadata (pvpath : Path) (pvsize : Int) (incarnation : Option String) (uuid : String) : PoolProg Unit := do
  let component := pvpath.basename
  let volumeId ←
    if startsWith VOLUME_COMPONENT_ENCODING_PREFIX component then do
      pure (some (← Prog.ofExcept (volumeNameFromComponent component)))
    else pure none
  writeMetadata pvpath
    { size := pvsize, pathPrefix := some pvpath.dirname, incarnation := some (incarnation.getD uuid), volumeId }

/-- `update_pv_metadata` -/
def updatePvMetadata (pvpath : Path) (expansionRequestedPvsize : Int) : PoolProg Unit := do
  let data ← readPool fun s => match s.metadata.lookup pvpath with
    | some data => pure data
    | none => throw .fileNotFound
  writeMetadata pvpath { data with size := expansionRequestedPvsize, pathPrefix := some pvpath.dirname }

/-- `_validate_block_metadata`, also for subvolumes. -/
def validateBlockMetadata (metadata : Metadata) (volpath : Path) (size : Int) : Except Err Unit :=
  if metadata.size ≠ size ∨ metadata.pathPrefix ≠ some volpath.dirname then
    throw (.value "Block volume metadata does not match the request")
  else pure ()

/-! ## Payloads -/

/-- `makedirs` of a subvolume -/
def makeSubdir (p : Path) : PoolProg Unit := update fun s =>
  if (s.payloads.lookup p).isSome then pure s else pure { s with payloads := s.payloads.insert p { isDir := true } }

/-- `_set_simple_quota`: the limit is set, then its effect is awaited. -/
def setSimpleQuota (p : Path) (size : Int) : PoolProg Unit := update fun s =>
  match s.payloads.lookup p with
  | none => throw .fileNotFound
  | some payload => pure { s with payloads := s.payloads.insert p { payload with quota := some size } }

/-- `os.open` with `O_CREAT` of a backing file -/
def openBacking (p : Path) : PoolProg Unit := update fun s =>
  match s.payloads.lookup p with
  | none => pure { s with payloads := s.payloads.insert p { isDir := false } }
  | some payload => if payload.isDir then throw .os else pure s

/-- `os.ftruncate` of a backing file -/
def truncateBacking (p : Path) (size : Int) : PoolProg Unit := update fun s =>
  match s.payloads.lookup p with
  | none => throw .fileNotFound
  | some payload => pure { s with payloads := s.payloads.insert p { payload with length := size } }

/-- `mkfs.xfs -f` -/
def makeFilesystem (p : Path) : PoolProg Unit :=
  Prog.step (fun s => match s.payloads.lookup p with
    | none => (.error (.command 1), s)
    | some payload => (.ok (), { s with payloads := s.payloads.insert p { payload with contents := ["xfs"] } }))
    (fun _ => []) fun e => e.isCommand || e.isOs

/-- A subvolume is a directory, a block volume a regular file. -/
def requireKind (t : PvType) (p : Path) (s : Pool) : Except Err Unit :=
  match s.payloads.lookup p with
  | none => throw .fileNotFound
  | some payload =>
    if t = .subvol ∧ !payload.isDir then throw (.value "Subvolume payload path is not a directory")
    else if t ≠ .subvol ∧ payload.isDir then throw (.value "Block volume backing path is not a regular file")
    else pure ()

/-! ## Create -/

/-- The end of a create: metadata commits the volume, then the intent goes. -/
def commitCreation (volname : String) (t : PvType) (volpath : Path) (size : Int) (intent : CreationIntent)
    (uuid : String) : PoolProg Unit := do
  savePvMetadata volpath size intent.incarnation uuid
  update fun s => finishVolumeCreation s volname t volpath intent

/-- Committed metadata found by a create: it must match, and a leftover intent goes. -/
def resumeCommitted (volname : String) (t : PvType) (volpath : Path) (size : Int) (metadata : Metadata)
    (intent : Option CreationIntent) : PoolProg Unit := do
  Prog.ofExcept (validateBlockMetadata metadata volpath size)
  readPool (requireKind t volpath)
  match intent with
  | none => pure ()
  | some intent =>
    if t = .subvol ∧ !creationIntentMatches intent volname t volpath size then
      throw (.value "Creation intent does not match committed metadata")
    else
      Prog.ofExcept (validateCommittedCreation metadata.size metadata.incarnation intent)
      update fun s => finishVolumeCreation s volname t volpath intent

/-- The intent that authorizes a create without committed metadata; `uuid` is the incarnation of a new one. -/
def authorizeCreation (volname : String) (t : PvType) (volpath : Path) (size : Int) (intent : Option CreationIntent)
    (uuid : String) : PoolProg CreationIntent := do
  let exists' ← readPool fun s => pure (s.payloads.lookup volpath).isSome
  match intent with
  | none =>
    if exists' then throw .fileExists
    else fileStep fun s => prepareVolumeCreation s volname t volpath size uuid
  | some intent =>
    if t = .subvol ∧ !creationIntentMatches intent volname t volpath size then
      throw (.value "Pending create does not match the requested identity, type, path, or size")
    else pure intent

/-- `create_block_volume`, the volume's path -/
def createBlockVolume (t : PvType) (volname : String) (size : Int) (uuid : String) : PoolProg Path := do
  if t = .subvol then throw (.value "Block volume type is not supported")
  if size ≤ 0 then throw (.value "Block volume size must be a positive integer")
  let volpath ← Prog.ofExcept (canonicalPath t volname)
  let metadata ← readPool fun s => pure (s.metadata.lookup volpath)
  let intent ← readPool fun s => readVolumeCreationIntent s volname t volpath
  match metadata with
  | some metadata => resumeCommitted volname t volpath size metadata intent
  | none =>
    let intent ← authorizeCreation volname t volpath size intent uuid
    openBacking volpath
    truncateBacking volpath size
    if t = .virtblock then makeFilesystem volpath
    commitCreation volname t volpath size intent uuid
  pure volpath

/-- `create_subdir_volume`, the volume's path; with a Gluster quota the caller commits the volume. -/
def createSubdirVolume (volname : String) (size : Int) (useGlusterQuota saveMetadata : Bool) (uuid : String) :
    PoolProg Path := do
  if size ≤ 0 then throw (.value "Subvolume size must be a positive integer")
  let volpath ← Prog.ofExcept (canonicalPath .subvol volname)
  let metadata ← readPool fun s => pure (s.metadata.lookup volpath)
  let intent ← readPool fun s => readVolumeCreationIntent s volname .subvol volpath
  match metadata with
  | some metadata => resumeCommitted volname .subvol volpath size metadata intent
  | none =>
    let intent ← authorizeCreation volname .subvol volpath size intent uuid
    makeSubdir volpath
    if !useGlusterQuota then
      setSimpleQuota volpath size
      if saveMetadata then commitCreation volname .subvol volpath size intent uuid
  pure volpath

/-- `finish_committed_creation` -/
def finishCommittedCreation (vol : Volume) : PoolProg Unit := do
  match ← readPool fun s => readVolumeCreationIntent s vol.volname vol.voltype vol.volpath with
  | none => pure ()
  | some intent =>
    Prog.ofExcept (validateCommittedCreation vol.size vol.incarnation intent)
    update fun s => finishVolumeCreation s vol.volname vol.voltype vol.volpath intent

/-! ## Expand -/

/-- `_existing_or_canonical_volume_path` -/
def existingOrCanonicalVolumePath (s : Pool) (t : PvType) (volname : String) : Except Err Path := do
  let canonical ← canonicalPath t volname
  let candidates ← canonicalVolumePaths volname t
  pure ((candidates.find? fun candidate => (s.metadata.lookup candidate).isSome).getD canonical)

/-- `update_subdir_volume` -/
def updateSubdirVolume (volname : String) (expansionRequestedPvsize : Int) (updateMetadata : Bool) : PoolProg Unit := do
  let volpath ← readPool fun s => existingOrCanonicalVolumePath s .subvol volname
  makeSubdir volpath
  setSimpleQuota volpath expansionRequestedPvsize
  if updateMetadata then updatePvMetadata volpath expansionRequestedPvsize

/-- `reconcile_committed_capacity` -/
def reconcileCommittedCapacity (pvname : String) (size : Int) : PoolProg Unit := do
  let accountedSize ← Prog.read dbErr fun s => getPvSize s pvname
  if accountedSize ≠ size then updateFreeSizeStep pvname (-size)

end Kadalu
