import Kadalu.Volume.Search

/-!
# Deleting and archiving volumes

`deleteVolume` finds a volume, takes its lifecycle lock, finds it again and applies the reclaim policy of its pool. A
managed volume is deleted behind a `deleting` tombstone, or archived under a fresh name: the payload moves first, then
the accounting row, then the metadata.
-/

namespace Kadalu

open Durable

variable [VolnameHash]

/-! ## Archive -/

/-- The archive paths of `_archive_paths`, the same below the pool root and below `info`. -/
def archivePath (archivedName : String) : Path := ["archive", archivedName]

/-- The names that `_prepare_archive` tries; `uuids` are its draws of `uuid4().hex`. -/
def archiveCandidates (uuids : List String) : List String := (uuids.take 10).map (ARCHIVE_PREFIX ++ ·)

/-- The first candidate without a payload and without metadata. -/
def freshArchiveName (s : Pool) (uuids : List String) : Except Err String :=
  match (archiveCandidates uuids).find? fun candidate =>
      (s.payloads.lookup (archivePath candidate)).isNone && (s.metadata.lookup (archivePath candidate)).isNone with
  | some candidate => pure candidate
  | none => throw .fileExists

/-- `_prepare_archive` -/
def prepareArchive (vol : Volume) (infoFilePath : Path) (metadata : Metadata) (uuids : List String) :
    PoolProg (String × Metadata) :=
  match metadata.archiveName with
  | some archivedName =>
    if !isSafePathComponent archivedName || !startsWith ARCHIVE_PREFIX archivedName ||
        metadata.originalVolumeId ≠ some vol.volname || metadata.state ≠ some .archiving then
      throw (.value "Volume metadata contains an invalid archive identity")
    else pure (archivedName, metadata)
  | none => do
    let archivedName ← readPool (freshArchiveName · uuids)
    let prepared :=
      { metadata with archiveName := some archivedName, originalVolumeId := some vol.volname, state := some .archiving }
    writeMetadata infoFilePath prepared
    pure (archivedName, prepared)

/-- `_rename_for_archive` of the payload -/
def renamePayload (source destination : Path) : PoolProg Unit :=
  update fun s => do pure { s with payloads := ← renameForArchive s.payloads source destination }

/-- `_rename_for_archive` of the metadata -/
def renameMetadata (source destination : Path) : PoolProg Unit :=
  update fun s => do pure { s with metadata := ← renameForArchive s.metadata source destination }

/-- `_archive_volume` -/
def archiveVolume (vol : Volume) (infoFilePath : Path) (metadata : Metadata) (size : Int) (uuids : List String) :
    PoolProg Unit := do
  let (archivedName, metadata) ← prepareArchive vol infoFilePath metadata uuids
  renamePayload vol.volpath (archivePath archivedName)
  archivePvReservationStep vol.volname archivedName size
  -- a rename leaves exactly one record that authorizes the reservation
  renameMetadata infoFilePath (archivePath archivedName)
  writeMetadata (archivePath archivedName) { metadata with pathPrefix := some ["archive"], state := some .archived }
  pruneEmptyParents
  pruneEmptyParents

/-! ## Delete -/

/-- The part of `_delete_managed_volume` that makes a pending expansion the committed size. -/
def absorbExpansion (vol : Volume) (infoFilePath : Path) (metadata : Metadata) : PoolProg Metadata := do
  match ← readPool fun s => readVolumeExpansionIntent s vol.volname vol.voltype vol.volpath with
  | none => pure metadata
  | some intent =>
    if metadata.size ≠ intent.fromSize ∧ metadata.size ≠ intent.toSize then
      throw (.value "Expansion intent does not match volume metadata")
    else
      let metadata := { metadata with size := intent.toSize }
      writeMetadata infoFilePath metadata
      update fun s => finishVolumeExpansion s vol.volname vol.voltype vol.volpath intent
      pure metadata

/-- The part of `_delete_managed_volume` that drops a create intent which committed metadata makes redundant. -/
def absorbCreation (vol : Volume) (metadata : Metadata) : PoolProg Unit := do
  match ← readPool fun s => readVolumeCreationIntent s vol.volname vol.voltype vol.volpath with
  | none => pure ()
  | some intent =>
    Prog.ofExcept (validateCommittedCreation metadata.size metadata.incarnation intent)
    update fun s => finishVolumeCreation s vol.volname vol.voltype vol.volpath intent

/-- The `deleting` tombstone of a volume. -/
def markDeleting (vol : Volume) (infoFilePath : Path) (metadata : Metadata) : PoolProg Unit :=
  match metadata.state with
  | none => writeMetadata infoFilePath { metadata with state := some .deleting, volumeId := some vol.volname }
  | some state =>
    if state ≠ .deleting ∨ metadata.volumeId ≠ some vol.volname then
      throw (.value "Volume metadata is not a valid delete tombstone")
    else pure ()

/-- The delete policy of `_delete_managed_volume`. -/
def removeVolume (vol : Volume) (infoFilePath : Path) (metadata : Metadata) : PoolProg Unit := do
  let expectedVolpaths ← Prog.ofExcept (canonicalVolumePaths vol.volname vol.voltype)
  if vol.volpath ∉ expectedVolpaths ∨ infoFilePath ≠ vol.volpath then
    throw (.value "Volume delete paths are not canonical")
  else
    markDeleting vol infoFilePath metadata
    removePayloadOf vol.voltype vol.volpath
    pruneEmptyParents
    -- the tombstone stays visible until the row is gone, so a rebuild cannot bring the row back
    updateFreeSizeStep vol.volname metadata.size
    unlinkMetadata infoFilePath
    pruneEmptyParents

/-- The reclaim policies of `VALID_RECLAIM_POLICIES`. -/
inductive ReclaimPolicy where
  | archive
  | delete
  | retain
  deriving DecidableEq, Repr

/-- The reclaim policy of a pool record. -/
def reclaimPolicyOf : Option String → Except Err ReclaimPolicy
  | none | some "delete" => pure .delete
  | some "archive" => pure .archive
  | some "retain" => pure .retain
  | some _ => throw (.reclaimPolicy "Unsupported reclaim policy")

/-- `_delete_managed_volume` -/
def deleteManagedVolume (vol : Volume) (policy : ReclaimPolicy) (uuids : List String) : PoolProg Unit := do
  let infoFilePath := vol.metadataPath.getD vol.volpath
  let metadata ← readPool fun s => match s.metadata.lookup infoFilePath with
    | some metadata => pure metadata
    | none => throw .fileNotFound
  let metadata ← absorbExpansion vol infoFilePath metadata
  if metadata.size ≤ 0 then throw (.value "Volume metadata contains an invalid size")
  else
    absorbCreation vol metadata
    if policy = .archive then archiveVolume vol infoFilePath metadata metadata.size uuids
    else removeVolume vol infoFilePath metadata

/-- `_delete_pending_creation` -/
def deletePendingCreation (vol : Volume) : PoolProg Unit := do
  match ← readPool fun s => readVolumeCreationIntent s vol.volname vol.voltype vol.volpath with
  | none => throw (.value "Pending create changed before deletion")
  | some intent =>
    if some intent ≠ vol.creationIntent then throw (.value "Pending create changed before deletion")
    else
      let canonical ← Prog.ofExcept (canonicalPath vol.voltype vol.volname)
      if vol.volpath ≠ canonical then throw (.value "Pending create payload path is not canonical")
      else
        let committed ← readPool fun s => pure (s.metadata.lookup canonical).isSome
        if committed then throw (.value "Pending create has committed metadata")
        else
          removePayloadOf vol.voltype canonical
          transaction (fun s => do
            pure ((), ← cancelCreation s vol.volname vol.voltype vol.volpath intent)) dbErr

/-- `_delete_volume_locked` -/
def deleteVolumeLocked (vol : Volume) (uuids : List String) : PoolProg Unit := do
  let policy ← Prog.ofExcept (reclaimPolicyOf vol.host.pvReclaimPolicy)
  if policy = .retain then pure ()
  else if vol.state = some .creating then deletePendingCreation vol
  else if vol.singlePvPerPool then
    if policy = .archive then throw (.reclaimPolicy "archive is not supported for single-PV pools")
    else deleteSinglePvVolume vol.volname vol.host.legacySinglePvVolumeId
  else deleteManagedVolume vol policy uuids

/-! ## `delete_volume` -/

/-- The second look at a volume under its lock: it must be the generation that was seen before. -/
def deleteRefound (hosts : List HostVol) (initial : Volume) (uuids : List String)
    (initialIncarnation : Incarnation) : WorldProg Unit := do
  match ← searchVolume hosts initial.volname with
  | none => pure ()
  | some vol =>
    if vol.hostvol ≠ initial.hostvol then throw (.value "Volume hosting pool changed during deletion")
    else
      let incarnation ← readIncarnation vol
      if incarnation ≠ initialIncarnation then
        throw (.conflict "Volume was replaced while waiting for deletion")
      else onPool vol.hostvol (deleteVolumeLocked vol uuids)

/-- The second look at a single-PV volume under the lock of its pool. -/
def deleteRefoundSinglePv (hosts : List HostVol) (initial : Volume) (uuids : List String) : WorldProg Unit := do
  match ← searchVolume hosts initial.volname with
  | none => pure ()
  | some vol =>
    if vol.singlePvPerPool = false then throw (.conflict "Volume was replaced while waiting for deletion")
    else
      let incarnation ← readIncarnation vol
      let initialIncarnation ← readIncarnation initial
      if incarnation ≠ initialIncarnation then
        throw (.conflict "Volume was replaced while waiting for deletion")
      else onPool vol.hostvol (deleteVolumeLocked vol uuids)

/-- `delete_volume` -/
def deleteVolume (hosts : List HostVol) (volname : String) (uuids : List String) : WorldProg Unit := do
  match ← searchVolume hosts volname with
  | none => pure ()
  | some initial =>
    if initial.singlePvPerPool then
      Prog.withLock (.pool initial.hostvol .singlePv) Err.isOs (deleteRefoundSinglePv hosts initial uuids)
    else
      let initialIncarnation ← readIncarnation initial
      Prog.withLock (.pool initial.hostvol (.volume volname)) Err.isOs
        (deleteRefound hosts initial uuids initialIncarnation)

end Kadalu
