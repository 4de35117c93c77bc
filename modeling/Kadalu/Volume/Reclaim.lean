import Kadalu.Pool.Steps

/-!
# Reclaiming archived volumes

The administrator's tool lists the archives of a pool and deletes them one by one: a durable `reclaiming` tombstone, the
payload, the accounting row, and at last the tombstone itself. It works on the metadata that it read when it listed the
archives.
-/

namespace Kadalu

open Durable

variable [VolnameHash]

/-- An entry of `archived_pvs`: the archive's name, its metadata path and the metadata as it was listed. -/
structure ArchivedPv where
  name : String
  metadataPath : Path
  values : Metadata
  deriving DecidableEq, Repr

/-- The loop of `get_archived_pvs` over the metadata files. -/
def listArchivedPvs : List (Sigma fun _ : Path => Metadata) → List ArchivedPv → Except Err (List ArchivedPv)
  | [], found => pure found.reverse
  | ⟨p, data⟩ :: files, found => do
    match ← archiveMetadataDetails p data with
    | none => listArchivedPvs files found
    | some archive =>
      if data.state = some .archiving then listArchivedPvs files found
      else if archive.archiveName ∈ found.map ArchivedPv.name then
        throw (.value "Duplicate archive metadata for identity")
      else
        listArchivedPvs files
          (⟨archive.archiveName, archive.metadataPath,
            { data with originalVolumeId := some archive.originalVolumeId, legacyArchive := archive.legacy }⟩ :: found)

/-- `get_archived_pvs`: all archives, or the one that is asked for. -/
def getArchivedPvs (s : Pool) (pvcName : Option String) : Except Err (List ArchivedPv) := do
  let archivedPvs ← listArchivedPvs s.metadata.entries []
  pure (archivedPvs.filter fun pv => pvcName.all (· = pv.name))

/-- The `reclaiming` tombstone of an archive. -/
def reclaimingMetadata (pvname : String) (archive : ArchiveDetails) (values : Metadata) : Metadata :=
  { values with
    originalVolumeId := some archive.originalVolumeId
    pathPrefix := if archive.legacy then values.pathPrefix else some ["archive"]
    state := some .reclaiming
    legacyArchive := archive.legacy
    archiveName := if archive.legacy then none else some pvname }

/-- `release_archived_pv_reservation` -/
def releaseArchivedPvReservationStep (archivedName : String) : PoolProg Unit :=
  transaction (fun s => do pure ((), ← releaseArchivedPvReservation s archivedName)) dbErr

/-- One round of `delete_archived_pvs`. -/
def deleteArchivedPv (pv : ArchivedPv) : PoolProg Unit := do
  match ← Prog.ofExcept (archiveMetadataDetails pv.metadataPath pv.values) with
  | none => throw (.value "Refusing to delete metadata that is not an archive")
  | some archive =>
    if archive.archiveName ≠ pv.name then throw (.value "Refusing to delete metadata that is not an archive")
    else
      if pv.values.state ≠ some .reclaiming then
        writeMetadata archive.metadataPath (reclaimingMetadata pv.name archive pv.values)
      removePayload archive.payloadPath fun _ => false
      releaseArchivedPvReservationStep pv.name
      -- the tombstone goes only after its reservation
      unlinkMetadata archive.metadataPath

/-- `delete_archived_pvs` -/
def deleteArchivedPvs : List ArchivedPv → PoolProg Unit
  | [] => pure ()
  | pv :: pvs => do
    deleteArchivedPv pv
    deleteArchivedPvs pvs

/-- The tool: list, then delete. -/
def removeArchivedPv (pvcName : Option String) : PoolProg Unit := do
  let archivedPvs ← readPool (getArchivedPvs · pvcName)
  deleteArchivedPvs archivedPvs

end Kadalu
