import Kadalu.Pool.State

/-!
# What a metadata file stands for

`archiveMetadataDetails` recognises archives, `capacityRecordIdentity` gives the ID under which a record reserves capacity
(with the original ID of an archive as its alias), `deleteTombstonePayloadPath` the payload that a delete tombstone
guards. `p` is the path of the metadata file below `info`, without `.json`.
-/

namespace Kadalu

variable [VolnameHash]

/-- Canonical archive paths and identity. -/
structure ArchiveDetails where
  archiveName : String
  metadataPath : Path
  originalVolumeId : String
  payloadPath : Path
  legacy : Bool
  deriving DecidableEq, Repr

/-- The candidate of one PV type in `_legacy_archive_details`. -/
def legacyCandidate (p : Path) (m : Metadata) (archivedName originalVolumeId : String) (t : PvType) :
    Except Err (Option ArchiveDetails) := do
  let originalPath ← canonicalPath t originalVolumeId
  let legacyPrefix := originalPath.dirname
  let activePath ← canonicalPath t archivedName
  -- a collision of the short directory hash cannot be told from an active `archived-*` volume
  if legacyPrefix = activePath.dirname then pure none
  else if m.pathPrefix ≠ some legacyPrefix then pure none
  else if p ≠ legacyPrefix ++ [archivedName] then pure none
  else pure (some ⟨archivedName, legacyPrefix ++ [archivedName], originalVolumeId, legacyPrefix ++ [archivedName], true⟩)

/-- The first hit of a loop that may raise. -/
def firstHit {α β : Type} (f : α → Except Err (Option β)) : List α → Except Err (Option β)
  | [] => pure none
  | x :: xs => do
    match ← f x with
    | some b => pure (some b)
    | none => firstHit f xs

/-- `_legacy_archive_details` -/
def legacyArchiveDetails (p : Path) (m : Metadata) : Except Err (Option ArchiveDetails) :=
  let legacyReclaim := m.state = some .reclaiming ∧ m.legacyArchive = true
  if (m.state ≠ none ∧ ¬legacyReclaim) ∨ m.archiveName ≠ none then pure none
  else
    let archivedName := p.basename
    if !startsWith ARCHIVE_PREFIX archivedName then pure none
    else
      let originalVolumeId := dropStart ARCHIVE_PREFIX archivedName
      if !isSafePathComponent originalVolumeId then pure none
      else if legacyReclaim ∧ m.originalVolumeId ≠ some originalVolumeId then
        throw (.value "Legacy archive tombstone has an invalid identity")
      else firstHit (legacyCandidate p m archivedName originalVolumeId) PvType.all

/-- A safe archive name and a valid original ID, if the metadata carries both. -/
def archiveIdentity (m : Metadata) : Option (String × String) :=
  match m.archiveName, m.originalVolumeId with
  | some archivedName, some originalVolumeId =>
    if isSafePathComponent archivedName && startsWith ARCHIVE_PREFIX archivedName &&
        isValidCsiIdentifier originalVolumeId then
      some (archivedName, originalVolumeId)
    else none
  | _, _ => none

/-- `archive_metadata_details` -/
def archiveMetadataDetails (p : Path) (m : Metadata) : Except Err (Option ArchiveDetails) :=
  if m.legacyArchive then legacyArchiveDetails p m
  else if m.state ≠ some .archived ∧ m.state ≠ some .archiving ∧ m.state ≠ some .reclaiming then
    legacyArchiveDetails p m
  else
    match archiveIdentity m with
    | none => throw (.value "Archive metadata contains an invalid identity")
    | some (archivedName, originalVolumeId) =>
      if p ≠ ["archive", archivedName] then
        -- prepared metadata stays at the active path until payload and accounting have moved
        if m.state = some .archiving then pure none
        else throw (.value "Conflicting archive metadata is outside its canonical path")
      else do
        let originalPaths ← PvType.all.mapM (canonicalPath · originalVolumeId)
        let validPrefixes := ["archive"] :: if m.state = some .archiving then originalPaths.map Path.dirname else []
        if m.pathPrefix ∉ validPrefixes.map some then
          throw (.value "Archive metadata contains an invalid path prefix")
        else
          pure (some ⟨archivedName, ["archive", archivedName], originalVolumeId, ["archive", archivedName], false⟩)

/-- The PV types that a prepared archive may have. -/
def declaredTypes (m : Metadata) : Except Err (List PvType) :=
  match m.pvtype with
  | none => pure PvType.all
  | some name =>
    match PvType.all.find? fun t => t.name = name with
    | some t => pure [t]
    | none => throw (.value "Prepared archive has an invalid PV type")

/-- Prepared metadata at the canonical active path of one of the types. -/
def canonicalActive (p : Path) (m : Metadata) (originalVolumeId : String) : List PvType → Except Err Bool
  | [] => pure false
  | t :: ts => do
    let originalPath ← canonicalPath t originalVolumeId
    if p = originalPath ∧ m.pathPrefix = some originalPath.dirname then pure true
    else canonicalActive p m originalVolumeId ts

/-- `_capacity_record_identity` -/
def capacityRecordIdentity (p : Path) (m : Metadata) : Except Err (String × Option String) :=
  match m.archiveName with
  | some _ =>
    match archiveIdentity m with
    | none => throw (.value "PV metadata contains an invalid archive identity")
    | some (archivedName, originalVolumeId) =>
      if m.state ≠ some .archiving ∧ m.state ≠ some .archived ∧ m.state ≠ some .reclaiming then
        throw (.value "PV metadata contains an invalid archive state")
      else do
        match ← archiveMetadataDetails p m with
        | some _ => pure (archivedName, some originalVolumeId)
        | none =>
          if m.state ≠ some .archiving then throw (.value "PV archive metadata is not canonical")
          else
            let pvtypes ← declaredTypes m
            if ← canonicalActive p m originalVolumeId pvtypes then pure (archivedName, some originalVolumeId)
            else throw (.value "Prepared archive metadata is not canonical")
  | none => do
    let (volumeId, legacyAlias) := match ← legacyArchiveDetails p m with
      -- old releases left the accounting of `archived-<original ID>` under the original ID
      | some legacyArchive => (legacyArchive.archiveName, some legacyArchive.originalVolumeId)
      | none => (m.volumeId.getD p.basename, none)
    if !isValidCsiIdentifier volumeId then throw (.value "PV metadata contains an invalid volume ID")
    else pure (volumeId, legacyAlias)

/-- The payload paths of one volume whose metadata would be this file. -/
def tombstoneCandidates (p : Path) (m : Metadata) (volumeId : String) : Except Err (List Path) := do
  let paths ← PvType.all.mapM (canonicalVolumePaths volumeId)
  pure (paths.flatten.filter fun volumePath => p = volumePath ∧ m.pathPrefix = some volumePath.dirname)

/-- `_delete_tombstone_payload_path` -/
def deleteTombstonePayloadPath (p : Path) (m : Metadata) (volumeId : String) : Except Err Path :=
  if m.state = some .reclaiming then do
    match ← archiveMetadataDetails p m with
    | none => throw (.value "Archive reclaim tombstone is not canonical")
    | some archive => pure archive.payloadPath
  else if m.state ≠ some .deleting then throw (.value "PV metadata is not a delete tombstone")
  else do
    match (← tombstoneCandidates p m volumeId).dedup with
    | [payloadPath] => pure payloadPath
    | _ => throw (.value "Delete tombstone is outside its canonical path")

end Kadalu
