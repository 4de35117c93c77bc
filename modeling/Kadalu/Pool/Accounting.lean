import Kadalu.Data.Total
import Kadalu.Pool.Scan

/-!
# Capacity accounting

`stat.db` is a rebuildable index of the durable reservations: one row per ID in `pv_stats`, and the size of the pool in
`summary`. Every decision about capacity first rebuilds the rows from a scan, inside the transaction that decides.
-/

namespace Kadalu

variable [VolnameHash]

def RESERVED_SIZE_PERCENTAGE : Int := 10

/-! ## `SizeAccounting` -/

/-- `_valid_size` -/
def validSize (size : Int) : Except Err Int :=
  if size ≤ 0 then throw (.value "capacity accounting contains an invalid size") else pure size

/-- `update_summary` -/
def updateSummary (s : Pool) (size : Int) : Except Err Pool := do
  let size ← validSize size
  pure { s with summary := some size }

/-- `update_pv_record` -/
def updatePvRecord (s : Pool) (pvname : String) (size : Int) : Except Err Pool := do
  let size ← validSize size
  pure { s with rows := s.rows.insert pvname size }

/-- `remove_pv_record` -/
def removePvRecord (s : Pool) (pvname : String) : Pool := { s with rows := s.rows.erase pvname }

/-- `rename_pv_record` -/
def renamePvRecord (s : Pool) (oldName newName : String) (size : Int) : Except Err Pool := do
  let size ← validSize size
  pure { s with rows := ((s.rows.erase oldName).erase newName).insert newName size }

/-- `get_pv_size`: zero if the record is absent. -/
def getPvSize (s : Pool) (pvname : String) : Except Err Int :=
  match s.rows.lookup pvname with
  | some size => validSize size
  | none => pure 0

/-- `free_size_bytes` of `get_stats`, which first validates every size it reads. -/
def freeSizeBytes (s : Pool) : Except Err Int :=
  if s.rows.entries.any (·.2 ≤ 0) then throw (.value "capacity accounting contains an invalid size")
  else
    match s.summary with
    | some size => do
      let totalSizeBytes ← validSize size
      pure (totalSizeBytes - s.rows.total)
    | none => pure (0 - s.rows.total)

/-- Whether a size does not fit the free space less its reserve, which is exact here. -/
def exceedsFree (size free : Int) : Prop := 100 * free - free * RESERVED_SIZE_PERCENTAGE ≤ 100 * size

instance (size free : Int) : Decidable (exceedsFree size free) := inferInstanceAs (Decidable (_ ≤ _))

/-! ## Rebuilding the rows -/

/-- The alias of a reservation that no other reservation owns gives its row up. -/
def renameObsoleteAlias (records : CapacityRecords) (s : Pool) (volumeId : String) (size : Int) : Except Err Pool :=
  match (records.aliases.lookup volumeId).filter (· ∉ records.reservations) with
  | some obsolete => renamePvRecord s obsolete volumeId size
  | none => pure s

/-- `Repairing PV capacity accounting`: the row of one ID takes the given size. -/
def repairPvRecord (s : Pool) (volumeId : String) (size : Int) : Except Err Pool := do
  let accounted ← getPvSize s volumeId
  if accounted ≠ size then updatePvRecord s volumeId size else pure s

/-- The loop of `_rebuild_committed_capacity` over the reservations. -/
def rebuildRecords (records : CapacityRecords) : List (Sigma fun _ : String => Int) → Pool → Except Err Pool
  | [], s => pure s
  | ⟨volumeId, size⟩ :: rest, s => do
    let s ← renameObsoleteAlias records s volumeId size
    let s ← repairPvRecord s volumeId size
    rebuildRecords records rest s

/-- The rows of released IDs go first; their order does not matter. -/
def removeTombstones (records : CapacityRecords) (s : Pool) : Pool :=
  (records.tombstones.filter (· ∉ records.reservations)).foldl removePvRecord s

/-- `_rebuild_committed_capacity` -/
def rebuildCommittedCapacity (s : Pool) : Except Err Pool := do
  let records ← capacityMetadataRecords s
  rebuildRecords records records.reservations.entries (removeTombstones records s)

/-- The exceptions that make a pool unavailable for selection. -/
def asReconciliation (e : Err) : Err := if e.isOs || e = .sqlite || e.isValue then .reconciliation else e

/-- `_reconcile_hosting_volume_capacity` -/
def reconcileHostingVolumeCapacity (s : Pool) (totalSize : Int) : Except Err Pool :=
  (do rebuildCommittedCapacity (← updateSummary s totalSize)).mapError asReconciliation

/-- `_hosting_volume_capacity_stats` -/
def hostingVolumeCapacityStats (s : Pool) : Except Err Int := (freeSizeBytes s).mapError asReconciliation

/-! ## Transactions -/

/-- The transaction of `release_archived_pv_reservation`. -/
def releaseArchivedPvReservation (s : Pool) (archivedName : String) : Except Err Pool := do
  let s ← rebuildCommittedCapacity s
  pure (removePvRecord s archivedName)

/-- `_admit_volume_creation`. The result says whether the volume is admitted; `uuid` is its new incarnation. -/
def admitVolumeCreation (s : Pool) (totalSize : Int) (volumeId : String) (pvtype : PvType) (requiredSize : Int)
    (uuid : String) : Except Err (Bool × Pool) := do
  let s ← reconcileHostingVolumeCapacity s totalSize
  let volpath ← canonicalPath pvtype volumeId
  match ← readVolumeCreationIntent s volumeId pvtype volpath with
  | some existing =>
    if !creationIntentMatches existing volumeId pvtype volpath requiredSize then
      throw (.value "Pending create does not match the requested identity, type, path, or size")
    else pure (true, s)
  | none =>
    -- a reservation without its exact intent authorizes no payload mutation
    if (← getPvSize s volumeId) ≠ 0 then
      throw (.value "Volume capacity is reserved without a matching creation intent")
    else
      let freeSize ← hostingVolumeCapacityStats s
      if exceedsFree requiredSize freeSize then pure (false, s)
      else
        let (_, s) ← prepareVolumeCreation s volumeId pvtype volpath requiredSize uuid
        let s ← updatePvRecord s volumeId requiredSize
        pure (true, s)

/-- The transaction of `reserve_volume_expansion`; `none` when the pool is full. -/
def reserveVolumeExpansion (s : Pool) (totalSize : Int) (volumeId : String) (pvtype : PvType) (volpath : Path)
    (fromSize toSize : Int) : Except Err (Option ExpansionIntent × Pool) :=
  if ¬(0 < fromSize ∧ 0 < toSize) then throw (.value "Expansion sizes must be positive integers")
  else if toSize ≤ fromSize then throw (.value "Expansion target must be larger than its source")
  else do
    let s ← rebuildCommittedCapacity (← updateSummary s totalSize)
    match ← readVolumeExpansionIntent s volumeId pvtype volpath with
    | some existing =>
      if existing ≠ expansionIntent volumeId pvtype volpath fromSize toSize then
        throw (.value "Pending expansion does not match the requested identity or sizes")
      else
        let s ← updatePvRecord s volumeId toSize
        pure (some existing, s)
    | none =>
      let committedSize ← getPvSize s volumeId
      -- another controller may have committed this very target since the caller looked
      if committedSize = toSize then
        let (intent, s) ← prepareVolumeExpansion s volumeId pvtype volpath fromSize toSize
        let s ← updatePvRecord s volumeId toSize
        pure (some intent, s)
      else if committedSize ≠ fromSize then
        throw (.value "Committed capacity does not match the expansion source")
      else
        let freeSize ← freeSizeBytes s
        if exceedsFree (toSize - fromSize) freeSize then pure (none, s)
        else
          let (intent, s) ← prepareVolumeExpansion s volumeId pvtype volpath fromSize toSize
          let s ← updatePvRecord s volumeId toSize
          pure (some intent, s)

/-- The transaction at the end of `_delete_pending_creation`. -/
def cancelCreation (s : Pool) (volumeId : String) (pvtype : PvType) (volpath : Path) (intent : CreationIntent) :
    Except Err Pool := do
  let s ← rebuildCommittedCapacity s
  finishVolumeCreation (removePvRecord s volumeId) volumeId pvtype volpath intent

/-- `update_free_size` -/
def updateFreeSize (s : Pool) (pvname : String) (sizechange : Int) : Except Err Pool :=
  if 0 < sizechange then pure (removePvRecord s pvname) else updatePvRecord s pvname (-sizechange)

/-- `archive_pv_reservation` -/
def archivePvReservation (s : Pool) (oldName archivedName : String) (size : Int) : Except Err Pool :=
  renamePvRecord s oldName archivedName size

end Kadalu
