import Kadalu.Data.FileTree
import Kadalu.Durable.Simulation
import Kadalu.Volume.Component
import Kadalu.Volume.Delete

/-!
# Deleting volumes among directories

A `Site` is a pool together with the directories of the machine that mounts it. On a site, deleting or archiving a managed
volume also prunes the directories above its files: the loop of `_prune_empty_parents` climbs from a file to a directory where
it stops, and may climb past it. The programs on a site do on its pool what those of `Delete.lean` do
(`simulates_deleteManagedVolume`).
-/

namespace Kadalu

open Durable Durable.Prog FileTree

/-! ## Sites -/

/-- The mount point of a pool, below `HOSTVOL_MOUNTDIR`. -/
def mountPoint (hostvol : String) : Path := ["mnt", hostvol]

/-- A file below `info`. -/
def infoFile (hostvol : String) (file : InfoFile) (p : Path) : Path :=
  mountPoint hostvol ++ "info" :: p.dirname ++ [file.basename p.basename]

/-- The files of a pool. The content of a payload stays out of sight. -/
def Pool.files (hostvol : String) (s : Pool) : List Path :=
  s.payloads.keys.map (mountPoint hostvol ++ ·) ++ s.metadata.keys.map (infoFile hostvol .metadata) ++
    s.creations.keys.map (infoFile hostvol .creationIntent) ++ s.expansions.keys.map (infoFile hostvol .expansionIntent)

/-- The pool `hostvol` and the file system that it is mounted in: the files which are not the pool's, and the directories that
exist also without a file. -/
structure Site (hostvol : String) where
  pool : Pool
  others : List Path := []
  dirs : List Path := []

abbrev SiteProg (hostvol : String) (α : Type) : Type 1 := Prog (Site hostvol) PoolLock Err α

namespace Site

variable {hostvol : String} {α : Type}

def tree (s : Site hostvol) : FileTree String := { files := s.pool.files hostvol ++ s.others, dirs := s.dirs }

/-- The site with another state of its pool. A file that goes leaves its directory behind. -/
def withPool (s : Site hostvol) (pool : Pool) : Site hostvol :=
  { s with pool, dirs := (s.tree.withFiles (pool.files hostvol ++ s.others)).dirs }

/-- A program on the pool. -/
abbrev inPool (p : PoolProg α) : SiteProg hostvol α := p.via Site.pool Site.withPool

/-! ## Directories -/

/-- `makedirs`; what is there already is left alone. -/
def makedirs (p : Path) : SiteProg hostvol Unit :=
  Prog.step (fun s => (.ok (), if p ∈ s.tree.files then s else { s with dirs := (s.tree.makedirs p).dirs }))
    (fun s => p.inits.map fun q => { s with dirs := (s.tree.makedirs q).dirs }) (· = .os)

/-- `os.rmdir` -/
def rmdir (p : Path) : SiteProg hostvol (Except Errno Unit) :=
  Prog.step (fun s => match s.tree.rmdir p with
    | .ok t => (.ok (.ok ()), { s with dirs := t.dirs })
    | .error e => (.ok (.error e), s)) (fun _ => []) (· = .os)

/-- The loop of `_prune_empty_parents`. It returns whether it was left within `n` rounds. -/
def pruneLoop (stop : Path) : Nat → Path → SiteProg hostvol Bool
  | 0, _ => pure false
  | n + 1, parent =>
    if parent = stop then pure true
    else do
      match ← rmdir parent with
      | .ok () | .error .noent => pruneLoop stop n parent.dirname
      | .error .notempty | .error .exist => pure true
      | .error _ => throw .os

/-- The rounds that suffice (`returns_pruneLoop`). -/
def rounds (path : Path) : Nat := path.length + 1

/-- `_prune_empty_parents` -/
def pruneEmptyParents (path stop : Path) : SiteProg hostvol Unit := do
  let _ ← pruneLoop stop (rounds path) path.dirname
  pure ()

/-! ## The pool of a site -/

theorem simulates_inPool (p : PoolProg α) : Simulates (Site.pool : Site hostvol → Pool) (inPool p) p :=
  simulates_via (fun _ _ => rfl) p

theorem silent_rmdir (p : Path) : (rmdir p : SiteProg hostvol _).Silent Site.pool (· = .os) := by
  refine silent_step (fun t t' ht' => ?_) (fun t e he => ?_) fun e he => of_decide_eq_true he
  · simp only [List.mem_cons, List.not_mem_nil, or_false] at ht'
    rcases ht' with rfl | rfl
    · rfl
    · cases t.tree.rmdir p <;> rfl
  · revert he
    cases t.tree.rmdir p <;> exact nofun

theorem silent_makedirs (p : Path) : (makedirs p : SiteProg hostvol _).Silent Site.pool (· = .os) := by
  refine silent_step (fun t t' ht' => ?_) (fun t e he => by cases he) fun e he => of_decide_eq_true he
  simp only [List.mem_cons, List.mem_map] at ht'
  rcases ht' with rfl | rfl | ⟨q, -, rfl⟩
  · rfl
  · split <;> rfl
  · rfl

theorem silent_pruneLoop (stop : Path) : ∀ (n : Nat) (parent : Path),
    (pruneLoop stop n parent : SiteProg hostvol _).Silent Site.pool (· = .os)
  | 0, _ => trivial
  | n + 1, parent => by
    rw [pruneLoop]
    split
    · trivial
    · refine silent_bind (silent_rmdir parent) fun r => ?_
      match r with
      | .ok () => exact silent_pruneLoop stop n parent.dirname
      | .error .noent => exact silent_pruneLoop stop n parent.dirname
      | .error .notempty => trivial
      | .error .exist => trivial
      | .error .notdir => rfl
      | .error .busy => rfl

/-- A file operation can fail before it has an effect. -/
theorem update_fails {f : Pool → Except Err Pool} {e : Err} (he : e = .os) (s : Pool) : (update f).Reaches s (raise e) s :=
  ⟨[.fault e 0], by subst he; rfl⟩

/-- On its pool, pruning is a step that can fail. -/
theorem simulates_pruneEmptyParents (path stop : Path) :
    Simulates (Site.pool : Site hostvol → Pool) (pruneEmptyParents path stop) Kadalu.pruneEmptyParents := by
  refine simulates_before (silent_pruneLoop stop _ _) (fun e he s => update_fails he s) ?_
  rintro t p' t' ⟨is, h⟩
  cases is with
  | nil =>
    cases h
    exact ⟨ret (), ⟨[.ok], rfl⟩, rfl⟩
  | cons i is => cases h

end Site

/-! ## Volumes -/

namespace Site

variable [VolnameHash]

/-- `payload_path` -/
def payloadPath (vol : Volume) : Path := mountPoint vol.hostvol ++ vol.volpath

/-- Where the directories of payloads end. -/
def payloadStop (vol : Volume) : Path := mountPoint vol.hostvol ++ [vol.voltype.name]

/-- Where the directories of metadata end. -/
def infoStop (vol : Volume) : Path := mountPoint vol.hostvol ++ ["info", vol.voltype.name]

/-- The call of `_prune_empty_parents` for the payload. -/
def prunePayload (vol : Volume) : SiteProg vol.hostvol Unit := pruneEmptyParents (payloadPath vol) (payloadStop vol)

/-- The call of `_prune_empty_parents` for the metadata. -/
def pruneMetadata (vol : Volume) (infoFilePath : Path) : SiteProg vol.hostvol Unit :=
  pruneEmptyParents (infoFile vol.hostvol .metadata infoFilePath) (infoStop vol)

/-- `_archive_volume` -/
def archiveVolume (vol : Volume) (infoFilePath : Path) (metadata : Metadata) (size : Int) (uuids : List String) :
    SiteProg vol.hostvol Unit := do
  let (archivedName, metadata) ← inPool (prepareArchive vol infoFilePath metadata uuids)
  makedirs (mountPoint vol.hostvol ++ ["archive"])
  makedirs (mountPoint vol.hostvol ++ ["info", "archive"])
  inPool (renamePayload vol.volpath (archivePath archivedName))
  inPool (archivePvReservationStep vol.volname archivedName size)
  inPool (renameMetadata infoFilePath (archivePath archivedName))
  inPool (writeMetadata (archivePath archivedName) { metadata with pathPrefix := some ["archive"], state := some .archived })
  prunePayload vol
  pruneMetadata vol infoFilePath

/-- The delete policy of `_delete_managed_volume`. -/
def removeVolume (vol : Volume) (infoFilePath : Path) (metadata : Metadata) : SiteProg vol.hostvol Unit := do
  let expectedVolpaths ← Prog.ofExcept (canonicalVolumePaths vol.volname vol.voltype)
  if vol.volpath ∉ expectedVolpaths ∨ infoFilePath ≠ vol.volpath then
    throw (.value "Volume delete paths are not canonical")
  else
    inPool (markDeleting vol infoFilePath metadata)
    inPool (removePayloadOf vol.voltype vol.volpath)
    prunePayload vol
    inPool (updateFreeSizeStep vol.volname metadata.size)
    inPool (unlinkMetadata infoFilePath)
    pruneMetadata vol infoFilePath

/-- `_delete_managed_volume` -/
def deleteManagedVolume (vol : Volume) (policy : ReclaimPolicy) (uuids : List String) : SiteProg vol.hostvol Unit := do
  let infoFilePath := vol.metadataPath.getD vol.volpath
  let metadata ← inPool (readPool fun s => match s.metadata.lookup infoFilePath with
    | some metadata => pure metadata
    | none => throw .fileNotFound)
  let metadata ← inPool (absorbExpansion vol infoFilePath metadata)
  if metadata.size ≤ 0 then throw (.value "Volume metadata contains an invalid size")
  else
    inPool (absorbCreation vol metadata)
    if policy = .archive then archiveVolume vol infoFilePath metadata metadata.size uuids
    else removeVolume vol infoFilePath metadata

/-! ## Simulation -/

omit [VolnameHash] in
theorem simulates_archiveVolume (vol : Volume) (infoFilePath : Path) (metadata : Metadata) (size : Int) (uuids : List String) :
    Simulates Site.pool (archiveVolume vol infoFilePath metadata size uuids)
      (Kadalu.archiveVolume vol infoFilePath metadata size uuids) := by
  refine simulates_bind (simulates_inPool _) fun ⟨archivedName, metadata⟩ => ?_
  have hfails {k : Unit → PoolProg Unit} (e : Err) (he : e = .os) (s : Pool) :
      (renamePayload vol.volpath (archivePath archivedName) >>= k).Reaches s (raise e) s :=
    (update_fails he s).andThen (onOk k)
  -- a directory that cannot be made is a rename that fails
  refine simulates_before (silent_makedirs _) hfails ?_
  refine simulates_before (silent_makedirs _) hfails ?_
  refine simulates_bind (simulates_inPool _) fun _ => ?_
  refine simulates_bind (simulates_inPool _) fun _ => ?_
  refine simulates_bind (simulates_inPool _) fun _ => ?_
  refine simulates_bind (simulates_inPool _) fun _ => ?_
  exact simulates_bind (simulates_pruneEmptyParents _ _) fun _ => simulates_pruneEmptyParents _ _

theorem simulates_removeVolume (vol : Volume) (infoFilePath : Path) (metadata : Metadata) :
    Simulates Site.pool (removeVolume vol infoFilePath metadata) (Kadalu.removeVolume vol infoFilePath metadata) := by
  refine simulates_bind (simulates_ofExcept _) fun expectedVolpaths => ?_
  refine simulates_ite (fun _ => simulates_throw _) fun _ => ?_
  refine simulates_bind (simulates_inPool _) fun _ => ?_
  refine simulates_bind (simulates_inPool _) fun _ => ?_
  refine simulates_bind (simulates_pruneEmptyParents _ _) fun _ => ?_
  refine simulates_bind (simulates_inPool _) fun _ => ?_
  refine simulates_bind (simulates_inPool _) fun _ => ?_
  exact simulates_pruneEmptyParents _ _

/-- **On its pool, a site does what the pool does alone.** -/
theorem simulates_deleteManagedVolume (vol : Volume) (policy : ReclaimPolicy) (uuids : List String) :
    Simulates Site.pool (deleteManagedVolume vol policy uuids) (Kadalu.deleteManagedVolume vol policy uuids) := by
  refine simulates_bind (simulates_inPool _) fun metadata => ?_
  refine simulates_bind (simulates_inPool _) fun metadata => ?_
  refine simulates_ite (fun _ => simulates_throw _) fun _ => ?_
  refine simulates_bind (simulates_inPool _) fun _ => ?_
  exact simulates_ite (fun _ => simulates_archiveVolume _ _ _ _ _) fun _ => simulates_removeVolume _ _ _

end Site

end Kadalu
