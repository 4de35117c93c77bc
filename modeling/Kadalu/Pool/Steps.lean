import Kadalu.Durable.Focus
import Kadalu.Pool.Accounting

/-!
# The durable steps of one pool

Programs on a pool are built from these steps. A file operation can be interrupted by an `OSError`, before or after its
effect; removing a directory tree can stop halfway. A capacity transaction can also be interrupted by SQLite: its rows
then roll back, while files that it wrote stay.
-/

namespace Kadalu

open Durable

/-- The locks of one pool: its volumes' lifecycle locks and the lock on its mount root. -/
inductive PoolLock where
  | volume (id : String)
  | singlePv
  deriving DecidableEq, Repr

/-- All locks: those of the pools and the create locks of volume names. -/
inductive Lock where
  | pool (hostvol : String) (l : PoolLock)
  | createIdentity (volname : String)
  deriving DecidableEq, Repr

abbrev PoolProg (α : Type) : Type 1 := Prog Pool PoolLock Err α

abbrev WorldProg (α : Type) : Type 1 := Prog World Lock Err α

/-- A program on the pool of one hosting volume. -/
abbrev onPool {α : Type} (hostvol : String) (p : PoolProg α) : WorldProg α := p.focus hostvol (.pool hostvol)

/-- The exceptions of a SQLite operation on a mounted pool. -/
def dbErr (e : Err) : Bool := e = .sqlite || e.isOs

/-- The exceptions of an operation that mounts a pool. -/
def mountErr (e : Err) : Bool := e.isCommand || e.isOs || e.isValue

/-- Read the files of the pool. -/
def readPool {α : Type} (g : Pool → Except Err α) : PoolProg α := Prog.read Err.isOs g

/-- One file operation; it may refuse the state it finds. -/
def fileStep {α : Type} (f : Pool → Except Err (α × Pool)) : PoolProg α :=
  Prog.step (fun s => match f s with
    | .ok (a, s') => (.ok a, s')
    | .error e => (.error e, s)) (fun _ => []) Err.isOs

/-- One transaction. Interrupted before its commit it may leave the files it wrote, with the rows as they were. -/
def transaction {α : Type} (f : Pool → Except Err (α × Pool)) (errs : Err → Bool) : PoolProg α :=
  Prog.step (fun s => match f s with
    | .ok (a, s') => (.ok a, s')
    | .error e => (.error e, s))
    (fun s => match f s with
      | .ok (_, s') => [{ s' with rows := s.rows, summary := s.summary }]
      | .error _ => []) errs

/-- A file operation without a result. -/
def update (f : Pool → Except Err Pool) : PoolProg Unit := fileStep fun s => do pure ((), ← f s)

/-! ## Metadata -/

/-- `_atomic_write_json` of metadata -/
def writeMetadata (p : Path) (m : Metadata) : PoolProg Unit :=
  update fun s => pure { s with metadata := s.metadata.insert p m }

/-- `_durable_unlink` of metadata -/
def unlinkMetadata (p : Path) : PoolProg Unit := update fun s => pure { s with metadata := s.metadata.erase p }

/-- `_rename_for_archive` on one table of files -/
def renameForArchive {α : Type} (t : Table α) (source destination : Path) : Except Err (Table α) :=
  if source = destination then
    if (t.lookup destination).isSome then pure t else throw .fileNotFound
  else
    match t.lookup source, t.lookup destination with
    | some _, some _ => throw .fileExists
    | none, some _ => pure t
    | none, none => throw .fileNotFound
    | some x, none => pure ((t.erase source).insert destination x)

/-- `_prune_empty_parents`: directories are not part of the state, but removing them can fail. -/
def pruneEmptyParents : PoolProg Unit := update pure

/-! ## Payloads -/

/-- The payload at `p` after part of its tree has been removed. -/
def partialTrees (s : Pool) (p : Path) : List Pool :=
  match s.payloads.lookup p with
  | some payload => payload.contents.tails.map fun rest =>
      { s with payloads := s.payloads.insert p { payload with contents := rest } }
  | none => []

/-- `shutil.rmtree` or `os.unlink` of a payload, unless it is of the wrong kind; a missing one is passed over. -/
def removePayload (p : Path) (wrongKind : Payload → Bool) : PoolProg Unit :=
  Prog.step (fun s => match s.payloads.lookup p with
    | some payload => if wrongKind payload then (.error .os, s) else (.ok (), { s with payloads := s.payloads.erase p })
    | none => (.ok (), s))
    (fun s => if (s.payloads.lookup p).any wrongKind then [] else partialTrees s p)
    Err.isOs

/-- Remove the payload of a volume of type `t`: a tree for a subvolume, else a file. -/
def removePayloadOf (t : PvType) (p : Path) : PoolProg Unit :=
  removePayload p fun payload => payload.isDir ≠ (t = .subvol)

/-! ## Accounting -/

/-- `update_free_size` -/
def updateFreeSizeStep (pvname : String) (sizechange : Int) : PoolProg Unit :=
  transaction (fun s => do pure ((), ← updateFreeSize s pvname sizechange)) dbErr

/-- `archive_pv_reservation` -/
def archivePvReservationStep (oldName archivedName : String) (size : Int) : PoolProg Unit :=
  transaction (fun s => do pure ((), ← archivePvReservation s oldName archivedName size)) dbErr

end Kadalu
