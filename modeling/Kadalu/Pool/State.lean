import Kadalu.Volume.Ident
import Mathlib.Data.List.AList
import Mathlib.Logic.Function.Basic

/-!
# The durable state of a storage pool

A pool holds, below its `info` directory, PV metadata (`<path>.json`), create intents (`<path>.create-intent`) and
expansion intents (`<path>.expand-intent`), each table keyed by the path without its suffix; below its root, the
payloads; and the capacity index `stat.db`, a rebuildable table of rows. A dedicated pool carries its ownership claim on
the mount root instead.

Directories are implicit: a file's parents exist when it does.
-/

namespace Kadalu

/-- The state recorded in PV metadata; an active volume has none. -/
inductive VolState where
  | archiving
  | archived
  | reclaiming
  | deleting
  | other (name : String)
  deriving DecidableEq, Repr

/-- PV metadata. `legacyArchive` is `metadata.get("legacy_archive") is True`. -/
structure Metadata where
  size : Int
  pathPrefix : Option Path
  volumeId : Option String := none
  incarnation : Option String := none
  archiveName : Option String := none
  originalVolumeId : Option String := none
  state : Option VolState := none
  legacyArchive : Bool := false
  pvtype : Option String := none
  deriving DecidableEq, Repr

/-- The durable reservation of one volume create. -/
structure CreationIntent where
  path : Path
  pvtype : PvType
  size : Int
  version : Int
  volumeId : String
  incarnation : Option String
  deriving DecidableEq, Repr

/-- The durable capacity reservation of one expansion. -/
structure ExpansionIntent where
  fromSize : Int
  path : Path
  pvtype : PvType
  toSize : Int
  version : Int
  volumeId : String
  deriving DecidableEq, Repr

/-- A payload: a directory with its entries and its quota limits, or a backing file with its length. The limit that the
external Gluster cluster enforces is counted in hundredths of a byte. -/
structure Payload where
  isDir : Bool
  contents : List String := []
  quota : Option Int := none
  glusterQuota : Option Int := none
  length : Int := 0
  deriving DecidableEq, Repr

inductive ClaimState where
  | active
  | deleting
  | retired
  deriving DecidableEq, Repr

/-- The ownership marker of a dedicated pool. -/
structure Claim where
  volumeId : String
  size : Int
  state : ClaimState
  version : Int
  deriving DecidableEq, Repr

/-- Files of one kind, keyed by path. -/
abbrev Table (α : Type) := AList fun _ : Path => α

/-- Rows of `pv_stats`, or a dictionary of sizes, keyed by name. -/
abbrev Rows := AList fun _ : String => Int

/-- The durable state of one pool, and the publishes that nodes have mounted from it: volume ID and source path, newest
first. -/
structure Pool where
  metadata : Table Metadata := ∅
  creations : Table CreationIntent := ∅
  expansions : Table ExpansionIntent := ∅
  payloads : Table Payload := ∅
  rows : Rows := ∅
  summary : Option Int := none
  capacity : Int := 0
  claim : Option Claim := none
  data : List String := []
  published : List (String × Path) := []

/-- All pools, by hosting-volume name. -/
abbrev World := String → Pool

end Kadalu
