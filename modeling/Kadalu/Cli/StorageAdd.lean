import Mathlib.Logic.Function.Basic

/-!
# The arguments of `storage-add`

The command takes storage units with keywords and counts among them, in one of two syntaxes: a count for each keyword and then
the units of all groups (`replica 3 u1 u2 u3 u4 u5 u6`), or the units of a group behind their keywords
(`replica u1 u2 arbiter u3`). The parser turns them into distribute groups, and the command takes from these one type for the
pool and one list of storage units.

The loop of the parser need not end, so it has fuel; `none` is a run that has not ended.
-/

namespace Kadalu.Cli

/-! ## Tokens -/

/-- `TYPE_KEYWORDS` -/
inductive Keyword where
  | replica
  | mirror
  | disperse
  | disperseData
  | redundancy
  | arbiter
  | external
  deriving DecidableEq, Repr

def TYPE_KEYWORDS : List (String × Keyword) :=
  [("replica", .replica), ("mirror", .mirror), ("disperse", .disperse), ("disperse-data", .disperseData),
    ("redundancy", .redundancy), ("arbiter", .arbiter), ("external", .external)]

inductive Token where
  | keyword (k : Keyword)
  | number (n : Int)
  | unit (name : String)
  deriving DecidableEq, Repr

/-- `tokenizer`; `int` is the function of the language, `none` is its `ValueError`. -/
def tokenizer (int : String → Option Int) (args : List String) : List Token :=
  args.map fun arg =>
    match TYPE_KEYWORDS.lookup arg with
    | some k => .keyword k
    | none =>
      match int arg with
      | some n => .number n
      | none => .unit arg

/-! ## Groups -/

/-- `VolumeCreateRequestDistributeGroup` -/
structure DistributeGroup where
  storageUnits : List String := []
  replicaCount : Int := 0
  arbiterCount : Int := 0
  disperseCount : Int := 0
  redundancyCount : Int := 0
  externalCount : Int := 0
  replicaKeyword : String := ""
  deriving DecidableEq, Repr

abbrev Counts : Type := Keyword → Int

abbrev Units : Type := Keyword → List String

/-- `reset_storage_units` -/
def resetStorageUnits : Units := fun _ => []

/-- How a command ends that does not succeed. -/
inductive Failure where
  /-- `sys.exit(1)` -/
  | exit
  /-- an exception that nothing catches -/
  | raised
  deriving DecidableEq, Repr

/-- `disperse_and_redundancy_count` -/
def disperseAndRedundancyCount (disperse data redundancy : Int) : Int × Int :=
  if data > 0 ∧ redundancy > 0 then (data + redundancy, redundancy)
  else if data > 0 ∧ disperse > 0 then (disperse, disperse - data)
  else (disperse, redundancy)

/-- `get_subvol_size` -/
def getSubvolSize (counts : Counts) : Int :=
  if counts .replica > 0 ∨ counts .mirror > 0 then counts .replica + counts .mirror + counts .arbiter
  else if counts .disperse > 0 ∨ counts .disperseData > 0 ∨ counts .redundancy > 0 then
    (disperseAndRedundancyCount (counts .disperse) (counts .disperseData) (counts .redundancy)).1
  else 1

/-- The slices of a list from multiples of `size` on. -/
def slices {α : Type} (size : Nat) : Nat → List α → List (List α)
  | 0, _ => []
  | _ + 1, [] => []
  | fuel + 1, x :: xs => (x :: xs).take size :: slices size fuel ((x :: xs).drop size)

/-- A list in parts of `size` elements; the last may be shorter. -/
def chunks {α : Type} (size : Nat) (l : List α) : List (List α) := slices size l.length l

/-- `split_list`: a range with step zero raises, one with a negative step is empty. -/
def splitList (storageUnits : List String) (subvolSize : Int) : Except Failure (List (List String)) :=
  if subvolSize = 0 then throw .raised
  else if subvolSize < 0 then pure []
  else pure (chunks subvolSize.toNat storageUnits)

/-- `replica_keyword` -/
def replicaKeyword (replicaCount mirrorCount : Int) : String :=
  if replicaCount > 0 then "replica" else if mirrorCount > 0 then "mirror" else ""

/-- The group that `distribute_group_count_based` makes of one part of the list. -/
def countGroup (counts : Counts) (storageUnits : List String) : DistributeGroup :=
  let disperse := disperseAndRedundancyCount (counts .disperse) (counts .disperseData) (counts .redundancy)
  { storageUnits
    replicaCount := counts .replica + counts .mirror
    arbiterCount := counts .arbiter
    disperseCount := disperse.1
    redundancyCount := disperse.2
    replicaKeyword := replicaKeyword (counts .replica) (counts .mirror) }

/-- `distribute_group_count_based` -/
def distributeGroupCountBased (counts : Counts) (storageUnits : List String) : Except Failure (List DistributeGroup) := do
  let parts ← splitList storageUnits (getSubvolSize counts)
  pure (parts.map (countGroup counts))

/-- `different_type_exists` -/
def differentTypeExists (storageUnits : Units) : Keyword → Bool
  | .replica | .mirror | .arbiter =>
    0 < (storageUnits .disperse).length + (storageUnits .redundancy).length + (storageUnits .disperseData).length
  | .disperse | .disperseData | .redundancy =>
    0 < (storageUnits .replica).length + (storageUnits .mirror).length + (storageUnits .arbiter).length
  | .external => false

/-- The group that the units behind their keywords make up; `last` if there is no keyword to come. -/
def keywordGroup (storageUnits : Units) (last : Bool) : Option DistributeGroup :=
  if last ∧ storageUnits .external ≠ [] then
    some { storageUnits := storageUnits .external, externalCount := (storageUnits .external).length }
  else if storageUnits .replica ≠ [] ∨ storageUnits .mirror ≠ [] then
    some
      { storageUnits := storageUnits .replica ++ storageUnits .mirror ++ storageUnits .arbiter
        replicaCount := (storageUnits .replica).length + (storageUnits .mirror).length
        arbiterCount := (storageUnits .arbiter).length
        replicaKeyword := replicaKeyword (storageUnits .replica).length (storageUnits .mirror).length }
  else if (storageUnits .arbiter).length = 3 then
    some { storageUnits := storageUnits .arbiter, replicaCount := 3, arbiterCount := 1 }
  else if storageUnits .disperse ≠ [] ∨ storageUnits .disperseData ≠ [] then
    let disperse := disperseAndRedundancyCount (storageUnits .disperse).length (storageUnits .disperseData).length
      (storageUnits .redundancy).length
    some
      { storageUnits := storageUnits .disperse ++ storageUnits .disperseData ++ storageUnits .redundancy
        disperseCount := disperse.1
        redundancyCount := disperse.2 }
  else none

/-- `distribute_group` -/
def distributeGroup (storageUnits : Units) : Option Keyword → Option DistributeGroup
  | some current =>
    if storageUnits current = [] ∧ differentTypeExists storageUnits current = false then none
    else keywordGroup storageUnits false
  | none => keywordGroup storageUnits true

/-! ## The parser -/

/-- The variables of `parser`. -/
structure Parsing where
  groups : List DistributeGroup := []
  counts : Counts := fun _ => 0
  units : Units := resetStorageUnits
  all : List String := []
  skipTokenNext : Bool := false

/-- The units up to the next other token, and what is left from there. -/
def leadingUnits : List Token → List String × List Token
  | .unit name :: rest => (name :: (leadingUnits rest).1, (leadingUnits rest).2)
  | rest => ([], rest)

/-- A keyword is met: a group that is complete is taken, and the units behind the keyword are added. -/
def takeKeyword (p : List DistributeGroup × Units) (segment : Keyword × List String) : List DistributeGroup × Units :=
  let (groups, units) :=
    match distributeGroup p.2 (some segment.1) with
    | some group => (p.1 ++ [group], resetStorageUnits)
    | none => p
  (groups, Function.update units segment.1 (units segment.1 ++ segment.2))

/-- The loop of `parser`; the first of the tokens is the current one. After `skip_token_next` is set, it stays set. -/
def parserLoop : Nat → List Token → Parsing → Option Parsing
  | 0, _, _ => none
  | _ + 1, [], p => some p
  | fuel + 1, .keyword k :: rest, p =>
    let (groups, units) := takeKeyword (p.groups, p.units) (k, (leadingUnits rest).1)
    let p := { p with groups, units }
    match (leadingUnits rest).2 with
    | [] => parserLoop fuel [] p
    | .number n :: rest' =>
      let p := { p with counts := Function.update p.counts k n }
      if p.skipTokenNext then parserLoop fuel (.number n :: rest') p else parserLoop fuel rest' p
    | token :: rest' => parserLoop fuel (token :: rest') { p with skipTokenNext := true }
  | fuel + 1, .unit name :: rest, p =>
    let p := { p with all := p.all ++ [name] }
    if p.skipTokenNext then parserLoop fuel (.unit name :: rest) p else parserLoop fuel rest p
  | fuel + 1, .number n :: rest, p =>
    if p.skipTokenNext then parserLoop fuel (.number n :: rest) p else parserLoop fuel rest p

/-- What `parser` makes of the variables after its loop. -/
def finishParser (p : Parsing) : Except Failure (List DistributeGroup) :=
  if p.all = [] then pure (p.groups ++ (distributeGroup p.units none).toList)
  else distributeGroupCountBased p.counts p.all

/-- `parser` -/
def parser (fuel : Nat) (tokens : List Token) : Option (Except Failure (List DistributeGroup)) :=
  (parserLoop fuel tokens {}).map finishParser

/-- The check that `validate` makes of one group. -/
def validGroup (g : DistributeGroup) : Bool :=
  let size := if g.arbiterCount > 0 ∧ g.replicaCount = 2 then g.replicaCount + 1 else g.replicaCount
  (g.replicaCount ≤ 0 || g.storageUnits.length = size) && (g.disperseCount ≤ 0 || g.storageUnits.length = g.disperseCount)

/-- The values of `--type` -/
inductive StorageType where
  | replica1
  | replica2
  | replica3
  | external
  | disperse
  | arbiter
  deriving DecidableEq, Repr

/-- The type that `volume_type` finds of a group. -/
def groupType (g : DistributeGroup) : StorageType :=
  if g.arbiterCount > 0 then .arbiter
  else if g.replicaCount = 2 then .replica2
  else if g.replicaCount = 3 then .replica3
  else if g.disperseCount = 3 then .disperse
  else if g.externalCount > 0 then .external
  else .replica1

/-- `get_all_storage_units` -/
def getAllStorageUnits (groups : List DistributeGroup) : List String := groups.flatMap (·.storageUnits)

/-! ## The command -/

/-- The values of `--storage-unit-type` -/
inductive UnitType where
  | path
  | pvc
  | device
  deriving DecidableEq, Repr

/-- The arguments that `validate` reads and writes. -/
structure Args where
  storageUnits : List String := []
  storageUnitType : Option UnitType := none
  type : Option StorageType := none
  device : List String := []
  path : List String := []
  pvc : List String := []
  external : Option String := none
  tiebreaker : Option String := none
  glusterOptions : Option String := none
  disperseData : Int := 0
  disperseRedundancy : Int := 0
  dryRun : Bool := false
  deriving DecidableEq, Repr

def exitIf (c : Prop) [Decidable c] : Except Failure Unit := if c then throw .exit else pure ()

/-- `":" in value` -/
def hasColon (value : String) : Bool := value.toList.contains ':'

/-- An option that is given and not empty. -/
def given (value : Option String) : Bool := value.any (· ≠ "")

/-- The checks of `validate` before the storage units are parsed, and the type that they leave. -/
def optionsType (args : Args) : Except Failure StorageType := do
  let type ← match args.external with
    | some external => do
      exitIf (args.type.any (· ≠ .external))
      exitIf (hasColon external = false)
      pure (some StorageType.external)
    | none => do
      exitIf (given args.glusterOptions)
      pure args.type
  exitIf (given args.tiebreaker ∧ (type ≠ some .replica2 ∨ args.tiebreaker.any hasColon = false))
  pure (type.getD .replica1)

/-- What `validate` takes from the groups of a request. -/
def requestArgs (args : Args) (groups : List DistributeGroup) : Except Failure Args := do
  exitIf (groups.any (!validGroup ·))
  match groups with
  | [] => throw .raised
  | first :: _ =>
    let type := groupType first
    exitIf (type ≠ .external ∧ args.storageUnitType = none)
    let units := getAllStorageUnits groups
    let args := if type = .disperse then
        { args with disperseData := first.disperseCount - first.redundancyCount, disperseRedundancy := first.redundancyCount }
      else args
    let args := { args with type := some type }
    match args.storageUnitType with
    | some .device => pure { args with device := units }
    | some .path => pure { args with path := units }
    | some .pvc => pure { args with pvc := units }
    | none =>
      match units with
      | [] => throw .raised
      | unit :: _ => pure { args with external := some unit }

/-- The bricks of a distribute group in the last checks of `validate`. -/
def checkedSize (args : Args) : Except Failure Int :=
  match args.type with
  | some .replica2 => pure 2
  | some .replica3 => pure 3
  | some .disperse => do
    exitIf (args.disperseData = 0 ∨ args.disperseRedundancy = 0)
    exitIf (args.disperseData + args.disperseRedundancy ≤ 2 * args.disperseRedundancy)
    exitIf (args.disperseData % 2 ≠ 0)
    pure (args.disperseData + args.disperseRedundancy)
  | _ => pure 1

/-- A device or a path on a node. -/
def validPlace (args : Args) (kubeNodes : List String) (place : String) : Bool :=
  hasColon place && (args.dryRun || kubeNodes.contains (String.ofList (place.toList.takeWhile (· ≠ ':'))))

/-- The checks of `validate` after the storage units are parsed. -/
def finalChecks (kubeNodes : List String) (args : Args) : Except Failure Unit := do
  let given := args.device.length + args.path.length + args.pvc.length
  let numStorages : Int := if given = 0 then (if args.external.isSome then 1 else 0) else given
  exitIf (numStorages = 0)
  let size ← checkedSize args
  if size = 0 then throw .raised
  exitIf (numStorages % size ≠ 0)
  exitIf ((args.device ++ args.path).any (!validPlace args kubeNodes ·))

/-- `validate` of the command, for arguments with storage units; the result is the parsed request and the arguments as it
leaves them. -/
def validate (int : String → Option Int) (kubeNodes : List String) (fuel : Nat) (args : Args) :
    Option (Except Failure (List DistributeGroup × Args)) :=
  match optionsType args with
  | .error e => some (.error e)
  | .ok type => (parser fuel (tokenizer int args.storageUnits)).map fun request => do
    let groups ← request
    let args ← requestArgs { args with type := some type } groups
    finalChecks kubeNodes args
    pure (groups, args)

end Kadalu.Cli
