import Kadalu.Operator.Metadata

/-!
# Storage requests that are accepted

`validateVolumeRequest` is what the operator demands of a `KadaluStorage` before it does anything with it. The texts of the
log are left out, and so is the reachability of External hosts, which is only logged.
-/

namespace Kadalu.Operator

def VOLUME_TYPE_REPLICA_3 : String := "Replica3"
def VOLUME_TYPE_ARBITER : String := "Arbiter"
def VALID_PV_RECLAIM_POLICY_TYPES : List String := ["delete", "archive", "retain"]

/-- The library function that parses an IP address, and the check of tolerations. -/
class RequestChecks where
  isIpAddress : String → Bool
  validTolerations : String → Bool

/-- A text without outer blanks, and not empty. -/
def isTrimmed (value : String) : Bool := value ≠ "" && strip value.toList = value.toList

def noControls (value : List Char) : Bool := value.all fun c => !isControl c

/-! ## External pools -/

/-- `host.rstrip(".")` -/
def rstripDots (host : List Char) : List Char := host.rdropWhile (· = '.')

/-- `_valid_gluster_host` -/
def validGlusterHost [RequestChecks] (host : String) : Bool :=
  if ',' ∈ host.toList || !host.toList.all (·.toNat < 128) then false
  else if RequestChecks.isIpAddress host then true
  else if host.length > 253 then false
  else (splitChars '.' (rstripDots (host.toList.map Char.toLower))).all fun label =>
    label ≠ [] && label.length ≤ 63 && isDnsLabel label

/-- `[A-Za-z0-9_][A-Za-z0-9_-]{0,255}` -/
def isGlusterVolumeName : List Char → Bool
  | [] => false
  | c :: cs => (c.isAlphanum || c = '_') && cs.length ≤ 255 && cs.all fun c => c.isAlphanum || c = '_' || c = '-'

/-- `_valid_gluster_volume_path` -/
def validGlusterVolumePath (value : String) : Bool :=
  value.utf8ByteSize ≤ 4096 && match splitChars '/' value.toList with
    | [] => false
    | volume :: components => isGlusterVolumeName volume && components.all fun component =>
        isNormalComponent component && (String.ofList component).utf8ByteSize ≤ 255 && noControls component

/-- `validate_ext_details` -/
def validateExtDetails [RequestChecks] (details : ExternalDetails) : Bool :=
  let ghosts := details.glusterHosts ++ (details.glusterHost.filter (· ≠ "")).toList
  ghosts ≠ [] && ghosts.all (fun host => isTrimmed host && validGlusterHost host) &&
    details.glusterVolname.any (fun volname => isTrimmed volname && validGlusterVolumePath volname) &&
    noControls details.glusterOptions.toList && (1 ≤ details.glusterPort && details.glusterPort ≤ 65535)

/-! ## Native pools -/

/-- `[A-Za-z0-9][A-Za-z0-9._-]*` -/
def isOptionKey : List Char → Bool
  | [] => false
  | c :: cs => c.isAlphanum && cs.all fun c => c.isAlphanum || c ∈ ['.', '_', '-']

/-- `options_validation` -/
def optionsValidation (options : List (String × String)) : Bool :=
  options.all fun option => isTrimmed option.1 && isOptionKey option.1.toList && noControls option.2.toList

/-- The bricks of a distribute group; `none` is an invalid geometry. -/
def subvolBricksCount (type : Option String) (disperse : Disperse) : Option Nat :=
  if type = some VOLUME_TYPE_REPLICA_2 then some 2
  else if type = some VOLUME_TYPE_REPLICA_3 then some 3
  else if type = some VOLUME_TYPE_DISPERSE then
    if disperse.data ≤ 0 || disperse.redundancy ≤ 0 then none
    else if disperse.data + disperse.redundancy ≤ 2 * disperse.redundancy then none
    else if disperse.data % 2 ≠ 0 then none
    else some (disperse.data + disperse.redundancy).toNat
  else some 1

/-- The bricks of each group are decommissioned together. -/
def decommissionedTogether (count : Nat) (bricks : List StorageBrick) : Bool :=
  (List.range bricks.length).all fun i =>
    (bricks.getD i {}).decommissioned = (bricks.getD (i / count * count) {}).decommissioned

/-- The check of a `tiebreaker` that is given. -/
def validTiebreaker (t : Tiebreaker) : Bool :=
  isTrimmed t.node && validLabelValue t.node && isTrimmed t.path && noControls t.path.toList &&
    ['/'].isPrefixOf t.path.toList && (1 ≤ t.port.getD 24007 && t.port.getD 24007 ≤ 65535)

/-- The checks of the bricks of a native pool. -/
def validateLayout (type : Option String) (disperse : Disperse) (tiebreaker : Option Tiebreaker)
    (bricks : List StorageBrick) : Bool :=
  match subvolBricksCount type disperse with
  | none => false
  | some count =>
    bricks.length % count = 0 && decommissionedTogether count bricks &&
      (type ≠ some VOLUME_TYPE_REPLICA_2 || tiebreaker.all validTiebreaker) &&
      (type ≠ some VOLUME_TYPE_ARBITER || (3 ≤ bricks.length && bricks.length % 3 = 0))

/-! ## Requests -/

/-- `validate_volume_request` -/
def validateVolumeRequest [RequestChecks] (obj : KadaluStorage) : Bool :=
  VALID_PV_RECLAIM_POLICY_TYPES.contains obj.pvReclaimPolicy &&
    !(obj.singlePvPerPool && obj.pvReclaimPolicy = "archive") &&
    obj.type.any (VALID_HOSTING_VOLUME_TYPES.contains ·) &&
    generatedResourceNamesValidation (some obj.name) obj.type obj.storageClassName obj.storage.length &&
    obj.volumeId.all isCanonicalUuid &&
    obj.tolerations.all RequestChecks.validTolerations &&
    if obj.type = some VOLUME_TYPE_EXTERNAL then validateExtDetails obj.details
    else optionsValidation obj.options && bricksValidation obj.storage &&
      validateLayout obj.type obj.disperse obj.tiebreaker obj.storage

end Kadalu.Operator
