import Kadalu.Data.Base64

/-!
# Volume identifiers and their paths

A CSI volume ID is an opaque string. Its canonical payload path below a pool root is
`<pvtype>/<hash dirs>/<component>`, where the component is the ID itself when that is a safe file name, and otherwise its
Base64 form under `.kadalu-v2`. Old releases used the raw ID whenever it is one safe component; the two layouts differ
only for raw IDs that begin with the encoding prefix.

A path is the list of its components, the string of the source split at `/`. Pools hold no symbolic links in the model,
so a metadata path matches an expected one exactly when the two are equal, and a path made of safe components stays below
its root.
-/

namespace Kadalu

/-- The exceptions of the driver, with the class each belongs to. -/
inductive Err where
  /-- `ValueError` -/
  | value (msg : String)
  /-- `VolumeOperationConflictError`, a `ValueError` -/
  | conflict (msg : String)
  /-- `HostingVolumeReconciliationError`, a `ValueError` -/
  | reconciliation
  /-- `UnsupportedCapacityRangeError`, a `ValueError` -/
  | capacityRange (msg : String)
  /-- `SinglePVPoolNotEmptyError`, a `ValueError` -/
  | singlePvNotEmpty (msg : String)
  /-- `FileNotFoundError`, an `OSError` -/
  | fileNotFound
  /-- `FileExistsError`, an `OSError` -/
  | fileExists
  /-- any other `OSError` -/
  | os
  /-- `VolumeOperationLockTimeoutError`, a `TimeoutError` and so an `OSError` -/
  | lockTimeout
  /-- `CommandException` and its subclass `HostingVolumeSelectionError` -/
  | command (ret : Int)
  /-- `sqlite3.Error` -/
  | sqlite
  /-- `KeyError` -/
  | key (name : String)
  /-- `UnsupportedReclaimPolicyError` -/
  | reclaimPolicy (msg : String)
  /-- `SinglePVPoolClaimedError` -/
  | claimed (owner : String)
  /-- `SinglePVPoolRetiredError` -/
  | retired (volumeId : String)
  /-- `LegacySinglePVPoolUnclaimedError` -/
  | legacyUnclaimed (msg : String)
  deriving DecidableEq, Repr

namespace Err

def isValue : Err → Bool
  | value _ | conflict _ | reconciliation | capacityRange _ | singlePvNotEmpty _ => true
  | _ => false

def isOs : Err → Bool
  | fileNotFound | fileExists | os | lockTimeout => true
  | _ => false

def isCommand : Err → Bool
  | command _ => true
  | _ => false

end Err

/-! ## Identifiers -/

/-- `value.startswith(start)` -/
def startsWith (start value : String) : Bool := start.toList.isPrefixOf value.toList

/-- `value[len(start):]` -/
def dropStart (start value : String) : String := String.ofList (value.toList.drop start.length)

/-- `is_safe_path_component`: one file name of at most 128 bytes. -/
def isSafePathComponent (value : String) : Bool :=
  value ≠ "" && value ≠ "." && value ≠ ".." && decide (value.utf8ByteSize ≤ 128) &&
    value.toList.all fun character => character ≠ '/' && !(character.toNat < 32 || character.toNat == 127)

/-- `is_valid_csi_identifier`: the CSI opaque-name contract. -/
def isValidCsiIdentifier (value : String) : Bool :=
  value ≠ "" && decide (value.utf8ByteSize ≤ 128) &&
    value.toList.all fun character =>
      !(character.toNat ≤ 0x08 || character.toNat == 0x0B || character.toNat == 0x0C ||
        (0x0E ≤ character.toNat && character.toNat ≤ 0x1F) || (0x7F ≤ character.toNat && character.toNat ≤ 0x9F))

def VOLUME_COMPONENT_ENCODING_PREFIX : String := ".kadalu~"
def VOLUME_LAYOUT_V2_DIR : String := ".kadalu-v2"
def ARCHIVE_PREFIX : String := "archived-"

/-- `base64.urlsafe_b64encode(value.encode("utf-8")).decode("ascii").rstrip("=")` -/
def urlsafeBase64 (value : String) : String := String.ofList (Base64.encode value.toUTF8.data.toList)

/-- `volume_name_component`: an opaque CSI name as one collision-free path component. -/
def volumeNameComponent (volname : String) : Except Err String :=
  if !isValidCsiIdentifier volname then
    throw (.value "volume name does not satisfy the CSI identifier contract")
  else if isSafePathComponent volname && !startsWith VOLUME_COMPONENT_ENCODING_PREFIX volname then
    pure volname
  else
    pure (VOLUME_COMPONENT_ENCODING_PREFIX ++ urlsafeBase64 volname)

/-- `base64.b64decode` of a component without padding, decoded as UTF-8. -/
def urlsafeBase64Decode (encoded : String) : Option String :=
  (Base64.decode encoded.toList).bind fun bytes => String.fromUTF8? ⟨bytes.toArray⟩

/-- `volume_name_from_component` -/
def volumeNameFromComponent (component : String) : Except Err String :=
  if !startsWith VOLUME_COMPONENT_ENCODING_PREFIX component then pure component
  else
    let encoded := dropStart VOLUME_COMPONENT_ENCODING_PREFIX component
    if encoded = "" then throw (.value "encoded volume component is empty")
    else
      match urlsafeBase64Decode encoded with
      | none => throw (.value "encoded volume component is invalid")
      | some decoded =>
        if (volumeNameComponent decoded).toOption ≠ some component then
          throw (.value "encoded volume component is not canonical")
        else pure decoded

/-! ## Paths -/

/-- A path below a pool root, or below its `info` directory. -/
abbrev Path := List String

-- named, so that every module decides membership in a list of paths alike
instance : LawfulBEq Path := inferInstance

/-- `os.path.dirname` -/
def Path.dirname (p : Path) : Path := p.dropLast

/-- `os.path.basename` -/
def Path.basename (p : Path) : String := p.getLastD ""

inductive PvType where
  | subvol
  | virtblock
  | rawblock
  deriving DecidableEq, Repr

def PvType.name : PvType → String
  | subvol => "subvol"
  | virtblock => "virtblock"
  | rawblock => "rawblock"

/-- The order in which the source tries the types. -/
def PvType.all : List PvType := [.subvol, .virtblock, .rawblock]

@[simp] theorem PvType.mem_all (t : PvType) : t ∈ PvType.all := by cases t <;> decide

theorem PvType.name_injective {t u : PvType} (h : t.name = u.name) : t = u := by
  revert h; cases t <;> cases u <;> decide

/-- The hash of volume names, `xxhash.xxh64_hexdigest`. -/
class VolnameHash where
  getVolnameHash : String → String

export VolnameHash (getVolnameHash)

/-- `xxhash.xxh64_hexdigest` of a few names. -/
abbrev sampleHash : VolnameHash := ⟨fun
  | "pvc-1" => "d3d368531b48c1bb"
  | "pvc-2" => "497746e0038728d4"
  | "archived-pvc-1" => "66a83506df248137"
  | ".kadalu~x" => "cbd4401a4affc77e"
  | "archived-.kadalu~x" => "64c505de828bb3c0"
  | _ => "ef46db3751d8e999"⟩

/-- `volhash[i:i+2]` -/
def hashDir (volhash : String) (i : Nat) : String := String.ofList ((volhash.toList.drop i).take 2)

/-- `get_volume_path` -/
def getVolumePath (voltype : PvType) (volhash volname : String) : Except Err Path := do
  let component ← volumeNameComponent volname
  if startsWith VOLUME_COMPONENT_ENCODING_PREFIX component then
    pure [voltype.name, VOLUME_LAYOUT_V2_DIR, hashDir volhash 0, hashDir volhash 2, component]
  else
    pure [voltype.name, hashDir volhash 0, hashDir volhash 2, component]

/-- `get_legacy_volume_path`. A safe component never leaves its bucket, so the containment check of the source always
passes. -/
def getLegacyVolumePath (voltype : PvType) (volhash volname : String) : Except Err (Option Path) :=
  if !isValidCsiIdentifier volname then
    throw (.value "volume name does not satisfy the CSI identifier contract")
  else if !isSafePathComponent volname then
    pure none
  else
    pure (some [voltype.name, hashDir volhash 0, hashDir volhash 2, volname])

section Paths

variable [VolnameHash]

/-- The canonical path of a volume. -/
def canonicalPath (t : PvType) (v : String) : Except Err Path := getVolumePath t (getVolnameHash v) v

/-- The raw-name path of a volume, if it has one. -/
def legacyPath (t : PvType) (v : String) : Except Err (Option Path) := getLegacyVolumePath t (getVolnameHash v) v

/-- `_canonical_volume_paths`: canonical and safe legacy paths of one volume identity. -/
def canonicalVolumePaths (v : String) (t : PvType) : Except Err (List Path) := do
  let canonical ← canonicalPath t v
  match ← legacyPath t v with
  | some legacy => pure (if legacy = canonical then [canonical] else [canonical, legacy])
  | none => pure [canonical]

end Paths

end Kadalu
