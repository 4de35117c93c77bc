import Kadalu.Data.Json
import Kadalu.Operator.Metadata
import Mathlib.Data.List.TakeDrop
import Mathlib.Data.Set.Function

/-!
# The mount fingerprint of a pool in two programs

The operator and the CSI driver each compute a digest of the backend of a pool: the operator of the record that it writes,
the driver of a dictionary that it has made of the record, with other names for some of the fields. The driver refuses to
mount a pool for which its digest is not the one that is written.

* `Written`: the records that the operator writes.
* `SameMount`: the fields of a record that a mount depends on.
* `canonical_agrees`: both programs take the same backend from a record, whatever dictionary the driver has made of it.
* `fingerprints_agree`: so the driver accepts every written record, and reads its mount identity back from the token.
-/

namespace Kadalu.Fingerprint

open Operator

/-- The library functions on JSON values: the SHA-256 of the serialisation of a value whose keys are in order, and `str` of
a value that is no string. -/
class JsonText where
  sha256 : Json → String
  strOther : Json → String

/-- `str(value)` -/
def pyStr [JsonText] : Json → String
  | .str s => s
  | v => JsonText.strOther v

/-! ## Fields -/

def lower (value : String) : List Char := value.toList.map Char.toLower

/-- `get_single_pv_per_pool`; `none` is an exception. -/
def getSinglePvPerPool (data : Dict) : Option Bool :=
  match data.getD "kadalu_format" .null with
  | .null => match data.getD "single_pv_per_pool" (.bool false) with
    | .str value => some (lower value = "true".toList)
    | .bool value => some value
    | _ => none
  | .str kformat => some (lower kformat ≠ "native".toList)
  | _ => none

/-- `_canonical_gluster_hosts` -/
def canonicalHosts [JsonText] : Json → Json
  | .str hosts => .arr ((canonicalGlusterHosts ((splitChars ',' hosts.toList).map String.ofList)).map .str)
  | .arr hosts => .arr ((canonicalGlusterHosts (hosts.map pyStr)).map .str)
  | _ => .arr []

def brickFields : List String :=
  ["brick_device", "brick_index", "brick_path", "decommissioned", "host_brick_path", "kube_hostname", "node", "node_id",
    "pvc_name"]

/-- The fields of one brick; only a dictionary has any. -/
def canonicalBrick : Json → Option Json
  | .obj brick => some (.obj (brickFields.map fun field => (field, Dict.getD brick field .null)))
  | _ => none

/-- The elements that a `for` loop takes from a value. -/
def elements : Json → Option (List Json)
  | .arr values => some values
  | .obj fields => some (fields.map fun field => .str field.1)
  | .str value => some (value.toList.map fun c => .str (String.ofList [c]))
  | _ => none

def canonicalBricks (bricks : Json) : Option Json := do
  pure (.arr (← (← elements bricks).mapM canonicalBrick))

def isExternal : Json → Bool
  | .str type => type = VOLUME_TYPE_EXTERNAL
  | _ => false

/-- The fields of every backend. -/
def commonFields (type volname volumeId : Json) (single : Bool) : Dict :=
  [("schema", .num 1), ("type", type), ("volname", volname), ("volume_id", volumeId), ("single_pv_per_pool", .bool single)]

def externalFields [JsonText] (hosts volname options : Json) : Dict :=
  [("gluster_hosts", canonicalHosts hosts), ("gluster_volname", volname), ("gluster_options", options)]

def nativeFields (bricks disperse options tiebreaker : Json) : Dict :=
  [("bricks", bricks), ("disperse", disperse), ("options", options), ("tiebreaker", tiebreaker)]

section

variable [JsonText]

/-! ## The operator -/

/-- The backend in `mount_config_fingerprint` of the operator; `none` is an exception. -/
def operatorCanonical (data : Dict) : Option Dict := do
  let single ← getSinglePvPerPool data
  let common := commonFields (data.getD "type" .null) (data.getD "volname" .null) (data.getD "volume_id" .null) single
  if isExternal (data.getD "type" .null) then
    pure (common ++ externalFields (data.getD "gluster_hosts" (.str "")) (data.getD "gluster_volname" .null)
      (data.getD "gluster_options" (.str "")))
  else
    let bricks ← canonicalBricks (data.getD "bricks" (.arr []))
    pure (common ++ nativeFields bricks (data.getD "disperse" (.obj [])) (data.getD "options" (.obj []))
      (data.getD "tiebreaker" (.obj [])))

/-- `json.dumps` with `sort_keys`, and its digest -/
def digest (canonical : Dict) : String := JsonText.sha256 (Json.obj canonical).sortKeys

/-- `mount_config_fingerprint` of the operator -/
def operatorFingerprint (data : Dict) : Option String := (operatorCanonical data).map digest

/-! ## The CSI driver -/

/-- The backend in `mount_config_fingerprint` of the driver. -/
def csiCanonical (volume : Dict) : Option Dict := do
  let single ← getSinglePvPerPool volume
  let common := commonFields (volume.getD "type" .null) (volume.getD "volname" (volume.getD "name" .null))
    (volume.getD "volume_id" .null) single
  if isExternal (volume.getD "type" .null) then
    pure (common ++ externalFields (volume.getD "gluster_hosts" (volume.getD "g_host" (.str "")))
      (volume.getD "gluster_volname" (volume.getD "g_volname" .null))
      (volume.getD "gluster_options" (volume.getD "g_options" (.str ""))))
  else
    let bricks ← canonicalBricks (volume.getD "bricks" (.arr []))
    pure (common ++ nativeFields bricks (volume.getD "disperse" (.obj [])) (volume.getD "options" (.obj []))
      (volume.getD "tiebreaker" (.obj [])))

/-- `mount_config_fingerprint` of the driver -/
def csiFingerprint (volume : Dict) : Option String := (csiCanonical volume).map digest

/-- `re.fullmatch(r"[0-9a-f]{64}", fingerprint)` -/
def isFingerprint (value : String) : Bool := value.length = 64 && value.toList.all isHexDigit

inductive MountError where
  | notUuid
  | invalidBackend
  | mismatch
  deriving DecidableEq, Repr

/-- `_mount_identity` -/
def mountIdentity (volume : Dict) : Except MountError (Option String) :=
  match volume.getD "mount_identity" .null with
  | .null => pure none
  | .str stored =>
    match canonicalUuid stored with
    | none => throw .notUuid
    | some generation =>
      match csiFingerprint volume with
      | none => throw .invalidBackend
      | some computed =>
        match volume.getD "mount_config_fingerprint" .null with
        | .null => pure (some (generation ++ "-" ++ computed))
        | .str fingerprint =>
          if isFingerprint fingerprint && fingerprint = computed then pure (some (generation ++ "-" ++ fingerprint))
          else throw .mismatch
        | _ => throw .mismatch
  | _ => throw .notUuid

/-- `identity.rpartition("-")` without the separator; `none` if there is none. -/
def rpartition (identity : List Char) : Option (List Char × List Char) :=
  let (last, rest) := identity.reverse.span (· ≠ '-')
  match rest with
  | [] => none
  | _ :: first => some (first.reverse, last.reverse)

/-- `_mount_identity_generation` -/
def mountIdentityGeneration (identity : String) : Option String :=
  match rpartition identity.toList with
  | none => none
  | some (generation, fingerprint) =>
    if isFingerprint (String.ofList fingerprint) && isCanonicalUuid (String.ofList generation) then
      some (String.ofList generation)
    else none

/-- `node_affinity` of a hosting volume; `none` is an exception. -/
def nodeAffinity (data : Dict) : Option Json :=
  match data.getD "bricks" .null with
  | .null => some .null
  | .arr [] => some .null
  | .arr (.obj brick :: _) => some (Dict.getD brick "kube_hostname" .null)
  | _ => none

/-- The volume that `get_pv_hosting_volumes` makes of the record in the file of the pool `volname`. -/
def hostingVolume (volname : String) (data : Dict) : Option Dict := do
  let type ← data.lookup "type"
  let single ← getSinglePvPerPool data
  let affinity ← nodeAffinity data
  pure (data.merge [
    ("name", .str volname),
    ("type", type),
    ("g_volname", data.getD "gluster_volname" .null),
    ("g_host", data.getD "gluster_hosts" .null),
    ("g_options", data.getD "gluster_options" (.str "")),
    ("single_pv_per_pool", .bool single),
    ("single_pv_claim_version", data.getD "single_pv_claim_version" .null),
    ("legacy_single_pv_volume_id", data.getD "legacy_single_pv_volume_id" .null),
    ("mount_identity", data.getD "mount_identity" .null),
    ("mount_config_fingerprint", data.getD "mount_config_fingerprint" .null),
    ("node_affinity", affinity)])

/-- The volume that `NodePublishVolume` makes of the record of the pool `hostvol`. -/
def publishedVolume (hostvol : String) (poolRecord : Dict) : Option Dict := do
  let type ← poolRecord.lookup "type"
  pure (poolRecord.merge [
    ("name", .str hostvol),
    ("g_volname", poolRecord.getD "gluster_volname" .null),
    ("g_host", poolRecord.getD "gluster_hosts" .null),
    ("g_options", poolRecord.getD "gluster_options" (.str "")),
    ("mount_identity", poolRecord.getD "mount_identity" .null),
    ("type", type)])

/-- The dictionaries that the driver makes of a record. -/
inductive Derived (data : Dict) : Dict → Prop
  | record : Derived data data
  | hosting (volname : String) (volume : Dict) (h : hostingVolume volname data = some volume) : Derived data volume
  | published (hostvol : String) (volume : Dict) (h : publishedVolume hostvol data = some volume) : Derived data volume

/-! ## The records that are written -/

def optStr : Option String → Json
  | none => .null
  | some value => .str value

/-- A stored brick of `update_config_map`. -/
def brickData (volname : String) (idx : Nat) (storage : StorageBrick) : Json := .obj [
  ("brick_path", .str ("/bricks/" ++ volname ++ "/data/brick")),
  ("kube_hostname", .str storage.node),
  ("node", .str (getBrickHostname volname idx ++ "-0." ++ volname)),
  ("node_id", .str ("node-" ++ idx.repr)),
  ("host_brick_path", .str storage.path),
  ("brick_device", .str storage.device),
  ("pvc_name", .str storage.pvc),
  ("brick_device_dir", .str (getBrickDeviceDir storage)),
  ("decommissioned", .str storage.decommissioned),
  ("brick_index", .num idx)]

/-- The `tiebreaker` of a `Replica2` pool, with its default port. -/
def tiebreakerData : Option Tiebreaker → Dict
  | none => []
  | some t => [("deployment", .str t.deployment), ("node", .str t.node), ("path", .str t.path),
      ("port", .num (if t.port = some 0 then 24007 else t.port.getD 24007))]

/-- The record that `update_config_map` begins with. -/
def nativeData (obj : KadaluStorage) (ns version : String) : Dict :=
  let data : Dict := [
    ("namespace", .str ns),
    ("kadalu_version", .str version),
    ("volname", .str obj.name),
    ("storageClassName", .str obj.className),
    ("volume_id", optStr obj.volumeId),
    ("single_pv_per_pool", .bool obj.singlePvPerPool),
    ("type", optStr obj.type),
    ("pvReclaimPolicy", .str obj.pvReclaimPolicy),
    ("bricks", .arr (obj.storage.mapIdx (brickData obj.name))),
    ("disperse", .obj [("data", .num obj.disperse.data), ("redundancy", .num obj.disperse.redundancy)]),
    ("options", .obj (Dict.merge [] (obj.options.map fun option => (option.1, .str option.2))))]
  if obj.type = some VOLUME_TYPE_REPLICA_2 then data.set "tiebreaker" (.obj (tiebreakerData obj.tiebreaker)) else data

/-- The record that `handle_external_storage_addition` begins with. -/
def externalData (obj : KadaluStorage) : Dict := [
  ("volname", .str obj.name),
  ("storageClassName", .str obj.className),
  ("volume_id", optStr obj.volumeId),
  ("type", .str VOLUME_TYPE_EXTERNAL),
  ("pvReclaimPolicy", .str obj.pvReclaimPolicy),
  ("single_pv_per_pool", .bool obj.singlePvPerPool),
  ("gluster_hosts", .str (",".intercalate (canonicalGlusterHosts obj.details.hosts))),
  ("gluster_volname", optStr obj.details.glusterVolname),
  ("gluster_options", .str obj.details.glusterOptions)]

/-- The mount metadata of a record. -/
def stamp (data : Dict) (mountIdentity fingerprint : String) : Dict :=
  (data.set "mount_identity" (.str mountIdentity)).set "mount_config_fingerprint" (.str fingerprint)

/-- The fields that the fingerprints read. -/
def backendKeys : List String :=
  ["kadalu_format", "single_pv_per_pool", "type", "volname", "volume_id", "gluster_hosts", "gluster_volname",
    "gluster_options", "bricks", "disperse", "options", "tiebreaker"]

/-- The names that the driver gives to some of them, and the mount metadata. -/
def reservedKeys : List String := ["g_host", "g_volname", "g_options", "mount_identity", "mount_config_fingerprint"]

/-- The records of the operator: a native, an External or a migrated one with its mount metadata, and other fields, such as
those of the ownership and of the deletion, that are set or removed. What is migrated is a record of any version that
names its pool, by its own fields. -/
inductive Written : Dict → Prop
  | native (obj : KadaluStorage) (ns version mountIdentity fingerprint : String) (hid : isCanonicalUuid mountIdentity = true)
    (hfp : operatorFingerprint (nativeData obj ns version) = some fingerprint) :
    Written (stamp (nativeData obj ns version) mountIdentity fingerprint)
  | external (obj : KadaluStorage) (mountIdentity fingerprint : String) (hid : isCanonicalUuid mountIdentity = true)
    (hfp : operatorFingerprint (externalData obj) = some fingerprint) :
    Written (stamp (externalData obj) mountIdentity fingerprint)
  | migrated (existing : Dict) (mountIdentity fingerprint : String) (hvolname : (existing.lookup "volname").isSome = true)
    (haliases : ∀ key ∈ ["g_host", "g_volname", "g_options"], existing.lookup key = none)
    (hid : isCanonicalUuid mountIdentity = true) (hfp : operatorFingerprint existing = some fingerprint) :
    Written (stamp existing mountIdentity fingerprint)
  | field {data : Dict} (key : String) (value : Json) (hkey : key ∉ backendKeys ++ reservedKeys) (h : Written data) :
    Written (data.set key value)
  | pop {data : Dict} (key : String) (hkey : key ∉ backendKeys ++ reservedKeys) (h : Written data) : Written (data.pop key)

/-! ## What a mount depends on -/

/-- One JSON value but for the order of keys. -/
def Alike (a b : Json) : Prop := a.sortKeys = b.sortKeys

/-- The endpoints in `gluster_hosts`, as they are given. -/
def givenHosts : Json → List String
  | .str hosts => (splitChars ',' hosts.toList).map String.ofList
  | .arr hosts => hosts.map pyStr
  | _ => []

/-- An endpoint of `gluster_hosts`, without the white space around it. -/
def Endpoint (hosts : Json) (host : String) : Prop :=
  host ≠ "" ∧ ∃ given ∈ givenHosts hosts, String.ofList (strip given.toList) = host

/-- Two bricks at the same place, with the same server. -/
def SameBrick (a b : Json) : Prop :=
  ∃ x y, a = .obj x ∧ b = .obj y ∧
    ∀ field ∈ ["brick_device", "brick_index", "brick_path", "decommissioned", "host_brick_path", "kube_hostname", "node",
      "node_id", "pvc_name"], Alike (Dict.getD x field .null) (Dict.getD y field .null)

/-- Two records of one backend: the same pool with the same bricks and options, or the same External volume. -/
structure SameMount (a b : Dict) : Prop where
  pool : ∀ key ∈ ["type", "volname", "volume_id"], Alike (a.getD key .null) (b.getD key .null)
  dedicated : getSinglePvPerPool a = getSinglePvPerPool b
  hosts : isExternal (a.getD "type" .null) = true →
    ∀ host, Endpoint (a.getD "gluster_hosts" (.str "")) host ↔ Endpoint (b.getD "gluster_hosts" (.str "")) host
  volume : isExternal (a.getD "type" .null) = true → Alike (a.getD "gluster_volname" .null) (b.getD "gluster_volname" .null) ∧
    Alike (a.getD "gluster_options" (.str "")) (b.getD "gluster_options" (.str ""))
  bricks : isExternal (a.getD "type" .null) = false → ∃ as bs, elements (a.getD "bricks" (.arr [])) = some as ∧
    elements (b.getD "bricks" (.arr [])) = some bs ∧ List.Forall₂ SameBrick as bs
  native : isExternal (a.getD "type" .null) = false →
    ∀ key ∈ ["disperse", "options", "tiebreaker"], Alike (a.getD key (.obj [])) (b.getD key (.obj []))

/-! ## The backend of a record -/

variable {data volume : Dict} {k : String} {v : Json}

/-- The fingerprint reads nothing else. -/
theorem operatorCanonical_congr {other : Dict} (h : ∀ key ∈ backendKeys, other.lookup key = data.lookup key) :
    operatorCanonical other = operatorCanonical data := by
  have hget : ∀ key ∈ backendKeys, ∀ default, other.getD key default = data.getD key default := fun key hkey default => by
    rw [Dict.getD, Dict.getD, h key hkey]
  simp only [backendKeys, List.forall_mem_cons] at hget
  obtain ⟨h₁, h₂, h₃, h₄, h₅, h₆, h₇, h₈, h₉, h₁₀, h₁₁, h₁₂, -⟩ := hget
  simp only [operatorCanonical, getSinglePvPerPool, h₁, h₂, h₃, h₄, h₅, h₆, h₇, h₈, h₉, h₁₀, h₁₁, h₁₂]

/-- What the driver relies on in a record. -/
structure Stored (data : Dict) (mountIdentity fingerprint : String) : Prop where
  volname : (data.lookup "volname").isSome = true
  aliases : ∀ key ∈ ["g_host", "g_volname", "g_options"], data.lookup key = none
  identity : data.lookup "mount_identity" = some (.str mountIdentity)
  canonical : isCanonicalUuid mountIdentity = true
  stamped : data.lookup "mount_config_fingerprint" = some (.str fingerprint)
  computed : operatorFingerprint data = some fingerprint

theorem stored_stamp {mountIdentity fingerprint : String} (hvolname : (data.lookup "volname").isSome = true)
    (haliases : ∀ key ∈ ["g_host", "g_volname", "g_options"], data.lookup key = none)
    (hid : isCanonicalUuid mountIdentity = true) (hfp : operatorFingerprint data = some fingerprint) :
    Stored (stamp data mountIdentity fingerprint) mountIdentity fingerprint where
  volname := by
    unfold stamp
    rw [Dict.lookup_set_ne _ _ (by decide), Dict.lookup_set_ne _ _ (by decide)]
    exact hvolname
  aliases key hkey := by
    have hne : key ≠ "mount_config_fingerprint" ∧ key ≠ "mount_identity" := by
      constructor <;> rintro rfl <;> exact absurd hkey (by decide)
    unfold stamp
    rw [Dict.lookup_set_ne _ _ hne.1, Dict.lookup_set_ne _ _ hne.2]
    exact haliases key hkey
  identity := by
    unfold stamp
    rw [Dict.lookup_set_ne _ _ (by decide), Dict.lookup_set, if_pos rfl]
  canonical := hid
  stamped := by
    unfold stamp
    rw [Dict.lookup_set, if_pos rfl]
  computed := by
    unfold operatorFingerprint stamp
    rwa [operatorCanonical_congr fun key hkey => ?_]
    have hne : key ≠ "mount_config_fingerprint" ∧ key ≠ "mount_identity" := by
      constructor <;> rintro rfl <;> exact absurd hkey (by decide)
    rw [Dict.lookup_set_ne _ _ hne.1, Dict.lookup_set_ne _ _ hne.2]

/-- The other fields may change. -/
theorem Stored.congr {other : Dict} {mountIdentity fingerprint : String} (h : Stored data mountIdentity fingerprint)
    (hsame : ∀ key ∈ backendKeys ++ reservedKeys, other.lookup key = data.lookup key) :
    Stored other mountIdentity fingerprint where
  volname := by rw [hsame _ (by decide)]; exact h.volname
  aliases key hkey := by
    rw [hsame key ?_]
    · exact h.aliases key hkey
    · simp only [List.mem_cons, List.not_mem_nil, or_false] at hkey
      rcases hkey with rfl | rfl | rfl <;> decide
  identity := by rw [hsame _ (by decide)]; exact h.identity
  canonical := h.canonical
  stamped := by rw [hsame _ (by decide)]; exact h.stamped
  computed := by
    unfold operatorFingerprint
    rw [operatorCanonical_congr fun key hkey => hsame key (List.mem_append_left _ hkey)]
    exact h.computed

/-- **Every written record** has what the driver relies on. -/
theorem Written.stored (h : Written data) : ∃ mountIdentity fingerprint, Stored data mountIdentity fingerprint := by
  induction h with
  | native obj ns version mountIdentity fingerprint hid hfp =>
    refine ⟨_, _, stored_stamp ?_ ?_ hid hfp⟩
    · unfold nativeData
      split
      · rw [Dict.lookup_set_ne _ _ (by decide)]
        rfl
      · rfl
    · intro key hkey
      have hne : key ≠ "tiebreaker" := by
        rintro rfl
        exact absurd hkey (by decide)
      unfold nativeData
      simp only [List.mem_cons, List.not_mem_nil, or_false] at hkey
      split
      · rw [Dict.lookup_set_ne _ _ hne]
        rcases hkey with rfl | rfl | rfl <;> rfl
      · rcases hkey with rfl | rfl | rfl <;> rfl
  | external obj mountIdentity fingerprint hid hfp =>
    refine ⟨_, _, stored_stamp rfl ?_ hid hfp⟩
    intro key hkey
    simp only [List.mem_cons, List.not_mem_nil, or_false] at hkey
    rcases hkey with rfl | rfl | rfl <;> rfl
  | migrated existing mountIdentity fingerprint hvolname haliases hid hfp =>
    exact ⟨_, _, stored_stamp hvolname haliases hid hfp⟩
  | field key value hkey _ ih =>
    obtain ⟨g, fp, h⟩ := ih
    exact ⟨g, fp, h.congr fun k hk => Dict.lookup_set_ne _ _ fun he => hkey (he ▸ hk)⟩
  | pop key hkey _ ih =>
    obtain ⟨g, fp, h⟩ := ih
    exact ⟨g, fp, h.congr fun k hk => Dict.lookup_pop_ne _ fun he => hkey (he ▸ hk)⟩

/-! ## The driver's dictionaries -/

theorem canonicalHosts_empty : canonicalHosts (.str "") = .arr [] := rfl

/-- **The raw record.** -/
theorem csiCanonical_record {mountIdentity fingerprint : String} (h : Stored data mountIdentity fingerprint) :
    csiCanonical data = operatorCanonical data := by
  unfold csiCanonical operatorCanonical
  rw [Dict.getD_present _ .null h.volname, Dict.getD_absent (h.aliases "g_host" (by decide)),
    Dict.getD_absent (h.aliases "g_volname" (by decide)), Dict.getD_absent (h.aliases "g_options" (by decide))]

/-- The fields that the driver takes over under their own names. -/
def sharedKeys : List String :=
  ["type", "volname", "volume_id", "gluster_hosts", "gluster_volname", "gluster_options", "bricks", "disperse", "options",
    "tiebreaker"]

/-- A dictionary that has the fields of a record, some also under other names. -/
structure View (data volume : Dict) : Prop where
  single : getSinglePvPerPool volume = getSinglePvPerPool data
  shared : ∀ key ∈ sharedKeys, ∀ default, volume.getD key default = data.getD key default
  mount : ∀ key ∈ ["mount_identity", "mount_config_fingerprint"], volume.getD key .null = data.getD key .null
  host : volume.getD "g_host" (.str "") = data.getD "gluster_hosts" .null
  glusterVolname : volume.getD "g_volname" .null = data.getD "gluster_volname" .null
  options : volume.getD "g_options" (.str "") = data.getD "gluster_options" (.str "")

/-- Endpoints that are not given are none, whatever stands for them. -/
theorem canonicalHosts_getD (data : Dict) :
    canonicalHosts (data.getD "gluster_hosts" .null) = canonicalHosts (data.getD "gluster_hosts" (.str "")) := by
  unfold Dict.getD
  cases data.lookup "gluster_hosts" with
  | none => exact canonicalHosts_empty.symm
  | some hosts => rfl

theorem View.canonical (h : View data volume) (hvolname : (data.lookup "volname").isSome = true) :
    csiCanonical volume = operatorCanonical data := by
  have hs := fun key (hkey : key ∈ sharedKeys) => h.shared key hkey
  unfold csiCanonical operatorCanonical
  rw [h.single, hs "type" (by decide), hs "volname" (by decide), hs "volume_id" (by decide), hs "gluster_hosts" (by decide),
    hs "gluster_volname" (by decide), hs "gluster_options" (by decide), hs "bricks" (by decide), hs "disperse" (by decide),
    hs "options" (by decide), hs "tiebreaker" (by decide), h.host, h.glusterVolname, h.options,
    Dict.getD_present _ .null hvolname]
  simp only [Dict.getD_getD, externalFields, canonicalHosts_getD]

omit [JsonText] in
theorem getD_type {type : Json} (h : data.lookup "type" = some type) (default : Json) : data.getD "type" default = type := by
  simp only [Dict.getD, h, Option.getD_some]

omit [JsonText] in
theorem getSinglePvPerPool_set {single : Bool} (h : getSinglePvPerPool data = some single) :
    getSinglePvPerPool (data.set "single_pv_per_pool" (.bool single)) = some single := by
  unfold getSinglePvPerPool at h ⊢
  rw [Dict.getD_set, if_neg (by decide), Dict.getD_set, if_pos rfl]
  split at h
  · rfl
  · exact h
  · exact h

omit [JsonText] in
theorem view_published {hostvol : String} (h : publishedVolume hostvol data = some volume) : View data volume := by
  unfold publishedVolume at h
  cases htype : data.lookup "type" with
  | none => simp [htype] at h
  | some type =>
    simp only [htype, Option.pure_def, Option.bind_eq_bind, Option.bind_some, Option.some.injEq] at h
    subst h
    refine ⟨?_, fun key hkey default => ?_, fun key hkey => ?_, ?_, ?_, ?_⟩
    · simp [getSinglePvPerPool]
    · simp only [sharedKeys, List.mem_cons, List.not_mem_nil, or_false] at hkey
      rcases hkey with rfl | rfl | rfl | rfl | rfl | rfl | rfl | rfl | rfl | rfl <;> simp [getD_type htype]
    · simp only [List.mem_cons, List.not_mem_nil, or_false] at hkey
      rcases hkey with rfl | rfl <;> simp
    · simp
    · simp
    · simp

omit [JsonText] in
theorem view_hosting {volname : String} (h : hostingVolume volname data = some volume) : View data volume := by
  unfold hostingVolume at h
  cases htype : data.lookup "type" with
  | none => simp [htype] at h
  | some type =>
    cases hsingle : getSinglePvPerPool data with
    | none => simp [htype, hsingle] at h
    | some single =>
      cases haffinity : nodeAffinity data with
      | none => simp [htype, hsingle, haffinity] at h
      | some affinity =>
        simp only [htype, hsingle, haffinity, Option.pure_def, Option.bind_eq_bind, Option.bind_some,
          Option.some.injEq] at h
        subst h
        refine ⟨?_, fun key hkey default => ?_, fun key hkey => ?_, ?_, ?_, ?_⟩
        · rw [hsingle, ← getSinglePvPerPool_set hsingle]
          simp [getSinglePvPerPool]
        · simp only [sharedKeys, List.mem_cons, List.not_mem_nil, or_false] at hkey
          rcases hkey with rfl | rfl | rfl | rfl | rfl | rfl | rfl | rfl | rfl | rfl <;> simp [getD_type htype]
        · simp only [List.mem_cons, List.not_mem_nil, or_false] at hkey
          rcases hkey with rfl | rfl <;> simp
        · simp
        · simp
        · simp

/-- **One backend.** Whatever dictionary the driver makes of a stored record, it has the backend of the operator. -/
theorem canonical_agrees {mountIdentity fingerprint : String} (h : Stored data mountIdentity fingerprint)
    (hd : Derived data volume) : csiCanonical volume = operatorCanonical data := by
  cases hd with
  | record => exact csiCanonical_record h
  | hosting _ _ hv => exact (view_hosting hv).canonical h.volname
  | published _ _ hv => exact (view_published hv).canonical h.volname

omit [JsonText] in
theorem getD_mount (hd : Derived data volume) : ∀ key ∈ ["mount_identity", "mount_config_fingerprint"],
    volume.getD key .null = data.getD key .null := by
  cases hd with
  | record => exact fun _ _ => rfl
  | hosting _ _ hv => exact (view_hosting hv).mount
  | published _ _ hv => exact (view_published hv).mount

/-- **The driver accepts** a stored record. -/
theorem mountIdentity_derived {mountIdentity fingerprint : String} (h : Stored data mountIdentity fingerprint)
    (hd : Derived data volume) (hhex : isFingerprint fingerprint = true) :
    Fingerprint.mountIdentity volume = .ok (some (mountIdentity ++ "-" ++ fingerprint)) := by
  have hidentity : volume.getD "mount_identity" .null = .str mountIdentity := by
    rw [getD_mount hd _ (by decide), Dict.getD, h.identity, Option.getD_some]
  have hstamp : volume.getD "mount_config_fingerprint" .null = .str fingerprint := by
    rw [getD_mount hd _ (by decide), Dict.getD, h.stamped, Option.getD_some]
  have huuid : canonicalUuid mountIdentity = some mountIdentity := of_decide_eq_true h.canonical
  have hcomputed : csiFingerprint volume = some fingerprint := by
    rw [csiFingerprint, canonical_agrees h hd]
    exact h.computed
  simp only [Fingerprint.mountIdentity, hidentity, huuid, hcomputed, hstamp, hhex, Bool.true_and, decide_true, if_true]
  rfl

/-! ## Tokens -/

omit [JsonText] in
/-- The last separator of a token is the one before its fingerprint. -/
theorem rpartition_token {generation fingerprint : List Char} (h : '-' ∉ fingerprint) :
    rpartition (generation ++ '-' :: fingerprint) = some (generation, fingerprint) := by
  have hlast : ∀ c ∈ fingerprint.reverse, decide (c ≠ '-') = true := fun c hc => by
    have hc := List.mem_reverse.mp hc
    exact decide_eq_true fun he => h (he ▸ hc)
  unfold rpartition
  rw [List.reverse_append, List.reverse_cons, List.append_assoc, List.span_eq_takeWhile_dropWhile,
    List.takeWhile_append_of_pos hlast, List.dropWhile_append_of_pos hlast]
  simp

omit [JsonText] in
theorem mountIdentityGeneration_token {generation fingerprint : String} (hid : isCanonicalUuid generation = true)
    (hhex : isFingerprint fingerprint = true) :
    mountIdentityGeneration (generation ++ "-" ++ fingerprint) = some generation := by
  have hdash : '-' ∉ fingerprint.toList := by
    intro hmem
    simp only [isFingerprint, Bool.and_eq_true] at hhex
    exact absurd (List.all_eq_true.mp hhex.2 _ hmem) (by decide)
  unfold mountIdentityGeneration
  rw [String.toList_append, String.toList_append, List.append_assoc]
  show (match rpartition (generation.toList ++ '-' :: fingerprint.toList) with
    | none => none
    | some (generation, fingerprint) => _) = _
  rw [rpartition_token hdash]
  simp [hhex, hid]

/-! ## Digests -/

omit [JsonText] in
theorem isExternal_sortKeys (type : Json) : isExternal type.sortKeys = isExternal type := by
  cases type <;> rfl

omit [JsonText] in
theorem isExternal_congr {a b : Json} (h : Alike a b) : isExternal a = isExternal b := by
  rw [← isExternal_sortKeys a, h, isExternal_sortKeys]

/-- The canonical endpoints are the given ones. -/
theorem mem_canonicalHosts {hosts : Json} {host : String} :
    (∃ canonical, canonicalHosts hosts = .arr canonical ∧ .str host ∈ canonical) ↔ Endpoint hosts host := by
  have hmem : ∀ given : List String, (∃ canonical, Json.arr ((canonicalGlusterHosts given).map .str) = .arr canonical ∧
      .str host ∈ canonical) ↔ host ≠ "" ∧ ∃ x ∈ given, String.ofList (strip x.toList) = host := fun given => by
    rw [← mem_canonicalGlusterHosts]
    simp
  have hnone : (∃ canonical, Json.arr [] = .arr canonical ∧ Json.str host ∈ canonical) ↔ host ≠ "" ∧ ∃ x ∈ ([] : List String),
      String.ofList (strip x.toList) = host := by simp
  cases hosts with
  | str hosts => exact hmem _
  | arr hosts => exact hmem _
  | _ => exact hnone

/-- Canonical endpoints are strings, in which there are no keys. -/
theorem sortKeys_canonicalHosts (hosts : Json) : (canonicalHosts hosts).sortKeys = canonicalHosts hosts := by
  have hstr : ∀ given : List String, (Json.arr (given.map .str)).sortKeys = .arr (given.map .str) := fun given => by
    rw [Json.sortKeys, Json.sortValues_eq_map, List.map_map]
    rfl
  cases hosts with
  | str hosts => exact hstr _
  | arr hosts => exact hstr _
  | _ => rfl

theorem endpoints_congr {a b : Json} (h : Alike (canonicalHosts a) (canonicalHosts b)) (host : String) :
    Endpoint a host ↔ Endpoint b host := by
  have heq : canonicalHosts a = canonicalHosts b := by
    rw [← sortKeys_canonicalHosts a, h, sortKeys_canonicalHosts]
  rw [← mem_canonicalHosts, ← mem_canonicalHosts, heq]

omit [JsonText] in
theorem sameBrick_of_canonical {a b ca cb : Json} (ha : canonicalBrick a = some ca) (hb : canonicalBrick b = some cb)
    (h : Alike ca cb) : SameBrick a b := by
  have hkeys : ∀ brick : Dict, ((brickFields.map fun field => (field, Dict.getD brick field .null)).map Prod.fst).Nodup :=
    fun brick => by
      rw [List.map_map]
      simp [brickFields]
  cases a with
  | obj x =>
    cases b with
    | obj y =>
      cases ha
      cases hb
      refine ⟨x, y, rfl, rfl, fun field hfield => ?_⟩
      have hlookup := Json.lookup_of_sortKeys_eq h (hkeys x) (hkeys y) field
      simp only [List.mem_cons, List.not_mem_nil, or_false] at hfield
      rcases hfield with rfl | rfl | rfl | rfl | rfl | rfl | rfl | rfl | rfl <;> exact Option.some.inj hlookup
    | _ => cases hb
  | _ => cases ha

omit [JsonText] in
theorem mapM_cons {brick : Json} {bricks canonical : List Json} (h : (brick :: bricks).mapM canonicalBrick = some canonical) :
    ∃ c, canonicalBrick brick = some c ∧ ∃ rest, bricks.mapM canonicalBrick = some rest ∧ canonical = c :: rest := by
  rw [List.mapM_cons] at h
  obtain ⟨c, hc, h⟩ := Option.bind_eq_some_iff.mp h
  obtain ⟨rest, hrest, h⟩ := Option.bind_eq_some_iff.mp h
  cases h
  exact ⟨c, hc, rest, hrest, rfl⟩

omit [JsonText] in
theorem forall_sameBrick {as bs cas cbs : List Json} (ha : as.mapM canonicalBrick = some cas)
    (hb : bs.mapM canonicalBrick = some cbs) (h : cas.map Json.sortKeys = cbs.map Json.sortKeys) :
    List.Forall₂ SameBrick as bs := by
  induction as generalizing bs cas cbs with
  | nil =>
    cases ha
    cases bs with
    | nil => exact .nil
    | cons b bs =>
      obtain ⟨cb, -, rest, -, rfl⟩ := mapM_cons hb
      cases h
  | cons a as ih =>
    obtain ⟨ca, hca, rest, hrest, rfl⟩ := mapM_cons ha
    cases bs with
    | nil =>
      cases hb
      cases h
    | cons b bs =>
      obtain ⟨cb, hcb, rest', hrest', rfl⟩ := mapM_cons hb
      obtain ⟨hhead, htail⟩ := List.cons.inj h
      exact .cons (sameBrick_of_canonical hca hcb hhead) (ih hrest hrest' htail)

omit [JsonText] in
/-- **Bricks.** Those of equal canonical forms are the same, one by one. -/
theorem sameBricks_of_canonical {a b ca cb : Json} (ha : canonicalBricks a = some ca) (hb : canonicalBricks b = some cb)
    (h : Alike ca cb) : ∃ as bs, elements a = some as ∧ elements b = some bs ∧ List.Forall₂ SameBrick as bs := by
  obtain ⟨as, has, ha⟩ := Option.bind_eq_some_iff.mp ha
  obtain ⟨bs, hbs, hb⟩ := Option.bind_eq_some_iff.mp hb
  obtain ⟨cas, hcas, ha⟩ := Option.bind_eq_some_iff.mp ha
  obtain ⟨cbs, hcbs, hb⟩ := Option.bind_eq_some_iff.mp hb
  cases ha
  cases hb
  simp only [Alike, Json.sortKeys, Json.sortValues_eq_map, Json.arr.injEq] at h
  exact ⟨as, bs, has, hbs, forall_sameBrick hcas hcbs h⟩

/-- The backend in a digest: that of an External volume, or that of a native pool. -/
theorem operatorCanonical_cases {canonical : Dict} (h : operatorCanonical data = some canonical) :
    ∃ single, getSinglePvPerPool data = some single ∧
      (isExternal (data.getD "type" .null) = true ∧ canonical =
          commonFields (data.getD "type" .null) (data.getD "volname" .null) (data.getD "volume_id" .null) single ++
            externalFields (data.getD "gluster_hosts" (.str "")) (data.getD "gluster_volname" .null)
              (data.getD "gluster_options" (.str "")) ∨
        isExternal (data.getD "type" .null) = false ∧ ∃ bricks, canonicalBricks (data.getD "bricks" (.arr [])) = some bricks ∧
          canonical = commonFields (data.getD "type" .null) (data.getD "volname" .null) (data.getD "volume_id" .null) single ++
            nativeFields bricks (data.getD "disperse" (.obj [])) (data.getD "options" (.obj []))
              (data.getD "tiebreaker" (.obj []))) := by
  unfold operatorCanonical at h
  simp only [Option.bind_eq_bind, Option.bind_eq_some_iff] at h
  obtain ⟨single, hsingle, h⟩ := h
  refine ⟨single, hsingle, ?_⟩
  split at h
  · next hexternal =>
    cases h
    exact .inl ⟨hexternal, rfl⟩
  · next hexternal =>
    obtain ⟨bricks, hbricks, h⟩ := Option.bind_eq_some_iff.mp h
    cases h
    exact .inr ⟨by simpa using hexternal, bricks, hbricks, rfl⟩

/-- The fields of a backend have each key once. -/
theorem keys_operatorCanonical {canonical : Dict} (h : operatorCanonical data = some canonical) :
    (canonical.map Prod.fst).Nodup := by
  obtain ⟨single, -, ⟨-, rfl⟩ | ⟨-, bricks, -, rfl⟩⟩ := operatorCanonical_cases h
  · simp [commonFields, externalFields]
  · simp [commonFields, nativeFields]

/-- **Equal backends** have everything in common that a mount depends on. -/
theorem sameMount_of_canonical {other a b : Dict} (ha : operatorCanonical data = some a) (hb : operatorCanonical other = some b)
    (h : (Json.obj a).sortKeys = (Json.obj b).sortKeys) : SameMount data other := by
  have hlookup := Json.lookup_of_sortKeys_eq h (keys_operatorCanonical ha) (keys_operatorCanonical hb)
  obtain ⟨single, hsingle, ha⟩ := operatorCanonical_cases ha
  obtain ⟨single', hsingle', hb⟩ := operatorCanonical_cases hb
  have hcommon : Alike (data.getD "type" .null) (other.getD "type" .null) ∧
      Alike (data.getD "volname" .null) (other.getD "volname" .null) ∧
      Alike (data.getD "volume_id" .null) (other.getD "volume_id" .null) ∧ Alike (.bool single) (.bool single') := by
    rcases ha with ⟨-, rfl⟩ | ⟨-, bricks, -, rfl⟩ <;> rcases hb with ⟨-, rfl⟩ | ⟨-, bricks', -, rfl⟩ <;>
      exact ⟨Option.some.inj (hlookup "type"), Option.some.inj (hlookup "volname"), Option.some.inj (hlookup "volume_id"),
        Option.some.inj (hlookup "single_pv_per_pool")⟩
  obtain ⟨htype, hvolname, hid, hsame⟩ := hcommon
  have hpool : ∀ key ∈ ["type", "volname", "volume_id"], Alike (data.getD key .null) (other.getD key .null) :=
    List.forall_mem_cons.mpr ⟨htype, List.forall_mem_cons.mpr ⟨hvolname, List.forall_mem_singleton.mpr hid⟩⟩
  have hexternal := isExternal_congr htype
  have hdedicated : getSinglePvPerPool data = getSinglePvPerPool other := by
    rw [hsingle, hsingle', Json.bool.inj hsame]
  rcases ha with ⟨h₁, rfl⟩ | ⟨h₁, bricks, hbricks, rfl⟩ <;> rcases hb with ⟨h₂, rfl⟩ | ⟨h₂, bricks', hbricks', rfl⟩ <;>
    rw [h₁, h₂] at hexternal
  · have hno {p : Prop} (h : isExternal (data.getD "type" .null) = false) : p := by
      rw [h₁] at h
      cases h
    exact ⟨hpool, hdedicated, fun _ => endpoints_congr (Option.some.inj (hlookup "gluster_hosts")),
      fun _ => ⟨Option.some.inj (hlookup "gluster_volname"), Option.some.inj (hlookup "gluster_options")⟩, hno, hno⟩
  · cases hexternal
  · cases hexternal
  · have hno {p : Prop} (h : isExternal (data.getD "type" .null) = true) : p := by
      rw [h₁] at h
      cases h
    refine ⟨hpool, hdedicated, hno, hno, fun _ => ?_, fun _ => List.forall_mem_cons.mpr
      ⟨Option.some.inj (hlookup "disperse"), List.forall_mem_cons.mpr
        ⟨Option.some.inj (hlookup "options"), List.forall_mem_singleton.mpr (Option.some.inj (hlookup "tiebreaker"))⟩⟩⟩
    exact sameBricks_of_canonical hbricks hbricks' (Option.some.inj (hlookup "bricks"))

/-- **Both programs agree.** The driver computes the fingerprint of every written record as the operator does, from whatever
dictionary it has made of it, and accepts it; the mount identity is read back from its token. Where SHA-256 does not
collide, two records with one fingerprint have everything in common that a mount depends on. -/
theorem fingerprints_agree (hhex : ∀ value, isFingerprint (JsonText.sha256 value) = true) (K : Set Json)
    (hinj : Set.InjOn JsonText.sha256 K) (hw : Written data) :
    ∃ mountIdentity fingerprint, data.lookup "mount_identity" = some (.str mountIdentity) ∧
      operatorFingerprint data = some fingerprint ∧
      (∀ volume, Derived data volume → csiFingerprint volume = some fingerprint ∧
        Fingerprint.mountIdentity volume = .ok (some (mountIdentity ++ "-" ++ fingerprint))) ∧
      mountIdentityGeneration (mountIdentity ++ "-" ++ fingerprint) = some mountIdentity ∧
      ∀ other a b, operatorCanonical data = some a → operatorCanonical other = some b →
        (Json.obj a).sortKeys ∈ K → (Json.obj b).sortKeys ∈ K → operatorFingerprint other = some fingerprint →
        SameMount data other := by
  obtain ⟨g, fp, h⟩ := hw.stored
  have hfp : isFingerprint fp = true := by
    have hcomputed := h.computed
    unfold operatorFingerprint at hcomputed
    obtain ⟨c, -, rfl⟩ := Option.map_eq_some_iff.mp hcomputed
    exact hhex _
  refine ⟨g, fp, h.identity, h.computed, fun volume hd => ⟨?_, mountIdentity_derived h hd hfp⟩,
    mountIdentityGeneration_token h.canonical hfp, ?_⟩
  · rw [csiFingerprint, canonical_agrees h hd]
    exact h.computed
  · intro other a b ha hb hamem hbmem hother
    have hda : digest a = fp := by
      have hcomputed := h.computed
      rw [operatorFingerprint, ha] at hcomputed
      exact Option.some.inj hcomputed
    have hdb : digest b = fp := by
      rw [operatorFingerprint, hb] at hother
      exact Option.some.inj hother
    exact sameMount_of_canonical ha hb (hinj hamem hbmem (hda.trans hdb.symm))

end

/-! ## A sample record -/

/-- The digest of the one backend below. -/
def sampleDigest : String := "e13077da308019ef93a577c2b243f9687ab68ffc662bea204b21b3e64c51c9da"

/-- The library functions where there is one backend. -/
abbrev sampleText : JsonText := ⟨fun _ => sampleDigest, fun _ => ""⟩

attribute [local instance] sampleText

/-- A pool on one claim. -/
def sampleStorage : KadaluStorage where
  name := "a"
  type := some "Replica1"
  volumeId := some "6ba7b810-9dad-11d1-80b4-00c04fd430c8"
  storage := [{ pvc := "a" }]

def sampleIdentity : String := "6ba7b811-9dad-11d1-80b4-00c04fd430c8"

theorem sample_written : Written (stamp (nativeData sampleStorage "kadalu" "devel") sampleIdentity sampleDigest) :=
  .native _ _ _ _ _ (by decide +kernel) rfl

theorem sampleText_digest (value : Json) : isFingerprint (JsonText.sha256 value) = true := by
  show isFingerprint sampleDigest = true
  decide +kernel

/-- The sample record is accepted, and its mount identity is read back. -/
theorem sample_agrees : ∃ mountIdentity fingerprint, mountIdentityGeneration (mountIdentity ++ "-" ++ fingerprint) =
    some mountIdentity ∧ Fingerprint.mountIdentity (stamp (nativeData sampleStorage "kadalu" "devel") sampleIdentity
      sampleDigest) = .ok (some (mountIdentity ++ "-" ++ fingerprint)) := by
  let backend := (operatorCanonical (nativeData sampleStorage "kadalu" "devel")).getD []
  obtain ⟨g, fp, -, -, haccepted, hgeneration, -⟩ :=
    fingerprints_agree sampleText_digest {(Json.obj backend).sortKeys} (Set.injOn_singleton _ _) sample_written
  exact ⟨g, fp, hgeneration, (haccepted _ .record).2⟩

end Kadalu.Fingerprint
