import Kadalu.Operator.Cluster
import Mathlib.Data.Finmap

/-!
# StorageClasses

The StorageClass of a pool is named by the pool, and its annotations say whose it is. Its fields cannot be changed, so the
operator replaces it: it deletes the class, and creates it anew with `kubectl create`, which fails when the name is taken. It
deletes a class with the UID and the `resourceVersion` that it has read, and only when `validateStorageClassOwner` accepts it.
-/

namespace Kadalu.StorageClasses

open Calls Operator

/-! ## Classes -/

/-- A dictionary of texts; the order of its keys does not matter. -/
abbrev Fields := Finmap fun _ : String => String

def fields (entries : List (String × String)) : Fields := (entries.map fun e => (⟨e.1, e.2⟩ : Sigma fun _ : String => String)).toFinmap

/-- What a manifest says of a StorageClass. -/
structure Manifest where
  name : String
  provisioner : String
  parameters : Fields
  annotations : Fields
  reclaimPolicy : Option String
  allowVolumeExpansion : Option Bool
  deriving DecidableEq

/-- A StorageClass as it is listed; an identity that the API server has not given is empty. -/
structure StorageClass extends Manifest where
  uid : String
  resourceVersion : String
  deriving DecidableEq

def STORAGE_CLASS_NAMESPACE_ANNOTATION : String := "kadalu.io/storage-namespace"
def STORAGE_CLASS_NAME_ANNOTATION : String := "kadalu.io/storage-name"
def STORAGE_CLASS_UID_ANNOTATION : String := "kadalu.io/storage-uid"
def STORAGE_CLASS_VOLUME_ID_ANNOTATION : String := "kadalu.io/volume-id"
def STORAGE_CLASS_MOUNT_IDENTITY_ANNOTATION : String := "kadalu.io/mount-identity"
def STORAGE_CLASS_BACKEND_FINGERPRINT_ANNOTATION : String := "kadalu.io/backend-fingerprint"

def CSI_DRIVER_NAME : String := "kadalu"

/-- The default of `KADALU_STORAGE_CLASS_DELETE_TIMEOUT_SECONDS` -/
def STORAGE_CLASS_DELETE_TIMEOUT_SECONDS : Int := 60

/-! ## Owners -/

/-- `storage_class_identity`: the owner and the parameters of a generated class. -/
structure Identity where
  storageNamespace : String
  name : String
  storageClassName : String
  uid : String
  volumeId : String := ""
  mountIdentity : String := ""
  backendFingerprint : String := ""
  parameters : Fields
  deriving DecidableEq

/-- `str` of a Boolean -/
def pyBool (value : Bool) : String := if value then "True" else "False"

def optionsField (options : String) : List (String × String) := if options = "" then [] else [("gluster_options", options)]

def externalParameters (hosts : List String) (volname options : String) (single : Bool) : Fields :=
  fields ([("hostvol_type", VOLUME_TYPE_EXTERNAL), ("gluster_hosts", joinHosts (canonicalGlusterHosts hosts)),
    ("gluster_volname", volname), ("single_pv_per_pool", pyBool single)] ++ optionsField options)

def nativeParameters (volname : String) (single : Bool) : Fields :=
  fields [("storage_name", volname), ("single_pv_per_pool", pyBool single)]

/-- `_canonical_storage_class_parameters` -/
def canonicalStorageClassParameters (parameters : Fields) : Fields :=
  if parameters.lookup "hostvol_type" = some VOLUME_TYPE_EXTERNAL then
    parameters.insert "gluster_hosts"
      (joinHosts (canonicalGlusterHosts (splitHosts ((parameters.lookup "gluster_hosts").getD ""))))
  else parameters

/-- `_storage_class_owner_annotations` -/
def storageClassOwnerAnnotations (identity : Identity) : List (String × String) :=
  [(STORAGE_CLASS_NAMESPACE_ANNOTATION, identity.storageNamespace), (STORAGE_CLASS_NAME_ANNOTATION, identity.name),
    (STORAGE_CLASS_UID_ANNOTATION, identity.uid), (STORAGE_CLASS_VOLUME_ID_ANNOTATION, identity.volumeId),
    (STORAGE_CLASS_MOUNT_IDENTITY_ANNOTATION, identity.mountIdentity),
    (STORAGE_CLASS_BACKEND_FINGERPRINT_ANNOTATION, identity.backendFingerprint)]

/-- An annotation that contradicts a known part of the durable identity. -/
def contradicts (annotations : Fields) (key expected : String) : Bool :=
  expected ≠ "" && (annotations.lookup key).any (· ≠ expected)

/-- `validate_storage_class_owner` -/
def validateStorageClassOwner (storageClass : StorageClass) (identity : Identity) (allowLegacy : Option Bool := none) :
    Except OpErr Unit :=
  let expectedName := identity.storageClassName
  let allowLegacy := allowLegacy.getD (expectedName = STORAGE_CLASS_NAME_PREFIX ++ identity.name)
  let annotations := storageClass.annotations
  if storageClass.name ≠ expectedName ∨ storageClass.provisioner ≠ CSI_DRIVER_NAME ∨
      canonicalStorageClassParameters storageClass.parameters ≠ canonicalStorageClassParameters identity.parameters then
    throw (.runtime s!"StorageClass {expectedName} is not owned by Kadalustorage {identity.storageNamespace}/{identity.name}")
  else if ¬(storageClassOwnerAnnotations identity).any fun a => decide (a.1 ∈ annotations) then
    if allowLegacy then pure ()
    else throw (.runtime s!"StorageClass {expectedName} has no Kadalu ownership metadata")
  else if annotations.lookup STORAGE_CLASS_NAMESPACE_ANNOTATION ≠ some identity.storageNamespace ∨
      annotations.lookup STORAGE_CLASS_NAME_ANNOTATION ≠ some identity.name ∨
      (identity.uid ≠ "" ∧ annotations.lookup STORAGE_CLASS_UID_ANNOTATION ≠ some identity.uid) then
    throw (.runtime s!"StorageClass {expectedName} is owned by another Kadalustorage")
  else if contradicts annotations STORAGE_CLASS_VOLUME_ID_ANNOTATION identity.volumeId ∨
      contradicts annotations STORAGE_CLASS_MOUNT_IDENTITY_ANNOTATION identity.mountIdentity ∨
      contradicts annotations STORAGE_CLASS_BACKEND_FINGERPRINT_ANNOTATION identity.backendFingerprint then
    throw (.runtime s!"StorageClass {expectedName} has a different durable storage identity")
  else pure ()

/-! ## Requests -/

inductive ClassRequest where
  | listClasses
  /-- `delete_storage_class` with preconditions -/
  | deleteClass (name uid resourceVersion : String)
  /-- `kubectl create` -/
  | createClass (manifest : Manifest)
  /-- the entry of a pool in the ConfigMap -/
  | readEntry (volname : String)
  | monotonic
  | sleep

def ClassRequest.Answer : ClassRequest → Type
  | listClasses => List StorageClass
  | readEntry _ => Option Serialized
  | monotonic => Int
  | deleteClass .. | createClass _ | sleep => Unit

abbrev ClassProg (α : Type) : Type := Prog ClassRequest ClassRequest.Answer OpErr α

def ask (r : ClassRequest) : ClassProg r.Answer := Prog.request r

open ClassRequest

/-- `existing_storage_class` -/
def existingStorageClass (name : String) : ClassProg (Option StorageClass) := do
  let (classes : List StorageClass) ← ask listClasses
  pure (classes.find? fun c => c.name = name)

/-- `_owned_storage_classes` -/
def ownedStorageClasses (identity : Identity) : ClassProg (List StorageClass) := do
  let (classes : List StorageClass) ← ask listClasses
  pure (classes.filter fun c =>
    c.annotations.lookup STORAGE_CLASS_NAMESPACE_ANNOTATION = some identity.storageNamespace &&
      c.annotations.lookup STORAGE_CLASS_NAME_ANNOTATION = some identity.name)

/-- The validation of a class that may be absent. -/
def validateInstalled (installed : Option StorageClass) (identity : Identity) : ClassProg Unit :=
  match installed with
  | none => pure ()
  | some c => Prog.ofExcept (validateStorageClassOwner c identity)

/-- A class of the pool under its canonical name, when another is configured. -/
def preflightCanonicalClass (identity : Identity) : ClassProg Unit :=
  let canonicalName := STORAGE_CLASS_NAME_PREFIX ++ identity.name
  if identity.storageClassName = canonicalName then pure ()
  else do
    let canonicalClass ← existingStorageClass canonicalName
    match canonicalClass with
    | none => pure ()
    | some c => do
      Prog.ofExcept (validateStorageClassOwner c { identity with storageClassName := canonicalName })
      throw (.runtime s!"Kadalustorage {identity.storageNamespace}/{identity.name} already has the canonical StorageClass {canonicalName}")

/-- `preflight_storage_class_owner` -/
def preflightStorageClassOwner (identity : Identity) : ClassProg Unit := do
  let owned ← ownedStorageClasses identity
  if owned.any fun c => c.name ≠ identity.storageClassName then
    throw (.runtime s!"Kadalustorage {identity.storageNamespace}/{identity.name} already owns a different StorageClass")
  else
    preflightCanonicalClass identity
    let installed ← existingStorageClass identity.storageClassName
    validateInstalled installed identity

/-- The wait of `_delete_storage_class_preconditioned` -/
def awaitDeletion (name uid : String) (deadline : Int) : Nat → ClassProg Unit
  | 0 => .cut
  | fuel + 1 => do
    let current ← existingStorageClass name
    match current with
    | none => pure ()
    | some c =>
      if c.uid = "" then throw (.runtime s!"StorageClass {name} has no UID for deletion precondition")
      else if c.uid ≠ uid then throw (.runtime s!"StorageClass {name} was replaced during deletion")
      else
        let (now : Int) ← ask monotonic
        if deadline ≤ now then throw .timeout
        else
          let (_ : Unit) ← ask sleep
          awaitDeletion name uid deadline fuel

/-- `_delete_storage_class_preconditioned` -/
def deleteStorageClassPreconditioned (fuel : Nat) (storageClass : StorageClass) (name : String) : ClassProg Unit :=
  if storageClass.uid = "" then throw (.runtime s!"StorageClass {name} has no UID for deletion precondition")
  else if storageClass.resourceVersion = "" then
    throw (.runtime s!"StorageClass {name} has no resourceVersion for deletion precondition")
  else do
    tryCatch (ask (deleteClass name storageClass.uid storageClass.resourceVersion)) fun e =>
      if e = .api (some 404) then pure () else throw e
    let (now : Int) ← ask monotonic
    awaitDeletion name storageClass.uid (now + STORAGE_CLASS_DELETE_TIMEOUT_SECONDS) fuel

/-! ## Classes of a pool -/

/-- Whether a class must be replaced. -/
def replaceExisting (existing : StorageClass) (reclaimPolicy : String) (identity : Identity) : Bool :=
  let existingPolicy := (existing.reclaimPolicy.filter (· ≠ "")).getD "Delete"
  let expectedExpansion := ((identity.parameters.lookup "single_pv_per_pool").getD "false").toList.map Char.toLower ≠ "true".toList
  existingPolicy ≠ reclaimPolicy ||
    (storageClassOwnerAnnotations identity).any (fun a => existing.annotations.lookup a.1 ≠ some a.2) ||
    existing.allowVolumeExpansion.getD false ≠ expectedExpansion

/-- `reconcile_storage_class_manifest` -/
def reconcileStorageClassManifest (fuel : Nat) (manifest : Manifest) (name reclaimPolicy : String) (identity : Identity) :
    ClassProg Unit := do
  let existing ← existingStorageClass name
  match existing with
  | none => ask (createClass manifest)
  | some c => do
    Prog.ofExcept (validateStorageClassOwner c identity)
    if replaceExisting c reclaimPolicy identity then
      deleteStorageClassPreconditioned fuel c name
      ask (createClass manifest)
    else pure ()

/-- The manifest that a template renders for an owner. -/
def classManifest (identity : Identity) (parameters : Fields) (single : Bool) (reclaimPolicy : String) : Manifest where
  name := identity.storageClassName
  provisioner := CSI_DRIVER_NAME
  parameters
  annotations := fields (storageClassOwnerAnnotations identity)
  reclaimPolicy := some reclaimPolicy
  allowVolumeExpansion := some (!single)

/-- `storage_class_reclaim_policy` -/
def storageClassReclaimPolicy (pvReclaimPolicy : String) : String := if pvReclaimPolicy = "retain" then "Retain" else "Delete"

section

variable [ConfigHash] (NAMESPACE : String)

/-- `storage_class_identity` of a record -/
def recordIdentity (data : PoolRecord) : Identity where
  storageNamespace := NAMESPACE
  name := data.volname.getD "None"
  storageClassName := data.className
  uid := data.storageUid.getD ""
  volumeId := data.volumeId.getD ""
  mountIdentity := data.mount.mountIdentity.getD ""
  backendFingerprint := storageClassBackendFingerprint data
  parameters :=
    if data.isExternal then
      externalParameters data.glusterHosts (data.glusterVolname.getD "") data.glusterOptions data.singlePvPerPool
    else nativeParameters (data.volname.getD "None") data.singlePvPerPool

/-- `storage_class_identity` of a `KadaluStorage` -/
def requestIdentity (obj : KadaluStorage) : Identity where
  storageNamespace := NAMESPACE
  name := obj.name
  storageClassName := obj.className
  uid := obj.uid.getD ""
  volumeId := obj.volumeId.getD ""
  backendFingerprint := ConfigHash.backendDigest ⟨some obj.name, obj.type, obj.singlePvPerPool, obj.backendIdentity⟩
  parameters :=
    if obj.type = some VOLUME_TYPE_EXTERNAL then
      externalParameters obj.details.hosts (obj.details.glusterVolname.getD "") obj.details.glusterOptions obj.singlePvPerPool
    else nativeParameters obj.name obj.singlePvPerPool

/-- The identity that `deploy_storage_class` takes: of the record in the ConfigMap, if it reads one. -/
def deployedIdentity (obj : KadaluStorage) (coreClient : Bool) : ClassProg Identity :=
  if !coreClient then pure (requestIdentity NAMESPACE obj)
  else do
    let (entry : Option Serialized) ← ask (readEntry obj.name)
    match entry with
    | none => pure (requestIdentity NAMESPACE obj)
    | some .malformed => throw (.runtime "Unable to read post-write StorageClass identity")
    | some (.record data) => pure (recordIdentity NAMESPACE data)

/-- `deploy_storage_class` -/
def deployStorageClass (fuel : Nat) (obj : KadaluStorage) (coreClient : Bool) : ClassProg Unit := do
  let identity ← deployedIdentity NAMESPACE obj coreClient
  preflightStorageClassOwner identity
  let reclaimPolicy := storageClassReclaimPolicy obj.pvReclaimPolicy
  reconcileStorageClassManifest fuel
    (classManifest identity (nativeParameters obj.name obj.singlePvPerPool) obj.singlePvPerPool reclaimPolicy)
    identity.storageClassName reclaimPolicy identity

/-- What `handle_external_storage_addition` does to the class of the record that it writes. -/
def deployExternalStorageClass (fuel : Nat) (data : PoolRecord) : ClassProg Unit := do
  let identity := recordIdentity NAMESPACE data
  preflightStorageClassOwner identity
  let reclaimPolicy := storageClassReclaimPolicy (data.pvReclaimPolicy.getD "delete")
  reconcileStorageClassManifest fuel (classManifest identity identity.parameters data.singlePvPerPool reclaimPolicy)
    identity.storageClassName reclaimPolicy identity

/-- The owner of a class whose pool has no record any more. -/
def orphanIdentity (hostvolName className uid : String) (installed : StorageClass) : Identity where
  storageNamespace := NAMESPACE
  name := hostvolName
  storageClassName := className
  uid
  parameters := installed.parameters

/-- `delete_storage_class` of a pool with a record -/
def deleteStorageClass (fuel : Nat) (data : PoolRecord) : ClassProg Unit := do
  let installed ← existingStorageClass data.className
  match installed with
  | none => pure ()
  | some c => do
    Prog.ofExcept (validateStorageClassOwner c (recordIdentity NAMESPACE data))
    deleteStorageClassPreconditioned fuel c data.className

omit [ConfigHash] in
/-- `delete_storage_class` of a pool without a record, for a CR with this UID -/
def deleteOrphanStorageClass (fuel : Nat) (hostvolName className : String) (expectedStorageUid : Option String) :
    ClassProg Unit := do
  let installed ← existingStorageClass className
  match installed with
  | none => pure ()
  | some c =>
    if !truthy expectedStorageUid then throw (.runtime s!"StorageClass {className} has no deletion owner proof")
    else do
      Prog.ofExcept (validateStorageClassOwner c
        (orphanIdentity NAMESPACE hostvolName className (expectedStorageUid.getD "") c) (some false))
      deleteStorageClassPreconditioned fuel c className

end

end Kadalu.StorageClasses
