import Kadalu.Operator.Metadata
import Kadalu.Operator.Rollout
import Mathlib.Data.List.AList

/-!
# The cluster behind the pool handlers

The pool handlers keep their state in one ConfigMap, whose entry for a pool is its record, and act on PersistentVolumes,
on the StorageClass and the servers of a pool, and on the CSI provisioner. Every request may raise anything. The checks of
a StorageClass are one request each: what they compare is not part of the model.

A write of the ConfigMap carries the resource version that was read, and the API server refuses it when another write came
in between.
-/

namespace Kadalu.Operator

def CSI_DRIVER_NAME : String := "kadalu"

/-- What the handlers read of a PersistentVolume; one without a CSI source has no driver. -/
structure PersistentVolume where
  driver : Option String := none
  hostvol : Option String := none
  storageClassName : Option String := none
  reclaimPolicy : Option String := none
  /-- the volume handle of a whole-pool volume -/
  singlePvOwner : Option String := none
  deriving DecidableEq, Repr

/-- The PersistentVolumes by their names. -/
abbrev PersistentVolumes := AList fun _ : String => PersistentVolume

/-- An entry of the ConfigMap. -/
inductive Serialized where
  | malformed
  | record (data : PoolRecord)
  deriving DecidableEq, Repr

/-- `_decode_pool_record` -/
def Serialized.decode : Serialized → Option PoolRecord
  | malformed => none
  | record data => some data

/-- The entries of the ConfigMap, by the names of their pools. -/
abbrev Entries := AList fun _ : String => Serialized

/-- The ConfigMap as it is read. -/
structure ConfigMap where
  data : Entries := ∅
  resourceVersion : Option String := none
  deriving DecidableEq

/-- The body of a patch: all entries that it sets, and one that it sets to null. -/
structure Patch where
  data : Entries
  removed : Option String := none
  deriving DecidableEq

/-- What a patch does to the entries: those that it does not name stay. -/
def Patch.apply (patch : Patch) (data : Entries) : Entries :=
  match patch.removed with
  | none => patch.data ∪ data
  | some volname => (patch.data ∪ data).erase volname

/-- The patch that writes one entry into what was read. -/
theorem Patch.lookup_insert {data : Entries} {volname w : String} {entry : Serialized} :
    (({ data := data.insert volname entry } : Patch).apply data).lookup w =
      if w = volname then some entry else data.lookup w := by
  show ((data.insert volname entry) ∪ data).lookup w = _
  by_cases hw : w = volname
  · subst hw
    rw [if_pos rfl, AList.lookup_union_left (by simp), AList.lookup_insert]
  · rw [if_neg hw]
    by_cases hmem : w ∈ data
    · rw [AList.lookup_union_left (by simp [hmem]), AList.lookup_insert_ne hw]
    · rw [AList.lookup_union_right (by simp [hmem, hw])]

/-- The patch that removes one entry from what was read. -/
theorem Patch.lookup_removed {data : Entries} {volname w : String} :
    (({ data := data, removed := some volname } : Patch).apply data).lookup w =
      if w = volname then none else data.lookup w := by
  show ((data ∪ data).erase volname).lookup w = _
  by_cases hw : w = volname
  · subst hw
    rw [if_pos rfl, AList.lookup_erase]
  · rw [if_neg hw, AList.lookup_erase_ne hw]
    by_cases hmem : w ∈ data
    · rw [AList.lookup_union_left hmem]
    · rw [AList.lookup_union_right hmem]

/-- A CR as it is read back. -/
structure CurrentStorage where
  name : String
  uid : Option String
  deleting : Bool
  /-- `spec.volume_id` -/
  volumeId : Option String
  deriving DecidableEq, Repr

/-- The requests of the pool handlers. -/
inductive Call where
  | readConfigMap
  | patchConfigMap (patch : Patch) (resourceVersion : Option String)
  | replaceConfigMap (data : Entries) (resourceVersion : Option String)
  | listPersistentVolumes
  | patchPersistentVolume (name policy : String)
  | newUuid
  /-- `recover_storage_class_identity` of an installed class: its volume and mount identities -/
  | recoverClassIdentity (className : String)
  /-- `preflight_existing_pool_storage_class`: the mount identity of the class -/
  | preflightExistingClass (volname : String)
  | preflightClassOwner (className : String)
  | reconcileClass (className policy : String)
  /-- `preflight_legacy_orphan_storage_class` -/
  | preflightLegacyClass (className : String)
  /-- `delete_storage_class`, with the record or else the UID that must own the class -/
  | deleteClass (className : String) (owner : Option PoolRecord) (uid : Option String)
  | getStorage (volname : String)
  /-- `_legacy_cr_predates_retained_storage`, from the timestamps of the servers and volumes of the pool -/
  | predatesStorage (volname : String)
  /-- the patch of the replicas of the CSI provisioner -/
  | setReplicas (replicas : Nat)
  /-- the names of the pods -/
  | listPods
  | readProvisioner
  | clearReady
  | markReady
  | monotonic
  | sleep
  /-- `kubectl delete` of the manifest of a server -/
  | deleteServer (name : String)
  /-- `kubectl delete` of the service of a pool -/
  | deleteService (volname : String)
  deriving DecidableEq

/-- The answers of the requests. -/
def Call.Answer : Call → Type
  | readConfigMap => ConfigMap
  | listPersistentVolumes => PersistentVolumes
  | newUuid => String
  | recoverClassIdentity _ => Option (String × String)
  | preflightExistingClass _ => Option String
  | getStorage _ => CurrentStorage
  | predatesStorage _ => Bool
  | listPods => List String
  | readProvisioner => Option StatefulSet
  | monotonic => Int
  | patchConfigMap _ _ | replaceConfigMap _ _ | patchPersistentVolume _ _ | preflightClassOwner _ | reconcileClass _ _
  | preflightLegacyClass _ | deleteClass _ _ _ | setReplicas _ | clearReady | markReady | sleep | deleteServer _
  | deleteService _ => Unit

abbrev PoolHandler (α : Type) : Type := Calls.Prog Call Call.Answer OpErr α

namespace Call

def readConfig : PoolHandler ConfigMap := Calls.Prog.request readConfigMap

def patchConfig (patch : Patch) (resourceVersion : Option String) : PoolHandler Unit :=
  Calls.Prog.request (patchConfigMap patch resourceVersion)

def listPvs : PoolHandler PersistentVolumes := Calls.Prog.request listPersistentVolumes

def replaceConfig (data : Entries) (resourceVersion : Option String) : PoolHandler Unit :=
  Calls.Prog.request (replaceConfigMap data resourceVersion)

def patchPv (name policy : String) : PoolHandler Unit := Calls.Prog.request (patchPersistentVolume name policy)

/-- `time.monotonic()` -/
def now : PoolHandler Int := Calls.Prog.request monotonic

/-- `uuid.uuid4()` -/
def uuid4 : PoolHandler String := Calls.Prog.request newUuid

end Call

end Kadalu.Operator
