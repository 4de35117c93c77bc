import Kadalu.Operator.LiveServer
import Kadalu.Operator.Policy
import Kadalu.Operator.StorageClass

/-!
# Pools without a record

When the record of a pool is gone, its hosting volume must keep its ID if anything of the pool is left: PersistentVolumes, a
StorageClass, live servers. The operator takes the ID from what is left, if that proves it, and gives the pool a fresh one when
nothing is.

* `recoverStorageClassIdentity_ok`: the identity that a StorageClass proves.
* `recoverMissingPoolIdentity_sound`: where the ID comes from.
-/

namespace Kadalu.MissingRecord

open Operator StorageClasses LiveServers

/-! ## What is left of a pool -/

/-- The identity that a StorageClass keeps. -/
structure DurableIdentity where
  volumeId : String
  mountIdentity : String
  deriving DecidableEq, Repr

/-- What the operator finds of a pool. -/
structure Evidence where
  persistentVolumes : PersistentVolumes
  /-- what `preflight_storage_class_owner` ends with -/
  preflight : Except OpErr Unit
  /-- the StorageClass with the name that the pool asks for -/
  installed : Option StorageClass
  pods : List Workload
  /-- the StatefulSets, with a client that can list them -/
  statefulSets : Option (List Workload)

def durableKeys : List String :=
  [STORAGE_CLASS_VOLUME_ID_ANNOTATION, STORAGE_CLASS_MOUNT_IDENTITY_ANNOTATION, STORAGE_CLASS_BACKEND_FINGERPRINT_ANNOTATION]

section

variable [ConfigHash] (NAMESPACE : String)

/-- The durable annotations of a class, checked against the identity that the pool asks for. -/
def validateDurableIdentity (annotations : Fields) (identity : Identity) : Except OpErr DurableIdentity :=
  let volumeId := (annotations.lookup STORAGE_CLASS_VOLUME_ID_ANNOTATION).getD ""
  let mountIdentity := (annotations.lookup STORAGE_CLASS_MOUNT_IDENTITY_ANNOTATION).getD ""
  let backendFingerprint := (annotations.lookup STORAGE_CLASS_BACKEND_FINGERPRINT_ANNOTATION).getD ""
  if !isCanonicalUuid volumeId ∨ !isCanonicalUuid mountIdentity ∨ backendFingerprint ≠ identity.backendFingerprint then
    .error (.runtime "StorageClass durable storage identity is invalid")
  else if identity.volumeId ≠ "" ∧ identity.volumeId ≠ volumeId then
    .error (.runtime "StorageClass has a different durable storage identity")
  else if identity.mountIdentity ≠ "" ∧ identity.mountIdentity ≠ mountIdentity then
    .error (.runtime "StorageClass has a different durable storage identity")
  else .ok ⟨volumeId, mountIdentity⟩

/-- `recover_storage_class_identity` -/
def recoverStorageClassIdentity (storageClass : StorageClass) (obj : KadaluStorage) : Except OpErr (Option DurableIdentity) := do
  let identity := requestIdentity NAMESPACE obj
  validateStorageClassOwner storageClass identity
  let present := durableKeys.filter fun key => key ∈ storageClass.annotations
  if present = [] then return none
  else if present ≠ durableKeys then throw (.runtime "StorageClass durable storage identity is incomplete")
  else if identity.uid = "" then throw (.runtime "Kadalustorage UID is required for durable recovery")
  else
    validateStorageClassOwner storageClass identity (some false)
    let durable ← validateDurableIdentity storageClass.annotations identity
    return some durable

/-- The durable identity of the class that is installed, if there is one. -/
def installedIdentity (installed : Option StorageClass) (obj : KadaluStorage) : Except OpErr (Option DurableIdentity) :=
  match installed with
  | none => .ok none
  | some c => recoverStorageClassIdentity NAMESPACE c obj

/-- `storage_class_proves_current_cr` -/
def storageClassProvesCurrentCr (storageClass : Option StorageClass) (obj : KadaluStorage) : Bool :=
  match storageClass with
  | none => false
  | some c =>
    let identity := requestIdentity NAMESPACE obj
    identity.uid ≠ "" && c.name = identity.storageClassName &&
      c.annotations.lookup STORAGE_CLASS_NAMESPACE_ANNOTATION = some identity.storageNamespace &&
      c.annotations.lookup STORAGE_CLASS_NAME_ANNOTATION = some identity.name &&
      c.annotations.lookup STORAGE_CLASS_UID_ANNOTATION = some identity.uid

end

/-! ## Checks -/

/-- A geometry that the servers alone do not prove. -/
def complexGeometry (obj : KadaluStorage) : Bool :=
  obj.type = some VOLUME_TYPE_DISPERSE || (obj.type = some VOLUME_TYPE_REPLICA_2 && obj.tiebreaker.isSome)

/-- What must be proved of a native pool, whose servers have the ID `serverVolumeId`. -/
def checkNative (obj : KadaluStorage) (retained : Bool) (installed : Option StorageClass) (provesCr : Bool)
    (serverVolumeId : Option String) (durable : Option DurableIdentity) : Except OpErr Unit :=
  if serverVolumeId.isSome && !provesCr then
    .error (.value "live native servers do not prove ownership by the current Kadalustorage")
  else if serverVolumeId.isSome && complexGeometry obj && durable.isNone then
    .error (.value "live servers do not prove the requested complex native geometry")
  else if installed.isSome && serverVolumeId.isNone then
    .error (.value "installed native StorageClass has no complete live server proof")
  else if retained && (serverVolumeId.isNone || durable.isNone) then
    .error (.value "retained native PVs have no complete server and mount identity proof")
  else if serverVolumeId.isSome && durable.isSome && serverVolumeId ≠ durable.map DurableIdentity.volumeId then
    .error (.value "server workloads and StorageClass disagree on VOLUME_ID")
  else .ok ()

/-- What must be proved of an External pool. -/
def checkExternal (retained : Bool) (installed : Option StorageClass) (durable : Option DurableIdentity) : Except OpErr Unit :=
  if installed.isSome && durable.isNone then .error (.value "installed External StorageClass has no durable identity")
  else if retained && durable.isNone then
    .error (.value "retained External PVs have no durable StorageClass identity")
  else .ok ()

section

variable [ConfigHash] (NAMESPACE : String)

/-- The ID that the servers of a native pool prove. -/
def nativeServerVolumeId (obj : KadaluStorage) (evidence : Evidence) (retained : Bool) (durable : Option DurableIdentity) :
    Except OpErr (Option String) :=
  if obj.type = some VOLUME_TYPE_EXTERNAL then do
    checkExternal retained evidence.installed durable
    return none
  else do
    let serverVolumeId ← recoverNativePoolVolumeId obj evidence.pods evidence.statefulSets
    checkNative obj retained evidence.installed (storageClassProvesCurrentCr NAMESPACE evidence.installed obj) serverVolumeId durable
    return serverVolumeId

/-- `recovered_volume_id or requested_volume_id or str(uuid.uuid4())` -/
def chooseVolumeId (recovered requested : Option String) (uuid4 : String) : String :=
  ((recovered.filter (· ≠ "")).or (requested.filter (· ≠ ""))).getD uuid4

/-- `recover_missing_pool_identity`, with what `uuid4` would return: the ID of the hosting volume and the mount identity -/
def recoverMissingPoolIdentity (obj : KadaluStorage) (evidence : Evidence) (uuid4 : String) :
    Except OpErr (String × Option String) := do
  let retainedPvs := poolPersistentVolumes evidence.persistentVolumes obj.name obj.className
  evidence.preflight
  let durable ← installedIdentity NAMESPACE evidence.installed obj
  let serverVolumeId ← nativeServerVolumeId NAMESPACE obj evidence (retainedPvs ≠ []) durable
  let recovered := serverVolumeId.or (durable.map DurableIdentity.volumeId)
  if recovered.isSome ∧ obj.volumeId.isSome ∧ recovered ≠ obj.volumeId then
    throw (.value "requested volume_id disagrees with retained storage evidence")
  else return (chooseVolumeId recovered obj.volumeId uuid4, durable.map DurableIdentity.mountIdentity)

end

/-! ## What the ID rests on -/

/-- The server workloads that count: those of a native pool. -/
def countedServers (obj : KadaluStorage) (evidence : Evidence) : List Workload :=
  if obj.type = some VOLUME_TYPE_EXTERNAL then [] else liveServers obj.name evidence.pods evidence.statefulSets

/-- Nothing is left of the pool. -/
structure NothingLeft (obj : KadaluStorage) (evidence : Evidence) : Prop where
  persistentVolumes : poolPersistentVolumes evidence.persistentVolumes obj.name obj.className = []
  installed : evidence.installed = none
  servers : countedServers obj evidence = []

/-- The ID that a StorageClass keeps. -/
def annotatedVolumeId (installed : Option StorageClass) : Option String :=
  installed.bind fun c => c.annotations.lookup STORAGE_CLASS_VOLUME_ID_ANNOTATION

/-- The ID is carried by a live server or by the StorageClass. -/
def Carried (obj : KadaluStorage) (evidence : Evidence) (id : String) : Prop :=
  (∃ w ∈ countedServers obj evidence, w.volumeId = some id) ∨ annotatedVolumeId evidence.installed = some id

/-- No server, no StorageClass and no request has another ID. -/
structure Unanimous (obj : KadaluStorage) (evidence : Evidence) (id : String) : Prop where
  servers : ∀ w ∈ countedServers obj evidence, w.volumeId = some id
  installed : ∀ other, annotatedVolumeId evidence.installed = some other → other = id
  requested : ∀ other, obj.volumeId = some other → other = id

section

variable [ConfigHash] {NAMESPACE : String} {obj : KadaluStorage} {evidence : Evidence}

theorem recoverStorageClassIdentity_ok {c : StorageClass} {durable : Option DurableIdentity}
    (h : recoverStorageClassIdentity NAMESPACE c obj = .ok durable) :
    c.annotations.lookup STORAGE_CLASS_VOLUME_ID_ANNOTATION = durable.map DurableIdentity.volumeId ∧
      ∀ d, durable = some d → isCanonicalUuid d.volumeId = true := by
  unfold recoverStorageClassIdentity at h
  obtain ⟨_, -, h⟩ := Except.bind_ok.mp h
  dsimp only at h
  split at h
  · next hnone =>
    obtain rfl := Except.ok.inj h
    have hkey : STORAGE_CLASS_VOLUME_ID_ANNOTATION ∉ c.annotations := fun hmem =>
      List.filter_eq_nil_iff.mp hnone STORAGE_CLASS_VOLUME_ID_ANNOTATION (by simp [durableKeys]) (decide_eq_true hmem)
    exact ⟨Finmap.lookup_eq_none.mpr hkey, nofun⟩
  obtain ⟨hall, h⟩ := Except.ite_error_ok.mp h
  obtain ⟨-, h⟩ := Except.ite_error_ok.mp h
  obtain ⟨_, -, h⟩ := Except.bind_ok.mp h
  obtain ⟨d, hd, h⟩ := Except.bind_ok.mp h
  obtain rfl := Except.ok.inj h
  have hkey : STORAGE_CLASS_VOLUME_ID_ANNOTATION ∈ c.annotations :=
    of_decide_eq_true (List.filter_eq_self.mp (not_not.mp hall) STORAGE_CLASS_VOLUME_ID_ANNOTATION (by simp [durableKeys]))
  obtain ⟨volumeId, hvolumeId⟩ := Finmap.mem_iff.mp hkey
  unfold validateDurableIdentity at hd
  obtain ⟨hcanonical, hd⟩ := Except.ite_error_ok.mp hd
  obtain ⟨-, hd⟩ := Except.ite_error_ok.mp hd
  obtain ⟨-, hd⟩ := Except.ite_error_ok.mp hd
  obtain rfl := Except.ok.inj hd
  rw [hvolumeId] at hcanonical ⊢
  refine ⟨rfl, fun d hd => ?_⟩
  obtain rfl := Option.some.inj hd
  simpa using (not_or.mp hcanonical).1

theorem installedIdentity_ok {installed : Option StorageClass} {durable : Option DurableIdentity}
    (h : installedIdentity NAMESPACE installed obj = .ok durable) :
    annotatedVolumeId installed = durable.map DurableIdentity.volumeId ∧
      ∀ d, durable = some d → isCanonicalUuid d.volumeId = true := by
  cases installed with
  | none =>
    obtain rfl := Except.ok.inj h
    exact ⟨rfl, nofun⟩
  | some c => exact recoverStorageClassIdentity_ok h

/-- What is known once the checks have passed: the ID of the servers, and that what is left proves an ID. -/
structure Proved (obj : KadaluStorage) (evidence : Evidence) (retained : Bool) (durable : Option DurableIdentity)
    (serverVolumeId : Option String) : Prop where
  servers : ∀ w ∈ countedServers obj evidence, serverVolumeId.isSome ∧ w.volumeId = serverVolumeId
  carried : ∀ id, serverVolumeId = some id → isCanonicalUuid id = true ∧ ∃ w ∈ countedServers obj evidence, w.volumeId = some id
  retained : retained = true → serverVolumeId.isSome ∨ durable.isSome
  installed : evidence.installed.isSome → serverVolumeId.isSome ∨ durable.isSome
  agree : serverVolumeId.isSome → durable.isSome → serverVolumeId = durable.map DurableIdentity.volumeId

omit [ConfigHash] in
theorem checkExternal_ok {retained : Bool} {installed : Option StorageClass} {durable : Option DurableIdentity}
    (h : checkExternal retained installed durable = .ok ()) :
    (installed.isSome → durable.isSome) ∧ (retained = true → durable.isSome) := by
  unfold checkExternal at h
  obtain ⟨hinstalled, h⟩ := Except.ite_error_ok.mp h
  obtain ⟨hretained, -⟩ := Except.ite_error_ok.mp h
  cases durable <;> simp_all

omit [ConfigHash] in
theorem checkNative_ok {retained provesCr : Bool} {installed : Option StorageClass} {serverVolumeId : Option String}
    {durable : Option DurableIdentity} (h : checkNative obj retained installed provesCr serverVolumeId durable = .ok ()) :
    (installed.isSome → serverVolumeId.isSome) ∧ (retained = true → serverVolumeId.isSome) ∧
      (serverVolumeId.isSome → durable.isSome → serverVolumeId = durable.map DurableIdentity.volumeId) := by
  unfold checkNative at h
  obtain ⟨-, h⟩ := Except.ite_error_ok.mp h
  obtain ⟨-, h⟩ := Except.ite_error_ok.mp h
  obtain ⟨hinstalled, h⟩ := Except.ite_error_ok.mp h
  obtain ⟨hretained, h⟩ := Except.ite_error_ok.mp h
  obtain ⟨hagree, -⟩ := Except.ite_error_ok.mp h
  refine ⟨fun hi => ?_, fun hr => ?_, fun hs hd => ?_⟩
  · cases serverVolumeId <;> simp_all
  · cases serverVolumeId <;> simp_all
  · by_contra hne
    exact hagree (by simp [hs, hd, hne])

theorem nativeServerVolumeId_ok {retained : Bool} {durable : Option DurableIdentity} {serverVolumeId : Option String}
    (h : nativeServerVolumeId NAMESPACE obj evidence retained durable = .ok serverVolumeId) :
    Proved obj evidence retained durable serverVolumeId := by
  unfold nativeServerVolumeId at h
  split at h
  · next hexternal =>
    have hcounted : countedServers obj evidence = [] := if_pos hexternal
    obtain ⟨_, hcheck, h⟩ := Except.bind_ok.mp h
    obtain rfl := Except.ok.inj h
    obtain ⟨hinstalled, hretained⟩ := checkExternal_ok hcheck
    exact
      { servers := by rw [hcounted]; exact nofun
        carried := nofun
        retained := fun hr => .inr (hretained hr)
        installed := fun hi => .inr (hinstalled hi)
        agree := nofun }
  · next hnative =>
    have hcounted : countedServers obj evidence = liveServers obj.name evidence.pods evidence.statefulSets := if_neg hnative
    obtain ⟨found, hservers, h⟩ := Except.bind_ok.mp h
    obtain ⟨_, hcheck, h⟩ := Except.bind_ok.mp h
    obtain rfl := Except.ok.inj h
    obtain ⟨hall, hcarried⟩ := recoverNativePoolVolumeId_ok hservers
    obtain ⟨hinstalled, hretained, hagree⟩ := checkNative_ok hcheck
    exact
      { servers := hcounted ▸ hall
        carried := hcounted ▸ hcarried
        retained := fun hr => .inl (hretained hr)
        installed := fun hi => .inl (hinstalled hi)
        agree := hagree }

end

theorem ne_empty_of_isCanonicalUuid {id : String} (h : isCanonicalUuid id = true) : id ≠ "" := by
  rintro rfl
  revert h
  decide +kernel

theorem chooseVolumeId_some {id uuid4 : String} (hid : id ≠ "") (requested : Option String) :
    chooseVolumeId (some id) requested uuid4 = id := by
  simp [chooseVolumeId, Option.filter, hid]

theorem chooseVolumeId_none (requested : Option String) (uuid4 : String) :
    (¬truthy requested = true ∧ chooseVolumeId none requested uuid4 = uuid4) ∨
      requested = some (chooseVolumeId none requested uuid4) := by
  cases requested with
  | none => exact .inl ⟨by simp [truthy], rfl⟩
  | some id =>
    by_cases hid : id = ""
    · exact .inl (by simp [truthy, chooseVolumeId, Option.filter, hid])
    · exact .inr (by simp [chooseVolumeId, Option.filter, hid])

/-- **Pools without a record.** A fresh ID, or the one that the request asks for, is given only to a pool of which nothing is left;
otherwise the ID is carried by a live server or by the StorageClass, and all of these and the request agree on it. -/
theorem recoverMissingPoolIdentity_sound [ConfigHash] (NAMESPACE : String) (obj : KadaluStorage) (evidence : Evidence)
    (uuid4 id : String) (mount : Option String)
    (h : recoverMissingPoolIdentity NAMESPACE obj evidence uuid4 = .ok (id, mount)) :
    (NothingLeft obj evidence ∧ ((¬truthy obj.volumeId = true ∧ id = uuid4) ∨ obj.volumeId = some id)) ∨
      (¬NothingLeft obj evidence ∧ Carried obj evidence id ∧ Unanimous obj evidence id) := by
  unfold recoverMissingPoolIdentity at h
  obtain ⟨_, -, h⟩ := Except.bind_ok.mp h
  obtain ⟨durable, hdurable, h⟩ := Except.bind_ok.mp h
  obtain ⟨serverVolumeId, hserver, h⟩ := Except.bind_ok.mp h
  obtain ⟨hrequested, h⟩ := Except.ite_error_ok.mp h
  obtain ⟨hannotated, hcanonical⟩ := installedIdentity_ok hdurable
  have hproved := nativeServerVolumeId_ok hserver
  obtain ⟨rfl, rfl⟩ := Prod.mk.inj (Except.ok.inj h)
  cases hrecovered : serverVolumeId.or (durable.map DurableIdentity.volumeId) with
  | none =>
    obtain ⟨rfl, hdurable⟩ := Option.or_eq_none_iff.mp hrecovered
    obtain rfl := Option.map_eq_none_iff.mp hdurable
    left
    refine ⟨⟨?_, ?_, ?_⟩, ?_⟩
    · by_contra hne
      rcases hproved.retained (decide_eq_true hne) with h | h <;> cases h
    · cases hinstalled : evidence.installed with
      | none => rfl
      | some c => rcases hproved.installed (by rw [hinstalled]; rfl) with h | h <;> cases h
    · refine List.eq_nil_iff_forall_not_mem.mpr fun w hw => ?_
      have := (hproved.servers w hw).1
      cases this
    · exact chooseVolumeId_none _ _
  | some recovered =>
    right
    -- the servers, if there are any, and the StorageClass, if it has one, have this ID
    have hservers : ∀ found, serverVolumeId = some found → found = recovered := by
      rintro found rfl
      exact Option.some.inj hrecovered
    have hclass : ∀ other, durable.map DurableIdentity.volumeId = some other → other = recovered := by
      intro other hother
      cases hs : serverVolumeId with
      | none =>
        rw [hs, Option.none_or, hother] at hrecovered
        exact Option.some.inj hrecovered
      | some found =>
        have hsame := hproved.agree (by rw [hs]; rfl) (by cases durable <;> simp_all)
        rw [hs, hother] at hsame
        exact (Option.some.inj hsame).symm.trans (hservers found hs)
    have hcarried : (isCanonicalUuid recovered = true ∧ Carried obj evidence recovered) ∧ ¬NothingLeft obj evidence := by
      cases hs : serverVolumeId with
      | none =>
        rw [hs, Option.none_or] at hrecovered
        obtain ⟨d, hd, rfl⟩ := Option.map_eq_some_iff.mp hrecovered
        refine ⟨⟨hcanonical d hd, .inr (hannotated.trans hrecovered)⟩, fun hnothing => ?_⟩
        rw [hrecovered, hnothing.installed] at hannotated
        cases hannotated
      | some found =>
        obtain rfl := hservers found hs
        obtain ⟨hid, w, hw, hvolumeId⟩ := hproved.carried found hs
        refine ⟨⟨hid, .inl ⟨w, hw, hvolumeId⟩⟩, fun hnothing => ?_⟩
        rw [hnothing.servers] at hw
        cases hw
    rw [hrecovered] at hrequested
    rw [chooseVolumeId_some (ne_empty_of_isCanonicalUuid hcarried.1.1)]
    refine ⟨hcarried.2, hcarried.1.2, ⟨fun w hw => ?_, fun other hother => ?_, fun other hother => ?_⟩⟩
    · obtain ⟨hsome, hvolumeId⟩ := hproved.servers w hw
      obtain ⟨found, hfound⟩ := Option.isSome_iff_exists.mp hsome
      rw [hvolumeId, hfound, hservers found hfound]
    · exact hclass other (hannotated.symm.trans hother)
    · by_contra hne
      exact hrequested ⟨rfl, by rw [hother]; rfl, fun heq => hne (Option.some.inj (heq.trans hother)).symm⟩

/-! ## Two pools -/

/-- A digest that tells no backends apart. -/
abbrev oneDigest : ConfigHash where
  mountDigest _ := "11"
  backendDigest _ := "11"

attribute [local instance] oneDigest

/-- The server Pod of a pool with one brick on a PVC. -/
def serverPod (volname type volumeId : String) : Workload where
  name := serverName volname 0 false
  spec := some
    { pod := some
        { containers := [
            { name := "server"
              env := [⟨"VOLUME", some volname, false⟩, ⟨"VOLUME_TYPE", some type, false⟩,
                ⟨"BRICK_PATH", some ("/bricks/" ++ volname ++ "/data/brick"), false⟩, ⟨"NODEID", some "node-0", false⟩,
                ⟨"BRICK_INDEX", some "0", false⟩, ⟨"BRICK_DEVICE", some "", false⟩, ⟨"VOLUME_ID", some volumeId, false⟩]
              volumeMounts := [⟨"glusterfsd-mountdir", some ("/bricks/" ++ volname)⟩] }]
          volumes := [{ name := "glusterfsd-mountdir", persistentVolumeClaim := some (some "vault") }]
          requiredTerms := none } }

def bellagio : KadaluStorage where
  name := "bellagio"
  uid := some "b11"
  type := some "Replica1"
  storage := [{ pvc := "vault" }]

/-- A pool whose server is live and whose StorageClass says that it is this pool's. -/
def bellagioLeft : Evidence where
  persistentVolumes := ∅
  preflight := .ok ()
  installed := some
    { name := bellagio.className
      provisioner := StorageClasses.CSI_DRIVER_NAME
      parameters := nativeParameters "bellagio" false
      annotations := fields [(STORAGE_CLASS_NAMESPACE_ANNOTATION, "kadalu"), (STORAGE_CLASS_NAME_ANNOTATION, "bellagio"),
        (STORAGE_CLASS_UID_ANNOTATION, "b11")]
      reclaimPolicy := none
      allowVolumeExpansion := none
      uid := "c11"
      resourceVersion := "1" }
  pods := [serverPod "bellagio" "Replica1" "11111111-1111-4111-8111-111111111111"]
  statefulSets := some []

theorem bellagio_recovered :
    ¬NothingLeft bellagio bellagioLeft ∧ Carried bellagio bellagioLeft "11111111-1111-4111-8111-111111111111" ∧
      Unanimous bellagio bellagioLeft "11111111-1111-4111-8111-111111111111" := by
  refine (recoverMissingPoolIdentity_sound "kadalu" bellagio bellagioLeft "22222222-2222-4222-8222-222222222222" _ none
    (by decide +kernel)).resolve_left ?_
  rintro ⟨-, ⟨-, hid⟩ | hid⟩
  · exact absurd hid (by decide)
  · exact absurd hid (by decide)

/-- An External pool of which only a server is left gets a fresh ID. -/
theorem external_fresh :
    recoverMissingPoolIdentity "kadalu" { name := "bellagio", type := some VOLUME_TYPE_EXTERNAL }
        { bellagioLeft with installed := none } "22222222-2222-4222-8222-222222222222" =
      .ok ("22222222-2222-4222-8222-222222222222", none) ∧
      (serverPod "bellagio" "Replica1" "11111111-1111-4111-8111-111111111111") ∈
        liveServers "bellagio" bellagioLeft.pods bellagioLeft.statefulSets := by
  decide +kernel

end Kadalu.MissingRecord
