import Kadalu.Operator.Policy
import Kadalu.Operator.Request

/-!
# A request and its record

The backend of a pool is computed from the request and from the record, which name its fields differently: bricks by index,
a port with its default, endpoints as one text. Both are the same for every request that is accepted, and a record that is
built from a request is built again from it as it is.

* `builtRecord_backend`: the record has the backend of its request.
* `reconciled_again`: and is accepted, and stays, when the request is reconciled again.
-/

namespace Kadalu.Operator

open Except

/-! ## Backends -/

/-- `_requested_external_backend_identity` -/
def requestedExternalBackendIdentity (obj : KadaluStorage) : BackendIdentity :=
  .external (canonicalGlusterHosts obj.details.hosts) obj.details.glusterVolname obj.details.glusterOptions

/-- `_requested_native_backend_identity` -/
def requestedNativeBackendIdentity (obj : KadaluStorage) : BackendIdentity :=
  let geometry := canonicalNativeGeometry obj.type obj.disperse obj.tiebreaker
  .native (obj.storage.map fun brick => { brick with decommissioned := "" }) geometry.1 geometry.2

/-- `storage_class_backend_fingerprint` of a request -/
def requestedBackendFingerprint [ConfigHash] (obj : KadaluStorage) : String :=
  ConfigHash.backendDigest ⟨some obj.name, obj.type, obj.singlePvPerPool,
    if obj.type = some VOLUME_TYPE_EXTERNAL then requestedExternalBackendIdentity obj
    else requestedNativeBackendIdentity obj⟩

/-- `_validate_requested_backend_identity` -/
def validateRequestedBackendIdentity (obj : KadaluStorage) (existing : PoolRecord) : Except OpErr Unit :=
  if existing.isExternal then
    if requestedExternalBackendIdentity obj = externalBackendIdentity existing then pure ()
    else throw (.runtime s!"Kadalustorage {obj.name} requests an immutable external storage backend change")
  else
    if requestedNativeBackendIdentity obj = storedNativeBackendIdentity existing then pure ()
    else throw (.runtime s!"Kadalustorage {obj.name} requests an immutable native storage backend change")

/-- The record that the operator builds from a request, by the kind of the pool. -/
def builtRecord (obj : KadaluStorage) (existing : Option PoolRecord) : PoolRecord :=
  if obj.type = some VOLUME_TYPE_EXTERNAL then externalRecord obj existing else nativeRecord obj existing

variable {obj : KadaluStorage} {existing : Option PoolRecord}

/-! ## Native pools -/

theorem le_storedBrick {volname : String} {bricks : List StorageBrick} :
    (bricks.mapIdx (storedBrick volname)).Pairwise PoolBrick.le := by
  rw [List.pairwise_iff_getElem]
  intro i j hi hj hij
  rw [List.getElem_mapIdx, List.getElem_mapIdx]
  show (i : Int) ≤ j
  omega

/-- The bricks of a record are in order. -/
theorem sorted_storedBrick {volname : String} {bricks : List StorageBrick} :
    (bricks.mapIdx (storedBrick volname)).insertionSort PoolBrick.le = bricks.mapIdx (storedBrick volname) :=
  le_storedBrick.insertionSort_eq

theorem logical_storedBrick {volname : String} {bricks : List StorageBrick} :
    (bricks.mapIdx (storedBrick volname)).map PoolBrick.logical = bricks.map fun brick => { brick with decommissioned := "" } := by
  refine List.ext_getElem (by simp) fun i _ _ => ?_
  simp only [List.getElem_map, List.getElem_mapIdx]
  rfl

/-- The default port is set once. -/
theorem canonicalNativeGeometry_stored {type : Option String} {disperse : Disperse} {tiebreaker : Option Tiebreaker} :
    canonicalNativeGeometry type disperse
      (if type = some VOLUME_TYPE_REPLICA_2 then
        tiebreaker.map fun t => { t with port := some (if t.port = some 0 then 24007 else t.port.getD 24007) }
      else none) = canonicalNativeGeometry type disperse tiebreaker := by
  unfold canonicalNativeGeometry
  by_cases htype : type = some VOLUME_TYPE_REPLICA_2
  · simp only [if_pos htype, Option.map_map]
    refine congrArg (Prod.mk _) (congrArg (Option.map · tiebreaker) (funext fun t => ?_))
    obtain ⟨deployment, node, path, port⟩ := t
    cases port with
    | none => rfl
    | some port =>
      by_cases hp : port = 0
      · subst hp
        rfl
      · simp [hp]
  · simp only [if_neg htype]

theorem nativeRecord_identity : storedNativeBackendIdentity (nativeRecord obj existing) = requestedNativeBackendIdentity obj := by
  unfold storedNativeBackendIdentity requestedNativeBackendIdentity
  simp only [nativeRecord, Option.getD_some, sorted_storedBrick, logical_storedBrick, canonicalNativeGeometry_stored]

/-! ## External pools -/

/-- Endpoints that can be written as one text. -/
def JoinableHosts (hosts : List String) : Prop :=
  hosts ≠ [] ∧ ∀ host ∈ hosts, strip host.toList = host.toList ∧ host ≠ "" ∧ ',' ∉ host.toList

theorem splitHosts_joinHosts {hosts : List String} (hne : hosts ≠ []) (h : ∀ host ∈ hosts, ',' ∉ host.toList) :
    splitHosts (joinHosts hosts) = hosts := by
  unfold splitHosts joinHosts
  rw [String.toList_ofList, splitChars_intercalate (by simpa using hne) ?_, List.map_map]
  · conv_rhs => rw [← List.map_id hosts]
    exact List.map_congr_left fun host _ => String.ofList_toList
  · intro f hf
    obtain ⟨host, hh, rfl⟩ := List.mem_map.mp hf
    exact h host hh

theorem JoinableHosts.canonical {hosts : List String} (h : JoinableHosts hosts) :
    canonicalGlusterHosts (splitHosts (joinHosts (canonicalGlusterHosts hosts))) = canonicalGlusterHosts hosts := by
  have htrim : ∀ host ∈ hosts, strip host.toList = host.toList ∧ host ≠ "" := fun host hh =>
    ⟨(h.2 host hh).1, (h.2 host hh).2.1⟩
  have hmem : ∀ {host : String}, host ∈ canonicalGlusterHosts hosts ↔ host ∈ hosts :=
    mem_canonicalGlusterHosts_of_trimmed htrim
  have hne : canonicalGlusterHosts hosts ≠ [] := by
    obtain ⟨host, hh⟩ := List.exists_mem_of_ne_nil _ h.1
    exact List.ne_nil_of_mem (hmem.mpr hh)
  rw [splitHosts_joinHosts hne fun host hh => (h.2 host (hmem.mp hh)).2.2, canonicalGlusterHosts_idem htrim]

theorem externalRecord_identity (h : JoinableHosts obj.details.hosts) :
    externalBackendIdentity (externalRecord obj existing) = requestedExternalBackendIdentity obj := by
  unfold externalBackendIdentity requestedExternalBackendIdentity
  simp only [externalRecord, h.canonical]

section Requests

variable [RequestChecks]

/-- Accepted endpoints have no comma. -/
theorem validExtDetails_hosts (h : validateExtDetails obj.details = true) : JoinableHosts obj.details.hosts := by
  simp only [validateExtDetails, Bool.and_eq_true, decide_eq_true_eq, List.all_eq_true] at h
  obtain ⟨⟨⟨⟨hne, hall⟩, -⟩, -⟩, -⟩ := h
  have hmem : ∀ host, host ∈ obj.details.hosts →
      host ∈ obj.details.glusterHosts ++ (obj.details.glusterHost.filter (· ≠ "")).toList := fun host hh => by
    simp only [ExternalDetails.hosts, List.mem_append] at hh ⊢
    exact hh.symm
  refine ⟨fun he => hne ?_, fun host hh => ?_⟩
  · simp only [ExternalDetails.hosts, List.append_eq_nil_iff] at he ⊢
    exact ⟨he.2, he.1⟩
  · obtain ⟨htrim, hvalid⟩ := hall host (hmem host hh)
    simp only [isTrimmed, Bool.and_eq_true, decide_eq_true_eq] at htrim
    refine ⟨htrim.2, htrim.1, fun hcomma => ?_⟩
    unfold validGlusterHost at hvalid
    rw [if_pos (by simp [hcomma])] at hvalid
    cases hvalid

/-- What an accepted request has. -/
structure Accepted (obj : KadaluStorage) : Prop where
  type : obj.type.any (VALID_HOSTING_VOLUME_TYPES.contains ·) = true
  names : generatedResourceNamesValidation (some obj.name) obj.type obj.storageClassName obj.storage.length = true
  volumeId : obj.volumeId.all isCanonicalUuid = true
  hosts : obj.type = some VOLUME_TYPE_EXTERNAL → JoinableHosts obj.details.hosts
  bricks : obj.type ≠ some VOLUME_TYPE_EXTERNAL → bricksValidation obj.storage = true

theorem accepted_of_valid (h : validateVolumeRequest obj = true) : Accepted obj := by
  simp only [validateVolumeRequest, Bool.and_eq_true] at h
  obtain ⟨⟨⟨⟨⟨-, htype⟩, hnames⟩, hvolume⟩, -⟩, hkind⟩ := h
  refine ⟨htype, hnames, hvolume, fun ht => ?_, fun ht => ?_⟩
  · rw [if_pos ht] at hkind
    exact validExtDetails_hosts hkind
  · rw [if_neg ht] at hkind
    simp only [Bool.and_eq_true] at hkind
    exact hkind.1.2

end Requests

/-! ## Records -/

theorem isExternal_builtRecord : (builtRecord obj existing).isExternal = decide (obj.type = some VOLUME_TYPE_EXTERNAL) := by
  unfold builtRecord
  split
  · next h =>
    rw [h]
    rfl
  · rfl

/-- **The backend of a record** is that of its request. -/
theorem builtRecord_backend (h : Accepted obj) :
    (builtRecord obj existing).backendIdentity = obj.backendIdentity ∧
      validateRequestedBackendIdentity obj (builtRecord obj existing) = .ok () := by
  unfold PoolRecord.backendIdentity validateRequestedBackendIdentity
  rw [isExternal_builtRecord]
  by_cases ht : obj.type = some VOLUME_TYPE_EXTERNAL
  · have hid : externalBackendIdentity (builtRecord obj existing) = requestedExternalBackendIdentity obj := by
      rw [builtRecord, if_pos ht]
      exact externalRecord_identity (h.hosts ht)
    rw [decide_eq_true ht, if_pos rfl, if_pos rfl, if_pos hid.symm, hid, KadaluStorage.backendIdentity, if_pos ht]
    exact ⟨rfl, rfl⟩
  · have hid : storedNativeBackendIdentity (builtRecord obj existing) = requestedNativeBackendIdentity obj := by
      rw [builtRecord, if_neg ht]
      exact nativeRecord_identity
    rw [decide_eq_false ht, if_neg Bool.false_ne_true, if_neg Bool.false_ne_true, if_pos hid.symm, hid,
      KadaluStorage.backendIdentity, if_neg ht]
    exact ⟨rfl, rfl⟩

section Reconciled

variable [ConfigHash]

theorem builtRecord_fingerprint (h : Accepted obj) :
    storageClassBackendFingerprint (builtRecord obj existing) = requestedBackendFingerprint obj := by
  have hname : (builtRecord obj existing).volname = some obj.name := by unfold builtRecord; split <;> rfl
  have htype : (builtRecord obj existing).type = obj.type := by
    unfold builtRecord
    split
    · next ht => exact ht.symm
    · rfl
  have hsingle : (builtRecord obj existing).singlePvPerPool = obj.singlePvPerPool := by unfold builtRecord; split <;> rfl
  rw [storageClassBackendFingerprint, (builtRecord_backend h).1, hname, htype, hsingle]
  rfl

/-! ## Again -/

omit [ConfigHash] in
/-- The ownership of a record is carried over as it is. -/
theorem preserve_again {single : Bool} {owner : Option String} {claim : ClaimMetadata} {record : PoolRecord}
    (h : preserveSinglePvClaimMetadata single existing owner = some claim) (howner : owner ≠ some "")
    (hsingle : record.singlePvPerPool = single) (hclaim : record.claim = claim) :
    preserveSinglePvClaimMetadata single (some record) none = some claim := by
  have hagain : preserveSinglePvClaimMetadata single (some record) none =
      if !single then some {}
      else if claim.singlePvClaimVersion = some SINGLE_PV_CLAIM_VERSION then
        some { singlePvClaimVersion := some SINGLE_PV_CLAIM_VERSION }
      else if truthy claim.legacySinglePvVolumeId then
        some { legacySinglePvVolumeId := claim.legacySinglePvVolumeId }
      else some {} := by
    unfold preserveSinglePvClaimMetadata
    dsimp only
    rw [hsingle, hclaim]
    exact if_neg fun hne => hne rfl
  rw [hagain]
  cases existing with
  | none =>
    cases single with
    | false => exact h
    | true =>
      cases owner with
      | none =>
        cases h
        rfl
      | some owner =>
        cases h
        have hne : owner ≠ "" := fun he => howner (congrArg some he)
        simp [truthy, hne]
  | some old =>
    unfold preserveSinglePvClaimMetadata at h
    dsimp only at h
    split at h
    · cases h
    · next hmode =>
      rw [not_not] at hmode
      rw [hmode]
      split at h
      · next hold =>
        rw [if_pos hold]
        exact h
      · next hold =>
        rw [if_neg hold]
        split at h
        · cases h
          rfl
        · split at h
          · next htruthy =>
            cases h
            simp [htruthy]
          · cases h
            rfl

omit [ConfigHash] in
/-- The mount identity that is settled on is canonical, and settled on again. -/
theorem settle_again {stored recovered : Option String} {fresh mountIdentity : String} (recovered' : Option String)
    (fresh' : String) (hfresh : isCanonicalUuid fresh = true) (h : settleMountIdentity stored recovered fresh = some mountIdentity) :
    isCanonicalUuid mountIdentity = true ∧ settleMountIdentity (some mountIdentity) recovered' fresh' = some mountIdentity := by
  have hcanon : isCanonicalUuid mountIdentity = true := by
    unfold settleMountIdentity at h
    split at h
    · exact isCanonicalUuid_canonicalUuid h
    · split at h
      · split at h
        · next hrec =>
          cases h
          exact hrec
        · cases h
      · cases h
        exact hfresh
  exact ⟨hcanon, of_decide_eq_true hcanon⟩

omit [ConfigHash] in
/-- The UID of a record is the one that the next record has. -/
theorem recordUid_again {record : PoolRecord} (huid : record.storageUid = recordUid obj existing) :
    recordUid obj (some record) = recordUid obj existing := by
  by_cases hu : truthy obj.uid = true
  · unfold recordUid
    rw [if_pos hu, if_pos hu]
  · have hrecord : recordUid obj existing = (existing.bind (·.storageUid)).filter (· ≠ "") := by
      unfold recordUid
      rw [if_neg hu]
    unfold recordUid at huid ⊢
    rw [if_neg hu] at huid ⊢
    rw [if_neg hu, Option.bind_some, huid]
    cases existing.bind (·.storageUid) with
    | none => rfl
    | some uid =>
      by_cases hne : uid = "" <;> simp [Option.filter, hne]

omit [ConfigHash] in
theorem builtRecord_again {record : PoolRecord} (huid : record.storageUid = (builtRecord obj existing).storageUid) :
    builtRecord obj (some record) = builtRecord obj existing := by
  have hrecord : recordUid obj (some record) = recordUid obj existing := by
    refine recordUid_again (huid.trans ?_)
    unfold builtRecord
    split <;> rfl
  unfold builtRecord externalRecord nativeRecord
  rw [hrecord]

/-- **Reconciled again.** The record that was written is written again as it is. -/
theorem applied_again {owner recovered recovered' : Option String} {migration : Bool} {fresh fresh' : String}
    {record : PoolRecord} (howner : owner ≠ some "") (hfresh : isCanonicalUuid fresh = true)
    (h : applyPoolMountMetadata (builtRecord obj existing) existing owner migration recovered fresh = some record) :
    applyPoolMountMetadata (builtRecord obj (some record)) (some record) none false recovered' fresh' = some record := by
  obtain ⟨claim, identity, legacy, hc, hrecord⟩ := applyPoolMountMetadata_some h
  have huid : record.storageUid = (builtRecord obj existing).storageUid := by rw [hrecord]
  have hidentity := settle_again recovered' fresh' hfresh hc.identity
  rw [builtRecord_again huid, hrecord]
  generalize builtRecord obj existing = data at hc
  have hsame : samePool data { data with claim := claim, mount := ⟨some identity, some (mountConfigFingerprint data), legacy⟩ } =
      true := by
    have hclass : ∀ record : PoolRecord, record.volname = data.volname → record.storageClassName = data.storageClassName →
        data.className = record.className := fun record hv hs => by
      rw [PoolRecord.className, PoolRecord.className, hv, hs]
    simp only [samePool, Bool.and_eq_true, decide_eq_true_eq]
    refine ⟨⟨⟨⟨?_, ?_⟩, ?_⟩, hclass _ rfl rfl⟩, ?_⟩
    · cases data.type <;> simp
    · cases data.volname <;> simp
    · cases data.volumeId <;> simp
    · split
      · exact decide_eq_true rfl
      · exact decide_eq_true rfl
  have hclaim : preserveSinglePvClaimMetadata data.singlePvPerPool (some { data with
      claim := claim
      mount := ⟨some identity, some (mountConfigFingerprint data), legacy⟩ }) none = some claim :=
    preserve_again hc.claim howner rfl rfl
  unfold applyPoolMountMetadata
  rw [hclaim]
  simp only [Option.all_some, hsame, Bool.not_true, Bool.false_eq_true, if_false, Option.bind_some,
    hidentity.2, legacyFingerprint]

/-! ## Stored records -/

omit [ConfigHash] in
theorem mapM_some {α β : Type} {f : α → Option β} {g : α → β} : ∀ {l : List α}, (∀ x ∈ l, f x = some (g x)) →
    l.mapM f = some (l.map g)
  | [], _ => rfl
  | x :: l, h => by
    rw [List.mapM_cons, h x (by simp), mapM_some fun y hy => h y (List.mem_cons_of_mem _ hy)]
    rfl

omit [ConfigHash] in
/-- The stored bricks of an accepted request pass the checks of every reader. -/
theorem validateStoredBricks_built {record : PoolRecord} (hbricks : bricksValidation obj.storage = true)
    (hrecord : record.bricks = some (obj.storage.mapIdx (storedBrick obj.name))) :
    validateStoredBricks obj.name record = .ok () := by
  have hstored : ∀ brick ∈ obj.storage.mapIdx (storedBrick obj.name), ∃ i storage, brick = storedBrick obj.name i storage := by
    intro brick hb
    obtain ⟨i, hi, rfl⟩ := List.mem_mapIdx.mp hb
    exact ⟨i, _, rfl⟩
  have hindices : (obj.storage.mapIdx (storedBrick obj.name)).mapM PoolBrick.brickIndex =
      some ((List.range obj.storage.length).map Int.ofNat) := by
    rw [mapM_some (g := fun brick => brick.brickIndex.getD 0)]
    · refine congrArg some (List.ext_getElem (by simp) fun i _ _ => ?_)
      simp only [List.getElem_map, List.getElem_mapIdx, List.getElem_range]
      rfl
    · intro brick hb
      obtain ⟨i, storage, rfl⟩ := hstored brick hb
      rfl
  have hsorted : ((List.range obj.storage.length).map Int.ofNat).insertionSort (· ≤ ·) =
      (List.range obj.storage.length).map Int.ofNat := by
    refine List.Pairwise.insertionSort_eq (List.pairwise_map.mpr ?_)
    exact List.pairwise_lt_range.imp fun hlt => Int.ofNat_le.mpr hlt.le
  have hbacking : bricksValidation (obj.storage.map fun brick => { brick with decommissioned := "" }) = true := by
    unfold bricksValidation at hbricks ⊢
    have hident : (obj.storage.map fun brick => { brick with decommissioned := "" }).mapM brickIdentity =
        obj.storage.mapM brickIdentity := by
      rw [List.mapM_map]
      rfl
    rw [hident]
    cases hmap : obj.storage.mapM brickIdentity with
    | none => simp [hmap] at hbricks
    | some identities =>
      simpa [hmap] using hbricks
  unfold validateStoredBricks
  rw [hrecord]
  dsimp only
  rw [hindices]
  dsimp only
  rw [List.length_mapIdx, if_neg (not_not.mpr hsorted), if_neg, if_neg, sorted_storedBrick, logical_storedBrick,
    hbacking]
  · rfl
  · simp only [Bool.not_eq_true', Bool.not_eq_false, List.all_eq_true]
    intro brick hb
    obtain ⟨i, storage, rfl⟩ := hstored brick hb
    simp [consistentBrick, storedBrick]
  · simp only [Bool.not_eq_true', Bool.not_eq_false, List.all_eq_true]
    intro brick hb
    obtain ⟨i, storage, rfl⟩ := hstored brick hb
    rfl

/-- What a record has that was written for a request. -/
structure Agrees (obj : KadaluStorage) (record : PoolRecord) : Prop where
  backend : record.backendIdentity = obj.backendIdentity
  fingerprint : storageClassBackendFingerprint record = requestedBackendFingerprint obj
  requested : validateRequestedBackendIdentity obj record = .ok ()
  stored : validateStoredRecord obj.name record = .ok ()
  className : record.className = obj.className

omit [ConfigHash] in
/-- The parts of a record that do not come from its metadata. -/
theorem builtRecord_fields (obj : KadaluStorage) (existing : Option PoolRecord) :
    (builtRecord obj existing).volname = some obj.name ∧
    (builtRecord obj existing).type = obj.type ∧ (builtRecord obj existing).volumeId = obj.volumeId ∧
    (builtRecord obj existing).storageClassName = some obj.className ∧ (builtRecord obj existing).deletion = {} := by
  unfold builtRecord
  split
  · next ht => exact ⟨rfl, ht.symm, rfl, rfl, rfl⟩
  · exact ⟨rfl, rfl, rfl, rfl, rfl⟩

theorem agrees_applied {owner recovered : Option String} {migration : Bool} {fresh : String} {record : PoolRecord}
    (h : Accepted obj) (hvolume : obj.volumeId.isSome = true) (hfresh : isCanonicalUuid fresh = true)
    (happly : applyPoolMountMetadata (builtRecord obj existing) existing owner migration recovered fresh = some record) :
    Agrees obj record := by
  obtain ⟨claim, identity, legacy, hc, rfl⟩ := applyPoolMountMetadata_some happly
  obtain ⟨hname, htype, hid, hclass, hdeletion⟩ := builtRecord_fields obj existing
  have hidentity := (settle_again none fresh hfresh hc.identity).1
  obtain ⟨volumeId, hvolumeId⟩ := Option.isSome_iff_exists.mp hvolume
  have hcanonical : isCanonicalUuid volumeId = true := by simpa [hvolumeId] using h.volumeId
  refine ⟨(builtRecord_backend h).1, builtRecord_fingerprint h, (builtRecord_backend h).2, ?_, ?_⟩
  · have hnames : generatedResourceNamesValidation (some obj.name) obj.type (some obj.className)
        ((builtRecord obj existing).bricks.getD []).length = true := by
      have hnames := h.names
      by_cases ht : obj.type = some VOLUME_TYPE_EXTERNAL
      · simp only [generatedResourceNamesValidation, ht, decide_true, Bool.true_or] at hnames ⊢
        exact hnames
      · have hlen : ((builtRecord obj existing).bricks.getD []).length = obj.storage.length := by
          rw [builtRecord, if_neg ht]
          simp [nativeRecord]
        rw [hlen]
        exact hnames
    have hprint : mountConfigFingerprint { builtRecord obj existing with
        claim := claim
        mount := ⟨some identity, some (mountConfigFingerprint (builtRecord obj existing)), legacy⟩ } =
        mountConfigFingerprint (builtRecord obj existing) := rfl
    have hpool : validateStoredPoolIdentity obj.name { builtRecord obj existing with
        claim := claim
        mount := ⟨some identity, some (mountConfigFingerprint (builtRecord obj existing)), legacy⟩ } = .ok () := by
      unfold validateStoredPoolIdentity
      rw [hprint]
      simp [hname, htype, hid, hclass, hdeletion, hnames, hvolumeId, hcanonical, hidentity]
    rw [validateStoredRecord, hpool, ok_bind]
    have hext : PoolRecord.isExternal { builtRecord obj existing with
        claim := claim
        mount := ⟨some identity, some (mountConfigFingerprint (builtRecord obj existing)), legacy⟩ } =
        decide (obj.type = some VOLUME_TYPE_EXTERNAL) := isExternal_builtRecord
    rw [hext]
    by_cases ht : obj.type = some VOLUME_TYPE_EXTERNAL
    · rw [decide_eq_true ht]
      rfl
    · rw [decide_eq_false ht]
      refine validateStoredBricks_built (h.bricks ht) ?_
      show (builtRecord obj existing).bricks = _
      rw [builtRecord, if_neg ht]
      rfl
  · simp only [PoolRecord.className, hname, hclass]
    rfl

/-- **A request and its record agree.** A record that the operator has written for an accepted request has the backend and the
fingerprint of the request, passes every check against it, and is left as it is when the request is reconciled again. -/
theorem request_agrees [RequestChecks] {owner recovered : Option String} {migration : Bool} {fresh : String}
    {record : PoolRecord} (hvalid : validateVolumeRequest obj = true) (hvolume : obj.volumeId.isSome = true)
    (howner : owner ≠ some "") (hfresh : isCanonicalUuid fresh = true)
    (happly : applyPoolMountMetadata (builtRecord obj existing) existing owner migration recovered fresh = some record) :
    Agrees obj record ∧ ∀ recovered' fresh', applyPoolMountMetadata (builtRecord obj (some record)) (some record) none false
      recovered' fresh' = some record ∧ ∀ config, writeRecord config obj.name (some record) record = pure () := by
  refine ⟨agrees_applied (accepted_of_valid hvalid) hvolume hfresh happly, fun recovered' fresh' => ⟨?_, fun config => ?_⟩⟩
  · exact applied_again howner hfresh happly
  · exact if_pos rfl

end Reconciled

/-! ## A sample -/

/-- The digests of the pool below. -/
abbrev extHash : ConfigHash where
  mountDigest _ := "2f65bc418931d82bfc00f0fb69a4c1698286a85dcc1e3a4c0ecaaab8579542a6"
  backendDigest _ := "caf3525566c2ba086ba38edc7d08afd5a696f5440509540c14a0b5ecf7411427"

/-- The checks on its texts. -/
abbrev extChecks : RequestChecks where
  isIpAddress _ := false
  validTolerations _ := true

attribute [local instance] extHash extChecks

/-- A pool of two endpoints, one of which is given twice. -/
def extPool : KadaluStorage where
  name := "ext"
  type := some VOLUME_TYPE_EXTERNAL
  volumeId := some "6ba7b810-9dad-11d1-80b4-00c04fd430c8"
  details := { glusterHost := some "gluster2", glusterHosts := ["gluster2", "gluster1"], glusterVolname := some "vol" }

def extIdentity : String := "f47ac10b-58cc-4372-a567-0e02b2c3d479"

/-- It is accepted, and its record has its backend. -/
theorem extPool_agrees : ∃ record : PoolRecord, record.glusterHosts = ["gluster1", "gluster2"] ∧ Agrees extPool record := by
  refine ⟨{ externalRecord extPool none with
    mount := ⟨some extIdentity, some (mountConfigFingerprint (externalRecord extPool none)), none⟩ }, by decide +kernel, ?_⟩
  have happly : applyPoolMountMetadata (builtRecord extPool none) none none false none extIdentity =
      some { externalRecord extPool none with
        mount := ⟨some extIdentity, some (mountConfigFingerprint (externalRecord extPool none)), none⟩ } := by
    decide +kernel
  have hfresh : isCanonicalUuid extIdentity = true := by decide +kernel
  have howner : (none : Option String) ≠ some "" := by decide
  exact (request_agrees (by decide +kernel) rfl howner hfresh happly).1

end Kadalu.Operator
