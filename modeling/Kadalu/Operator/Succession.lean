import Kadalu.Operator.Agreement
import Kadalu.Operator.Deletion

/-!
# What becomes of a pool record

A record is written by several parts of the operator: it is built again from its request, migrated from an older version,
marked for its deletion, or sealed. `Sound` is what each of them demands and leaves, and `Evolves` what none of them changes.

* `storedIdentity_iff`: the checks of a stored record, one by one.
* `sound_applied`, `evolves_applied`: a record that is built again.
* `sound_disabled`, `sound_sealed`: a record that is marked or sealed.
-/

namespace Kadalu.Operator

open Except

/-! ## Ownership -/

/-- Whose a dedicated pool is: its volumes claim it, or a volume of an older version has it. -/
inductive Ownership where
  | claimed
  | legacy (volumeId : String)
  deriving DecidableEq, Repr

/-- What a record says of the ownership. -/
def PoolRecord.ownership (data : PoolRecord) : Option Ownership :=
  if !data.singlePvPerPool then none
  else if data.claim.singlePvClaimVersion = some SINGLE_PV_CLAIM_VERSION then some .claimed
  else if truthy data.claim.legacySinglePvVolumeId then some (.legacy (data.claim.legacySinglePvVolumeId.getD ""))
  else none

/-! ## Succession -/

/-- What a later record of a pool has in common with an earlier one: what is set stays. -/
structure Evolves (old new : PoolRecord) : Prop where
  volname : new.volname = old.volname
  type : ∀ t, old.type = some t → new.type = some t
  volumeId : new.volumeId = old.volumeId
  className : new.className = old.className
  backend : old.type.isSome = true → new.backendIdentity = old.backendIdentity
  singlePvPerPool : new.singlePvPerPool = old.singlePvPerPool
  mountIdentity : ∀ m, old.mount.mountIdentity = some m → new.mount.mountIdentity = some m
  storageUid : truthy old.storageUid = true → new.storageUid = old.storageUid
  ownership : old.ownership ≠ none → new.ownership = old.ownership

theorem Evolves.refl (data : PoolRecord) : Evolves data data :=
  ⟨rfl, fun _ => id, rfl, rfl, fun _ => rfl, rfl, fun _ => id, fun _ => rfl, fun _ => rfl⟩

theorem Evolves.trans {a b c : PoolRecord} (h : Evolves a b) (h' : Evolves b c) : Evolves a c where
  volname := h'.volname.trans h.volname
  type t ht := h'.type t (h.type t ht)
  volumeId := h'.volumeId.trans h.volumeId
  className := h'.className.trans h.className
  backend ht := by
    obtain ⟨t, hat⟩ := Option.isSome_iff_exists.mp ht
    rw [h'.backend (by rw [h.type t hat]; rfl), h.backend ht]
  singlePvPerPool := h'.singlePvPerPool.trans h.singlePvPerPool
  mountIdentity m hm := h'.mountIdentity m (h.mountIdentity m hm)
  storageUid hu := by
    have hb := h.storageUid hu
    rw [h'.storageUid (by rw [hb]; exact hu), hb]
  ownership ho := by
    have hb := h.ownership ho
    rw [h'.ownership (by rw [hb]; exact ho), hb]

/-- The deletion of the pool has begun, or is the only thing that its owner can do. -/
def Doomed (data : PoolRecord) : Prop :=
  (data.deletion.deletionCleanupOnly = some true ||
    data.storageUid.any fun uid => CLEANUP_ONLY_STORAGE_UID_PREFIX.toList.isPrefixOf uid.toList) = true

theorem doomed_of_cleanupOnly {data : PoolRecord} (h : storageRecordCleanupOnly data = true) : Doomed data := by
  simp only [storageRecordCleanupOnly, Doomed, Bool.or_eq_true, Bool.and_eq_true] at h ⊢
  exact h.imp_right And.right

/-- What may happen to an entry of the ConfigMap. -/
inductive Change : Option Serialized → Option Serialized → Prop
  | same (entry : Option Serialized) : Change entry entry
  | added (data : PoolRecord) : Change none (some (.record data))
  | rewritten {old new : PoolRecord} (h : Evolves old new) : Change (some (.record old)) (some (.record new))
  | removed {data : PoolRecord} (h : Doomed data) : Change (some (.record data)) none

/-- What may happen to the ConfigMap. -/
def Succeeds (old new : Entries) : Prop := ∀ volname, Change (old.lookup volname) (new.lookup volname)

/-! ## Stored records -/

variable [ConfigHash] {volname : String} {data old new : PoolRecord}

/-- The checks of `_validate_stored_pool_identity` -/
structure StoredIdentity (volname : String) (data : PoolRecord) : Prop where
  named : data.volname = some volname
  names : generatedResourceNamesValidation (some volname) data.type data.storageClassName (data.bricks.getD []).length = true
  volumeId : data.volumeId.any isCanonicalUuid = true
  cleanupOnly : data.deletion.deletionCleanupOnly ≠ some false
  complete : data.deletion.deletionCleanupOnly = some true →
    truthy data.storageUid = true ∧ data.deletion.provisioningDisabled = some true
  quarantined : data.deletion.deletionQuarantined ≠ some false
  consistent : data.deletion.deletionQuarantined = some true →
    data.deletion.provisioningDisabled = some true ∧ data.storageUid = none ∧ data.deletion.deletionCleanupOnly ≠ some true
  mountIdentity : data.mount.mountIdentity.all isCanonicalUuid = true
  fingerprint : data.mount.mountConfigFingerprint.all (· = mountConfigFingerprint data) = true

theorem storedIdentity_iff : validateStoredPoolIdentity volname data = .ok () ↔ StoredIdentity volname data := by
  unfold validateStoredPoolIdentity
  constructor
  · intro h
    split_ifs at h with h₁ h₂ h₃ h₄ h₅ h₆ h₇ h₈ h₉
    rw [not_not] at h₁
    simp only [Bool.not_eq_true', Bool.not_eq_false] at h₂ h₃
    refine ⟨h₁, h₂, h₃, h₄, fun hc => ?_, h₆, fun hq => ?_, ?_, ?_⟩
    · simp only [hc, decide_true, Bool.true_and, Bool.or_eq_true, not_or, Bool.not_eq_true', Bool.not_eq_false,
        decide_eq_true_eq, not_not, ne_eq] at h₅
      exact h₅
    · simp only [hq, decide_true, Bool.true_and, Bool.or_eq_true, not_or, decide_eq_true_eq, not_not, ne_eq] at h₇
      exact ⟨h₇.1.1, Option.not_isSome_iff_eq_none.mp h₇.1.2, h₇.2⟩
    · cases hm : data.mount.mountIdentity with
      | none => rfl
      | some m => simpa [hm] using h₈
    · cases hf : data.mount.mountConfigFingerprint with
      | none => rfl
      | some f => simpa [hf] using h₉
  · intro h
    rw [if_neg (not_not.mpr h.named), if_neg (by rw [h.names]; decide), if_neg (by rw [h.volumeId]; decide), if_neg h.cleanupOnly,
      if_neg, if_neg h.quarantined, if_neg, if_neg, if_neg]
    · rfl
    · cases hf : data.mount.mountConfigFingerprint with
      | none => simp
      | some f => simpa [hf] using h.fingerprint
    · cases hm : data.mount.mountIdentity with
      | none => simp
      | some m => simpa [hm] using h.mountIdentity
    · intro hq
      simp only [Bool.and_eq_true, Bool.or_eq_true, decide_eq_true_eq] at hq
      obtain ⟨hdisabled, huid, hcleanup⟩ := h.consistent hq.1
      rcases hq.2 with (hne | hsome) | hc
      · exact hne hdisabled
      · rw [huid] at hsome
        cases hsome
      · exact hcleanup hc
    · intro hc
      simp only [Bool.and_eq_true, Bool.or_eq_true, decide_eq_true_eq, Bool.not_eq_true'] at hc
      obtain ⟨huid, hdisabled⟩ := h.complete hc.1
      rcases hc.2 with hne | hne
      · rw [huid] at hne
        cases hne
      · exact hne hdisabled

theorem validateStoredRecord_iff : validateStoredRecord volname data = .ok () ↔
    StoredIdentity volname data ∧ (data.isExternal = false → validateStoredBricks volname data = .ok ()) := by
  rw [← storedIdentity_iff, validateStoredRecord]
  cases validateStoredPoolIdentity volname data with
  | error e =>
    rw [error_bind]
    constructor
    · intro h
      cases h
    · rintro ⟨h, -⟩
      cases h
  | ok u =>
    rw [ok_bind]
    cases data.isExternal with
    | true =>
      refine ⟨fun _ => ⟨rfl, fun h => ?_⟩, fun _ => rfl⟩
      cases h
    | false => exact ⟨fun h => ⟨rfl, fun _ => h⟩, fun h => h.2 rfl⟩

/-- A record that every reader accepts, `prepare_storage_upgrade` with its check of the type included; an empty UID is none that
the operator writes. -/
structure Sound (volname : String) (data : PoolRecord) : Prop where
  type : data.type.any (VALID_HOSTING_VOLUME_TYPES.contains ·) = true
  stored : validateStoredRecord volname data = .ok ()
  storageUid : data.storageUid ≠ some ""

theorem Sound.identity (h : Sound volname data) : StoredIdentity volname data := (validateStoredRecord_iff.mp h.stored).1

/-- Without a UID that counts there is none. -/
theorem Sound.uid_none (h : Sound volname data) (hu : truthy data.storageUid = false) : data.storageUid = none := by
  cases huid : data.storageUid with
  | none => rfl
  | some uid =>
    have hne : uid ≠ "" := fun he => h.storageUid (huid.trans (congrArg some he))
    simp [truthy, huid, hne] at hu

/-- The stored bricks and the kind of a pool are not touched by what its identity rests on. -/
theorem Sound.of_identity (h : Sound volname old) (hid : StoredIdentity volname new) (htype : new.type = old.type)
    (hbricks : new.bricks = old.bricks) (huid : new.storageUid ≠ some "") : Sound volname new := by
  refine ⟨htype ▸ h.type, validateStoredRecord_iff.mpr ⟨hid, fun hext => ?_⟩, huid⟩
  have hold : old.isExternal = false := by rw [← hext, PoolRecord.isExternal, PoolRecord.isExternal, htype]
  have := (validateStoredRecord_iff.mp h.stored).2 hold
  unfold validateStoredBricks at this ⊢
  rw [hbricks]
  exact this

/-! ## Built again -/

/-- A request does not take a pool from another owner. -/
def Admits (obj : KadaluStorage) (old : PoolRecord) : Prop :=
  truthy old.storageUid = true → truthy obj.uid = true → old.storageUid = obj.uid

omit [ConfigHash] in
theorem recordUid_ne_empty {obj : KadaluStorage} {existing : Option PoolRecord} : recordUid obj existing ≠ some "" := by
  intro h
  unfold recordUid at h
  split at h
  · next hu =>
    rw [h] at hu
    exact absurd hu (by decide)
  · have := Option.eq_some_of_filter_eq_some h
    rw [this] at h
    simp [Option.filter] at h

omit [ConfigHash] in
theorem Admits.recordUid {obj : KadaluStorage} (h : Admits obj old) (hu : truthy old.storageUid = true) :
    recordUid obj (some old) = old.storageUid := by
  unfold Operator.recordUid
  split
  · next hobj => exact (h hu hobj).symm
  · cases huid : old.storageUid with
    | none => simp [huid]
    | some uid =>
      have hne : uid ≠ "" := fun he => by rw [huid, he] at hu; exact absurd hu (by decide)
      simp [huid, hne, Option.filter]

omit [ConfigHash] in
theorem storageUid_builtRecord {obj : KadaluStorage} {existing : Option PoolRecord} :
    (builtRecord obj existing).storageUid = recordUid obj existing := by
  unfold builtRecord
  split <;> rfl

/-- A record that is written for an accepted request is sound. -/
theorem sound_applied {obj : KadaluStorage} {existing : Option PoolRecord} {owner recovered : Option String}
    {migration : Bool} {fresh : String} (h : Accepted obj) (hvolume : obj.volumeId.isSome = true)
    (hfresh : isCanonicalUuid fresh = true)
    (happly : applyPoolMountMetadata (builtRecord obj existing) existing owner migration recovered fresh = some data) :
    Sound obj.name data := by
  have hstored := (agrees_applied h hvolume hfresh happly).stored
  obtain ⟨claim, identity, legacy, -, rfl⟩ := applyPoolMountMetadata_some happly
  refine ⟨?_, hstored, ?_⟩
  · show (builtRecord obj existing).type.any _ = true
    rw [(builtRecord_fields obj existing).2.1]
    exact h.type
  show (builtRecord obj existing).storageUid ≠ some ""
  rw [storageUid_builtRecord]
  exact recordUid_ne_empty

omit [ConfigHash] in
/-- The ownership that is carried over. -/
theorem ownership_preserved {owner : Option String} {claim : ClaimMetadata} (mount : MountMetadata)
    (h : preserveSinglePvClaimMetadata data.singlePvPerPool (some old) owner = some claim) :
    data.singlePvPerPool = old.singlePvPerPool ∧
      PoolRecord.ownership { data with claim := claim, mount := mount } = old.ownership := by
  unfold preserveSinglePvClaimMetadata at h
  dsimp only at h
  split at h
  · cases h
  · next hmode =>
    rw [not_not] at hmode
    refine ⟨hmode, ?_⟩
    unfold PoolRecord.ownership
    dsimp only
    rw [hmode]
    split at h
    · next hshared => rw [if_pos hshared, if_pos hshared]
    · next hsingle =>
      rw [if_neg hsingle, if_neg hsingle]
      split at h
      · next hversion =>
        cases h
        rw [if_pos rfl, if_pos hversion]
      · next hversion =>
        rw [if_neg hversion]
        split at h
        · next hlegacy =>
          cases h
          rw [if_neg nofun, if_pos hlegacy]
        · next hlegacy =>
          cases h
          rw [if_neg nofun, if_neg nofun, if_neg hlegacy]

omit [ConfigHash] in
/-- A mount identity that is stored is settled on. -/
theorem settle_stored {m identity : String} {recovered : Option String} {fresh : String} (hm : isCanonicalUuid m = true)
    (h : settleMountIdentity (some m) recovered fresh = some identity) : identity = m := by
  have hcanonical : canonicalUuid m = some m := of_decide_eq_true hm
  exact (Option.some.inj (hcanonical.symm.trans h)).symm

/-- **Built again.** The record that is written over a sound one evolves from it. -/
theorem evolves_applied {owner recovered : Option String} {migration : Bool} {fresh : String} {claim : ClaimMetadata}
    {identity : String} {legacy print : Option String} (hold : Sound volname old)
    (hc : Carried data (some old) owner recovered migration fresh claim identity legacy)
    (huid : truthy old.storageUid = true → data.storageUid = old.storageUid) :
    Evolves old { data with claim := claim, mount := ⟨some identity, print, legacy⟩ } := by
  have hsame := hc.same old rfl
  simp only [samePool, Bool.and_eq_true, decide_eq_true_eq] at hsame
  obtain ⟨⟨⟨⟨htype, hname⟩, hvolume⟩, hclass⟩, hbackend⟩ := hsame
  have hset {x y : Option String} (h : x.all (y = some ·) = true) {a : String} (hx : x = some a) : y = some a := by
    simpa [hx] using h
  obtain ⟨hsingle, hownership⟩ := ownership_preserved ⟨some identity, print, legacy⟩ hc.claim
  refine ⟨?_, fun t ht => hset htype ht, ?_, hclass, fun ht => ?_, hsingle, fun m hm => ?_, huid, fun _ => hownership⟩
  · rw [hold.identity.named]
    exact hset hname hold.identity.named
  · cases hid : old.volumeId with
    | none => exact absurd hold.identity.volumeId (by simp [hid])
    | some id => exact hset hvolume hid
  · obtain ⟨t, ht⟩ := Option.isSome_iff_exists.mp ht
    have hkind : data.isExternal = old.isExternal := by
      rw [PoolRecord.isExternal, PoolRecord.isExternal, hset htype ht, ht]
    show (if data.isExternal then externalBackendIdentity data else storedNativeBackendIdentity data) =
      old.backendIdentity
    rw [PoolRecord.backendIdentity, hkind]
    split at hbackend
    · next hext =>
      rw [if_pos hext, if_pos hext]
      exact of_decide_eq_true hbackend
    · next hext =>
      rw [if_neg hext, if_neg hext]
      exact of_decide_eq_true hbackend
  · have hidentity := hc.identity
    rw [Option.bind_some, hm] at hidentity
    have hcanonical : isCanonicalUuid m = true := by simpa [hm] using hold.identity.mountIdentity
    rw [settle_stored hcanonical hidentity]

/-! ## Marked and sealed -/

omit [ConfigHash] in
/-- What a step that keeps the backend, the identities and the ownership of a pool leaves. -/
theorem Evolves.of_fields {deletion : DeletionMetadata} {uid : Option String}
    (huid : truthy old.storageUid = true → uid = old.storageUid) :
    Evolves old { old with storageUid := uid, deletion := deletion } :=
  ⟨rfl, fun _ => id, rfl, rfl, fun _ => rfl, rfl, fun _ => id, huid, fun _ => rfl⟩

/-- **Marked.** The tombstone of a pool with an owner leaves its record sound. -/
theorem sound_disabled (h : Sound volname old) (huid : truthy old.storageUid = true) :
    Sound volname old.disabled ∧ Evolves old old.disabled := by
  have hid := h.identity
  refine ⟨h.of_identity ⟨hid.named, hid.names, hid.volumeId, nofun, fun _ => ⟨huid, rfl⟩, hid.quarantined, fun hq => ?_,
    hid.mountIdentity, hid.fingerprint⟩ rfl rfl h.storageUid, Evolves.of_fields fun _ => rfl⟩
  rw [(hid.consistent hq).2.1] at huid
  exact absurd huid (by decide)

/-- **Sealed.** A record without an owner is claimed or put aside, and is sound. -/
theorem sound_sealed {legacyStorageUid : Option String} {owned : Bool} (h : Sound volname old)
    (huid : truthy old.storageUid = false) (howned : owned = true → truthy legacyStorageUid = true) :
    Sound volname (old.sealed legacyStorageUid owned) ∧ Evolves old (old.sealed legacyStorageUid owned) := by
  have hid := h.identity
  have hnone := h.uid_none huid
  have hold : truthy old.storageUid = true → legacyStorageUid = old.storageUid := fun hu => by
    rw [huid] at hu
    cases hu
  unfold PoolRecord.sealed
  split
  · next ho =>
    have hclaimed := howned ho
    refine ⟨h.of_identity ⟨hid.named, hid.names, hid.volumeId, nofun, fun _ => ⟨hclaimed, rfl⟩, nofun, nofun,
      hid.mountIdentity, hid.fingerprint⟩ rfl rfl fun he => ?_, Evolves.of_fields hold⟩
    rw [show legacyStorageUid = some "" from he] at hclaimed
    exact absurd hclaimed (by decide)
  · have hcleanup : old.deletion.deletionCleanupOnly ≠ some true := fun hc => by
      rw [(hid.complete hc).1] at huid
      cases huid
    refine ⟨h.of_identity ⟨hid.named, hid.names, hid.volumeId, hid.cleanupOnly, fun hc => absurd hc hcleanup, nofun,
      fun _ => ⟨rfl, hnone, hcleanup⟩, hid.mountIdentity, hid.fingerprint⟩ rfl rfl h.storageUid,
      Evolves.of_fields fun _ => rfl⟩

end Kadalu.Operator
