import Kadalu.Operator.Runtime
import Kadalu.Operator.Succession

/-!
# Records of older versions

Records of older versions have no mount identity, and a dedicated pool may have an owner that no claim of its volumes tells.
`migrateLegacySinglePvClaims` gives them both before the CSI driver is started.
-/

namespace Kadalu.Runtime

open Calls Calls.Prog Operator WatchCall

/-! ## The migration -/

/-- `discover_single_pv_owners`, for one pool -/
def singlePvOwners (pvs : PersistentVolumes) (volname : String) : List String :=
  (pvs.entries.filterMap fun e =>
    if e.2.driver = some CSI_DRIVER_NAME && e.2.hostvol = some volname then e.2.singlePvOwner else none).dedup

/-- A dedicated pool without an owner gets the one that its volumes have, if that is a single one. -/
def adoptOwner (owners : List String) (data : PoolRecord) : PoolRecord :=
  if data.singlePvPerPool && data.claim.singlePvClaimVersion ≠ some SINGLE_PV_CLAIM_VERSION &&
      !truthy data.claim.legacySinglePvVolumeId then
    match owners with
    | [owner] => { data with claim := { data.claim with legacySinglePvVolumeId := some owner } }
    | _ => data
  else data

variable [ConfigHash]

/-- The migration of one record; `none` is a refusal, and `fresh` the UUID that it would draw. -/
def migrateRecord (owners : List String) (existing : PoolRecord) (fresh : String) : Option PoolRecord :=
  (applyPoolMountMetadata existing (some existing) none existing.mount.mountIdentity.isNone none fresh).map (adoptOwner owners)

/-- The loop of `migrate_legacy_single_pv_claims` -/
def migrateRecords (pvs : PersistentVolumes) : List (Sigma fun _ : String => Serialized) → Entries → PoolHandler Entries
  | [], entries => pure entries
  | ⟨volname, serialized⟩ :: rest, entries =>
    match serialized.decode with
    | none => throw (.value s!"Invalid storage pool metadata in {volname}.info")
    | some existing => do
      let fresh ← Call.uuid4
      match migrateRecord (singlePvOwners pvs volname) existing fresh with
      | none => throw (.value s!"Unable to preserve storage pool metadata in {volname}.info")
      | some data => migrateRecords pvs rest (if data = existing then entries else entries.insert volname (.record data))

/-- `migrate_legacy_single_pv_claims` -/
def migrateLegacySinglePvClaims : WatchProg Unit := do
  let config ← onPool Call.readConfig
  let (_ : Unit) ← ask checkMigration
  let pvs ← onPool Call.listPvs
  let entries ← onPool (migrateRecords pvs config.data.entries config.data)
  if entries.entries = config.data.entries then pure ()
  else onPool (Call.patchConfig { data := entries } config.resourceVersion)

/-! ## A migrated record -/

variable {volname : String} {owners : List String} {data existing : PoolRecord} {fresh : String}

omit [ConfigHash] in
/-- Only a pool without an owner gets one. -/
theorem evolves_adoptOwner : Evolves data (adoptOwner owners data) := by
  unfold adoptOwner
  split
  · next h =>
    simp only [Bool.and_eq_true, decide_eq_true_eq, Bool.not_eq_true'] at h
    split
    · refine ⟨rfl, fun _ => id, rfl, rfl, fun _ => rfl, rfl, fun _ => id, fun _ => rfl, fun ho => absurd ?_ ho⟩
      unfold PoolRecord.ownership
      rw [if_neg (by simp [h.1.1]), if_neg h.1.2, if_neg (by simp [h.2])]
    · exact .refl data
  · exact .refl data

theorem sound_adoptOwner (h : Sound volname data) : Sound volname (adoptOwner owners data) := by
  have hid := h.identity
  unfold adoptOwner
  split
  · split
    · exact h.of_identity ⟨hid.named, hid.names, hid.volumeId, hid.cleanupOnly, hid.complete, hid.quarantined, hid.consistent,
        hid.mountIdentity, hid.fingerprint⟩ rfl rfl h.storageUid
    · exact h
  · exact h

/-- **Migrated.** A sound record stays sound, and what is set in it stays. -/
theorem migrateRecord_evolves (h : Sound volname existing) (hfresh : isCanonicalUuid fresh = true)
    (hdata : migrateRecord owners existing fresh = some data) : Sound volname data ∧ Evolves existing data := by
  obtain ⟨applied, happly, rfl⟩ := Option.map_eq_some_iff.mp hdata
  obtain ⟨claim, identity, legacy, hc, rfl⟩ := applyPoolMountMetadata_some happly
  have hid := h.identity
  have hcanonical := (settle_again none fresh hfresh hc.identity).1
  have hsound : Sound volname { existing with
      claim := claim
      mount := ⟨some identity, some (mountConfigFingerprint existing), legacy⟩ } :=
    h.of_identity ⟨hid.named, hid.names, hid.volumeId, hid.cleanupOnly, hid.complete, hid.quarantined, hid.consistent,
      hcanonical, decide_eq_true rfl⟩ rfl rfl h.storageUid
  exact ⟨sound_adoptOwner hsound, (evolves_applied h hc fun _ => rfl).trans evolves_adoptOwner⟩

end Kadalu.Runtime
