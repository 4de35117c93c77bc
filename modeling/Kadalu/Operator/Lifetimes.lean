import Kadalu.Operator.DeletionOrder
import Kadalu.Operator.Keeping

/-!
# The records outlive the operator

The operator is started again and again, and each of its processes may be killed between any two requests (`Lifetimes`). The
records of the pools stay valid through all of it; a record changes only as `Evolves` allows, and goes only when the deletion
of its pool has begun (`records_kept`).
-/

namespace Kadalu.Runtime

open Calls Calls.Prog Operator Fingerprint Snapshot WatchCall Ledger

/-! ## Deletions -/

section

variable {volname : String} {obj : DeletedStorage} {q : DeletionRequest} {data expected current : PoolRecord} {fuel : Nat}
  {legacyStorageUid : Option String} {s : Ledger}

theorem only_readDeletionStorageInfo : Only Spares (readDeletionStorageInfo volname) :=
  only_bind (only_request (r := Call.readConfigMap) trivial) fun _ => only_ofExcept _

theorem only_getNumPvs : Only Spares (getNumPvs data) :=
  only_bind (only_request (r := Call.listPersistentVolumes) trivial) fun _ => only_pure _

theorem only_verifyLegacyDeletionResource {hasStorageClient : Bool} :
    Only Spares (verifyLegacyDeletionResource hasStorageClient obj data) := by
  have howner {name : String} {uid volumeId : Option String} :
      Only Spares (validateStorageRecordOwner name uid volumeId data) := by
    refine asks_ite (fun _ => only_pure _) fun _ => asks_ite (fun _ => ?_) fun _ => ?_
    · exact asks_ite (fun _ => only_throw _) fun _ => only_pure _
    · refine asks_ite (fun _ => only_pure _) fun _ => only_bind ?_ fun predates => ?_
      · exact asks_ite (fun _ => only_request (r := Call.predatesStorage _) trivial) fun _ => only_pure _
      · exact asks_ite (fun _ => only_pure _) fun _ => only_throw _
  refine asks_ite (fun _ => only_throw _) fun _ => only_bind (only_tryCatch ?_ fun e => ?_) fun current => ?_
  · exact only_map _ (only_request (r := Call.getStorage _) trivial)
  · exact asks_ite (fun _ => only_throw _) fun _ => asks_ite (fun _ => only_throw _) fun _ => only_pure _
  · cases current with
    | none => exact only_pure _
    | some current =>
      exact asks_ite (fun _ => only_pure _) fun _ => asks_ite (fun _ => only_throw _) fun _ =>
        asks_ite (fun _ => only_pure _) fun _ => asks_ite (fun _ => only_throw _) fun _ => howner

/-- A record is claimed only for an owner. -/
theorem asks_cleanupOwned {quarantine : Bool} : Asks Spares (fun r => r = .ok true → truthy legacyStorageUid = true)
    (cleanupOwned obj current legacyStorageUid quarantine) := by
  have hexpected : truthy (obj.expectedUid current) = true := by
    unfold DeletedStorage.expectedUid
    split
    · next h => exact h
    · have hne : CLEANUP_ONLY_STORAGE_UID_PREFIX ++ current.volumeId.getD "" ≠ "" := by
        intro h
        have hlist := congrArg String.toList h
        simp [CLEANUP_ONLY_STORAGE_UID_PREFIX] at hlist
      simp [truthy, hne]
  refine asks_ite (fun _ => asks_pure fun h => ?_) fun _ => asks_ite (fun _ => asks_throw fun h => ?_) fun heq => ?_
  · cases h
  · cases h
  · rw [not_not.mp heq]
    refine Asks.mono (fun _ _ _ => hexpected) (only_tryCatch ?_ fun e => ?_)
    · exact only_bind (only_request (r := Call.preflightLegacyClass _) trivial) fun _ => only_pure _
    · cases e with
      | runtime msg => exact only_pure _
      | _ => exact only_throw _

theorem only_deletePoolServers {hostvolType : Option String} :
    Only World.Quiet (deletePoolServers volname hostvolType data) := by
  have hservers : ∀ bricks, Only World.Quiet (deleteServerPods volname bricks) := by
    intro bricks
    induction bricks with
    | nil => exact only_pure _
    | cons brick bricks ih => exact only_bind (only_request (r := Call.deleteServer _) trivial) fun _ => ih
  exact asks_ite (fun _ => only_pure _) fun _ =>
    only_bind (hservers _) fun _ => only_request (r := Call.deleteService _) trivial

theorem only_retireClass : Only World.Quiet (retireClass data) := by
  refine only_tryCatch (only_bind (only_request (r := Call.deleteClass _ _ _) trivial) fun _ => only_pure _) fun e => ?_
  exact asks_ite (fun _ => only_pure _) fun _ => only_throw _

theorem only_interruptedCleanup : Only World.Quiet (interruptedCleanup obj) := by
  refine only_tryCatch (only_bind (only_request (r := Call.deleteClass _ _ _) trivial) fun _ => only_pure _) fun e => ?_
  cases e with
  | runtime msg => exact only_pure _
  | _ => exact only_throw _

variable [ConfigHash]

/-- Records with one deletion identity are doomed together. -/
theorem doomed_of_identity (h : deletionRecordIdentity current = deletionRecordIdentity expected) (hd : Doomed expected) :
    Doomed current := by
  have hcleanup := congrArg DeletionIdentity.deletionCleanupOnly h
  have huid := congrArg DeletionIdentity.storageUid h
  simp only [deletionRecordIdentity] at hcleanup huid
  unfold Doomed
  rw [hcleanup, huid]
  exact hd

theorem only_preliminaryCount : Only Spares (preliminaryCount obj q data) := by
  refine asks_ite (fun _ => only_pure _) fun _ => only_bind only_readDeletionStorageInfo fun authoritative => ?_
  cases authoritative with
  | none => exact only_pure _
  | some authoritative =>
    refine only_bind (only_ofExcept _) fun _ => asks_ite (fun _ => only_pure _) fun _ => only_bind only_getNumPvs fun _ => ?_
    exact asks_ite (fun _ => only_pure _) fun _ => asks_ite (fun _ => only_pure _) fun _ => only_pure _

theorem only_preserveQuarantined : Only Spares (preserveQuarantined obj data) := by
  refine only_bind only_readDeletionStorageInfo fun authoritative => ?_
  cases authoritative with
  | none => exact only_pure _
  | some authoritative =>
    exact only_bind (only_ofExcept _) fun _ => asks_ite (fun _ => only_throw _) fun _ => only_pure _

/-- **The tombstone** of a pool that has an owner. -/
theorem keeps_disablePoolProvisioning (hexpected : truthy expected.storageUid = true) :
    Keeps poolRecords (disablePoolProvisioning volname expected) := by
  refine fun s hs => wp_readConfig hs (fun _ => hs) fun config hconfig => ?_
  split
  · exact wp_throw hs
  · next record hrecord =>
    have hlookup := decoded_some hrecord
    rw [hconfig] at hlookup
    cases hvalid : validateDisabled volname expected record with
    | error e => exact hs
    | ok u =>
      have huid : truthy record.storageUid = true := by
        unfold validateDisabled at hvalid
        obtain ⟨-, -, hsame⟩ := Except.bind_ok.mp hvalid
        have hidentity := (Except.ite_error_ok.mp hsame).1
        rw [not_not] at hidentity
        rw [show record.storageUid = expected.storageUid from congrArg DeletionIdentity.storageUid hidentity]
        exact hexpected
      have hdisabled := sound_disabled (hs.sound _ _ hlookup) huid
      refine wp_ite (fun _ => wp_pure hs) fun _ => ?_
      rw [hconfig]
      refine wp_bind (wp_patch hs (hs.update volname (some (.record record.disabled)) (fun w => Patch.lookup_insert) ?_ ?_) ?_)
      · rw [hlookup]
        exact .rewritten hdisabled.2
      · rintro _ ⟨⟩
        exact hdisabled.1
      · intro a t ht
        cases a <;> exact ht

/-- What the fence finds is marked, or has an owner. -/
def Found : FencedRecord → Prop
  | .absent _ => True
  | .preserved data => truthy data.storageUid = true
  | .tombstoned data => Doomed data

theorem asks_disablePoolProvisioning :
    Asks (fun _ => True) (fun r => ∀ data, r = .ok data → Doomed data) (disablePoolProvisioning volname expected) := by
  have hdoomed {record : PoolRecord} (h : record.deletion.deletionCleanupOnly = some true) : Doomed record := by
    simp [Doomed, h]
  have herror : ∀ e data, (.error e : Except OpErr PoolRecord) = .ok data → Doomed data := by rintro e data ⟨⟩
  refine asks_any_bind (fun _ => trivial) herror fun config => ?_
  split
  · exact asks_throw (herror _)
  · refine asks_any_bind (fun _ => trivial) herror fun _ => asks_ite (fun h => asks_pure ?_) fun _ => ?_
    · rintro _ ⟨⟩
      simp only [Bool.and_eq_true, decide_eq_true_eq] at h
      exact hdoomed h.2
    · refine asks_any_bind (fun _ => trivial) herror fun _ => asks_pure ?_
      rintro _ ⟨⟩
      exact hdoomed rfl

theorem keeps_authoritativeRecord : Keeps poolRecords (authoritativeRecord obj q data) := by
  refine keeps_bind (keeps_quiet (quiet_of_spares only_readDeletionStorageInfo)) fun authoritative => ?_
  cases authoritative with
  | none => exact keeps_pure _
  | some authoritative =>
    dsimp only
    cases hvalid : validateDeletionSnapshot obj data authoritative with
    | error e => exact keeps_throw e
    | ok u =>
      refine keeps_ite (fun _ => keeps_ite (fun _ => keeps_throw _) fun _ => keeps_pure _) fun _ => ?_
      refine keeps_ite (fun _ => keeps_pure _) fun _ => keeps_bind (keeps_disablePoolProvisioning ?_) fun _ => keeps_pure _
      exact (Deletion.snapshot_ok hvalid).2.1.1

theorem asks_authoritativeRecord :
    Asks (fun _ => True) (fun r => ∀ found, r = .ok found → Found found) (authoritativeRecord obj q data) := by
  have herror : ∀ e found, (.error e : Except OpErr FencedRecord) = .ok found → Found found := by rintro e found ⟨⟩
  refine asks_any_bind (fun _ => trivial) herror fun authoritative => ?_
  cases authoritative with
  | none =>
    refine asks_pure ?_
    rintro _ ⟨⟩
    trivial
  | some authoritative =>
    dsimp only
    cases hvalid : validateDeletionSnapshot obj data authoritative with
    | error e => exact asks_throw (herror e)
    | ok u =>
      refine asks_ite (fun _ => asks_ite (fun _ => asks_throw (herror _)) fun _ => asks_pure ?_) fun _ => ?_
      · rintro _ ⟨⟩
        exact (Deletion.snapshot_ok hvalid).2.1.1
      · refine asks_ite (fun hcleanup => asks_pure ?_) fun _ => ?_
        · rintro _ ⟨⟩
          exact doomed_of_cleanupOnly hcleanup
        · refine asks_bind_of (R := Doomed) (asks_disablePoolProvisioning.mono fun r hr => ⟨hr, fun e _ => herror e⟩) ?_
          intro disabled hdisabled
          refine asks_pure ?_
          rintro _ ⟨⟩
          exact hdisabled

/-- **The removal** of a record whose pool is doomed. -/
theorem keeps_deleteConfigMap (hexpected : Doomed expected) : Keeps poolRecords (deleteConfigMap obj expected) := by
  refine fun s hs => wp_readConfig hs (fun _ => hs) fun config hconfig => ?_
  split
  · exact wp_throw hs
  · next current hcurrent =>
    have hlookup := decoded_some hcurrent
    rw [hconfig] at hlookup
    cases hvalid : validateDeletionSnapshot obj expected current with
    | error e => exact hs
    | ok u =>
      have hdoomed := doomed_of_identity (Deletion.snapshot_ok hvalid).2.2 hexpected
      show wp poolRecords Kept _ (Call.patchConfig _ _) s
      rw [hconfig]
      refine wp_patch hs (hs.update obj.name none (fun w => Patch.lookup_removed) ?_ ?_) fun _ _ h => h
      · rw [hlookup]
        exact .removed hdoomed
      · rintro data ⟨⟩

theorem keeps_removePool (hdata : Doomed data) : Keeps poolRecords (removePool obj data) := by
  refine keeps_bind (keeps_quiet (quiet_of_spares only_getNumPvs)) fun _ => keeps_ite (fun _ => keeps_pure _) fun _ =>
    keeps_ite (fun _ => keeps_pure _) fun _ => keeps_bind (keeps_quiet (quiet_of_spares only_readDeletionStorageInfo)) fun latest => ?_
  cases latest with
  | none => exact keeps_pure _
  | some latest =>
    dsimp only
    cases hvalid : validateDeletionSnapshot obj data latest with
    | error e => exact keeps_throw e
    | ok u =>
      have hlatest := doomed_of_identity (Deletion.snapshot_ok hvalid).2.2 hdata
      refine keeps_bind (keeps_quiet (only_ofExcept _)) fun _ => keeps_bind (keeps_quiet only_deletePoolServers) fun _ => ?_
      exact keeps_bind (keeps_deleteConfigMap hlatest) fun _ => keeps_pure _

theorem keeps_finishDeletion {record : FencedRecord} (hrecord : Found record) :
    Keeps poolRecords (finishDeletion obj record) := by
  cases record with
  | absent data =>
    exact keeps_bind (keeps_quiet (only_request (r := Call.deleteClass _ _ _) trivial)) fun _ => keeps_pure _
  | preserved data =>
    exact keeps_ite (fun _ => keeps_pure _) fun _ =>
      keeps_bind (keeps_disablePoolProvisioning hrecord) fun _ => keeps_pure _
  | tombstoned data =>
    exact keeps_bind (keeps_quiet only_retireClass) fun _ =>
      keeps_ite (fun _ => keeps_removePool hrecord) fun _ => keeps_pure _

/-- **A record without an owner** is sealed. -/
theorem keeps_sealLegacyDeletionRecord {hasStorageClient quarantine : Bool} :
    Keeps poolRecords (sealLegacyDeletionRecord hasStorageClient obj expected legacyStorageUid quarantine) := by
  refine keeps_ite (fun _ => keeps_throw _) fun huid =>
    keeps_bind (keeps_quiet (quiet_of_spares only_verifyLegacyDeletionResource)) fun _ s hs => ?_
  refine wp_readConfig hs (fun _ => hs) fun config hconfig => wp_ite (fun _ => wp_throw hs) fun _ => ?_
  split
  · exact wp_throw hs
  · next current hcurrent =>
    have hlookup := decoded_some hcurrent
    rw [hconfig] at hlookup
    cases hvalid : validateSealed obj.name expected current with
    | error e => exact hs
    | ok u =>
      have hsame : current = expected := by
        unfold validateSealed at hvalid
        obtain ⟨-, -, hsame⟩ := Except.bind_ok.mp hvalid
        exact not_not.mp (Except.ite_error_ok.mp hsame).1
      have hunowned : truthy current.storageUid = false := by
        rw [hsame]
        exact Bool.eq_false_iff.mpr huid
      refine wp_bind (wp_ofExcept.mpr (wp_quiet_bind (R := fun _ => True) (quiet_of_spares (only_getNumPvs.mono fun _ _ _ _ => trivial)) hs
        (fun _ => hs) fun _ _ => wp_ite (fun _ => wp_throw hs) fun _ => ?_))
      refine wp_quiet_bind (R := fun owned => owned = true → truthy legacyStorageUid = true)
        (quiet_of_spares (asks_cleanupOwned.mono fun r hr owned ho h => hr (by rw [ho, h]))) hs (fun _ => hs) fun owned howned => ?_
      have hsealed := sound_sealed (hs.sound _ _ hlookup) hunowned howned
      have hreplace : wp poolRecords Kept (fun _ t => t.Kept)
          (replaceSealed obj config current (current.sealed legacyStorageUid owned)) s := by
        refine wp_ite (fun _ => wp_pure hs) fun _ => ?_
        rw [hconfig]
        refine wp_replace hs (hs.update obj.name (some (.record (current.sealed legacyStorageUid owned))) (fun w => ?_) ?_ ?_)
          fun _ _ h => h
        · by_cases hw : w = obj.name
          · subst hw
            rw [if_pos rfl, AList.lookup_insert]
          · rw [if_neg hw, AList.lookup_insert_ne hw]
        · rw [hlookup]
          exact .rewritten hsealed.2
        · rintro _ ⟨⟩
          exact hsealed.1
      refine wp_bind (wp_bind (wp_mono (fun r t ht => ?_) hreplace))
      cases r with
      | error e => exact ht
      | ok a =>
        have hconfirmed : Only Spares (do
            let confirmed ← readDeletionStorageInfo obj.name
            if confirmed ≠ some (current.sealed legacyStorageUid owned) then
              throw (.runtime s!"Storage pool {obj.name} changed while sealing its legacy deletion record")
            else pure (current.sealed legacyStorageUid owned)) :=
          only_bind only_readDeletionStorageInfo fun _ => asks_ite (fun _ => only_throw _) fun _ => only_pure _
        refine wp_mono (fun r u hu => ?_) (keeps_quiet (quiet_of_spares hconfirmed) t ht)
        cases r <;> exact hu

theorem keeps_legacyDeletion : Keeps poolRecords (legacyDeletion obj q data) := by
  refine keeps_bind keeps_sealLegacyDeletionRecord ?_
  rintro ⟨confirmed, owned⟩
  refine keeps_ite (fun _ => keeps_pure _) fun _ => keeps_bind (keeps_quiet (only_ofExcept _)) fun _ => ?_
  exact keeps_bind_of keeps_authoritativeRecord asks_authoritativeRecord fun _ => keeps_finishDeletion

theorem keeps_restoring {ownsFence : Bool} {body : PoolHandler Bool} (hbody : Keeps poolRecords body) :
    Keeps poolRecords (restoring fuel ownsFence body) := by
  refine keeps_ite (fun _ => keeps_andThen hbody fun r => ?_) fun _ => hbody
  exact keeps_bind (keeps_quiet (quiet_of_spares only_unfence)) fun _ => keeps_quiet (only_ofExcept r)

theorem keeps_fencedDeletion : Keeps poolRecords (fencedDeletion fuel obj q data) := by
  refine keeps_bind (keeps_ite (fun _ => keeps_quiet (quiet_of_spares only_fence)) fun _ => keeps_pure _) fun _ => ?_
  refine keeps_ite (fun _ => keeps_restoring keeps_legacyDeletion) fun _ => ?_
  exact keeps_bind_of keeps_authoritativeRecord asks_authoritativeRecord fun _ hfound =>
    keeps_restoring (keeps_finishDeletion hfound)

theorem keeps_deleteRecorded : Keeps poolRecords (deleteRecorded fuel obj q data) := by
  unfold deleteRecorded
  split
  · exact keeps_pure _
  · refine keeps_ite (fun _ => keeps_quiet (quiet_of_spares only_preserveQuarantined)) fun _ =>
      keeps_bind (keeps_quiet (quiet_of_spares only_preliminaryCount)) fun counted => ?_
    cases counted with
    | error done => exact keeps_pure _
    | ok data => exact keeps_ite (fun _ => keeps_pure _) fun _ => keeps_fencedDeletion

theorem keeps_handleDeleted : Keeps poolRecords (handleDeleted fuel obj q) := by
  unfold handleDeleted
  split
  · exact keeps_deleteRecorded
  · refine keeps_bind (keeps_quiet (quiet_of_spares only_readDeletionStorageInfo)) fun data => ?_
    cases data with
    | none => exact keeps_quiet only_interruptedCleanup
    | some data => exact keeps_deleteRecorded

end

/-! ## The migration -/

section

variable [ConfigHash] {pvs : PersistentVolumes} {s : Ledger}

/-- The entries of a migration so far: each is sound, and what its record has become. -/
def Migrated (s : Ledger) (entries : Entries) : Prop :=
  ∀ volname, Change (s.entries.lookup volname) (entries.lookup volname) ∧
    ∀ data, entries.lookup volname = some (.record data) → Sound volname data

/-- The records that are left are those that were read. -/
theorem wp_migrateRecords (hs : s.Kept) {rest : List (Sigma fun _ : String => Serialized)} (hrest : rest ⊆ s.entries.entries)
    {entries : Entries} (hentries : Migrated s entries) :
    wp poolRecords Kept (fun r t => t = s ∧ ∀ entries, r = .ok entries → Migrated s entries)
      (migrateRecords pvs rest entries) s := by
  induction rest generalizing entries with
  | nil =>
    refine wp_pure ⟨rfl, ?_⟩
    rintro _ ⟨⟩
    exact hentries
  | cons e rest ih =>
    obtain ⟨volname, serialized⟩ := e
    have hlookup : s.entries.lookup volname = some serialized := AList.mem_lookup_iff.mpr (hrest (List.mem_cons_self ..))
    have herror : ∀ e entries, (.error e : Except OpErr Entries) = .ok entries → Migrated s entries := by
      rintro e entries ⟨⟩
    cases serialized with
    | malformed => exact wp_throw ⟨rfl, herror _⟩
    | record existing =>
      refine wp_bind (wp_request ?_)
      rintro a t ⟨rfl, ha⟩
      refine ⟨hs, ?_⟩
      cases a with
      | error e => exact ⟨rfl, herror e⟩
      | ok fresh =>
        dsimp only
        split
        · exact wp_throw ⟨rfl, herror _⟩
        · next data hdata =>
          obtain ⟨hsound, hevolves⟩ := migrateRecord_evolves (hs.sound _ _ hlookup) (ha fresh rfl) hdata
          refine ih (fun e he => hrest (List.mem_cons_of_mem _ he)) ?_
          split
          · exact hentries
          · intro w
            by_cases hw : w = volname
            · subst hw
              rw [AList.lookup_insert, hlookup]
              refine ⟨.rewritten hevolves, ?_⟩
              rintro _ ⟨⟩
              exact hsound
            · rw [AList.lookup_insert_ne hw]
              exact hentries w

/-- **The migration.** -/
theorem keeps_migrateLegacySinglePvClaims : Keeps migrationRecords migrateLegacySinglePvClaims := by
  intro s hs
  refine wp_bind (wp_onPool_kept (fun _ _ _ _ h => h) (wp_request ?_))
  rintro a t ⟨rfl, ha⟩
  refine ⟨hs, ?_⟩
  cases a with
  | error e => exact hs
  | ok config =>
    have hconfig := ha config rfl
    refine wp_bind (wp_request ?_)
    rintro a u rfl
    refine ⟨hs, ?_⟩
    cases a with
    | error e => exact hs
    | ok _ =>
      refine wp_bind (wp_onPool_kept (fun _ _ _ _ h => h) (wp_request ?_))
      rintro a v rfl
      refine ⟨hs, ?_⟩
      cases a with
      | error e => exact hs
      | ok pvs =>
        dsimp only
        rw [hconfig]
        refine wp_bind (wp_onPool_kept (fun _ _ _ _ h => h) (wp_mono ?_
          (wp_migrateRecords hs (List.Subset.refl _) fun w => ⟨.same _, hs.sound w⟩)))
        rintro r w ⟨rfl, hr⟩
        cases r with
        | error e => exact hs
        | ok entries =>
          have hmigrated := hr entries rfl
          refine wp_ite (fun _ => wp_pure hs) fun _ => wp_onPool_kept (fun _ _ _ _ h => h) (wp_patch hs ?_ fun _ _ h => h)
          have happly : ∀ x, (({ data := entries } : Patch).apply w.entries).lookup x = entries.lookup x ∨
              (({ data := entries } : Patch).apply w.entries).lookup x = w.entries.lookup x := fun x => by
            by_cases hx : x ∈ entries
            · exact .inl (AList.lookup_union_left hx)
            · exact .inr (AList.lookup_union_right hx)
          refine ⟨fun x data hx => ?_, List.isChain_cons_cons.mpr ⟨fun x => ?_, hs.chain⟩⟩
          · rw [entries_written] at hx
            rcases happly x with h | h
            · exact (hmigrated x).2 data (h ▸ hx)
            · exact hs.sound x data (h ▸ hx)
          · rw [entries_written]
            rcases happly x with h | h
            · exact h ▸ (hmigrated x).1
            · exact h ▸ .same _

theorem keeps_migrateClaims : Keeps records (ask migrateClaims) := by
  refine fun s hs => wp_request ?_
  rintro a t ⟨p, hp⟩
  have ht := (wp_exec hs (keeps_migrateLegacySinglePvClaims s hs) hp).1
  exact ⟨ht, ht⟩

end

/-! ## Passes -/

section

variable [ConfigHash] [RequestChecks] [ObjectForm] {fuel : Nat}

/-- **Handlers.** Whatever the loops ask for, the records are kept. -/
theorem keeps_handler (r : PlanRequest) : Keeps records (handler fuel r) := by
  cases r with
  | prepare => exact keeps_readonly (only_request (r := WatchCall.prepare) trivial)
  | rollOut tolerations => exact keeps_readonly (only_request (r := WatchCall.rollOut _) trivial)
  | awaitRollout tolerations => exact keeps_readonly (only_request (r := WatchCall.awaitRollout _) trivial)
  | currentTolerations => exact keeps_readonly (only_request (r := WatchCall.currentTolerations) trivial)
  | deployServers obj => exact keeps_readonly (only_request (r := WatchCall.deployServers _) trivial)
  | handleAdded obj fenced => exact keeps_handleAdded
  | handleDeleted orphan fenced storageClient => exact keeps_onPool keeps_handleDeleted
  | clearOperatorReady => exact keeps_readonly (only_onPool (only_request (r := Call.clearReady) trivial))
  | quiesceCsiProvisioner => exact keeps_readonly (only_onPool (quiet_of_spares only_quiesceCsiProvisioner))
  | resumeCsiProvisioner => exact keeps_readonly (only_onPool (only_request (r := Call.setReplicas 1) trivial))
  | waitForCsiProvisionerRollout => exact keeps_readonly (only_onPool (quiet_of_spares only_waitForCsiProvisionerRollout))
  | markOperatorReady => exact keeps_readonly (only_onPool (only_request (r := Call.markReady) trivial))

theorem keeps_onPlan {α : Type} (p : PlanProg α) : Keeps records (onPlan fuel p) := keeps_expand keeps_handler p

variable [JsonText]

theorem keeps_reconcileSnapshot : Keeps records (reconcileSnapshot fuel) :=
  keeps_bind (keeps_readonly (only_request (r := WatchCall.prepare) trivial)) fun _ => keeps_onPlan _

omit [JsonText] in
theorem only_eventQuarantined {event : WatchEvent} : Only Readonly (eventQuarantined event) := by
  refine asks_ite (fun _ => only_pure _) fun _ => only_onPool (asks_ite (fun _ => only_pure _) fun _ => ?_)
  refine only_bind (only_request (r := Call.readConfigMap) trivial) fun config => ?_
  split
  · exact only_throw _
  · exact only_pure _
  · exact only_bind (only_ofExcept _) fun _ => only_pure _

omit [RequestChecks] [JsonText] in
theorem keeps_finishTombstone {event : WatchEvent} {quarantined : Bool} {plan : Plan} :
    Keeps records (finishTombstone fuel event quarantined plan) := by
  refine keeps_ite (fun _ => keeps_bind (keeps_readonly (only_onPool (quiet_of_spares only_readDeletionStorageInfo))) fun data => ?_)
    fun _ => keeps_pure _
  refine keeps_ite (fun _ => keeps_pure _) fun _ => keeps_bind (keeps_onPool keeps_handleDeleted) fun deleted => ?_
  exact keeps_ite (fun _ => keeps_throw _) fun _ => keeps_pure _

theorem keeps_watchEvents {rounds version : Nat} : Keeps records (watchEvents fuel rounds version) := by
  induction rounds generalizing version with
  | zero => exact keeps_cut
  | succ rounds ih =>
    refine keeps_bind (keeps_readonly (only_request (r := WatchCall.nextEvent) trivial)) fun event => ?_
    have hevent {event : WatchEvent} : Keeps records (if event.resourceVersion.isNone then
        throw (.runtime "Kadalustorage event has no resourceVersion") else handleEvent fuel event) := by
      refine keeps_ite (fun _ => keeps_throw _) fun _ => ?_
      refine keeps_bind (keeps_readonly only_eventQuarantined) fun quarantined => ?_
      exact keeps_bind keeps_reconcileSnapshot fun plan => keeps_bind keeps_finishTombstone fun _ => keeps_pure _
    cases event with
    | none => exact keeps_pure _
    | some event =>
      dsimp only
      split
      · exact keeps_throw _
      · exact ih
      · exact ih
      · exact hevent
      · exact hevent
      · exact hevent

theorem keeps_watchStream : Keeps records (watchStream fuel) := keeps_bind keeps_reconcileSnapshot fun _ => keeps_watchEvents

omit [JsonText] in
theorem keeps_deployCsiUpgrade : Keeps records (deployCsiUpgrade fuel) := by
  refine keeps_bind (keeps_readonly (only_request (r := WatchCall.prepare) trivial)) fun plan => ?_
  refine keeps_bind (keeps_readonly (only_request (r := WatchCall.checkMigration) trivial)) fun _ => ?_
  refine keeps_bind (keeps_readonly (only_request (r := WatchCall.preflightHeal _) trivial)) fun _ => ?_
  refine keeps_bind (keeps_readonly (only_onPool (quiet_of_spares only_quiesceCsiProvisioner))) fun _ => ?_
  refine keeps_bind (keeps_readonly (only_request (r := WatchCall.prepare) trivial)) fun plan => ?_
  refine keeps_bind (keeps_readonly (only_request (r := WatchCall.checkMigration) trivial)) fun _ => ?_
  refine keeps_bind (keeps_readonly (only_request (r := WatchCall.deployCsiPods _ _) trivial)) fun _ => ?_
  exact keeps_bind keeps_migrateClaims fun _ => keeps_onPlan _

/-- The end of a start, or of a changed configuration: the provisioner comes back. -/
theorem keeps_served {α : Type} {plan : Plan} (result : Plan → α) : Keeps records (do
    let plan ← onPlan fuel (reconcileStorageUntilStable fuel plan)
    let (_ : Unit) ← ask (deployCsiPods 1 plan.nodepluginTolerations)
    onPool (waitForCsiProvisionerRollout fuel)
    onPool (request Call.markReady)
    pure (result plan)) := by
  refine keeps_bind (keeps_onPlan _) fun plan => ?_
  refine keeps_bind (keeps_readonly (only_request (r := WatchCall.deployCsiPods _ _) trivial)) fun _ => ?_
  refine keeps_bind (keeps_readonly (only_onPool (quiet_of_spares only_waitForCsiProvisionerRollout))) fun _ => ?_
  exact keeps_bind (keeps_readonly (only_onPool (only_request (r := Call.markReady) trivial))) fun _ => keeps_pure _

theorem keeps_watchPass {fingerprint : String} : Keeps records (watchPass fuel fingerprint) := by
  refine keeps_bind keeps_watchStream fun version => ?_
  refine keeps_bind (keeps_readonly (only_request (r := WatchCall.readComponents) trivial)) fun components => ?_
  refine keeps_ite (fun _ => keeps_pure _) fun _ => ?_
  refine keeps_bind (keeps_readonly (only_onPool (only_request (r := Call.clearReady) trivial))) fun _ => ?_
  exact keeps_bind keeps_deployCsiUpgrade fun plan => keeps_served fun plan => (components, plan.resourceVersion)

end

/-! ## Processes -/

section

variable [ConfigHash] [RequestChecks] [ObjectForm] [JsonText]

/-- `_run_operator` up to its watch -/
def startOperator (fuel : Nat) : WatchProg String := do
  let (fingerprint : String) ← ask readComponents
  let plan ← deployCsiUpgrade fuel
  let plan ← onPlan fuel (reconcileStorageUntilStable fuel plan)
  let (_ : Unit) ← ask (deployCsiPods 1 plan.nodepluginTolerations)
  onPool (waitForCsiProvisionerRollout fuel)
  onPool (request Call.markReady)
  pure fingerprint

/-- The loop of `crd_watch` -/
def crdWatch (fuel : Nat) : Nat → String → WatchProg Unit
  | 0, _ => .cut
  | passes + 1, fingerprint => do
    let fingerprint ← tryCatch (Prod.fst <$> watchPass fuel fingerprint) fun
      | .connection => do
        onPool (request Call.sleep)
        pure fingerprint
      | e => if restartsWatch e then pure fingerprint else throw e
    crdWatch fuel passes fingerprint

/-- `_run_operator` -/
def runOperator (fuel : Nat) : WatchProg Unit := do
  let fingerprint ← startOperator fuel
  crdWatch fuel fuel fingerprint

/-- `main` -/
def operatorMain (fuel : Nat) : WatchProg Unit := do
  onPool (request Call.clearReady)
  (runOperator fuel).finally' (onPool (request Call.clearReady))

variable {fuel : Nat}

theorem keeps_crdWatch {passes : Nat} {fingerprint : String} : Keeps records (crdWatch fuel passes fingerprint) := by
  induction passes generalizing fingerprint with
  | zero => exact keeps_cut
  | succ passes ih =>
    refine keeps_bind (keeps_tryCatch (keeps_bind keeps_watchPass fun _ => keeps_pure _) fun e => ?_) fun _ => ih
    cases e with
    | connection =>
      exact keeps_bind (keeps_readonly (only_onPool (only_request (r := Call.sleep) trivial))) fun _ => keeps_pure _
    | _ => exact keeps_ite (fun _ => keeps_pure _) fun _ => keeps_throw _

theorem keeps_operatorMain : Keeps records (operatorMain fuel) := by
  have hclear : Keeps records (onPool (request Call.clearReady)) :=
    keeps_readonly (only_onPool (only_request (r := Call.clearReady) trivial))
  refine keeps_bind hclear fun _ => keeps_finally (keeps_bind ?_ fun _ => keeps_crdWatch) hclear
  refine keeps_bind (keeps_readonly (only_request (r := WatchCall.readComponents) trivial)) fun fingerprint => ?_
  exact keeps_bind keeps_deployCsiUpgrade fun plan => keeps_served fun _ => fingerprint

/-- The processes of the operator, one after the other; each may be killed between any two requests. -/
inductive Lifetimes (s₀ : Ledger) : Ledger → Prop
  | start : Lifetimes s₀ s₀
  | process {fuel s s' p} (h : Lifetimes s₀ s) (hrun : Exec records (operatorMain fuel) s p s') : Lifetimes s₀ s'

variable {s₀ s : Ledger} {volname : String}

theorem Lifetimes.kept (h₀ : s₀.Kept) (h : Lifetimes s₀ s) : s.Kept := by
  induction h with
  | start => exact h₀
  | process _ hrun ih => exact (wp_exec ih (keeps_operatorMain _ ih) hrun).1

/-- What has become of a record: it has evolved, or it was removed after it had evolved into that of a doomed pool. -/
def Outlives (volname : String) (old : PoolRecord) (contents : List Entries) (current : Entries) : Prop :=
  (∃ new, current.lookup volname = some (.record new) ∧ Evolves old new) ∨
    ∃ last content next, [next, content] <:+: contents ∧ Evolves old last ∧ Doomed last ∧
      content.lookup volname = some (.record last) ∧ next.lookup volname = none

omit [ConfigHash] [RequestChecks] [ObjectForm] [JsonText] in
theorem outlives_chain {before : Entries} {older newer : List Entries} {old : PoolRecord} {current : Entries}
    (hchain : (newer ++ before :: older).IsChain fun new old => Succeeds old new)
    (hold : before.lookup volname = some (.record old)) (hcurrent : (newer ++ [before]).head? = some current) :
    Outlives volname old (newer ++ [before]) current := by
  induction newer generalizing current with
  | nil =>
    cases hcurrent
    exact .inl ⟨old, hold, .refl old⟩
  | cons newest newer ih =>
    obtain rfl := Option.some.inj hcurrent
    obtain ⟨next, hnext⟩ : ∃ next, (newer ++ [before]).head? = some next := by cases newer <;> exact ⟨_, rfl⟩
    have htail : (newer ++ before :: older).IsChain fun new old => Succeeds old new := hchain.tail
    have hstep : Succeeds next newest := by
      cases newer with
      | nil =>
        cases hnext
        exact (List.isChain_cons_cons.mp hchain).1
      | cons c rest =>
        cases hnext
        exact (List.isChain_cons_cons.mp hchain).1
    rcases ih htail hnext with ⟨new, hnew, hevolves⟩ | ⟨last, content, without, hcontents, hremoved⟩
    · have hadjacent : [newest, next] <:+: newest :: newer ++ [before] := by
        obtain ⟨rest, hrest⟩ := List.head?_eq_some_iff.mp hnext
        rw [List.cons_append, hrest]
        exact (List.prefix_append [newest, next] rest).isInfix
      have hchange := hstep volname
      rw [hnew] at hchange
      generalize hentry : newest.lookup volname = entry at hchange
      cases hchange with
      | same => exact .inl ⟨new, hentry, hevolves⟩
      | rewritten h => exact .inl ⟨_, hentry, hevolves.trans h⟩
      | removed hdoomed => exact .inr ⟨new, next, newest, hadjacent, hevolves, hdoomed, hnew, hentry⟩
    · exact .inr ⟨last, content, without, List.infix_cons hcontents, hremoved⟩

/-- **The records are kept.** They are valid after every request of every process, and a record that was ever in the ConfigMap
has only evolved since, up to its removal after its pool was doomed. -/
theorem records_kept (hsound : ∀ volname data, s₀.entries.lookup volname = some (.record data) → Sound volname data)
    (hpast : s₀.past = []) (h : Lifetimes s₀ s) :
    (∀ volname data, s.entries.lookup volname = some (.record data) → Sound volname data) ∧
      ∀ newer before older volname old, s.entries :: s.past = newer ++ before :: older →
        before.lookup volname = some (.record old) → Outlives volname old (newer ++ [before]) s.entries := by
  have hkept := h.kept ⟨hsound, by rw [hpast]; exact List.isChain_singleton _⟩
  refine ⟨hkept.sound, fun newer before older volname old hcontents hold => ?_⟩
  have hchain := hkept.chain
  rw [hcontents] at hchain
  refine outlives_chain hchain hold ?_
  cases newer with
  | nil => rw [(List.cons.inj hcontents).1]; rfl
  | cons newest rest => rw [(List.cons.inj hcontents).1]; rfl

end

/-! ## A process that is killed -/

section

attribute [local instance] sampleJson extHash extChecks namedForm

/-- The pool has a record of an older version, without a mount identity. -/
def unmigrated : Ledger := { entries := AList.insert "ext" (.record (externalRecord extPool none)) ∅ }

/-- The requests of the migration succeed. -/
def migrationAnswer : (r : WatchCall) → Ledger → Except OpErr r.Answer × Ledger
  | .pool .readConfigMap, s => (.ok { data := s.entries }, s)
  | .pool (.patchConfigMap patch _), s => (.ok (), s.written (patch.apply s.entries))
  | .pool .newUuid, s => (.ok extIdentity, s)
  | .pool .listPersistentVolumes, s => (.ok (∅ : PersistentVolumes), s)
  | .pool (.replaceConfigMap _ _), s => (.error .other, s)
  | .checkMigration, s => (.ok (), s)
  | _, s => (.error .other, s)

/-- So do those of a start, up to the migration. -/
def startAnswer : (r : WatchCall) → Ledger → Except OpErr r.Answer × Ledger
  | .migrateClaims, s => (.ok (), (replay migrationAnswer 5 migrateLegacySinglePvClaims s).2)
  | .pool .clearReady, s | .pool (.setReplicas _), s => (.ok (), s)
  | .pool .monotonic, s => (.ok (0 : Int), s)
  | .pool .listPods, s => (.ok [], s)
  | .readComponents, s => (.ok "components", s)
  | .prepare, s => (.ok newToleration, s)
  | .checkMigration, s | .preflightHeal _, s | .deployCsiPods _ _, s => (.ok (), s)
  | .pool (.patchConfigMap _ _), s | .pool (.replaceConfigMap _ _), s => (.error .other, s)
  | _, s => (.error .other, s)

theorem migrationAnswer_records (r : WatchCall) (s : Ledger) :
    migrationRecords r s (migrationAnswer r s).1 (migrationAnswer r s).2 := by
  cases r with
  | pool c =>
    cases c with
    | readConfigMap => exact ⟨rfl, by rintro _ ⟨⟩; rfl⟩
    | patchConfigMap patch version => exact .inl ⟨rfl, rfl⟩
    | replaceConfigMap data version => exact .inr ⟨_, rfl, .inl rfl⟩
    | newUuid => exact ⟨rfl, by rintro _ ⟨⟩; decide +kernel⟩
    | _ => rfl
  | _ => rfl

theorem startAnswer_records (r : WatchCall) (s : Ledger) : records r s (startAnswer r s).1 (startAnswer r s).2 := by
  cases r with
  | pool c =>
    cases c with
    | readConfigMap => exact ⟨rfl, by rintro _ ⟨⟩⟩
    | patchConfigMap patch version => exact .inr ⟨_, rfl, .inl rfl⟩
    | replaceConfigMap data version => exact .inr ⟨_, rfl, .inl rfl⟩
    | newUuid => exact ⟨rfl, by rintro _ ⟨⟩⟩
    | _ => rfl
  | migrateClaims => exact ⟨_, exec_replay migrationAnswer_records 5 _ s⟩
  | recoverIdentity obj => exact ⟨rfl, by rintro _ ⟨⟩⟩
  | _ => rfl

/-- The process is killed after its migration. -/
def killed : Ledger := (replay startAnswer 12 (operatorMain 3) unmigrated).2

/-- The record that it leaves. -/
def migratedRecord : PoolRecord :=
  { externalRecord extPool none with
    mount := ⟨some extIdentity, some (mountConfigFingerprint (externalRecord extPool none)),
      some (mountConfigFingerprint (externalRecord extPool none))⟩ }

theorem records_kept_killed : killed.entries.lookup "ext" = some (.record migratedRecord) ∧ Sound "ext" migratedRecord ∧
    Outlives "ext" (externalRecord extPool none) [killed.entries, unmigrated.entries] killed.entries := by
  have hsound : ∀ volname data, unmigrated.entries.lookup volname = some (.record data) → Sound volname data := by
    intro volname data h
    by_cases hv : volname = "ext"
    · subst hv
      rw [unmigrated, AList.lookup_insert] at h
      cases h
      exact ⟨by decide +kernel, by decide +kernel, by decide +kernel⟩
    · rw [unmigrated, AList.lookup_insert_ne hv] at h
      cases h
  have hlookup : killed.entries.lookup "ext" = some (.record migratedRecord) := by decide +kernel
  have hpasts : killed.past = [unmigrated.entries] := by
    have hentries : killed.past.map AList.entries = [unmigrated.entries].map AList.entries := by decide +kernel
    exact List.map_injective_iff.mpr (fun _ _ h => AList.ext h) hentries
  have hcontents : killed.entries :: killed.past = [killed.entries] ++ unmigrated.entries :: [] := by
    rw [hpasts]
    rfl
  obtain ⟨hrecords, hpast⟩ := records_kept hsound rfl (.process .start (exec_replay startAnswer_records 12 (operatorMain 3) _))
  exact ⟨hlookup, hrecords "ext" _ hlookup, hpast _ _ _ "ext" _ hcontents (AList.lookup_insert _)⟩

end

end Kadalu.Runtime
