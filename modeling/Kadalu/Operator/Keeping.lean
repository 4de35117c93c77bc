import Kadalu.Operator.Ledger
import Kadalu.Operator.Watch

/-!
# The records are kept

Whatever is added, changed or deleted, whatever fails, and wherever the operator is killed: the records of the pools stay
valid, and what identifies a pool stays what it is (`records_kept`).
-/

namespace Kadalu.Runtime

open Calls Calls.Prog Operator Fingerprint Snapshot WatchCall Ledger

/-! ## Records that are built again -/

section

variable {volname : String} {config : ConfigMap} {existing : Option PoolRecord} {data : PoolRecord}

theorem existing_some (h : config.existing volname = some existing) :
    config.data.lookup volname = existing.map Serialized.record := by
  unfold ConfigMap.existing at h
  split at h
  · next hnone =>
    cases h
    exact hnone
  · next serialized hsome =>
    rw [hsome]
    cases serialized with
    | malformed => cases h
    | record data =>
      cases h
      rfl

theorem decoded_some (h : config.decoded volname = some data) : config.data.lookup volname = some (.record data) := by
  obtain ⟨serialized, hlookup, hdecode⟩ := Option.bind_eq_some_iff.mp h
  rw [hlookup]
  cases serialized with
  | malformed => cases hdecode
  | record data =>
    cases hdecode
    rfl

variable [ConfigHash] {s : Ledger} {obj : KadaluStorage} {owner recovered : Option String} {fresh : String}

omit [ConfigHash] in
/-- The request may write its pool, as far as the records go. -/
structure Grants (obj : KadaluStorage) (s : Ledger) : Prop where
  accepted : Accepted obj
  volumeId : obj.volumeId.isSome = true
  admits : ∀ old, s.entries.lookup obj.name = some (.record old) → Admits obj old

/-- **Renewed.** The record of a request is sound, and evolves from the one that it replaces. -/
theorem renewed (hs : s.Kept) (hg : Grants obj s) (hlookup : s.entries.lookup obj.name = existing.map Serialized.record)
    (hfresh : isCanonicalUuid fresh = true)
    (happly : applyPoolMountMetadata (builtRecord obj existing) existing owner false recovered fresh = some data) :
    Sound obj.name data ∧ ∀ old, existing = some old → Evolves old data := by
  refine ⟨sound_applied hg.accepted hg.volumeId hfresh happly, ?_⟩
  rintro old rfl
  obtain ⟨claim, identity, legacy, hc, rfl⟩ := applyPoolMountMetadata_some happly
  refine evolves_applied (hs.sound _ _ hlookup) hc fun huid => ?_
  rw [storageUid_builtRecord]
  exact (hg.admits old hlookup).recordUid huid

end

/-! ## Additions -/

section

variable {volname className policy : String} {obj : KadaluStorage} {data : PoolRecord} {existing : Option PoolRecord}
  {config : ConfigMap} {s : Ledger}

theorem only_reconcilePoolPvReclaimPolicy {before : Option Bool} :
    Only World.Quiet (reconcilePoolPvReclaimPolicy volname policy before className) := by
  have hpatches : ∀ reclaimPolicy pvs, Only World.Quiet (patchPolicies volname reclaimPolicy pvs) := by
    intro reclaimPolicy pvs
    induction pvs with
    | nil => exact only_pure _
    | cons pv pvs ih => exact asks_ite (fun _ => only_bind (only_request trivial) fun _ => ih) fun _ => ih
  exact asks_ite (fun _ => only_pure _) fun _ => only_bind (only_request trivial) fun _ => hpatches _ _

theorem only_recoveredOwnerForWrite : Only World.Quiet (recoveredOwnerForWrite data existing) := by
  cases existing with
  | some record => exact only_pure _
  | none =>
    refine asks_ite (fun _ => only_pure _) fun _ => only_bind (only_request trivial) fun pvs => ?_
    split <;> exact only_pure _

theorem only_externalEvidence {recovered : Option String} : Only World.Quiet (externalEvidence obj existing recovered) := by
  cases existing with
  | none =>
    refine only_bind (only_request trivial) fun durable => only_bind (only_request trivial) fun pvs => ?_
    exact asks_ite (fun _ => only_pure _) fun _ => asks_ite (fun _ => only_pure _) fun _ =>
      asks_ite (fun _ => only_pure _) fun _ => only_pure _
  | some record =>
    refine only_bind (only_request trivial) fun identity => only_bind (only_request trivial) fun _ => ?_
    cases identity with
    | none => exact only_pure _
    | some identity => exact asks_ite (fun _ => only_pure _) fun _ => only_pure _

variable [ConfigHash]

/-- The record that is to be written. -/
theorem wp_applyPoolMountMetadataForWrite {recovered : Option String} {β : Type} {g : Option PoolRecord → PoolHandler β}
    {Q : Except OpErr β → Ledger → Prop} (hs : s.Kept) (he : ∀ e, Q (.error e) s) (hnone : wp poolRecords Kept Q (g none) s)
    (hsome : ∀ data' owner fresh, isCanonicalUuid fresh = true →
      applyPoolMountMetadata data existing owner false recovered fresh = some data' → wp poolRecords Kept Q (g (some data')) s) :
    wp poolRecords Kept Q (applyPoolMountMetadataForWrite data existing recovered >>= g) s := by
  refine wp_bind (wp_bind (wp_mono ?_ (wp_quiet only_recoveredOwnerForWrite hs)))
  rintro r t ⟨rfl, -⟩
  cases r with
  | error e => exact he e
  | ok owner =>
    cases owner with
    | none => exact hnone
    | some owner =>
      refine wp_bind (wp_request ?_)
      rintro a u ⟨rfl, ha⟩
      refine ⟨hs, ?_⟩
      cases a with
      | error e => exact he e
      | ok fresh =>
        show wp poolRecords Kept Q (g (applyPoolMountMetadata data existing owner false recovered fresh)) u
        cases happly : applyPoolMountMetadata data existing owner false recovered fresh with
        | none => exact hnone
        | some data' => exact hsome data' owner fresh (ha fresh rfl) happly

/-- A record is written between the passes over its volumes. -/
theorem wp_applyPolicy (hs : s.Kept) (hconfig : config.data = s.entries)
    (hlookup : s.entries.lookup obj.name = existing.map Serialized.record) (hsound : Sound obj.name data)
    (hevolves : ∀ old, existing = some old → Evolves old data) :
    wp poolRecords Kept (fun _ t => t.Kept) (applyPolicy obj config existing data) s := by
  refine wp_quiet_bind (R := fun _ => True) (only_reconcilePoolPvReclaimPolicy.mono fun _ _ _ _ => trivial) hs (fun _ => hs)
    fun _ _ => wp_bind ?_
  have hwrite : wp poolRecords Kept (fun _ t => t.Kept) (writeRecord config obj.name existing data) s := by
    refine wp_ite (fun _ => wp_pure hs) fun _ => ?_
    rw [hconfig]
    refine wp_patch hs (hs.update obj.name (some (.record data)) (fun w => Patch.lookup_insert) ?_ ?_) fun _ _ h => h
    · rw [hlookup]
      cases existing with
      | none => exact .added data
      | some old => exact .rewritten (hevolves old rfl)
    · rintro _ ⟨⟩
      exact hsound
  refine wp_mono (fun r t ht => ?_) hwrite
  cases r with
  | ok a => exact keeps_quiet only_reconcilePoolPvReclaimPolicy t ht
  | error e => exact ht

/-- **A native pool.** -/
theorem wp_updateConfigMap {recovered : Option String} (hs : s.Kept) (hg : Grants obj s)
    (htype : obj.type ≠ some VOLUME_TYPE_EXTERNAL) :
    wp poolRecords Kept (fun _ t => t.Kept) (updateConfigMap obj recovered) s := by
  refine wp_readConfig hs (fun _ => hs) fun config hconfig => ?_
  split
  · exact wp_pure hs
  · next existing hexisting =>
    have hlookup := existing_some hexisting
    rw [hconfig] at hlookup
    have hbuilt : nativeRecord obj existing = builtRecord obj existing := (if_neg htype).symm
    rw [hbuilt]
    refine wp_applyPoolMountMetadataForWrite hs (fun _ => hs) (wp_pure hs) fun data owner fresh hfresh happly => ?_
    obtain ⟨hsound, hevolves⟩ := renewed hs hg hlookup hfresh happly
    refine wp_bind (wp_mono (fun r t ht => ?_) (wp_applyPolicy hs hconfig hlookup hsound hevolves))
    cases r <;> exact ht

/-- **An external pool.** -/
theorem wp_handleExternalStorageAddition {recovered : Option String} (hs : s.Kept) (hg : Grants obj s)
    (htype : obj.type = some VOLUME_TYPE_EXTERNAL) :
    wp poolRecords Kept (fun _ t => t.Kept) (handleExternalStorageAddition obj recovered) s := by
  have hquiet {β : Type} {p : PoolHandler β} (hp : Only World.Quiet p) :
      Asks World.Quiet (fun r => ∀ a, r = .ok a → True) p := hp.mono fun _ _ _ _ => trivial
  refine wp_readConfig hs (fun _ => hs) fun config hconfig => ?_
  split
  · exact wp_pure hs
  · next existing hexisting =>
    have hlookup := existing_some hexisting
    rw [hconfig] at hlookup
    have hbuilt : externalRecord obj existing = builtRecord obj existing := (if_pos htype).symm
    refine wp_quiet_bind (hquiet only_externalEvidence) hs (fun _ => hs) fun evidence _ => ?_
    cases evidence with
    | none => exact wp_pure hs
    | some recovered =>
      dsimp only
      rw [hbuilt]
      refine wp_applyPoolMountMetadataForWrite hs (fun _ => hs) (wp_pure hs) fun data owner fresh hfresh happly => ?_
      obtain ⟨hsound, hevolves⟩ := renewed hs hg hlookup hfresh happly
      refine wp_quiet_bind (hquiet (only_request trivial)) hs (fun _ => hs) fun _ _ => ?_
      refine wp_bind (wp_mono (fun r t ht => ?_) (wp_applyPolicy hs hconfig hlookup hsound hevolves))
      cases r with
      | error e => exact ht
      | ok a =>
        refine keeps_bind (keeps_quiet (only_request (r := Call.reconcileClass _ _) trivial)) (fun _ => ?_) t ht
        exact keeps_bind (keeps_quiet only_reconcilePoolPvReclaimPolicy) fun _ => keeps_pure _

end

section

variable {obj : KadaluStorage} {data : PoolRecord} {existing : Option PoolRecord} {s : Ledger}

theorem asks_validateStorageRecordOwner :
    Asks Spares (fun r => r = .ok () → Admits obj data) (validateStorageRecordOwner obj.name obj.uid obj.volumeId data) := by
  refine asks_ite (fun huid => asks_pure fun _ _ hu => ?_) fun _ => asks_ite (fun _ => ?_) fun hold => ?_
  · rw [hu] at huid
    cases huid
  · exact asks_ite (fun _ => asks_throw nofun) fun heq => asks_pure fun _ _ _ => not_not.mp heq
  · have hadmits : Admits obj data := fun hu => absurd hu hold
    refine asks_ite (fun _ => asks_pure fun _ => hadmits) fun _ => asks_bind ?_ fun predates => ?_
    · refine asks_ite (fun _ => asks_request trivial ?_) fun _ => asks_pure nofun
      rintro a e rfl
      nofun
    · exact asks_ite (fun _ => asks_pure fun _ => hadmits) fun _ => asks_throw nofun

variable [ConfigHash]

theorem asks_validateRuntimeStorageRecord :
    Asks Spares (fun r => r = .ok () → Admits obj data) (validateRuntimeStorageRecord obj data) := by
  refine asks_bind (asks_ofExcept ?_) fun _ => asks_bind_of (R := fun _ => Admits obj data)
    (asks_validateStorageRecordOwner.mono fun r hr => ⟨fun a ha => hr ha, ?_⟩) fun _ hadmits => ?_
  · rintro e - 
    nofun
  · rintro e -
    nofun
  · exact asks_ite (fun _ => asks_throw nofun) fun _ => asks_ofExcept fun _ => hadmits

/-- A record is accepted only from its owner. -/
theorem asks_acceptsRecord :
    Asks Spares (fun r => r = .ok true → Admits obj data ∧ truthy data.volumeId = true) (acceptsRecord obj data) := by
  refine asks_bind_of (R := fun valid => valid = true → Admits obj data) ?_ fun valid hvalid => asks_pure fun h => ?_
  · refine asks_tryCatch ?_ fun e => ?_
    · refine asks_bind_of (R := fun _ => Admits obj data)
        (asks_validateRuntimeStorageRecord.mono fun r hr => ⟨fun a ha => hr ha, ?_⟩) fun _ hadmits => asks_pure ?_
      · rintro e - a
        nofun
      · rintro a ⟨⟩
        refine ⟨?_, nofun⟩
        rintro a ⟨⟩ -
        exact hadmits
    · cases e with
      | runtime msg =>
        refine asks_pure ⟨?_, nofun⟩
        rintro a ⟨⟩ ⟨⟩
      | _ => exact asks_throw ⟨nofun, nofun⟩
  · simp only [Except.ok.injEq, Bool.and_eq_true] at h
    exact ⟨hvalid h.1.1.1, h.1.2⟩

/-- The identity of a missing record is canonical. -/
theorem recoverMissingPoolIdentity_canonical {NAMESPACE uuid4 : String} {evidence : MissingRecord.Evidence}
    {id : String × Option String} (hobj : obj.volumeId.all isCanonicalUuid = true) (huuid : isCanonicalUuid uuid4 = true)
    (h : MissingRecord.recoverMissingPoolIdentity NAMESPACE obj evidence uuid4 = .ok id) : isCanonicalUuid id.1 = true := by
  unfold MissingRecord.recoverMissingPoolIdentity at h
  obtain ⟨_, -, h⟩ := Except.bind_ok.mp h
  obtain ⟨durable, hdurable, h⟩ := Except.bind_ok.mp h
  obtain ⟨serverVolumeId, hserver, h⟩ := Except.bind_ok.mp h
  obtain ⟨-, h⟩ := Except.ite_error_ok.mp h
  cases h
  have hrecovered : ∀ found, serverVolumeId.or (durable.map MissingRecord.DurableIdentity.volumeId) = some found →
      isCanonicalUuid found = true := by
    intro found hfound
    cases serverVolumeId with
    | some volumeId =>
      cases hfound
      exact ((MissingRecord.nativeServerVolumeId_ok hserver).carried _ rfl).1
    | none =>
      rw [Option.none_or] at hfound
      obtain ⟨d, hd, rfl⟩ := Option.map_eq_some_iff.mp hfound
      exact (MissingRecord.installedIdentity_ok hdurable).2 d hd
  show isCanonicalUuid (MissingRecord.chooseVolumeId _ _ _) = true
  revert hrecovered
  generalize serverVolumeId.or (durable.map MissingRecord.DurableIdentity.volumeId) = recovered
  intro hrecovered
  cases recovered with
  | some found =>
    have hfound := hrecovered found rfl
    rw [MissingRecord.chooseVolumeId_some (MissingRecord.ne_empty_of_isCanonicalUuid hfound)]
    exact hfound
  | none =>
    rcases MissingRecord.chooseVolumeId_none obj.volumeId uuid4 with ⟨-, hfresh⟩ | hrequested
    · rw [hfresh]
      exact huuid
    · rw [hrequested] at hobj
      exact hobj

/-- What is found of a pool makes its request one that may be written. -/
theorem wp_poolIdentity (hs : s.Kept) (hobj : Accepted obj)
    (hlookup : s.entries.lookup obj.name = existing.map Serialized.record) :
    wp records Kept (fun r t => t = s ∧ ∀ id, r = .ok (some id) → Grants { obj with volumeId := some id.1 } s)
      (poolIdentity obj existing) s := by
  have hgrants {volumeId : String} (hcanonical : isCanonicalUuid volumeId = true)
      (hadmits : ∀ old, s.entries.lookup obj.name = some (.record old) → Admits obj old) :
      Grants { obj with volumeId := some volumeId } s :=
    ⟨⟨hobj.type, hobj.names, hcanonical, hobj.hosts, hobj.bricks⟩, rfl, hadmits⟩
  cases existing with
  | some data =>
    have hsound := hs.sound _ _ hlookup
    refine wp_bind (wp_mono ?_ (wp_onPool_kept (fun _ _ _ _ h => h) (wp_quiet (quiet_of_spares asks_acceptsRecord) hs)))
    rintro r t ⟨rfl, hr⟩
    cases r with
    | error e => exact ⟨rfl, nofun⟩
    | ok accepted =>
      refine wp_pure ⟨rfl, fun id hid => ?_⟩
      cases accepted with
      | false => cases hid
      | true =>
        cases hid
        obtain ⟨hadmits, htruthy⟩ := hr rfl
        refine hgrants ?_ fun old hold => ?_
        · cases hvolume : data.volumeId with
          | none =>
            rw [hvolume] at htruthy
            cases htruthy
          | some volumeId => simpa [hvolume] using hsound.identity.volumeId
        · obtain rfl : data = old := by simpa using hlookup.symm.trans hold
          exact hadmits
  | none =>
    refine wp_tryCatch (wp_bind (wp_request ?_))
    rintro a t ⟨rfl, ha⟩
    refine ⟨hs, ?_⟩
    cases a with
    | ok id =>
      refine wp_pure ⟨rfl, ?_⟩
      rintro _ ⟨⟩
      obtain ⟨NAMESPACE, evidence, uuid4, huuid, hrecovered⟩ := ha id rfl
      refine hgrants (recoverMissingPoolIdentity_canonical hobj.volumeId huuid hrecovered) fun old hold => ?_
      rw [hlookup] at hold
      cases hold
    | error e =>
      have hthrow : wp records Kept (fun r u => u = t ∧ ∀ id, r = .ok (some id) →
          Grants { obj with volumeId := some id.1 } t) (throw e : WatchProg (Option (String × Option String))) t :=
        wp_throw ⟨rfl, nofun⟩
      cases e with
      | runtime msg => exact wp_pure ⟨rfl, nofun⟩
      | value msg => exact wp_pure ⟨rfl, nofun⟩
      | _ => exact hthrow

end

section

variable {storage : KadaluStorage} {existing : Option PoolRecord} {obj : Dict} {fuel : Nat} {s : Ledger}

theorem only_preflightClass {recovered : Option String} : Only World.Quiet (preflightClass storage existing recovered) := by
  cases existing with
  | some data =>
    refine only_bind (only_request (r := Call.preflightExistingClass _) trivial) fun _ => ?_
    exact only_bind (only_request trivial) fun _ => only_pure _
  | none =>
    exact asks_ite (fun _ => only_pure _) fun _ =>
      only_bind (only_request (r := Call.preflightClassOwner _) trivial) fun _ => only_pure _

variable [ConfigHash]

/-- The write of a pool, with what follows it. -/
theorem wp_writePool {mountIdentity : Option String} (hs : s.Kept) (hg : Grants storage s) :
    wp records Kept (fun _ t => t.Kept) (writePool obj storage mountIdentity) s := by
  refine wp_ite (fun htype => ?_) fun htype => ?_
  · exact wp_onPool_kept (fun _ _ _ _ h => h) (wp_handleExternalStorageAddition hs hg htype)
  · refine wp_bind (wp_mono (fun r t ht => ?_) (wp_onPool_kept (fun _ _ _ _ h => h) (wp_updateConfigMap hs hg htype)))
    cases r with
    | error e => exact ht
    | ok written =>
      refine keeps_ite (fun _ => keeps_pure _) (fun _ => ?_) t ht
      refine keeps_bind (keeps_readonly (only_request (r := WatchCall.deployClass _) trivial)) fun _ => ?_
      exact keeps_bind (keeps_readonly (only_request (r := WatchCall.deployServers _) trivial)) fun _ => keeps_pure _

variable [RequestChecks] [ObjectForm]

/-- **Additions.** The records are kept if they are so by what is done about a changed reclaim policy. -/
theorem keeps_addStorage {transition : Dict → KadaluStorage → PoolRecord → WatchProg (Option Bool)}
    (ht : ∀ obj storage data s, s.Kept → wp records Kept (fun r t => t.Kept ∧ (r = .ok none → t = s))
      (transition obj storage data) s) : Keeps records (addStorage transition obj) := by
  refine keeps_ite (fun _ => keeps_pure _) fun hvalid => ?_
  refine keeps_bind (keeps_readonly (only_onPool (only_request (r := Call.listPods) trivial))) fun _ s hs => ?_
  refine wp_bind (wp_onPool_kept (fun _ _ _ _ h => h) (wp_request ?_))
  rintro a t ⟨rfl, ha⟩
  refine ⟨hs, ?_⟩
  cases a with
  | error e => exact hs
  | ok config =>
    have hconfig := ha config rfl
    dsimp only
    split
    · exact wp_pure hs
    · next existing hexisting =>
      have hlookup := existing_some hexisting
      rw [hconfig] at hlookup
      have haccepted : Accepted (ObjectForm.storage obj) := accepted_of_valid (by simpa using hvalid)
      refine wp_bind (wp_mono ?_ (wp_poolIdentity hs haccepted hlookup))
      rintro r u ⟨rfl, hr⟩
      cases r with
      | error e => exact hs
      | ok found =>
        cases found with
        | none => exact wp_pure hs
        | some id =>
          obtain ⟨volumeId, recovered⟩ := id
          have hgrants := hr _ rfl
          refine wp_readonly_bind (R := fun _ => True) ((only_onPool only_preflightClass).mono fun _ _ _ _ => trivial) hs
            (fun _ => hs) fun mountIdentity _ => ?_
          refine wp_bind (wp_mono (Q := fun _ v => v.Kept) (fun r v hv => ?_) (wp_bind ?_))
          · cases r with
            | ok result => exact wp_pure hv
            | error e => exact hv
          · -- without a transition the record is still the one that was read
            have htransition : wp records Kept (fun r v => v.Kept ∧ (r = .ok none → v = u))
                ((existing.map (transition (ObjectForm.identified obj volumeId)
                  { ObjectForm.storage obj with volumeId := some volumeId })).getD (pure none)) u := by
              cases existing with
              | none => exact wp_pure ⟨hs, fun _ => rfl⟩
              | some data => exact ht _ _ data u hs
            refine wp_mono ?_ htransition
            rintro r v ⟨hv, hnone⟩
            cases r with
            | error e => exact hv
            | ok transitioned =>
              cases transitioned with
              | some result => exact wp_pure hv
              | none =>
                obtain rfl := hnone rfl
                exact wp_writePool hv hgrants

theorem keeps_addFencedStorage : Keeps records (addFencedStorage obj) :=
  keeps_addStorage fun _ _ _ _ hs => wp_pure ⟨hs, fun _ => rfl⟩

/-! ## Changes of the reclaim policy -/

omit [ConfigHash] [RequestChecks] [ObjectForm] in
theorem only_quiesceCsiProvisioner : Only Spares (quiesceCsiProvisioner fuel) := by
  have hrounds : ∀ deadline n, Only Spares (quiesceRounds deadline n) := by
    intro deadline n
    induction n with
    | zero => exact only_cut
    | succ n ih =>
      refine only_bind (only_request (r := Call.listPods) trivial) fun pods => asks_ite (fun _ => only_pure _) fun _ => ?_
      refine only_bind (only_request (r := Call.monotonic) trivial) fun now => asks_ite (fun _ => only_throw _) fun _ => ?_
      exact only_bind (only_request (r := Call.sleep) trivial) fun _ => ih
  refine only_bind (only_tryCatch (only_request (r := Call.setReplicas 0) trivial) fun e => ?_) fun _ => ?_
  · exact asks_ite (fun _ => only_pure _) fun _ => only_throw _
  · exact only_bind (only_request (r := Call.monotonic) trivial) fun _ => hrounds _ _

omit [ConfigHash] [RequestChecks] [ObjectForm] in
theorem only_waitForCsiProvisionerRollout : Only Spares (waitForCsiProvisionerRollout fuel) := by
  have hrounds : ∀ deadline n, Only Spares (provisionerRounds deadline n) := by
    intro deadline n
    induction n with
    | zero => exact only_cut
    | succ n ih =>
      refine only_bind (only_request (r := Call.readProvisioner) trivial) fun set => asks_ite (fun _ => only_pure _) fun _ => ?_
      refine only_bind (only_request (r := Call.monotonic) trivial) fun now => asks_ite (fun _ => only_throw _) fun _ => ?_
      exact only_bind (only_request (r := Call.sleep) trivial) fun _ => ih
  exact only_bind (only_request (r := Call.monotonic) trivial) fun _ => hrounds _ _

omit [ConfigHash] [RequestChecks] [ObjectForm] in
theorem only_fence : Only Spares (fence fuel) :=
  only_bind (only_request (r := Call.clearReady) trivial) fun _ => only_quiesceCsiProvisioner

omit [ConfigHash] [RequestChecks] [ObjectForm] in
theorem only_unfence {succeeded : Bool} : Only Spares (unfence fuel succeeded) := by
  refine only_tryCatch (only_bind (only_request (r := Call.setReplicas 1) trivial) fun _ => ?_) fun e => ?_
  · refine only_bind only_waitForCsiProvisionerRollout fun _ => ?_
    exact asks_ite (fun _ => only_request (r := Call.markReady) trivial) fun _ => only_pure _
  · exact only_bind only_fence fun _ => only_throw _

omit [ConfigHash] in
theorem only_readCurrentStorageResource : Only Readonly (readCurrentStorageResource obj) := by
  refine asks_ite (fun _ => only_throw _) fun _ => only_bind (only_tryCatch (only_request trivial) fun e => ?_) fun current =>
    only_ofExcept _
  exact asks_ite (fun _ => only_throw _) fun _ => only_throw _

omit [RequestChecks] [ObjectForm] in
theorem only_verifyRuntimeReclaimPolicyTransition : Only Readonly (verifyRuntimeReclaimPolicyTransition storage) := by
  refine only_bind (only_onPool (only_request (r := Call.readConfigMap) trivial)) fun config => ?_
  split
  · exact only_throw _
  · refine only_bind (only_onPool (quiet_of_spares (asks_validateRuntimeStorageRecord.mono fun _ _ => trivial))) fun _ =>
      asks_ite (fun _ => only_throw _) fun _ => ?_
    refine only_bind (only_request (r := WatchCall.classPolicy _) trivial) fun policy =>
      asks_ite (fun _ => only_throw _) fun _ => asks_ite (fun _ => only_throw _) fun _ => ?_
    refine only_bind (only_onPool (only_request (r := Call.listPersistentVolumes) trivial)) fun pvs => ?_
    exact asks_ite (fun _ => only_throw _) fun _ => only_pure _

theorem keeps_transitionRounds (candidate : Dict) : Keeps records (transitionRounds obj fuel candidate) := by
  induction fuel generalizing candidate with
  | zero => exact keeps_cut
  | succ fuel ih =>
    refine keeps_bind keeps_addFencedStorage ?_
    rintro ⟨reconciled, after⟩
    refine keeps_ite (fun _ => keeps_pure _) fun _ =>
      keeps_bind (keeps_readonly only_verifyRuntimeReclaimPolicyTransition) fun _ => ?_
    exact keeps_bind (keeps_readonly only_readCurrentStorageResource) fun current =>
      keeps_ite (fun _ => keeps_pure _) fun _ => ih current

/-- A changed policy; without a change nothing is done. -/
theorem wp_reconcileRuntimeReclaimPolicyTransition {data : PoolRecord} (hs : s.Kept) :
    wp records Kept (fun r t => t.Kept ∧ (r = .ok none → t = s))
      (reconcileRuntimeReclaimPolicyTransition fuel obj storage data) s := by
  have hany {β : Type} {p : WatchProg β} :
      Asks (fun _ => True) (fun r => ∀ e, r = .error e → (.error e : Except OpErr (Option Bool)) ≠ .ok none) p :=
    (only_any (fun _ => trivial) p).mono fun _ _ _ _ => nofun
  refine wp_ite (fun _ => wp_pure ⟨hs, fun _ => rfl⟩) fun _ => ?_
  have houtcome : Asks (fun _ => True) (fun r => r ≠ .ok none) (do
      onPool (fence fuel)
      let candidate ← readCurrentStorageResource obj
      let reconciled ← transitionRounds obj fuel candidate
      if !reconciled then pure (some false)
      else do
        onPool (unfence fuel true)
        pure (some true) : WatchProg (Option Bool)) := by
    refine asks_bind hany fun _ => asks_bind hany fun candidate => asks_bind hany fun reconciled => ?_
    exact asks_ite (fun _ => asks_pure nofun) fun _ => asks_bind hany fun _ => asks_pure nofun
  refine wp_mono ?_ (houtcome.wp_and (R := fun _ t => t.Kept) ?_)
  · rintro r t ⟨ht, hr⟩
    exact ⟨ht, fun h => absurd h hr⟩
  · refine keeps_bind (keeps_readonly (only_onPool (quiet_of_spares only_fence))) (fun _ => ?_) s hs
    refine keeps_bind (keeps_readonly only_readCurrentStorageResource) fun candidate => ?_
    refine keeps_bind (keeps_transitionRounds candidate) fun reconciled => keeps_ite (fun _ => keeps_pure _) fun _ => ?_
    exact keeps_bind (keeps_readonly (only_onPool (quiet_of_spares only_unfence))) fun _ => keeps_pure _

theorem keeps_handleAdded {fenced : Bool} : Keeps records (handleAdded fuel obj fenced) :=
  keeps_ite (fun _ => keeps_addFencedStorage) fun _ =>
    keeps_addStorage fun _ _ _ _ hs => wp_reconcileRuntimeReclaimPolicyTransition hs

end

end Kadalu.Runtime
