import Kadalu.Driver.CreateVolume
import Kadalu.Driver.Expand
import Kadalu.Durable.Interleave
import Kadalu.Pool.Rebuild
import Kadalu.Volume.Reclaim

/-!
# What one step of the driver can do

A step of any driver program leaves the metadata and the payloads of a pool alone, or it adds no intent there
(`ScanStep`). Each program is shown to keep to it, construct by construct (`within_createVolume`,
`within_controllerExpandVolume`, `within_deleteVolume`, `within_removeArchivedPv`); whatever only concerns these two
facts then holds of every interleaving of the programs (`DriverOp`).
-/

namespace Kadalu

open Durable Durable.Prog Except

/-- A step changes metadata and payloads, or adds intents, but not both. -/
def ScanStep (s s' : Pool) : Prop :=
  (s'.metadata = s.metadata ∧ s'.payloads = s.payloads) ∨
    (∀ p i, s'.creations.lookup p = some i → s.creations.lookup p = some i) ∧
      ∀ p e, s'.expansions.lookup p = some e → s.expansions.lookup p = some e

theorem ScanStep.refl (s : Pool) : ScanStep s s := .inl ⟨rfl, rfl⟩

/-- On every pool. -/
def WorldStep (w w' : World) : Prop := ∀ h, ScanStep (w h) (w' h)

theorem WorldStep.refl (w : World) : WorldStep w w := fun h => .refl (w h)

section Steps

variable {α : Type}

theorem within_fileStep {f : Pool → Except Err (α × Pool)} (h : ∀ s a s', f s = .ok (a, s') → ScanStep s s') :
    (fileStep f).Within ScanStep := by
  refine within_step fun s s' hs' => ?_
  simp only [List.mem_cons, List.not_mem_nil, or_false] at hs'
  rcases hs' with rfl | rfl
  · exact .refl _
  · cases hf : f s with
    | ok x => exact h s x.1 x.2 hf
    | error e => exact .refl s

theorem within_update {f : Pool → Except Err Pool} (h : ∀ s s', f s = .ok s' → ScanStep s s') :
    (update f).Within ScanStep :=
  within_fileStep fun s a s' hs' => by
    obtain ⟨s₁, hs₁, he⟩ := bind_ok.mp hs'
    cases he
    exact h s _ hs₁

theorem within_transaction {f : Pool → Except Err (α × Pool)} {errs : Err → Bool}
    (h : ∀ s a s', f s = .ok (a, s') → ScanStep s s') : (transaction f errs).Within ScanStep := by
  refine within_step fun s s' hs' => ?_
  cases hf : f s with
  | error e =>
    simp only [hf, List.mem_cons, List.not_mem_nil, or_false, or_self] at hs'
    exact hs' ▸ .refl s
  | ok x =>
    have hx := h s x.1 x.2 hf
    simp only [hf, List.mem_cons, List.not_mem_nil, or_false] at hs'
    rcases hs' with rfl | rfl | rfl
    · exact .refl _
    · exact hx
    · exact hx

theorem within_readPool {g : Pool → Except Err α} : (readPool g).Within ScanStep := within_read .refl

theorem within_onPool {hostvol : String} {p : PoolProg α} (h : p.Within ScanStep) :
    (onPool hostvol p).Within WorldStep := by
  refine (within_focus h).mono fun w w' ⟨s', hs', he⟩ g => ?_
  by_cases hg : g = hostvol
  · subst hg
    rw [he, Function.update_self]
    exact hs'
  · rw [he, Function.update_of_ne hg]
    exact .refl _

end Steps

/-! ## The steps of one pool -/

/-- A step that leaves the intents alone. -/
theorem scanStep_of_intents {s s' : Pool} (hc : s'.creations = s.creations) (he : s'.expansions = s.expansions) :
    ScanStep s s' := .inr ⟨fun _ _ h => hc ▸ h, fun _ _ h => he ▸ h⟩

theorem within_writeMetadata {p : Path} {m : Metadata} : (writeMetadata p m).Within ScanStep :=
  within_update fun s s' h => by cases h; exact scanStep_of_intents rfl rfl

theorem within_unlinkMetadata {p : Path} : (unlinkMetadata p).Within ScanStep :=
  within_update fun s s' h => by cases h; exact scanStep_of_intents rfl rfl

theorem within_pruneEmptyParents : pruneEmptyParents.Within ScanStep :=
  within_update fun s s' h => by cases h; exact .refl _

theorem within_removePayload {p : Path} {wrongKind : Payload → Bool} : (removePayload p wrongKind).Within ScanStep := by
  refine within_step fun s s' hs' => ?_
  suffices s'.creations = s.creations ∧ s'.expansions = s.expansions from scanStep_of_intents this.1 this.2
  simp only [List.mem_cons] at hs'
  rcases hs' with rfl | rfl | hs'
  · exact ⟨rfl, rfl⟩
  · split
    · split <;> exact ⟨rfl, rfl⟩
    · exact ⟨rfl, rfl⟩
  · split at hs'
    · cases hs'
    · unfold partialTrees at hs'
      split at hs'
      · obtain ⟨rest, -, rfl⟩ := List.mem_map.mp hs'
        exact ⟨rfl, rfl⟩
      · cases hs'

theorem within_renamePayload {p q : Path} : (renamePayload p q).Within ScanStep :=
  within_update fun s s' h => by
    obtain ⟨_, -, he⟩ := bind_ok.mp h
    cases he
    exact scanStep_of_intents rfl rfl

theorem within_renameMetadata {p q : Path} : (renameMetadata p q).Within ScanStep :=
  within_update fun s s' h => by
    obtain ⟨_, -, he⟩ := bind_ok.mp h
    cases he
    exact scanStep_of_intents rfl rfl

/-- A transaction or update of rows only. -/
theorem scanStep_rows {s : Pool} {rows : Rows} {summary : Option Int} : ScanStep s { s with rows, summary } :=
  .inl ⟨rfl, rfl⟩

theorem within_updateFreeSizeStep {v : String} {n : Int} : (updateFreeSizeStep v n).Within ScanStep :=
  within_transaction fun s a s' h => by
    obtain ⟨s₁, h₁, he⟩ := bind_ok.mp h
    cases he
    unfold updateFreeSize at h₁
    split at h₁
    · cases h₁; exact scanStep_rows
    · obtain ⟨-, rfl⟩ := updatePvRecord_ok.mp h₁; exact scanStep_rows

theorem within_archivePvReservationStep {u v : String} {n : Int} :
    (archivePvReservationStep u v n).Within ScanStep :=
  within_transaction fun s a s' h => by
    obtain ⟨s₁, h₁, he⟩ := bind_ok.mp h
    cases he
    obtain ⟨-, rfl⟩ := renamePvRecord_ok.mp h₁
    exact scanStep_rows

theorem within_archiveVolume {vol : Volume} {p : Path} {m : Metadata} {n : Int} {uuids : List String} :
    (archiveVolume vol p m n uuids).Within ScanStep := by
  refine within_bind ?_ fun _ => within_bind within_renamePayload fun _ =>
    within_bind within_archivePvReservationStep fun _ => within_bind within_renameMetadata fun _ =>
    within_bind within_writeMetadata fun _ => within_bind within_pruneEmptyParents fun _ => within_pruneEmptyParents
  unfold prepareArchive
  split
  · split
    · exact within_throw _
    · exact within_pure _
  · exact within_bind within_readPool fun _ => within_bind within_writeMetadata fun _ => within_pure _

/-! ## Intents -/

theorem prepareVolumeCreation_step [VolnameHash] {s s' : Pool} {v : String} {t : PvType} {p : Path} {n : Int}
    {uuid : String} {i : CreationIntent} (h : prepareVolumeCreation s v t p n uuid = .ok (i, s')) : ScanStep s s' := by
  cases hex : s.creations.lookup p with
  | none =>
    obtain ⟨-, -, rfl⟩ := prepareVolumeCreation_new hex h
    exact .inl ⟨rfl, rfl⟩
  | some existing =>
    simp only [prepareVolumeCreation, bind_ok, hex, throw_eq_error, ite_error_ok, pure_eq_ok, Except.ok.injEq,
      Prod.mk.injEq] at h
    obtain ⟨-, -, -, -, -, -, -, rfl⟩ := h
    exact .refl _

theorem finishVolumeExpansion_ok [VolnameHash] {s s' : Pool} {v : String} {t : PvType} {p : Path} {e : ExpansionIntent}
    (h : finishVolumeExpansion s v t p e = .ok s') : s' = { s with expansions := s.expansions.erase p } := by
  simp only [finishVolumeExpansion, bind_ok, throw_eq_error, ite_error_ok, pure_eq_ok, Except.ok.injEq] at h
  obtain ⟨-, -, -, rfl⟩ := h
  rfl

section Programs

variable [VolnameHash] {v : String} {t : PvType} {p : Path} {n : Int} {uuid : String}

theorem within_finishVolumeCreation {i : CreationIntent} :
    (update fun s => finishVolumeCreation s v t p i).Within ScanStep :=
  within_update fun s s' h => by
    rw [finishVolumeCreation_ok h]
    exact .inl ⟨rfl, rfl⟩

theorem within_finishVolumeExpansion {e : ExpansionIntent} :
    (update fun s => finishVolumeExpansion s v t p e).Within ScanStep :=
  within_update fun s s' h => by
    rw [finishVolumeExpansion_ok h]
    exact .inl ⟨rfl, rfl⟩

theorem within_admitStep : (admitStep v t n uuid).Within ScanStep :=
  within_bind (within_read .refl) fun _ => within_transaction fun s a s' h => by
    obtain ⟨p, rows, -, -, h⟩ := admit_cases h
    cases h <;> exact .inl ⟨rfl, rfl⟩

theorem within_reserveVolumeExpansionStep {m : Int} :
    (reserveVolumeExpansionStep v t p n m).Within ScanStep :=
  within_transaction fun s a s' h => by
    obtain ⟨-, -, rows, -, -, h⟩ := reserve_cases h
    cases h <;> exact .inl ⟨rfl, rfl⟩

theorem within_releaseArchivedPvReservationStep : (releaseArchivedPvReservationStep v).Within ScanStep :=
  within_transaction fun s a s' h => by
    obtain ⟨s₁, h₁, he⟩ := bind_ok.mp h
    cases he
    obtain ⟨s₂, h₂, he⟩ := bind_ok.mp h₁
    obtain ⟨-, rows, -, rfl, -⟩ := rebuild_rows h₂
    cases he
    exact .inl ⟨rfl, rfl⟩

theorem within_cancelCreation {i : CreationIntent} :
    (transaction (fun s => do pure ((), ← cancelCreation s v t p i)) dbErr).Within ScanStep :=
  within_transaction fun s a s' h => by
    obtain ⟨s₁, h₁, he⟩ := bind_ok.mp h
    cases he
    obtain ⟨s₂, h₂, h₃⟩ := bind_ok.mp h₁
    obtain ⟨-, rows, -, rfl, -⟩ := rebuild_rows h₂
    rw [finishVolumeCreation_ok h₃]
    exact .inl ⟨rfl, rfl⟩

/-! ## Deleting -/

theorem within_absorbExpansion {vol : Volume} {m : Metadata} : (absorbExpansion vol p m).Within ScanStep := by
  refine within_bind within_readPool fun intent => ?_
  cases intent with
  | none => exact within_pure _
  | some intent =>
    dsimp only
    split
    · exact within_throw _
    · exact within_bind within_writeMetadata fun _ => within_bind within_finishVolumeExpansion fun _ => within_pure _

theorem within_absorbCreation {vol : Volume} {m : Metadata} : (absorbCreation vol m).Within ScanStep := by
  refine within_bind within_readPool fun intent => ?_
  cases intent with
  | none => exact within_pure _
  | some intent => exact within_bind (within_ofExcept _) fun _ => within_finishVolumeCreation

theorem within_removeVolume {vol : Volume} {m : Metadata} : (removeVolume vol p m).Within ScanStep := by
  refine within_bind (within_ofExcept _) fun _ => ?_
  split
  · exact within_throw _
  · refine within_bind ?_ fun _ => within_bind within_removePayload fun _ =>
      within_bind within_pruneEmptyParents fun _ => within_bind within_updateFreeSizeStep fun _ =>
      within_bind within_unlinkMetadata fun _ => within_pruneEmptyParents
    unfold markDeleting
    split
    · exact within_writeMetadata
    · split
      · exact within_throw _
      · exact within_pure _

theorem within_deleteManagedVolume {vol : Volume} {policy : ReclaimPolicy} {uuids : List String} :
    (deleteManagedVolume vol policy uuids).Within ScanStep := by
  refine within_bind within_readPool fun _ => within_bind within_absorbExpansion fun _ => ?_
  split
  · exact within_throw _
  · refine within_bind within_absorbCreation fun _ => ?_
    split
    · exact within_archiveVolume
    · exact within_removeVolume

theorem within_deletePendingCreation {vol : Volume} : (deletePendingCreation vol).Within ScanStep := by
  refine within_bind within_readPool fun intent => ?_
  cases intent with
  | none => exact within_throw _
  | some intent =>
    dsimp only
    split
    · exact within_throw _
    · refine within_bind (within_ofExcept _) fun _ => ?_
      split
      · exact within_throw _
      · refine within_bind within_readPool fun _ => ?_
        split
        · exact within_throw _
        · exact within_bind within_removePayload fun _ => within_cancelCreation

/-! ## Dedicated pools -/

section SinglePv

omit [VolnameHash]

variable {legacy : Option String} {allow : Bool} {claim : Claim}

theorem within_createClaim : (createClaim claim).Within ScanStep :=
  within_fileStep fun s a s' h => by
    split at h <;> cases h <;> exact .inl ⟨rfl, rfl⟩

theorem within_replaceClaim : (replaceClaim claim).Within ScanStep :=
  within_update fun s s' h => by
    rw [throw_eq_error, ite_error_ok] at h
    cases h.2
    exact .inl ⟨rfl, rfl⟩

theorem within_claimSinglePvVolumeLocked : (claimSinglePvVolumeLocked v n allow).Within ScanStep := by
  refine within_bind within_readPool fun existing => ?_
  cases existing with
  | some existing => exact within_ofExcept _
  | none =>
    refine within_bind ?_ fun unclaimed => ?_
    · split
      · exact within_pure _
      · exact within_readPool
    · split
      · exact within_throw _
      · refine within_bind within_createClaim fun created => ?_
        split
        · exact within_pure _
        · refine within_bind within_readPool fun existing => ?_
          cases existing with
          | some existing => exact within_ofExcept _
          | none => exact within_throw _

theorem within_claimSinglePvVolume : (claimSinglePvVolume v n).Within ScanStep :=
  within_withLock within_claimSinglePvVolumeLocked

theorem within_ensureSinglePvClaim : (ensureSinglePvClaim v legacy).Within ScanStep := by
  refine within_withLock (within_bind within_readPool fun claim => ?_)
  cases claim with
  | some claim => exact within_pure _
  | none =>
    dsimp only
    split
    · exact within_pure _
    · refine within_bind within_readPool fun capacity => within_tryCatch
        (within_bind within_claimSinglePvVolumeLocked fun _ => within_pure _) fun e => ?_
      split
      · exact within_pure _
      · exact within_pure _
      · exact within_throw _

theorem within_beginSinglePvDelete : (beginSinglePvDelete v).Within ScanStep := by
  refine within_bind within_readPool fun claim => ?_
  cases claim with
  | none => exact within_throw _
  | some claim =>
    dsimp only
    split
    · exact within_throw _
    · split
      · exact within_replaceClaim
      · exact within_pure _
      · exact within_pure _

theorem within_retireSinglePvClaim : (retireSinglePvClaim v).Within ScanStep := by
  refine within_bind within_readPool fun claim => ?_
  cases claim with
  | none => exact within_pure _
  | some claim =>
    dsimp only
    split
    · exact within_throw _
    · split
      · exact within_throw _
      · exact within_replaceClaim

theorem within_purgeSinglePvPool : purgeSinglePvPool.Within ScanStep := by
  refine within_bind (within_step fun s s' hs' => ?_) fun _ => within_bind within_readPool fun _ => ?_
  · simp only [List.mem_cons] at hs'
    rcases hs' with rfl | rfl | hs'
    · exact .refl _
    · refine .inr ⟨fun p i h => ?_, fun p e h => ?_⟩
      · rw [AList.lookup_empty] at h; cases h
      · rw [AList.lookup_empty] at h; cases h
    · obtain ⟨rest, -, rfl⟩ := List.mem_map.mp hs'
      exact .inl ⟨rfl, rfl⟩
  · split
    · exact within_throw _
    · exact within_pure _

theorem within_deleteSinglePvVolume : (deleteSinglePvVolume v legacy).Within ScanStep := by
  refine within_withLock (within_bind within_readPool fun claim => ?_)
  have hrest : ∀ x : Unit, (do
      let _ := x
      beginSinglePvDelete v
      purgeSinglePvPool
      retireSinglePvClaim v : PoolProg Unit).Within ScanStep := fun _ =>
    within_bind within_beginSinglePvDelete fun _ => within_bind within_purgeSinglePvPool fun _ =>
      within_retireSinglePvClaim
  cases claim with
  | none =>
    refine within_bind within_ensureSinglePvClaim fun ok => ?_
    dsimp only
    split
    · exact hrest ()
    · exact within_bind (within_throw _) hrest
  | some claim =>
    dsimp only
    split
    · exact within_bind (within_throw _) hrest
    · exact hrest ()

end SinglePv

/-! ## `delete_volume` -/

theorem within_deleteVolumeLocked {vol : Volume} {uuids : List String} :
    (deleteVolumeLocked vol uuids).Within ScanStep := by
  refine within_bind (within_ofExcept _) fun policy => ?_
  split
  · exact within_pure _
  · split
    · exact within_deletePendingCreation
    · split
      · split
        · exact within_throw _
        · exact within_deleteSinglePvVolume
      · exact within_deleteManagedVolume

theorem within_searchHosts {paths : List (PvType × Path)} :
    ∀ {hosts : List HostVol} {found : Option Volume}, (searchHosts v paths hosts found).Within WorldStep
  | [], _ => within_pure _
  | _ :: hosts, _ => by
    refine within_bind (within_read .refl) fun found => ?_
    split
    · exact within_throw _
    · exact within_searchHosts

theorem within_searchVolume {hosts : List HostVol} : (searchVolume hosts v).Within WorldStep :=
  within_bind (within_ofExcept _) fun _ => within_searchHosts

omit [VolnameHash] in
theorem within_readIncarnation {vol : Volume} : (readIncarnation vol).Within WorldStep := within_read .refl

theorem within_deleteVolume {hosts : List HostVol} {uuids : List String} :
    (deleteVolume hosts v uuids).Within WorldStep := by
  refine within_bind within_searchVolume fun initial => ?_
  cases initial with
  | none => exact within_pure _
  | some initial =>
    dsimp only
    split
    · refine within_withLock (within_bind within_searchVolume fun vol => ?_)
      cases vol with
      | none => exact within_pure _
      | some vol =>
        dsimp only
        split
        · exact within_throw _
        · refine within_bind within_readIncarnation fun _ => within_bind within_readIncarnation fun _ => ?_
          split
          · exact within_throw _
          · exact within_onPool within_deleteVolumeLocked
    · refine within_bind within_readIncarnation fun _ => within_withLock (within_bind within_searchVolume fun vol => ?_)
      cases vol with
      | none => exact within_pure _
      | some vol =>
        dsimp only
        split
        · exact within_throw _
        · refine within_bind within_readIncarnation fun _ => ?_
          split
          · exact within_throw _
          · exact within_onPool within_deleteVolumeLocked

/-! ## Reclaiming -/

theorem within_deleteArchivedPv {pv : ArchivedPv} : (deleteArchivedPv pv).Within ScanStep := by
  refine within_bind (within_ofExcept _) fun archive => ?_
  cases archive with
  | none => exact within_throw _
  | some archive =>
    dsimp only
    split
    · exact within_throw _
    · have hrest : ∀ _ : Unit, (do
          removePayload archive.payloadPath fun _ => false
          releaseArchivedPvReservationStep pv.name
          unlinkMetadata archive.metadataPath : PoolProg Unit).Within ScanStep := fun _ =>
        within_bind within_removePayload fun _ => within_bind within_releaseArchivedPvReservationStep fun _ =>
          within_unlinkMetadata
      split
      · exact within_bind within_writeMetadata hrest
      · exact hrest ()

theorem within_deleteArchivedPvs : ∀ {pvs : List ArchivedPv}, (deleteArchivedPvs pvs).Within ScanStep
  | [] => within_pure _
  | _ :: _ => within_bind within_deleteArchivedPv fun _ => within_deleteArchivedPvs

theorem within_removeArchivedPv {pvc : Option String} : (removeArchivedPv pvc).Within ScanStep :=
  within_bind within_readPool fun _ => within_deleteArchivedPvs

/-! ## Creating -/

section Payloads

omit [VolnameHash]

theorem within_savePvMetadata {o : Option String} : (savePvMetadata p n o uuid).Within ScanStep :=
  within_ite (within_bind (within_ofExcept _) fun _ => within_bind (within_pure _) fun _ => within_writeMetadata)
    (within_bind (within_pure _) fun _ => within_writeMetadata)

theorem within_updatePvMetadata : (updatePvMetadata p n).Within ScanStep :=
  within_bind within_readPool fun _ => within_writeMetadata

/-- A file step on payloads only. -/
theorem within_payloadStep {f : Pool → Except Err Pool}
    (h : ∀ s s', f s = .ok s' → ∃ payloads, s' = { s with payloads }) : (update f).Within ScanStep :=
  within_update fun s s' hs => by
    obtain ⟨payloads, rfl⟩ := h s s' hs
    exact scanStep_of_intents rfl rfl

theorem within_makeSubdir : (makeSubdir p).Within ScanStep :=
  within_payloadStep fun s s' h => by
    split at h <;> cases h
    · exact ⟨_, rfl⟩
    · exact ⟨_, rfl⟩

theorem within_setSimpleQuota : (setSimpleQuota p n).Within ScanStep :=
  within_payloadStep fun s s' h => by
    split at h <;> cases h
    exact ⟨_, rfl⟩

theorem within_openBacking : (openBacking p).Within ScanStep :=
  within_payloadStep fun s s' h => by
    split at h
    · cases h
      exact ⟨_, rfl⟩
    · split at h <;> cases h
      exact ⟨_, rfl⟩

theorem within_truncateBacking : (truncateBacking p n).Within ScanStep :=
  within_payloadStep fun s s' h => by
    split at h <;> cases h
    exact ⟨_, rfl⟩

theorem within_makeFilesystem : (makeFilesystem p).Within ScanStep :=
  within_step fun s s' hs' => by
    simp only [List.mem_cons, List.not_mem_nil, or_false] at hs'
    rcases hs' with rfl | rfl
    · exact .refl _
    · split
      · exact .refl _
      · exact scanStep_of_intents rfl rfl

end Payloads

theorem within_commitCreation {i : CreationIntent} : (commitCreation v t p n i uuid).Within ScanStep :=
  within_bind within_savePvMetadata fun _ => within_finishVolumeCreation

theorem within_resumeCommitted {m : Metadata} {o : Option CreationIntent} :
    (resumeCommitted v t p n m o).Within ScanStep := by
  refine within_bind (within_ofExcept _) fun _ => within_bind within_readPool fun _ => ?_
  cases o with
  | none => exact within_pure _
  | some intent =>
    dsimp only
    split
    · exact within_throw _
    · exact within_bind (within_ofExcept _) fun _ => within_finishVolumeCreation

theorem within_authorizeCreation {o : Option CreationIntent} : (authorizeCreation v t p n o uuid).Within ScanStep := by
  refine within_bind within_readPool fun ex => ?_
  cases o with
  | none =>
    dsimp only
    split
    · exact within_throw _
    · exact within_fileStep fun s a s' h => prepareVolumeCreation_step h
  | some intent =>
    dsimp only
    split
    · exact within_throw _
    · exact within_pure _

theorem within_createBlockVolume : (createBlockVolume t v n uuid).Within ScanStep := by
  unfold createBlockVolume
  refine within_guard fun _ => within_guard fun _ => within_bind (within_ofExcept _) fun volpath => within_bind within_readPool fun metadata =>
    within_bind within_readPool fun intent => ?_
  cases metadata with
  | some metadata => exact within_bind within_resumeCommitted fun _ => within_pure _
  | none =>
    exact within_bind within_authorizeCreation fun _ => within_bind within_openBacking fun _ =>
      within_bind within_truncateBacking fun _ => within_when within_makeFilesystem fun _ =>
      within_bind within_commitCreation fun _ => within_pure _

theorem within_createSubdirVolume {quota save : Bool} : (createSubdirVolume v n quota save uuid).Within ScanStep := by
  unfold createSubdirVolume
  refine within_guard fun _ => within_bind (within_ofExcept _) fun volpath => within_bind within_readPool fun metadata =>
    within_bind within_readPool fun intent => ?_
  cases metadata with
  | some metadata => exact within_bind within_resumeCommitted fun _ => within_pure _
  | none =>
    exact within_bind within_authorizeCreation fun _ => within_bind within_makeSubdir fun _ =>
      within_ite (within_bind within_setSimpleQuota fun _ => within_when within_commitCreation fun _ => within_pure _)
        (within_pure _)

theorem within_finishCommittedCreation {vol : Volume} : (finishCommittedCreation vol).Within ScanStep := by
  refine within_bind within_readPool fun intent => ?_
  cases intent with
  | none => exact within_pure _
  | some intent => exact within_bind (within_ofExcept _) fun _ => within_finishVolumeCreation

omit [VolnameHash] in
theorem within_reconcileCommittedCapacity : (reconcileCommittedCapacity v n).Within ScanStep :=
  within_bind (within_read .refl) fun _ => within_ite within_updateFreeSizeStep (within_pure _)

/-! ## Expanding -/

theorem within_updateSubdirVolume {b : Bool} : (updateSubdirVolume v n b).Within ScanStep :=
  within_bind within_readPool fun _ => within_bind within_makeSubdir fun _ => within_bind within_setSimpleQuota fun _ =>
    within_ite within_updatePvMetadata (within_pure _)

omit [VolnameHash] in
theorem within_executeGlusterQuotaCommand {p : Path} : (executeGlusterQuotaCommand p n).Within ScanStep :=
  within_step fun s s' hs' => by
    simp only [List.mem_cons, List.not_mem_nil, or_false] at hs'
    rcases hs' with rfl | rfl
    · exact .refl _
    · split
      · exact .refl _
      · exact scanStep_of_intents rfl rfl

theorem within_applySubdirQuota {vol : Volume} {b ssh : Bool} : (applySubdirQuota vol n b ssh).Within ScanStep := by
  refine within_ite (within_bind within_updateSubdirVolume fun _ => within_pure _)
    (within_bind (within_tryCatch (within_bind within_executeGlusterQuotaCommand fun _ => within_pure _) fun e =>
      within_ite (within_pure _) (within_throw _)) fun failed => within_ite (within_pure _)
    (within_when within_updatePvMetadata fun _ => within_pure _))

theorem within_growVolume {vol : Volume} {m : Int} {ssh : Bool} : (growVolume vol n m ssh).Within ScanStep := by
  refine within_bind within_reserveVolumeExpansionStep fun intent => ?_
  cases intent with
  | none => exact within_pure _
  | some intent =>
    refine within_bind within_applySubdirQuota fun failed => ?_
    cases failed with
    | some code => exact within_pure _
    | none => exact within_bind within_finishVolumeExpansion fun _ => within_pure _

theorem within_expandExisting {vol : Volume} {ssh : Bool} : (expandExisting vol n ssh).Within ScanStep := by
  unfold expandExisting
  refine within_choice within_readPool (within_pure _) fun pending =>
    within_ite (within_pure _) (within_ite (within_throw _) (within_when within_reconcileCommittedCapacity fun _ => ?_))
  cases pending with
  | some intent => exact within_growVolume
  | none =>
    refine within_ite (within_choice within_applySubdirQuota (within_pure _) fun failed => ?_) within_growVolume
    cases failed with
    | some code => exact within_pure _
    | none => exact within_pure _

/-! ## RPCs -/

section Rpc

variable {α : Type} {hosts : List HostVol}

omit [VolnameHash] in
theorem within_translateStorageErrors {method : WorldProg (Reply α)} (h : method.Within WorldStep) :
    (translateStorageErrors method).Within WorldStep :=
  within_tryCatch h fun _ => within_ite (within_pure _) (within_throw _)

omit [VolnameHash] in
theorem within_abortOnConflict {method : WorldProg (Reply α)} (h : method.Within WorldStep) :
    (abortOnConflict method).Within WorldStep :=
  within_tryCatch h fun e => by
    split
    · exact within_pure _
    · exact within_pure _
    · exact within_throw _

theorem within_serializedExistingVolumeOperation {ready missing : Bool} {method : WorldProg (Reply α)}
    (h : method.Within WorldStep) :
    (serializedExistingVolumeOperation hosts v ready missing method).Within WorldStep := by
  refine within_ite h (within_bind within_searchVolume fun volume => ?_)
  cases volume with
  | none => exact h
  | some volume =>
    refine within_bind within_readIncarnation fun observed => within_abortOnConflict (within_withLock ?_)
    refine within_bind within_searchVolume fun locked => ?_
    cases locked with
    | none => exact within_ite (within_throw _) h
    | some locked =>
      exact within_ite (within_throw _) (within_bind within_readIncarnation fun _ => within_ite (within_throw _) h)

theorem within_controllerExpandVolume {range : Option CapacityRange} {ssh : Bool} :
    (controllerExpandVolume hosts v range ssh).Within WorldStep := by
  refine within_translateStorageErrors (within_serializedExistingVolumeOperation ?_)
  unfold expandVolume
  split
  · exact within_pure _
  · exact within_pure _
  · refine within_ite (within_pure _) (within_bind within_searchVolume fun volume => ?_)
    cases volume with
    | none => exact within_pure _
    | some volume =>
      exact within_ite (within_pure _) (within_ite (within_pure _) (within_ite (within_pure _) (within_ite (within_pure _)
        (within_ite (within_pure _) (within_ite (within_pure _) (within_onPool within_expandExisting))))))

/-! ## `CreateVolume` -/

variable {env : CreateEnv} {request : CreateRequest}

theorem within_createNative : (createNative env request n).Within ScanStep :=
  within_choice within_createSubdirVolume within_createBlockVolume fun _ =>
    within_bind within_updateFreeSizeStep fun _ => within_pure _

theorem within_createExternal : (createExternal env request n).Within ScanStep := by
  have hrest : ∀ path : Path, (do
      updateFreeSizeStep request.name (-n)
      pure path : PoolProg Path).Within ScanStep := fun path =>
    within_bind within_updateFreeSizeStep fun _ => within_pure _
  unfold createExternal
  refine within_ite (within_bind within_createBlockVolume hrest) (within_bind within_createSubdirVolume fun path => ?_)
  have hend : ∀ _ : Unit, (do
      let path ← pure path
      updateFreeSizeStep request.name (-n)
      pure path : PoolProg Path).Within ScanStep := fun _ => within_bind (within_pure _) hrest
  refine within_ite (within_bind within_executeGlusterQuotaCommand fun _ => within_bind within_readPool fun intent => ?_)
    (hend ())
  cases intent with
  | none => exact within_bind (within_throw _) hend
  | some intent => exact within_bind within_commitCreation hend

theorem within_verifyCreationReservation {h : String} : (verifyCreationReservation hosts h v t n).Within WorldStep := by
  refine within_bind within_searchVolume fun reserved => ?_
  cases reserved with
  | none => exact within_throw _
  | some reserved => exact within_ite (within_throw _) (within_pure _)

omit [VolnameHash] in
theorem within_mountSinglePvHostingVolume {limit : Int} :
    (mountSinglePvHostingVolume hosts n limit).Within WorldStep := by
  refine within_ite (within_throw _) ?_
  split
  · exact within_bind (within_read .refl) fun _ => within_ite (within_throw _) (within_pure _)
  · exact within_throw _

omit [VolnameHash] in
theorem within_check {stage : SelectionStage} {p : WorldProg α} (h : p.Within WorldStep) :
    (stage.check p).Within WorldStep :=
  within_tryCatch (within_bind h fun _ => within_pure _) fun _ => within_ite (within_pure _) (within_throw _)

theorem within_mountAndSelectHostingVolume : ∀ {hosts : List HostVol} {failures : List Err},
    (mountAndSelectHostingVolume n v t uuid hosts failures).Within WorldStep
  | [], _ => within_ite (within_pure _) (within_throw _)
  | _ :: _, _ => by
    refine within_ite within_mountAndSelectHostingVolume (within_bind (within_check (within_read .refl)) fun r => ?_)
    cases r with
    | error e => exact within_mountAndSelectHostingVolume
    | ok _ =>
      refine within_bind (within_check (within_read .refl)) fun r => ?_
      cases r with
      | error e => exact within_mountAndSelectHostingVolume
      | ok _ =>
        refine within_bind (within_check (within_onPool within_admitStep)) fun r => ?_
        cases r with
        | error e => exact within_mountAndSelectHostingVolume
        | ok b =>
          cases b with
          | true => exact within_pure _
          | false => exact within_mountAndSelectHostingVolume

omit [VolnameHash] in
theorem within_claiming {p : WorldProg (Reply α)} (h : p.Within WorldStep) : (claiming p).Within WorldStep :=
  within_tryCatch h fun e => by
    split
    · exact within_pure _
    · exact within_throw _

omit [VolnameHash] in
theorem within_claimExternal {type : Option String} {ext : HostVol} :
    (claimExternal request n type ext).Within WorldStep :=
  within_andThen
    (within_claiming (within_bind within_mountSinglePvHostingVolume fun _ =>
      within_bind (within_onPool within_claimSinglePvVolume) fun _ => within_pure _))
    fun _ => within_bind (within_read .refl) fun _ => within_ofExcept _

omit [VolnameHash] in
theorem within_checkExternalVolume : (checkExternalVolume request hosts).Within WorldStep := by
  refine within_bind (within_ofExcept _) fun found => ?_
  cases found with
  | none => exact within_pure _
  | some ext => exact within_bind (within_read .refl) fun _ => within_pure _

theorem within_createOnExternal {candidates : List HostVol} {pending : Option Volume} {type : Option String} :
    (createOnExternal env hosts candidates request n pending type).Within WorldStep := by
  refine within_bind within_checkExternalVolume fun found => ?_
  cases found with
  | none => exact within_pure _
  | some ext =>
    refine within_ite (within_pure _) (within_ite within_claimExternal
      (within_choice (within_pure _) (within_onPool within_admitStep) fun free => within_ite (within_pure _) ?_))
    exact within_bind (within_withLock (within_bind within_verifyCreationReservation fun _ =>
      within_onPool within_createExternal)) fun _ => within_pure _

theorem within_createOnNative {type : Option String} {h : String} :
    (createOnNative env hosts request n type h).Within WorldStep :=
  within_ite (within_claiming (within_bind (within_onPool within_claimSinglePvVolume) fun _ => within_pure _))
    (within_bind (within_withLock (within_bind within_verifyCreationReservation fun _ =>
      within_onPool within_createNative)) fun _ => within_pure _)

theorem within_selectGeneric {candidates : List HostVol} :
    (selectGeneric env candidates request n).Within WorldStep := by
  refine within_tryCatch (within_ite (within_bind within_mountSinglePvHostingVolume fun _ => within_pure _)
    (within_bind within_mountAndSelectHostingVolume fun _ => within_pure _)) fun e => ?_
  split
  · exact within_pure _
  · exact within_pure _
  · exact within_ite (within_pure _) (within_throw _)

theorem within_createSelected {pending : Option Volume} :
    (createSelected env hosts request n pending).Within WorldStep := by
  unfold createSelected
  refine within_ite (within_pure _) ?_
  split
  · refine within_ite within_createOnExternal ?_
    split
    · exact within_createOnNative
    · refine within_bind within_mountAndSelectHostingVolume fun hostvol => ?_
      cases hostvol with
      | none => exact within_pure _
      | some hostvol => exact within_createOnNative
  · refine within_bind within_selectGeneric fun reply => ?_
    split
    · exact within_pure _
    · exact within_pure _
    · split
      · exact within_throw _
      · exact within_ite within_createOnExternal within_createOnNative

theorem within_createFound {found : Option Volume} : (createFound env hosts request n found).Within WorldStep := by
  unfold createFound
  cases found with
  | none => exact within_createSelected
  | some volume =>
    refine within_ite (within_ite (within_pure _) within_createSelected) (within_ite (within_pure _)
      (within_ite (within_pure _) (within_ite ?_ (within_pure _))))
    exact within_when (within_onPool (within_bind within_finishCommittedCreation fun _ =>
      within_reconcileCommittedCapacity)) fun _ => within_pure _

theorem within_createVolume : (createVolume env hosts request).Within WorldStep := by
  refine within_translateStorageErrors (within_ite ?_ (within_abortOnConflict (within_withLock ?_)))
  all_goals
    refine within_serializedExistingVolumeOperation (within_ite (within_pure _) (within_ite (within_pure _) ?_))
    split
    · exact within_pure _
    · refine within_ite (within_pure _) (within_ite (within_pure _) (within_bind (within_tryCatch
        (within_bind within_searchVolume fun _ => within_pure _) fun e => within_ite (within_pure _) (within_throw _))
        fun volume => ?_))
      cases volume with
      | error code => exact within_pure _
      | ok volume => exact within_createFound

end Rpc

/-! ## The driver -/

/-- The operations on pools, each with its result dropped: the RPCs of the controller, the deletion of one volume, the
reclaiming of archives, and the loss of the rebuildable index of a pool. -/
inductive DriverOp : WorldProg Unit → Prop
  | create (env : CreateEnv) (hosts : List HostVol) (request : CreateRequest) :
    DriverOp (createVolume env hosts request >>= fun _ => pure ())
  | expand (hosts : List HostVol) (v : String) (range : Option CapacityRange) (sshQuota : Bool) :
    DriverOp (controllerExpandVolume hosts v range sshQuota >>= fun _ => pure ())
  | delete (hosts : List HostVol) (v : String) (uuids : List String) : DriverOp (deleteVolume hosts v uuids)
  | reclaim (hostvol : String) (pvcName : Option String) : DriverOp (onPool hostvol (removeArchivedPv pvcName))
  | loseIndex (hostvol : String) :
    DriverOp (onPool hostvol (update fun s => pure { s with rows := ∅, summary := none }))

/-- **Every operation keeps to it.** -/
theorem within_driverOp {p : WorldProg Unit} (h : DriverOp p) : p.Within WorldStep := by
  cases h with
  | create env hosts request => exact within_bind within_createVolume fun _ => within_pure _
  | expand hosts v range sshQuota => exact within_bind within_controllerExpandVolume fun _ => within_pure _
  | delete hosts v uuids => exact within_deleteVolume
  | reclaim hostvol pvcName => exact within_onPool within_removeArchivedPv
  | loseIndex hostvol => exact within_onPool (within_update fun s s' h => by cases h; exact scanStep_rows)

end Programs

end Kadalu
