import Kadalu.Durable.Ends
import Kadalu.Pool.StepRules
import Kadalu.Volume.CreateReserved

/-!
# Committed sizes

`CommittedAt p n`: the metadata at `p` has the size `n`. A create that ends with a path has committed its size there
(`ends_createBlockVolume`, `ends_createSubdirVolume`), and accounting, quotas and the end of an intent leave it. A claim of a pool
that is not claimed has the size that it is made with (`ends_claimSinglePvVolume`).
-/

namespace Kadalu

open Durable Durable.Prog Except

variable [VolnameHash] {v : String} {t : PvType} {n : Int} {s : Pool} {p : Path} {uuid : String}

/-! ## Steps -/

omit [VolnameHash] in
theorem ends_fileStep {α : Type} {f : Pool → Except Err (α × Pool)} {Q : α → Pool → Prop}
    (h : ∀ a s', f s = .ok (a, s') → Q a s') : (fileStep f).ends Q s := by
  refine ends_step fun a hok => ?_
  cases hf : f s with
  | error e =>
    simp only [hf] at hok
    cases hok
  | ok r =>
    simp only [hf] at hok ⊢
    cases hok
    exact h _ _ hf

omit [VolnameHash] in
theorem ends_update {f : Pool → Except Err Pool} {Q : Unit → Pool → Prop} (h : ∀ s', f s = .ok s' → Q () s') :
    (update f).ends Q s := by
  refine ends_fileStep fun _ s' hs' => ?_
  obtain ⟨_, hf, hs'⟩ := bind_ok.mp hs'
  cases hs'
  exact h _ hf

omit [VolnameHash] in
theorem ends_transaction {α : Type} {f : Pool → Except Err (α × Pool)} {errs : Err → Bool} {Q : α → Pool → Prop}
    (h : ∀ a s', f s = .ok (a, s') → Q a s') : (transaction f errs).ends Q s := by
  refine ends_step fun a hok => ?_
  cases hf : f s with
  | error e =>
    simp only [hf] at hok
    cases hok
  | ok r =>
    simp only [hf] at hok ⊢
    cases hok
    exact h _ _ hf

omit [VolnameHash] in
theorem ends_guard {c : Prop} {_ : Decidable c} {e : Err} {g : PUnit → PoolProg Path} {Q : Path → Pool → Prop}
    (h : (g ⟨⟩).ends Q s) : (if c then (throw e : PoolProg PUnit) >>= g else g ⟨⟩).ends Q s :=
  ends_ite (fun _ => ends_bind (ends_throw e)) fun _ => h

/-! ## Creating -/

theorem ends_finishVolumeCreation {i : CreationIntent} {q : Path} (h : CommittedAt p n s) :
    (update fun s => finishVolumeCreation s v t q i).ends (fun _ => CommittedAt p n) s := by
  refine ends_update fun s' hs' => ?_
  rw [finishVolumeCreation_ok hs']
  exact h

theorem ends_commitCreation {i : CreationIntent} : (commitCreation v t p n i uuid).ends (fun _ => CommittedAt p n) s := by
  have hwrite : ∀ {s : Pool} {m : Metadata}, m.size = n → (writeMetadata p m).ends (fun _ => CommittedAt p n) s := by
    intro s m hm
    refine ends_update fun s' hs' => ?_
    cases hs'
    exact ⟨m, AList.lookup_insert _, hm⟩
  have hsave : (savePvMetadata p n i.incarnation uuid).ends (fun _ => CommittedAt p n) s := by
    unfold savePvMetadata
    dsimp only
    split
    · exact ends_bind (ends_ofExcept fun _ _ => ends_bind (hwrite rfl))
    · exact ends_bind (hwrite rfl)
  exact ends_bind (ends_mono (fun _ _ h => ends_finishVolumeCreation h) hsave)

theorem ends_resumeCommitted {m : Metadata} {o : Option CreationIntent} (hm : s.metadata.lookup p = some m) :
    (resumeCommitted v t p n m o).ends (fun _ => CommittedAt p n) s := by
  refine ends_bind (ends_ofExcept fun _ hvalid => ends_bind (ends_read fun _ _ => ?_))
  have hsize : m.size = n := by
    unfold validateBlockMetadata at hvalid
    rw [throw_eq_error, ite_error_ok, not_or, not_not] at hvalid
    exact hvalid.1.1
  cases o with
  | none => exact ends_pure ⟨m, hm, hsize⟩
  | some intent =>
    refine ends_ite (fun _ => ends_throw _) fun _ => ?_
    exact ends_bind (ends_ofExcept fun _ _ => ends_finishVolumeCreation ⟨m, hm, hsize⟩)

theorem ends_createBlockVolume : (createBlockVolume t v n uuid).ends (fun path => CommittedAt path n) s := by
  unfold createBlockVolume
  refine ends_guard (ends_guard (ends_bind (ends_ofExcept fun path _ => ?_)))
  refine ends_bind (ends_read fun metadata hmetadata => ends_bind (ends_read fun intent _ => ?_))
  cases hmetadata
  cases hm : s.metadata.lookup path with
  | some m => exact ends_bind (ends_mono (fun _ _ h => ends_pure h) (ends_resumeCommitted hm))
  | none =>
    refine ends_bind (ends_mono (fun _ _ _ => ?_) (ends_any _ _))
    refine ends_bind (ends_mono (fun _ _ _ => ?_) (ends_any _ _))
    refine ends_bind (ends_mono (fun _ _ _ => ?_) (ends_any _ _))
    refine ends_ite (fun _ => ends_bind (ends_mono (fun _ _ _ => ?_) (ends_any _ _))) fun _ => ?_
    · exact ends_bind (ends_mono (fun _ _ h => ends_pure h) ends_commitCreation)
    · exact ends_bind (ends_mono (fun _ _ h => ends_pure h) ends_commitCreation)

/-- A subvolume whose quota is set here is committed here. -/
theorem ends_createSubdirVolume : (createSubdirVolume v n false true uuid).ends (fun path => CommittedAt path n) s := by
  unfold createSubdirVolume
  refine ends_guard (ends_bind (ends_ofExcept fun path _ => ?_))
  refine ends_bind (ends_read fun metadata hmetadata => ends_bind (ends_read fun intent _ => ?_))
  cases hmetadata
  cases hm : s.metadata.lookup path with
  | some m => exact ends_bind (ends_mono (fun _ _ h => ends_pure h) (ends_resumeCommitted hm))
  | none =>
    refine ends_bind (ends_mono (fun _ _ _ => ?_) (ends_any _ _))
    refine ends_bind (ends_mono (fun _ _ _ => ?_) (ends_any _ _))
    refine ends_ite (fun _ => ends_bind (ends_mono (fun _ _ _ => ?_) (ends_any _ _))) fun h => absurd rfl h
    refine ends_ite (fun _ => ?_) fun h => absurd rfl h
    exact ends_bind (ends_mono (fun _ _ h => ends_pure h) ends_commitCreation)

/-! ## Committed volumes -/

omit [VolnameHash] in
/-- Accounting touches no file. -/
theorem updateFreeSize_files {k : Int} {s' : Pool} (h : updateFreeSize s v k = .ok s') :
    s'.metadata = s.metadata ∧ s'.claim = s.claim ∧ s'.capacity = s.capacity := by
  unfold updateFreeSize at h
  split at h
  · cases h
    exact ⟨rfl, rfl, rfl⟩
  · obtain ⟨-, rfl⟩ := updatePvRecord_ok.mp h
    exact ⟨rfl, rfl, rfl⟩

omit [VolnameHash] in
theorem ends_updateFreeSizeStep {k : Int} (h : CommittedAt p n s) :
    (updateFreeSizeStep v k).ends (fun _ => CommittedAt p n) s := by
  refine ends_transaction fun _ s' hs' => ?_
  obtain ⟨s'', hfree, hs'⟩ := bind_ok.mp hs'
  cases hs'
  rw [CommittedAt, (updateFreeSize_files hfree).1]
  exact h

theorem ends_finishCommitted {volume : Volume} (h : CommittedAt p n s) :
    (finishCommittedCreation volume).ends (fun _ => CommittedAt p n) s := by
  unfold finishCommittedCreation
  refine ends_bind (ends_read fun intent _ => ?_)
  cases intent with
  | none => exact ends_pure h
  | some intent => exact ends_bind (ends_ofExcept fun _ _ => ends_finishVolumeCreation h)

omit [VolnameHash] in
theorem ends_reconcileCommitted {k : Int} (h : CommittedAt p n s) :
    (reconcileCommittedCapacity v k).ends (fun _ => CommittedAt p n) s := by
  unfold reconcileCommittedCapacity
  refine ends_bind (ends_read fun size _ => ?_)
  exact ends_ite (fun _ => ends_updateFreeSizeStep h) fun _ => ends_pure h

theorem finishVolumeExpansion_metadata {e : ExpansionIntent} {s' : Pool} (h : finishVolumeExpansion s v t p e = .ok s') :
    s'.metadata = s.metadata := by
  obtain ⟨_, -, h⟩ := bind_ok.mp h
  obtain ⟨-, h⟩ := ite_error_ok.mp h
  cases h
  rfl

omit [VolnameHash] in
/-- A step on a payload. -/
theorem ends_payload {f : Pool → Except Err Pool} (h : CommittedAt p n s) (hf : ∀ s', f s = .ok s' → s'.metadata = s.metadata) :
    (update f).ends (fun _ => CommittedAt p n) s :=
  ends_update fun s' hs' => by rwa [CommittedAt, hf s' hs']

omit [VolnameHash] in
theorem ends_makeSubdir {q : Path} (h : CommittedAt p n s) : (makeSubdir q).ends (fun _ => CommittedAt p n) s := by
  refine ends_payload h fun s' hs' => ?_
  split at hs' <;> cases hs' <;> rfl

omit [VolnameHash] in
theorem ends_setSimpleQuota {q : Path} {k : Int} (h : CommittedAt p n s) :
    (setSimpleQuota q k).ends (fun _ => CommittedAt p n) s := by
  refine ends_payload h fun s' hs' => ?_
  split at hs' <;> cases hs'
  rfl

omit [VolnameHash] in
theorem ends_updatePvMetadata : (updatePvMetadata p n).ends (fun _ => CommittedAt p n) s := by
  refine ends_bind (ends_read fun data _ => ends_update fun s' hs' => ?_)
  cases hs'
  exact ⟨_, AList.lookup_insert _, rfl⟩

theorem existingOrCanonical_mem (h : existingOrCanonicalVolumePath s t v = .ok p) : p ∈ volumePaths t v := by
  obtain ⟨canonical, hcanonical, h⟩ := bind_ok.mp h
  obtain ⟨paths, hpaths, h⟩ := bind_ok.mp h
  obtain rfl := (canonicalVolumePaths_ok.mp hpaths).2
  obtain rfl := (canonicalPath_ok.mp hcanonical).2
  cases h
  cases hfind : (volumePaths t v).find? fun candidate => (s.metadata.lookup candidate).isSome with
  | none => exact canon_mem
  | some candidate => exact List.mem_of_find?_eq_some hfind

/-! ## Claiming -/

/-- The pool is not claimed for `v`. -/
def Unclaimed (v : String) (s : Pool) : Prop := ∀ claim, readSinglePvClaim s = .ok (some claim) → claim.volumeId ≠ v

/-- The pool is claimed for `v`, with this size. -/
def ClaimedAt (v : String) (n : Int) (s : Pool) : Prop := ∃ claim, s.claim = some claim ∧ claim.volumeId = v ∧ claim.size = n

omit [VolnameHash] in
theorem readSinglePvClaim_some {claim : Claim} (h : readSinglePvClaim s = .ok (some claim)) : s.claim = some claim := by
  unfold readSinglePvClaim at h
  split at h
  · cases h
  · rename_i c hc
    split at h <;> cases h
    exact hc

omit [VolnameHash] in
theorem readSinglePvClaim_none (h : readSinglePvClaim s = .ok none) : s.claim = none := by
  unfold readSinglePvClaim at h
  split at h
  · assumption
  · split at h <;> cases h

omit [VolnameHash] in
theorem unclaimed_of_none (h : s.claim = none) : Unclaimed v s := fun claim hclaim => by
  rw [readSinglePvClaim_some hclaim] at h
  cases h

omit [VolnameHash] in
theorem ends_createClaim {claim : Claim} (h : s.claim = none) :
    (createClaim claim).ends (fun created s' => created = true ∧ s'.claim = some claim) s := by
  refine ends_fileStep fun created s' hs' => ?_
  simp only [h, Option.isSome_none, Bool.false_eq_true, if_false, pure_eq_ok, Except.ok.injEq, Prod.mk.injEq] at hs'
  obtain ⟨rfl, rfl⟩ := hs'
  exact ⟨rfl, rfl⟩

omit [VolnameHash] in
theorem ends_claimSinglePvVolume (h : Unclaimed v s) : (claimSinglePvVolume v n).ends (fun _ => ClaimedAt v n) s := by
  refine ends_withLock ?_
  unfold claimSinglePvVolumeLocked
  dsimp only
  refine ends_bind (ends_read fun claim hclaim => ?_)
  cases claim with
  | some existing =>
    refine ends_ofExcept fun _ hcheck => ?_
    unfold checkExistingClaim at hcheck
    obtain ⟨-, hcheck⟩ := ite_error_ok.mp hcheck
    obtain ⟨hid, -⟩ := ite_error_ok.mp hcheck
    exact absurd (not_not.mp hid) (h existing hclaim)
  | none =>
    have hnone := readSinglePvClaim_none hclaim
    refine ends_bind (ends_read fun unclaimed _ => ?_)
    refine ends_ite (fun _ => ends_throw _) fun _ => ?_
    refine ends_bind (ends_mono (fun created s' h => ?_) (ends_createClaim hnone))
    obtain ⟨rfl, hclaimed⟩ := h
    exact ends_pure ⟨_, hclaimed, rfl, rfl⟩

end Kadalu
