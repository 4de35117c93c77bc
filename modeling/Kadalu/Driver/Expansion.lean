import Kadalu.Driver.Expand
import Kadalu.Driver.Reservations
import Kadalu.Pool.StepRules
import Kadalu.Volume.SearchSpec
import Kadalu.Volume.Slot

/-!
# Expansions are monotone and resumable

* `Subvolume v q s`: `v` is committed at `q`, perhaps with an expansion under way. Requests to expand `v` keep it so, whatever
  interrupts them, and never lower what was committed before (`Above`).
* `Finished v q s`: the files of the pool are consistent, and no create of `v` is left. That a pending expansion can be finished
  depends on it (`create_left`).
-/

namespace Kadalu

open Durable Durable.Prog Except

/-! ## The sizes of a volume -/

/-- The size in the metadata at `q`. -/
def committedSize (s : Pool) (q : Path) : Int := ((s.metadata.lookup q).map Metadata.size).getD 0

@[simp] theorem committedSize_insert (s : Pool) (q : Path) (m : Metadata) :
    committedSize { s with metadata := s.metadata.insert q m } q = m.size := by
  simp [committedSize, AList.lookup_insert]

/-- The row of `v`. -/
def accountedSize (s : Pool) (v : String) : Int := (s.rows.lookup v).getD 0

/-- The simple quota of the payload at `q`. -/
def appliedQuota (s : Pool) (q : Path) : Int := ((s.payloads.lookup q).bind Payload.quota).getD 0

/-- The quota of the external cluster for the payload at `q`, in hundredths of a byte. -/
def appliedGlusterQuota (s : Pool) (q : Path) : Int := ((s.payloads.lookup q).bind Payload.glusterQuota).getD 0

/-- The target of the expansion that is pending at `q`. -/
def pendingTarget (s : Pool) (q : Path) : Option Int := (s.expansions.lookup q).map ExpansionIntent.toSize

/-- The quota leaves room for `n` bytes; the external cluster is given 95 % of them. -/
def QuotaCovers (gluster : Bool) (q : Path) (n : Int) (s : Pool) : Prop :=
  if gluster then 95 * n ≤ appliedGlusterQuota s q else n ≤ appliedQuota s q

/-- The quota is the one for `n` bytes. -/
def QuotaSet (gluster : Bool) (q : Path) (n : Int) (s : Pool) : Prop :=
  if gluster then appliedGlusterQuota s q = 95 * n else appliedQuota s q = n

theorem QuotaSet.covers {gluster : Bool} {q : Path} {m n : Int} {s : Pool} (h : QuotaSet gluster q n s) (hm : m ≤ n) :
    QuotaCovers gluster q m s := by
  unfold QuotaSet at h
  unfold QuotaCovers
  cases gluster with
  | false => exact hm.trans h.ge
  | true =>
    simp only [if_true] at h ⊢
    omega

/-- The committed size at `q` has not fallen from `s₀` to `s`; and row and quota still cover it if they did. -/
structure Above (gluster : Bool) (v : String) (q : Path) (s₀ s : Pool) : Prop where
  size : committedSize s₀ q ≤ committedSize s q
  row : committedSize s₀ q ≤ accountedSize s₀ v → committedSize s q ≤ accountedSize s v
  quota : QuotaCovers gluster q (committedSize s₀ q) s₀ → QuotaCovers gluster q (committedSize s q) s

theorem Above.refl (gluster : Bool) (v : String) (q : Path) (s : Pool) : Above gluster v q s s := ⟨le_rfl, id, id⟩

section

variable [VolnameHash]

/-! ## Committed subvolumes -/

/-- `v` is committed at `q`; an expansion of it may be pending. -/
structure Subvolume (v : String) (q : Path) (s : Pool) : Prop where
  indexed : Indexed s
  capacity : 0 < s.capacity
  committed : ∃ m, s.metadata.lookup q = some m ∧ OwnMetadata .subvol v q m ∧ m.state = none ∧
    m.pathPrefix = some q.dirname ∧ m.incarnation.all canonicalUuid = true
  size_pos : 0 < committedSize s q
  alone : NoMetadataBut s v q
  payload : (s.payloads.lookup q).isSome
  pending : ∀ e, s.expansions.lookup q = some e →
    validateExpansionIntent q e = .ok () ∧ (committedSize s q = e.fromSize ∨ committedSize s q = e.toSize)

/-- The scan of the pool succeeds, no create of `v` is left, and its expansion is the one at `q`. -/
structure Finished (v : String) (q : Path) (s : Pool) : Prop where
  scannable : Scannable s
  created : ∀ i, ¬Creating s v i
  expanding : ∀ p e, s.expansions.lookup p = some e → e.volumeId = v → p = q

variable {v : String} {q : Path} {s s' s₀ : Pool} {e : ExpansionIntent} {n t : Int} {gluster : Bool}

theorem expansion_grows {p : Path} (he : validateExpansionIntent p e = .ok ()) : e.fromSize < e.toSize := by
  simp only [validateExpansionIntent, throw_eq_error, ite_error_ok, bind_ok, not_or, not_not] at he
  obtain ⟨-, -, -, ⟨-, -, -, hlt⟩, -⟩ := he
  exact hlt

/-- A valid expansion intent at a path of `v` is one of `v`. -/
theorem expansionIntent_at (hq : q ∈ volumePaths .subvol v) (he : validateExpansionIntent q e = .ok ()) :
    e = expansionIntent v .subvol q e.fromSize e.toSize ∧ 0 < e.fromSize ∧ e.fromSize < e.toSize := by
  simp only [validateExpansionIntent, throw_eq_error, ite_error_ok, bind_ok, canonicalVolumePaths_ok, not_or, not_not] at he
  obtain ⟨⟨hver, -⟩, _, ⟨-, rfl⟩, ⟨hmem, hfrom, -, hlt⟩, hp, -⟩ := he
  obtain ⟨ht, hid⟩ := volumePaths_disjoint (hp ▸ hmem) hq
  obtain ⟨fromSize, path, pvtype, toSize, version, volumeId⟩ := e
  subst hp hver ht hid
  exact ⟨rfl, hfrom, hlt⟩

namespace Subvolume

theorem path (h : Subvolume v q s) : q ∈ volumePaths .subvol v := by
  obtain ⟨m, -, hown, -⟩ := h.committed
  exact hown.path

theorem valid (h : Subvolume v q s) : isValidCsiIdentifier v = true := by
  obtain ⟨m, -, hown, -⟩ := h.committed
  exact hown.valid

/-- The record of the committed metadata. -/
theorem record (h : Subvolume v q s) : Record s q ⟨v, none, committedSize s q, false⟩ := by
  have hpos := h.size_pos
  obtain ⟨m, hm, hown, hstate, -⟩ := h.committed
  simp only [committedSize, hm, Option.map_some, Option.getD_some] at hpos ⊢
  exact ⟨m, hm, capacityRecord_active hown hstate hpos⟩

theorem committed_iff (h : Subvolume v q s) (hs : Scannable s) : Committed s v n ↔ n = committedSize s q := by
  constructor
  · rintro ⟨p, r, hr, -, hid, rfl⟩
    obtain rfl := hs.record_inj p q r _ hr h.record hid
    rw [hr.functional h.record]
  · rintro rfl
    exact ⟨q, _, h.record, rfl, rfl, rfl⟩

/-- The pending expansion, read back. -/
theorem intent (h : Subvolume v q s) (he : s.expansions.lookup q = some e) :
    e = expansionIntent v .subvol q e.fromSize e.toSize ∧ 0 < e.fromSize ∧ e.fromSize < e.toSize :=
  expansionIntent_at h.path (h.pending e he).1

theorem intent_fits (h : Subvolume v q s) (he : s.expansions.lookup q = some e) :
    committedSize s q = e.fromSize ∨ committedSize s q = e.toSize :=
  (h.pending e he).2

theorem size_le_target (h : Subvolume v q s) (he : s.expansions.lookup q = some e) : committedSize s q ≤ e.toSize := by
  have hfits := h.intent_fits he
  have hlt := (h.intent he).2.2
  omega

theorem readIntent (h : Subvolume v q s) :
    readVolumeExpansionIntent s v .subvol q = .ok (s.expansions.lookup q) := by
  unfold readVolumeExpansionIntent
  cases he : s.expansions.lookup q with
  | none => rfl
  | some e =>
    dsimp only
    rw [(h.pending e he).1, ok_bind, (h.intent he).1]
    simp [expansionIntent]

/-- Rows and summary are no part of it. -/
theorem index (h : Subvolume v q s) {rows : Rows} {summary : Option Int}
    (hi : Indexed { s with rows, summary }) : Subvolume v q { s with rows, summary } where
  indexed := hi
  capacity := h.capacity
  committed := h.committed
  size_pos := h.size_pos
  alone := h.alone
  payload := h.payload
  pending := h.pending

/-- Another size or another intent at `q`, if they fit. -/
theorem update (h : Subvolume v q s) (hf : Frame [q] [v] s s') (hi : Indexed s') (hcap : s'.capacity = s.capacity)
    (hm : ∃ m, s.metadata.lookup q = some m ∧ s'.metadata.lookup q = some { m with size := n }) (hn : 0 < n)
    (hpay : (s'.payloads.lookup q).isSome)
    (hexp : ∀ e, s'.expansions.lookup q = some e →
      validateExpansionIntent q e = .ok () ∧ (n = e.fromSize ∨ n = e.toSize)) : Subvolume v q s' := by
  obtain ⟨m, hm, hm'⟩ := hm
  obtain ⟨m₀, hm₀, hown, hstate, hdir, hinc⟩ := h.committed
  obtain rfl : m₀ = m := Option.some.inj (hm₀.symm.trans hm)
  have hsize : committedSize s' q = n := by simp [committedSize, hm']
  refine ⟨hi, hcap ▸ h.capacity, ⟨_, hm', ⟨hown.valid, hown.path, hown.id, hown.archiveName⟩, hstate, hdir, hinc⟩, hsize ▸ hn,
    fun u p hp hne => ?_, hpay, fun e he => hsize ▸ hexp e he⟩
  rw [hf.metadata p (by simpa using hne)]
  exact h.alone u p hp hne

end Subvolume

namespace Finished

theorem separate (h : Finished v q s) (hv : Subvolume v q s) : Separate [q] [v] s where
  names p hp r hr w hw := by
    obtain rfl := List.mem_singleton.mp hp
    rw [hr.functional hv.record] at hw
    rcases hw with rfl | hw
    · exact List.mem_singleton_self _
    · cases hw
  record_out p r hr hid := by
    rw [List.mem_singleton] at hid ⊢
    exact h.scannable.record_inj p q r _ hr hv.record hid
  creation_out p i hi hid := absurd ⟨p, hi, List.mem_singleton.mp hid⟩ (h.created i)
  expansion_out p e he hid := List.mem_singleton.mpr (h.expanding p e he (List.mem_singleton.mp hid))

theorem index (h : Finished v q s) {rows : Rows} {summary : Option Int} : Finished v q { s with rows, summary } where
  scannable := ⟨h.scannable.records, h.scannable.record_inj, h.scannable.creations, h.scannable.creation_inj,
    h.scannable.expansions, h.scannable.expansion_inj, h.scannable.creation_fits, h.scannable.expansion_fits⟩
  created := h.created
  expanding := h.expanding

/-- The scan still succeeds after a change of `v` at `q`. -/
theorem update (h : Finished v q s) (hv : Subvolume v q s) (hf : Frame [q] [v] s s') (hcre : s'.creations = s.creations)
    (hv' : Subvolume v q s') : Finished v q s' := by
  have hrec := hv'.record
  have hcreated : ∀ i, ¬Creating s' v i := fun i ⟨p, hi, hid⟩ => h.created i ⟨p, hcre ▸ hi, hid⟩
  have hat : ∀ p e, s'.expansions.lookup p = some e → e.volumeId = v → p = q := by
    intro p e he hid
    by_contra hne
    rw [hf.expansions p (by simpa using hne)] at he
    exact hne (h.expanding p e he hid)
  have hslot : SlotFits [q] [v] s' := by
    refine ⟨fun p hp m₁ hm₁ => ?_, fun p hp r hr w hw => ?_, fun p hp p' hp' _ _ _ _ _ => ?_, fun p hp i hi => ?_,
      fun p hp p' hp' _ _ _ _ _ => ?_, fun p hp e he => ?_, fun p hp p' hp' _ _ _ _ _ => ?_, ?_, ?_⟩
    · obtain rfl := List.mem_singleton.mp hp
      obtain ⟨m₂, hm₂, hr⟩ := hrec
      obtain rfl := Option.some.inj (hm₂.symm.trans hm₁)
      exact ⟨_, hr⟩
    · obtain rfl := List.mem_singleton.mp hp
      rw [hr.functional hrec] at hw
      rcases hw with rfl | hw
      · exact List.mem_singleton_self _
      · cases hw
    · rw [List.mem_singleton.mp hp, List.mem_singleton.mp hp']
    · obtain rfl := List.mem_singleton.mp hp
      rw [hcre] at hi
      have hvalid := h.scannable.creations p i hi
      refine ⟨hvalid, ?_⟩
      -- a create intent at the path of `v` would be one of `v`
      simp only [validateCreationIntent, throw_eq_error, ite_error_ok, bind_ok, canonicalPath_ok, not_or, not_not] at hvalid
      obtain ⟨-, -, _, ⟨-, rfl⟩, -, hpq, -⟩ := hvalid
      have hid := (volumePaths_disjoint (hpq ▸ canon_mem) hv.path).2
      exact absurd ⟨p, hi, hid⟩ (h.created i)
    · rw [List.mem_singleton.mp hp, List.mem_singleton.mp hp']
    · obtain rfl := List.mem_singleton.mp hp
      refine ⟨(hv'.pending e he).1, ?_⟩
      rw [(hv'.intent he).1]
      exact List.mem_singleton_self _
    · rw [List.mem_singleton.mp hp, List.mem_singleton.mp hp']
    · intro w hw i k hi
      obtain rfl := List.mem_singleton.mp hw
      exact absurd hi (hcreated i)
    · intro w hw e k he _ hbase
      obtain rfl := List.mem_singleton.mp hw
      obtain ⟨p, he, hid⟩ := he
      obtain rfl := hat p e he hid
      rcases hbase with ⟨i, hi, -⟩ | ⟨p', r, hr, -, hid, rfl⟩
      · exact absurd hi (hcreated i)
      · have hp' := record_in_slot (h.separate hv) hf hr (by simp [hid])
        obtain rfl := List.mem_singleton.mp hp'
        rw [hr.functional hrec]
        exact (hv'.pending e he).2
  exact ⟨scannable_of_slot (h.separate hv) hf hslot h.scannable, hcreated, hat⟩

end Finished

/-! ## What the steps keep -/

/-- The crash condition of an expansion. -/
structure Keeps (gluster : Bool) (v : String) (q : Path) (s₀ s : Pool) : Prop where
  subvolume : Subvolume v q s
  finished : Finished v q s₀ → Finished v q s
  above : Above gluster v q s₀ s

theorem Keeps.refl (h : Subvolume v q s) : Keeps gluster v q s s := ⟨h, id, .refl _ v q s⟩

namespace Keeps

/-- A change of `v` at `q`, if sizes and intent fit. -/
theorem update (h : Keeps gluster v q s₀ s) (hf : Frame [q] [v] s s') (hi : Indexed s') (hcap : s'.capacity = s.capacity)
    (hcre : s'.creations = s.creations)
    (hm : ∃ m, s.metadata.lookup q = some m ∧ s'.metadata.lookup q = some { m with size := n }) (hn : 0 < n)
    (hpay : (s'.payloads.lookup q).isSome)
    (hexp : ∀ e, s'.expansions.lookup q = some e →
      validateExpansionIntent q e = .ok () ∧ (n = e.fromSize ∨ n = e.toSize))
    (habove : Above gluster v q s₀ s') : Keeps gluster v q s₀ s' := by
  have hv' := h.subvolume.update hf hi hcap hm hn hpay hexp
  exact ⟨hv', fun h₀ => (h.finished h₀).update h.subvolume hf hcre hv', habove⟩

/-- A row that holds the committed size. -/
theorem index (h : Keeps gluster v q s₀ s) {rows : Rows} {summary : Option Int} (hi : Indexed { s with rows, summary })
    (hrow : committedSize s q ≤ (rows.lookup v).getD 0) : Keeps gluster v q s₀ { s with rows, summary } :=
  ⟨h.subvolume.index hi, fun h₀ => (h.finished h₀).index, h.above.size, fun _ => hrow, h.above.quota⟩

theorem link (h : Keeps gluster v q s₀ s) (hvalid : validateExpansionIntent q e = .ok ())
    (hfits : committedSize s q = e.fromSize ∨ committedSize s q = e.toSize) :
    Keeps gluster v q s₀ { s with expansions := s.expansions.insert q e } := by
  obtain ⟨m, hm, -⟩ := h.subvolume.committed
  have hsize : committedSize s q = m.size := by simp [committedSize, hm]
  refine h.update (n := m.size) ((Frame.refl s).set_expansions (lookup_insert_off (by simp))) h.subvolume.indexed
    rfl rfl ⟨m, hm, hm⟩ (hsize ▸ h.subvolume.size_pos) h.subvolume.payload (fun e' he' => ?_)
    ⟨h.above.size, h.above.row, h.above.quota⟩
  rw [AList.lookup_insert] at he'
  cases he'
  exact ⟨hvalid, hsize ▸ hfits⟩

/-- Another quota on the payload. -/
theorem payload (h : Keeps gluster v q s₀ s) {payload : Payload}
    (hquota : QuotaCovers gluster q (committedSize s q) { s with payloads := s.payloads.insert q payload }) :
    Keeps gluster v q s₀ { s with payloads := s.payloads.insert q payload } := by
  obtain ⟨m, hm, -⟩ := h.subvolume.committed
  have hsize : committedSize s q = m.size := by simp [committedSize, hm]
  exact h.update (n := m.size) ((Frame.refl s).set_payloads (lookup_insert_off (by simp)))
    h.subvolume.indexed rfl rfl ⟨m, hm, hm⟩ (hsize ▸ h.subvolume.size_pos) (by rw [AList.lookup_insert]; rfl)
    (fun e he => hsize ▸ h.subvolume.pending e he) ⟨h.above.size, h.above.row, fun _ => hquota⟩

/-- The size of the pending target, which row and quota already cover. -/
theorem commit (h : Keeps gluster v q s₀ s) (he : s.expansions.lookup q = some e) (hrow : e.toSize ≤ accountedSize s v)
    (hquota : QuotaCovers gluster q e.toSize s) {m : Metadata} (hm : s.metadata.lookup q = some m) :
    Keeps gluster v q s₀
      { s with metadata := s.metadata.insert q { m with size := e.toSize, pathPrefix := some q.dirname } } := by
  obtain ⟨m', hm', -, -, hdir, -⟩ := h.subvolume.committed
  obtain rfl : m' = m := Option.some.inj (hm'.symm.trans hm)
  have hlook : (s.metadata.insert q { m' with size := e.toSize, pathPrefix := some q.dirname }).lookup q =
      some { m' with size := e.toSize } := by rw [AList.lookup_insert, hdir]
  have hint := h.subvolume.intent he
  refine h.update (n := e.toSize) ((Frame.refl s).set_metadata (lookup_insert_off (by simp)))
    h.subvolume.indexed rfl rfl ⟨m', hm, hlook⟩ (hint.2.1.trans hint.2.2) h.subvolume.payload (fun e' he' => ?_)
    ⟨?_, fun _ => ?_, fun _ => ?_⟩
  · obtain rfl : e = e' := Option.some.inj (he.symm.trans he')
    exact ⟨(h.subvolume.pending e he).1, .inr rfl⟩
  · rw [committedSize_insert]
    exact h.above.size.trans (h.subvolume.size_le_target he)
  · rw [committedSize_insert]
    exact hrow
  · rw [committedSize_insert]
    exact hquota

theorem finish (h : Keeps gluster v q s₀ s) : Keeps gluster v q s₀ { s with expansions := s.expansions.erase q } := by
  obtain ⟨m, hm, -⟩ := h.subvolume.committed
  have hsize : committedSize s q = m.size := by simp [committedSize, hm]
  refine h.update (n := m.size) ((Frame.refl s).set_expansions (lookup_erase_off (by simp)))
    h.subvolume.indexed rfl rfl ⟨m, hm, hm⟩ (hsize ▸ h.subvolume.size_pos) h.subvolume.payload (fun e he => ?_)
    ⟨h.above.size, h.above.row, h.above.quota⟩
  rw [AList.lookup_erase] at he
  cases he

end Keeps

/-! ## Setting quota and size -/

/-- Whether the external cluster enforces the quotas of a pool. -/
def usesGlusterQuota (host : HostVol) (sshQuota : Bool) : Bool := host.type = "External" && sshQuota

omit [VolnameHash] in
/-- From `s` to `s'` the quota has been set to `n` bytes, and the size with it if `updated`. -/
structure Resized (gluster updated : Bool) (q : Path) (n : Int) (s s' : Pool) : Prop where
  rows : s'.rows = s.rows
  expansions : s'.expansions = s.expansions
  size : committedSize s' q = if updated then n else committedSize s q
  quota : QuotaSet gluster q n s'

section

omit [VolnameHash]

variable {payload : Payload}

theorem quotaSet_simple (hp : s.payloads.lookup q = some payload) (hn : payload.quota = some n) :
    QuotaSet false q n s := by
  simp [QuotaSet, appliedQuota, hp, hn]

theorem quotaSet_gluster (hp : s.payloads.lookup q = some payload) (hn : payload.glusterQuota = some (95 * n)) :
    QuotaSet true q n s := by
  simp [QuotaSet, appliedGlusterQuota, hp, hn]

end

theorem existingPath (h : Subvolume v q s) : existingOrCanonicalVolumePath s .subvol v = .ok q := by
  have hfind : (volumePaths .subvol v).find? (fun p => (s.metadata.lookup p).isSome) = some q := by
    obtain ⟨m, hm, -⟩ := h.committed
    cases hf : (volumePaths .subvol v).find? (fun p => (s.metadata.lookup p).isSome) with
    | none =>
      have := List.find?_eq_none.mp hf q h.path
      rw [hm] at this
      exact absurd rfl this
    | some p =>
      have hsome := List.find?_some hf
      by_contra hne
      rw [h.alone .subvol p (List.mem_of_find?_eq_some hf) fun he => hne (he ▸ rfl)] at hsome
      cases hsome
  rw [existingOrCanonicalVolumePath, canonicalPath_eq h.valid, ok_bind, canonicalVolumePaths_eq h.valid, ok_bind, hfind]
  rfl

/-- The target `n` is pending, and its row is there. -/
def Granted (v : String) (q : Path) (n : Int) (s : Pool) : Prop := pendingTarget s q = some n ∧ n ≤ accountedSize s v

theorem completes_updatePvMetadata {Q : Unit → Pool → Prop} (h : Keeps gluster v q s₀ s) (hn : Granted v q n s)
    (hquota : QuotaCovers gluster q n s)
    (hQ : ∀ m, Keeps gluster v q s₀ { s with metadata := s.metadata.insert q m } → m.size = n →
      Q () { s with metadata := s.metadata.insert q m }) :
    (updatePvMetadata q n).completes (Keeps gluster v q s₀) Q s := by
  obtain ⟨he, hrow⟩ := hn
  obtain ⟨e, hpend, rfl⟩ := Option.map_eq_some_iff.mp he
  obtain ⟨m, hm, -⟩ := h.subvolume.committed
  have hcommit := h.commit hpend hrow hquota hm
  refine completes_bind (completes_readPool h (by rw [hm]; rfl) ?_)
  exact completes_writeMetadata h hcommit (hQ _ hcommit rfl)

theorem completes_updateSubdirVolume {Q : Unit → Pool → Prop} {updated : Bool} (h : Keeps false v q s₀ s)
    (hn : committedSize s q ≤ n) (he : updated = true → Granted v q n s)
    (hQ : ∀ s', Keeps false v q s₀ s' → Resized false updated q n s s' → Q () s') :
    (updateSubdirVolume v n updated).completes (Keeps false v q s₀) Q s := by
  obtain ⟨payload, hp⟩ := Option.isSome_iff_exists.mp h.subvolume.payload
  refine completes_bind (completes_readPool h (existingPath h.subvolume) ?_)
  refine completes_bind (completes_update (t := s) h ?_ h ?_)
  · rw [hp]
    rfl
  have hset : QuotaSet false q n { s with payloads := s.payloads.insert q { payload with quota := some n } } :=
    quotaSet_simple (AList.lookup_insert _) rfl
  have hquota := h.payload (hset.covers hn)
  refine completes_bind (completes_update h (by rw [hp]; rfl) hquota ?_)
  cases updated with
  | false => exact completes_pure (hQ _ hquota ⟨rfl, rfl, rfl, hset⟩)
  | true =>
    refine completes_updatePvMetadata hquota (he rfl) (hset.covers le_rfl) fun m hm hsize =>
      hQ _ hm ⟨rfl, rfl, ?_, hset⟩
    exact (committedSize_insert _ _ _).trans hsize

omit [VolnameHash] in
theorem completes_executeGlusterQuotaCommand {C : Pool → Prop} {Q : Unit → Pool → Prop} {payload : Payload}
    (hp : s.payloads.lookup q = some payload) (hs : C s)
    (hC : C { s with payloads := s.payloads.insert q { payload with glusterQuota := some (95 * n) } })
    (hQ : Q () { s with payloads := s.payloads.insert q { payload with glusterQuota := some (95 * n) } }) :
    (executeGlusterQuotaCommand q n).completes C Q s := by
  refine completes_step (a := ()) ?_ ?_ ?_
  · simp only [hp, List.mem_cons, List.not_mem_nil, or_false, forall_eq_or_imp, forall_eq]
    exact ⟨hs, hC⟩
  · simp only [hp]
  · simpa only [hp] using hQ

/-- The answer `none` says that quota and size are set, and the run without faults gives it. -/
theorem applySubdirQuota_spec (vol : Volume) {updated sshQuota : Bool} (hname : vol.volname = v) (hpath : vol.volpath = q)
    (hgluster : usesGlusterQuota vol.host sshQuota = gluster) (h : Keeps gluster v q s₀ s) (hn : committedSize s q ≤ n)
    (he : updated = true → Granted v q n s) :
    (applySubdirQuota vol n updated sshQuota).inv (Keeps gluster v q s₀) (fun r s' => Keeps gluster v q s₀ s' ∧
        (r = none → Resized gluster updated q n s s')) s ∧
      (applySubdirQuota vol n updated sshQuota).succeeds (fun r s' => r = none ∧ Keeps gluster v q s₀ s' ∧
        Resized gluster updated q n s s') s := by
  subst hname hpath
  unfold applySubdirQuota
  split
  · next hnative =>
    obtain rfl : gluster = false := by
      rw [← hgluster]
      simpa [usesGlusterQuota, Bool.or_eq_true, imp_iff_not_or] using hnative
    have hupdate := completes_updateSubdirVolume (Q := fun _ s' => Keeps false vol.volname vol.volpath s₀ s' ∧
      Resized false updated vol.volpath n s s') h hn he fun s' hk hr => ⟨hk, hr⟩
    constructor
    · refine inv_bind (inv_mono (fun _ t ht => ?_) hupdate.1)
      exact inv_ret ⟨ht.1, fun _ => ht.2⟩
    · refine succeeds_bind (succeeds_mono (fun _ t ht => ?_) (completes_run hupdate))
      exact succeeds_pure ⟨rfl, ht⟩
  · next hexternal =>
    obtain rfl : gluster = true := by
      rw [← hgluster]
      simpa [usesGlusterQuota, Bool.or_eq_true, imp_iff_not_or] using hexternal
    obtain ⟨payload, hp⟩ := Option.isSome_iff_exists.mp h.subvolume.payload
    have hset : QuotaSet true vol.volpath n
        { s with payloads := s.payloads.insert vol.volpath { payload with glusterQuota := some (95 * n) } } :=
      quotaSet_gluster (AList.lookup_insert _) rfl
    have hquota := h.payload (hset.covers hn)
    -- the metadata follows the command
    have hrest : (do
        if updated then updatePvMetadata vol.volpath n
        pure none : PoolProg (Option Status)).completes (Keeps true vol.volname vol.volpath s₀)
          (fun r s' => r = none ∧ Keeps true vol.volname vol.volpath s₀ s' ∧ Resized true updated vol.volpath n s s')
          { s with payloads := s.payloads.insert vol.volpath { payload with glusterQuota := some (95 * n) } } := by
      cases updated with
      | false => exact completes_pure ⟨rfl, hquota, rfl, rfl, rfl, hset⟩
      | true =>
        refine completes_bind (completes_updatePvMetadata hquota (he rfl) (hset.covers le_rfl) fun m hm hsize =>
          completes_pure ⟨rfl, hm, rfl, rfl, ?_, hset⟩)
        exact (committedSize_insert _ _ _).trans hsize
    constructor
    · refine inv_bind (inv_mono (fun failed t ht => ?_) (inv_tryCatch (Q := fun failed t =>
        Keeps true vol.volname vol.volpath s₀ t ∧ (failed = none → t =
          { s with payloads := s.payloads.insert vol.volpath { payload with glusterQuota := some (95 * n) } }))
        (inv_bind (completes_executeGlusterQuotaCommand hp h hquota ?_).1) fun e t ht => ?_))
      · cases failed with
        | some code => exact inv_ret ⟨ht.1, fun h => by cases h⟩
        | none =>
          obtain rfl := ht.2 rfl
          exact inv_mono (fun r t ht => ⟨ht.2.1, fun _ => ht.2.2⟩) hrest.1
      · exact inv_ret ⟨hquota, fun _ => rfl⟩
      · split
        · exact inv_ret ⟨ht, fun h => by cases h⟩
        · exact inv_raise ht
    · refine succeeds_bind (succeeds_tryCatch (succeeds_bind (completes_run
        (completes_executeGlusterQuotaCommand hp h hquota (succeeds_pure ?_)))))
      exact completes_run hrest

/-! ## Reserving and growing -/

theorem expansionIntent_valid (hv : isValidCsiIdentifier v = true) (hq : q ∈ volumePaths .subvol v) {a : Int} (ha : 0 < a)
    (hat : a < t) : validateExpansionIntent q (expansionIntent v .subvol q a t) = .ok () := by
  simp [validateExpansionIntent, expansionIntent, hv, canonicalVolumePaths_eq hv, hq, ha, hat, ha.trans hat]

/-- Rows that cover the scan hold the committed size. -/
theorem Subvolume.covered (h : Subvolume v q s) {rows : Rows} (hcov : Covers s rows) :
    committedSize s q ≤ (rows.lookup v).getD 0 := by
  obtain ⟨out, hout, hrows⟩ := hcov
  have hs := scan_ok_iff.mp ⟨out, hout⟩
  have hcom : Committed s v (committedSize s q) := (h.committed_iff hs).mpr rfl
  -- an intent that is reserved has the committed size as its base
  have hres : ∃ k, out.reservations.lookup v = some k ∧ committedSize s q ≤ k := by
    by_cases ht : Tombstoned s v
    · exact ⟨_, (scan_reservations hout).mpr (.inr (.inr ⟨.inl ht, hcom⟩)), le_rfl⟩
    by_cases hx : ∃ e, Expanding s v e
    · obtain ⟨e, p, he, hv⟩ := hx
      refine ⟨e.toSize, (scan_reservations hout).mpr (.inl ⟨ht, e, ⟨p, he, hv⟩, rfl⟩), ?_⟩
      have hlt := expansion_grows (hs.expansions p e he)
      have hbase := hs.expansion_fits v e _ ⟨p, he, hv⟩ ht (.inr hcom)
      omega
    by_cases hc : ∃ i, Creating s v i
    · obtain ⟨i, hi⟩ := hc
      exact ⟨i.size, (scan_reservations hout).mpr (.inr (.inl ⟨ht, not_exists.mp hx, i, hi, rfl⟩)),
        (hs.creation_fits v i _ hi ht hcom).le⟩
    · exact ⟨_, (scan_reservations hout).mpr (.inr (.inr ⟨.inr (not_or.mpr ⟨hc, hx⟩), hcom⟩)), le_rfl⟩
  obtain ⟨k, hk, hle⟩ := hres
  rw [hrows v k hk]
  exact hle

/-- A granted expansion of `v` is durable. -/
structure Reserved (gluster : Bool) (v : String) (q : Path) (s₀ : Pool) (e : ExpansionIntent) (s : Pool) : Prop where
  keeps : Keeps gluster v q s₀ s
  intent : s.expansions.lookup q = some e
  row : s.rows.lookup v = some e.toSize

theorem inv_reserveVolumeExpansion {a : Int} (h : Keeps gluster v q s₀ s) :
    (reserveVolumeExpansionStep v .subvol q a t).inv (Keeps gluster v q s₀)
      (fun o s' => Keeps gluster v q s₀ s' ∧ ∀ e, o = some e → e.toSize = t ∧ Reserved gluster v q s₀ e s') s := by
  refine inv_transaction h fun o s' hs' => ?_
  obtain ⟨ha, hat, rows, hcov, hindexed, hexp⟩ := reserve_cases hs'
  have hrows : Indexed { s with rows } := hindexed h.subvolume.indexed
  have ht : 0 < t := ha.trans hat
  have hvalid := expansionIntent_valid h.subvolume.valid h.subvolume.path ha hat
  have hrow : ∀ n, committedSize s q ≤ n → 0 < n → Keeps gluster v q s₀ { s with rows := rows.insert v n, summary := some s.capacity } :=
    fun n hn hpos => h.index (Indexed.insert hrows hpos) (by rw [AList.lookup_insert]; exact hn)
  cases hexp with
  | resumed he =>
    have hk := hrow t (h.subvolume.size_le_target he) ht
    refine ⟨hk, h, hk, ?_⟩
    rintro _ ⟨⟩
    exact ⟨rfl, hk, he, AList.lookup_insert _⟩
  | refused he hfrom =>
    have hk : Keeps gluster v q s₀ { s with rows, summary := some s.capacity } := h.index hrows (h.subvolume.covered hcov)
    refine ⟨hk, h, hk, ?_⟩
    rintro _ ⟨⟩
  | replayed he hto hx =>
    obtain ⟨-, m, hm, hsize, -⟩ := hx
    have hcs : committedSize s q = m.size := by simp [committedSize, hm]
    have hk := (hrow t (by omega) ht).link hvalid (by rw [← hcs] at hsize; exact hsize)
    refine ⟨hk, h.link hvalid (by rw [← hcs] at hsize; exact hsize), hk, ?_⟩
    rintro _ ⟨⟩
    exact ⟨rfl, hk, AList.lookup_insert _, AList.lookup_insert _⟩
  | granted he hfrom _ _ hx =>
    obtain ⟨-, m, hm, hsize, -⟩ := hx
    have hcs : committedSize s q = m.size := by simp [committedSize, hm]
    have hk := (hrow t (by omega) ht).link hvalid (by rw [← hcs] at hsize; exact hsize)
    refine ⟨hk, h.link hvalid (by rw [← hcs] at hsize; exact hsize), hk, ?_⟩
    rintro _ ⟨⟩
    exact ⟨rfl, hk, AList.lookup_insert _, AList.lookup_insert _⟩

/-- A pending expansion is resumed. -/
theorem reserve_resumes (h : Subvolume v q s) (hfinished : Finished v q s) (he : s.expansions.lookup q = some e) :
    ∃ rows : Rows, reserveVolumeExpansion s s.capacity v .subvol q e.fromSize e.toSize =
      .ok (some e, { s with rows := rows.insert v e.toSize, summary := some s.capacity }) := by
  obtain ⟨hform, hfrom, hlt⟩ := h.intent he
  have hs : Subvolume v q { s with summary := some s.capacity } := h.index h.indexed
  have hf : Finished v q { s with summary := some s.capacity } := hfinished.index
  obtain ⟨s₁, h₁, -⟩ := rebuild_total hf.scannable hs.indexed
  obtain ⟨records, rows, -, rfl, -⟩ := rebuild_rows h₁
  have hread : readVolumeExpansionIntent { s with rows, summary := some s.capacity } v .subvol q = .ok (some e) :=
    h.readIntent.trans (congrArg _ he)
  refine ⟨rows, ?_⟩
  rw [reserveVolumeExpansion, if_neg (not_not.mpr ⟨hfrom, hfrom.trans hlt⟩), if_neg (Int.not_le.mpr hlt),
    updateSummary_ok.mpr ⟨h.capacity, rfl⟩, ok_bind, h₁, ok_bind, hread, ok_bind]
  dsimp only
  rw [if_neg (not_not.mpr hform), updatePvRecord_ok.mpr ⟨hfrom.trans hlt, rfl⟩, ok_bind]
  rfl

theorem succeeds_reserveVolumeExpansion (h : Keeps gluster v q s₀ s) (hfinished : Finished v q s)
    (he : s.expansions.lookup q = some e) :
    (reserveVolumeExpansionStep v .subvol q e.fromSize e.toSize).succeeds
      (fun o s' => o = some e ∧ Reserved gluster v q s₀ e s') s := by
  obtain ⟨rows, hrun⟩ := reserve_resumes h.subvolume hfinished he
  have hok : (reserveVolumeExpansionStep v .subvol q e.fromSize e.toSize).run s =
      (.ok (some e), { s with rows := rows.insert v e.toSize, summary := some s.capacity }) := by
    rw [reserveVolumeExpansionStep, transaction, run_step, hrun]
  refine ⟨some e, by rw [hok], rfl, ?_⟩
  -- the contract of the step says what its result satisfies
  have hinv := wpc_run (inv_reserveVolumeExpansion (a := e.fromSize) (t := e.toSize) h)
  rw [hok] at hinv ⊢
  exact (hinv.2 e rfl).2

theorem finishVolumeExpansion_eq (h : readVolumeExpansionIntent s v .subvol q = .ok (some e)) :
    finishVolumeExpansion s v .subvol q e = .ok { s with expansions := s.expansions.erase q } := by
  rw [finishVolumeExpansion, h, ok_bind, if_neg (not_not.mpr rfl)]
  rfl

/-- `v` has been brought to `n`: metadata, row and quota agree, and no expansion is pending. -/
structure Settled (gluster : Bool) (v : String) (q : Path) (n : Int) (s : Pool) : Prop where
  size : committedSize s q = n
  row : s.rows.lookup v = some n
  quota : QuotaSet gluster q n s
  intent : s.expansions.lookup q = none

/-- A granted expansion can be committed. -/
theorem Reserved.granted (h : Reserved gluster v q s₀ e s) : committedSize s q ≤ e.toSize ∧ Granted v q e.toSize s := by
  refine ⟨h.keeps.subvolume.size_le_target h.intent, ?_, ?_⟩
  · rw [pendingTarget, h.intent]
    rfl
  · rw [accountedSize, h.row]
    exact le_rfl

/-- The expansion that was reserved is finished after its quota. -/
theorem Reserved.finish (h : Reserved gluster v q s₀ e s) {updated : Bool} (hk : Keeps gluster v q s₀ s')
    (hr : Resized gluster updated q n s s') :
    finishVolumeExpansion s' v .subvol q e = .ok { s' with expansions := s'.expansions.erase q } := by
  refine finishVolumeExpansion_eq (hk.subvolume.readIntent.trans ?_)
  rw [hr.expansions, h.intent]

section Grow

variable {sshQuota : Bool}

theorem inv_growVolume (vol : Volume) (hname : vol.volname = v) (htype : vol.voltype = .subvol) (hpath : vol.volpath = q)
    (hgluster : usesGlusterQuota vol.host sshQuota = gluster) {a : Int} (h : Keeps gluster v q s₀ s) :
    (growVolume vol a t sshQuota).inv (Keeps gluster v q s₀) (fun _ s' => Keeps gluster v q s₀ s') s := by
  unfold growVolume
  rw [hname, htype, hpath]
  refine inv_bind (inv_mono (fun o s₁ ho => ?_) (inv_reserveVolumeExpansion h))
  cases o with
  | none => exact inv_ret ho.1
  | some e =>
    obtain ⟨rfl, hr⟩ := ho.2 e rfl
    obtain ⟨hle, hgranted⟩ := hr.granted
    refine inv_bind (inv_mono (fun r s₂ hs₂ => ?_)
      (applySubdirQuota_spec vol hname hpath hgluster hr.keeps hle fun _ => hgranted).1)
    cases r with
    | some code => exact inv_ret hs₂.1
    | none =>
      refine inv_bind (completes_update hs₂.1 (hr.finish hs₂.1 (hs₂.2 rfl)) hs₂.1.finish ?_).1
      exact inv_ret hs₂.1.finish

/-- **Resumption.** The run without faults finishes what is pending. -/
theorem succeeds_growVolume (vol : Volume) (hname : vol.volname = v) (htype : vol.voltype = .subvol) (hpath : vol.volpath = q)
    (hgluster : usesGlusterQuota vol.host sshQuota = gluster) (h : Keeps gluster v q s₀ s) (hfinished : Finished v q s)
    (he : s.expansions.lookup q = some e) :
    (growVolume vol e.fromSize e.toSize sshQuota).succeeds
      (fun r s' => r = .ok e.toSize ∧ Settled gluster v q e.toSize s') s := by
  unfold growVolume
  rw [hname, htype, hpath]
  refine succeeds_bind (succeeds_mono ?_ (succeeds_reserveVolumeExpansion h hfinished he))
  rintro _ s₁ ⟨rfl, hr⟩
  obtain ⟨hle, hgranted⟩ := hr.granted
  refine succeeds_bind (succeeds_mono ?_
    (applySubdirQuota_spec vol hname hpath hgluster hr.keeps hle fun _ => hgranted).2)
  rintro _ s₂ ⟨rfl, hk, hres⟩
  refine succeeds_bind (completes_run (completes_update hk (hr.finish hk hres) hk.finish ?_))
  refine succeeds_pure ⟨rfl, ?_⟩
  exact ⟨hres.size, (congrArg _ hres.rows).trans hr.row, hres.quota, AList.lookup_erase _ _⟩

end Grow

/-! ## One request -/

/-- What a search reports of committed metadata. -/
def committedVolume (host : HostVol) (v : String) (q : Path) (m : Metadata) : Volume :=
  { volname := v, voltype := .subvol, host, size := m.size, volpath := q, metadataPath := some q,
    incarnation := m.incarnation }

/-- What `expandExisting` does after its checks of the pending expansion. -/
def resumeExpansion (vol : Volume) (requested : Int) (sshQuota : Bool) : Option ExpansionIntent → PoolProg (Reply Int)
  | some intent => growVolume vol intent.fromSize intent.toSize sshQuota
  | none =>
    if requested ≤ vol.size then do
      match ← applySubdirQuota vol vol.size false sshQuota with
      | some code => pure (.status code)
      | none => pure (.ok vol.size)
    else growVolume vol vol.size requested sshQuota

theorem expandExisting_eq {host : HostVol} {m : Metadata} {requested : Int} {sshQuota : Bool} :
    expandExisting (committedVolume host v q m) requested sshQuota = (do
      let pending ← readPool fun s => readVolumeExpansionIntent s v .subvol q
      if pending.any fun intent => requested ≠ intent.toSize then pure (.status .failedPrecondition)
      else if pending.any fun intent => m.size ≠ intent.fromSize ∧ m.size ≠ intent.toSize then
        throw (.value "Pending expansion does not match committed metadata")
      else do
        reconcileCommittedCapacity v ((pending.map ExpansionIntent.toSize).getD m.size)
        resumeExpansion (committedVolume host v q m) requested sshQuota pending) := rfl

/-- The row takes the size of the pending target, or the committed one. -/
theorem completes_reconcileCommittedCapacity {Q : Unit → Pool → Prop} (h : Keeps gluster v q s₀ s)
    (hn : committedSize s q ≤ n)
    (hQ : ∀ rows : Rows, Keeps gluster v q s₀ { s with rows } → rows.lookup v = some n → Q () { s with rows }) :
    (reconcileCommittedCapacity v n).completes (Keeps gluster v q s₀) Q s := by
  have hpos : 0 < n := h.subvolume.size_pos.trans_le hn
  obtain ⟨k, hk⟩ := h.subvolume.indexed.getPvSize (v := v)
  refine completes_bind (completes_read h hk ?_)
  split
  · have hrow : Keeps gluster v q s₀ { s with rows := s.rows.insert v n } :=
      h.index (h.subvolume.indexed.insert hpos) (by rw [AList.lookup_insert]; exact hn)
    refine completes_transaction (a := ()) (t := { s with rows := s.rows.insert v n }) h ?_ hrow h
      (hQ _ hrow (AList.lookup_insert _))
    rw [updateFreeSize, if_neg (by omega), neg_neg, updatePvRecord_ok.mpr ⟨hpos, rfl⟩]
    rfl
  · next hkn =>
    obtain rfl : k = n := not_not.mp hkn
    refine completes_pure (hQ s.rows h ?_)
    rcases getPvSize_ok.mp hk with ⟨hrow, -⟩ | ⟨-, hzero⟩
    · exact hrow
    · omega

section Request

variable {host : HostVol} {m : Metadata} {requested : Int} {sshQuota : Bool}

theorem inv_resumeExpansion (hm : s.metadata.lookup q = some m) (hgluster : usesGlusterQuota host sshQuota = gluster)
    (h : Keeps gluster v q s₀ s) {pending : Option ExpansionIntent} :
    (resumeExpansion (committedVolume host v q m) requested sshQuota pending).inv (Keeps gluster v q s₀)
      (fun _ s' => Keeps gluster v q s₀ s') s := by
  cases pending with
  | some e => exact inv_growVolume (committedVolume host v q m) rfl rfl rfl hgluster h
  | none =>
    have hsize : committedSize s q = m.size := by simp [committedSize, hm]
    dsimp only [resumeExpansion]
    split
    · refine inv_bind (inv_mono (fun r s₁ hs₁ => ?_)
        (applySubdirQuota_spec (committedVolume host v q m) rfl rfl hgluster h hsize.le fun h => by cases h).1)
      cases r with
      | some code => exact inv_ret hs₁.1
      | none => exact inv_ret hs₁.1
    · exact inv_growVolume (committedVolume host v q m) rfl rfl rfl hgluster h

/-- **Monotonicity**, over one request on the pool of the volume. -/
theorem inv_expandExisting (hm : s.metadata.lookup q = some m) (hgluster : usesGlusterQuota host sshQuota = gluster)
    (h : Keeps gluster v q s₀ s) :
    (expandExisting (committedVolume host v q m) requested sshQuota).inv (Keeps gluster v q s₀)
      (fun _ s' => Keeps gluster v q s₀ s') s := by
  rw [expandExisting_eq]
  refine inv_bind (inv_read h fun pending hpending => ?_)
  obtain rfl : s.expansions.lookup q = pending := Except.ok.inj (h.subvolume.readIntent.symm.trans hpending)
  split
  · exact inv_ret h
  split
  · exact inv_raise h
  have hle : committedSize s q ≤ ((s.expansions.lookup q).map ExpansionIntent.toSize).getD m.size := by
    cases he : s.expansions.lookup q with
    | none => simp [committedSize, hm]
    | some e => exact h.subvolume.size_le_target he
  refine inv_bind (completes_reconcileCommittedCapacity h hle fun rows hk _ => ?_).1
  exact inv_resumeExpansion (s := { s with rows }) hm hgluster hk

/-- A request for another size than the pending one is refused, and changes nothing. -/
theorem completes_expandExisting_other (h : Subvolume v q s)
    (he : s.expansions.lookup q = some e) (hne : requested ≠ e.toSize) :
    (expandExisting (committedVolume host v q m) requested sshQuota).completes (· = s)
      (fun r s' => r = .status .failedPrecondition ∧ s' = s) s := by
  rw [expandExisting_eq]
  refine completes_bind (completes_readPool rfl (h.readIntent.trans (congrArg _ he)) ?_)
  rw [if_pos (by simpa using hne)]
  exact completes_pure ⟨rfl, rfl⟩

/-- A request for the pending size, or for the committed one when none is pending, settles the volume there. -/
theorem succeeds_expandExisting (hm : s.metadata.lookup q = some m) (hgluster : usesGlusterQuota host sshQuota = gluster)
    (h : Keeps gluster v q s₀ s) (hfinished : Finished v q s)
    (ht : pendingTarget s q = some t ∨ pendingTarget s q = none ∧ committedSize s q = t) :
    (expandExisting (committedVolume host v q m) t sshQuota).succeeds
      (fun r s' => r = .ok t ∧ Settled gluster v q t s') s := by
  have hsize : committedSize s q = m.size := by simp [committedSize, hm]
  rw [expandExisting_eq]
  refine succeeds_bind (succeeds_read h.subvolume.readIntent ?_)
  rcases ht with ht | ⟨ht, hcommitted⟩
  · obtain ⟨e, he, rfl⟩ := Option.map_eq_some_iff.mp ht
    have hfits := h.subvolume.intent_fits he
    rw [hsize] at hfits
    rw [he, if_neg (by simp), if_neg (by simpa [imp_iff_not_or] using hfits)]
    refine succeeds_bind (completes_run (completes_reconcileCommittedCapacity h (h.subvolume.size_le_target he)
      fun rows hk _ => ?_))
    exact succeeds_growVolume (committedVolume host v q m) rfl rfl rfl hgluster hk hfinished.index he
  · have he : s.expansions.lookup q = none := Option.map_eq_none_iff.mp ht
    obtain rfl : m.size = t := hsize.symm.trans hcommitted
    rw [he, if_neg (by simp), if_neg (by simp)]
    refine succeeds_bind (completes_run (completes_reconcileCommittedCapacity h hsize.le fun rows hk hrow => ?_))
    dsimp only [resumeExpansion]
    rw [if_pos (show m.size ≤ (committedVolume host v q m).size from le_rfl)]
    refine succeeds_bind (succeeds_mono ?_
      (applySubdirQuota_spec (committedVolume host v q m) rfl rfl hgluster hk hsize.le fun h => by cases h).2)
    rintro _ s₁ ⟨rfl, hk₁, hres⟩
    refine succeeds_pure ⟨rfl, ?_⟩
    exact ⟨hres.size.trans hsize, (congrArg _ hres.rows).trans hrow, hres.quota, (congrArg _ hres.expansions).trans he⟩

end Request

/-! ## The RPC -/

section Rpc

variable {α : Type} {hosts : List HostVol} {w w' : World} {vol : Volume} {method : WorldProg (Reply α)} {ready missing : Bool}

/-- A condition that the method of an RPC keeps is kept by the RPC. -/
theorem inv_serializedExistingVolumeOperation {C : World → Prop}
    (hmethod : ∀ w, C w → method.inv C (fun _ w' => C w') w) (hw : C w) :
    (serializedExistingVolumeOperation hosts v ready missing method).inv C (fun _ w' => C w') w := by
  unfold serializedExistingVolumeOperation
  split
  · exact hmethod w hw
  refine inv_bind (inv_searchVolume hw fun o ho => ?_)
  cases o with
  | none => exact hmethod w hw
  | some vol =>
    refine inv_bind (inv_read hw fun observed _ => ?_)
    refine inv_tryCatch (inv_withLock hw (inv_mono (fun _ t ht => ⟨ht, ht⟩) ?_)) fun e t ht => ?_
    · refine inv_bind (inv_searchVolume hw fun o ho => ?_)
      cases o with
      | none => exact inv_ite (fun _ => inv_raise hw) fun _ => hmethod w hw
      | some locked =>
        refine inv_ite (fun _ => inv_raise hw) fun _ => ?_
        refine inv_bind (inv_read hw fun incarnation _ => ?_)
        exact inv_ite (fun _ => inv_raise hw) fun _ => hmethod w hw
    · cases e with
      | conflict msg => exact inv_ret ht
      | lockTimeout => exact inv_ret ht
      | _ => exact inv_raise ht

/-- Alone, an RPC on a volume that the search finds runs its method. -/
theorem succeeds_serializedExistingVolumeOperation {Q : Reply α → World → Prop}
    (hfind : findVolume hosts v w = .ok (some vol)) (hname : vol.volname = v) (h : method.succeeds Q w) :
    (serializedExistingVolumeOperation hosts v ready missing method).succeeds Q w := by
  unfold serializedExistingVolumeOperation
  split
  · exact h
  refine succeeds_bind ⟨some vol, by rw [run_searchVolume, hfind], ?_⟩
  rw [run_searchVolume]
  refine succeeds_bind (succeeds_read rfl ?_)
  refine succeeds_tryCatch (succeeds_withLock (succeeds_bind ⟨some vol, by rw [run_searchVolume, hname, hfind], ?_⟩))
  rw [run_searchVolume]
  dsimp only
  rw [if_neg (not_not.mpr rfl)]
  refine succeeds_bind (succeeds_read rfl ?_)
  rwa [if_neg (not_not.mpr rfl)]

omit [VolnameHash] in
theorem inv_translateStorageErrors {C : World → Prop} (h : method.inv C (fun _ w' => C w') w) :
    (translateStorageErrors method).inv C (fun _ w' => C w') w :=
  inv_tryCatch h fun _ _ ht => inv_ite (fun _ => inv_ret ht) fun _ => inv_raise ht

end Rpc

/-- `v` is committed at `q` in the shared pool `host`, and no other pool knows it. -/
structure Resides (hosts : List HostVol) (host : HostVol) (v : String) (q : Path) (w : World) : Prop where
  distinct : (hosts.map HostVol.name).Nodup
  mem : host ∈ hosts
  shared : host.singlePvPerPool = false
  elsewhere : ∀ other ∈ hosts, other.name ≠ host.name → Unreported v w other
  subvolume : Subvolume v q (w host.name)

namespace Resides

variable {hosts : List HostVol} {host : HostVol} {w : World} {m : Metadata}

theorem update (h : Resides hosts host v q w) (hs : Subvolume v q s) :
    Resides hosts host v q (Function.update w host.name s) where
  distinct := h.distinct
  mem := h.mem
  shared := h.shared
  elsewhere other hmem hne := by
    rw [Unreported, Function.update_of_ne hne]
    exact h.elsewhere other hmem hne
  subvolume := by rwa [Function.update_self]

/-- The search finds it. -/
theorem find (h : Resides hosts host v q w) (hm : (w host.name).metadata.lookup q = some m) :
    findVolume hosts v w = .ok (some (committedVolume host v q m)) := by
  obtain ⟨before, after, rfl⟩ := List.append_of_mem h.mem
  have hd := h.distinct
  simp only [List.map_append, List.map_cons, List.nodup_append, List.nodup_cons, List.mem_cons, List.mem_map] at hd
  obtain ⟨-, ⟨hafter, -⟩, hbefore⟩ := hd
  refine findVolume_some h.subvolume.valid ⟨before, after, rfl, ?_, fun other ho => ?_, fun other ho => ?_⟩
  · obtain ⟨m', hm', hown, hstate, -, hinc⟩ := h.subvolume.committed
    obtain rfl : m' = m := Option.some.inj (hm'.symm.trans hm)
    refine searchPool_active h.shared hm h.subvolume.path h.subvolume.alone ?_
    have hid : m'.volumeId.any (· ≠ v) = false := by
      cases hv : m'.volumeId with
      | none => rfl
      | some u => simpa [hv] using hown.id
    simp only [activeVolume, hstate, activeState, pure_eq_ok, ok_bind, hid, hinc]
    rfl
  · exact h.elsewhere other (by simp [ho]) fun he => hbefore _ ⟨other, ho, rfl⟩ _ (.inl rfl) he
  · exact h.elsewhere other (by simp [ho]) fun he => hafter ⟨other, ho, he⟩

end Resides

section Sequence

variable {hosts : List HostVol} {host : HostVol} {w w₀ : World} {m : Metadata} {range : CapacityRange} {requested : Int}
  {sshQuota : Bool}

/-- A condition that the request keeps on the pool of the volume. -/
theorem inv_expandVolume {C : World → Prop} (h : Resides hosts host v q w) (hm : (w host.name).metadata.lookup q = some m)
    (hw : C w) {range : Option CapacityRange}
    (hbody : ∀ r requested, range = some r → requestedCapacity (some r) = some requested →
      (expandExisting (committedVolume host v q m) requested sshQuota).inv (fun t => C (Function.update w host.name t))
        (fun _ t => C (Function.update w host.name t)) (w host.name)) :
    (expandVolume hosts v range sshQuota).inv C (fun _ w' => C w') w := by
  unfold expandVolume
  split
  · exact inv_ret hw
  · exact inv_ret hw
  · next r requested hr =>
    refine inv_ite (fun _ => inv_ret hw) fun _ => ?_
    refine inv_bind (inv_searchVolume hw fun o ho => ?_)
    obtain rfl : some (committedVolume host v q m) = o := Except.ok.inj ((h.find hm).symm.trans ho)
    dsimp only
    refine inv_ite (fun _ => inv_ret hw) fun _ => ?_
    refine inv_ite (fun _ => inv_ret hw) fun _ => ?_
    refine inv_ite (fun _ => inv_ret hw) fun _ => ?_
    refine inv_ite (fun _ => inv_ret hw) fun _ => ?_
    refine inv_ite (fun _ => inv_ret hw) fun _ => ?_
    refine inv_ite (fun _ => inv_ret hw) fun _ => ?_
    exact inv_focus (hbody r requested rfl hr)

/-- What a sequence of expansions keeps. -/
def Sequel (hosts : List HostVol) (host : HostVol) (sshQuota : Bool) (v : String) (q : Path) (s₀ : Pool) (w : World) : Prop :=
  Resides hosts host v q w ∧ Keeps (usesGlusterQuota host sshQuota) v q s₀ (w host.name)

theorem inv_controllerExpandVolume (h : Sequel hosts host sshQuota v q s₀ w) {range : Option CapacityRange} :
    (controllerExpandVolume hosts v range sshQuota).inv (Sequel hosts host sshQuota v q s₀)
      (fun _ w' => Sequel hosts host sshQuota v q s₀ w') w := by
  refine inv_translateStorageErrors (inv_serializedExistingVolumeOperation (fun w hw => ?_) h)
  obtain ⟨m, hm, -⟩ := hw.1.subvolume.committed
  refine inv_expandVolume hw.1 hm hw fun r requested _ _ => ?_
  have hsequel : ∀ t, Keeps (usesGlusterQuota host sshQuota) v q s₀ t →
      Sequel hosts host sshQuota v q s₀ (Function.update w host.name t) := fun t ht =>
    ⟨hw.1.update ht.subvolume, by rw [Function.update_self]; exact ht⟩
  exact inv_imp hsequel (fun _ => hsequel) (inv_expandExisting hm rfl hw.2)

omit [VolnameHash] in
theorem requestedCapacity_range (h : requestedCapacity (some range) = some requested) :
    validRange range = true ∧ (range.limitBytes = 0 ∨ requested ≤ range.limitBytes) := by
  obtain ⟨required, limit⟩ := range
  simp only [requestedCapacity] at h
  split at h
  · cases h
  split at h
  · cases h
  split at h
  · cases h
  obtain rfl := Option.some.inj h
  simp only [validRange, Bool.and_eq_true, Bool.or_eq_true, decide_eq_true_eq]
  constructor
  · omega
  · split <;> omega

/-- Alone, a request runs on the pool of the volume, unless its limit is below the committed size. -/
theorem succeeds_controllerExpandVolume {Q : Reply Int → World → Prop} (h : Resides hosts host v q w)
    (hm : (w host.name).metadata.lookup q = some m) (hr : requestedCapacity (some range) = some requested)
    (hbelow : range.limitBytes ≠ 0 ∧ range.limitBytes < m.size → Q (.status .outOfRange) w)
    (hbody : ¬(range.limitBytes ≠ 0 ∧ range.limitBytes < m.size) →
      (expandExisting (committedVolume host v q m) requested sshQuota).succeeds
        (fun r t => Q r (Function.update w host.name t)) (w host.name)) :
    (controllerExpandVolume hosts v (some range) sshQuota).succeeds Q w := by
  have hpos := h.subvolume.size_pos
  simp only [committedSize, hm, Option.map_some, Option.getD_some] at hpos
  refine succeeds_tryCatch (succeeds_serializedExistingVolumeOperation (h.find hm) rfl ?_)
  unfold expandVolume
  rw [hr]
  dsimp only
  rw [if_neg (by simp [h.subvolume.valid])]
  refine succeeds_bind ⟨_, by rw [run_searchVolume, h.find hm], ?_⟩
  rw [run_searchVolume]
  simp only [committedVolume, Option.isSome_none, Bool.false_eq_true, Bool.false_and, if_false, not_le.mpr hpos, and_false,
    ne_eq, not_true_eq_false]
  split
  · next hlim => exact succeeds_pure (hbelow hlim)
  · next hlim => exact succeeds_focus (hbody hlim)

/-- **Refusal.** Only the pending target is accepted. -/
theorem refuses_other (h : Resides hosts host v q w) (hr : requestedCapacity (some range) = some requested)
    (ht : pendingTarget (w host.name) q = some t) (hne : requested ≠ t) :
    (controllerExpandVolume hosts v (some range) sshQuota).run w = (.ok (.status
        (if range.limitBytes ≠ 0 ∧ range.limitBytes < committedSize (w host.name) q then .outOfRange
        else .failedPrecondition)), w) ∧
      ∀ w', (controllerExpandVolume hosts v (some range) sshQuota).Visits w w' → w' = w := by
  obtain ⟨e, he, rfl⟩ := Option.map_eq_some_iff.mp ht
  obtain ⟨m, hm, -⟩ := h.subvolume.committed
  have hsize : committedSize (w host.name) q = m.size := by simp [committedSize, hm]
  have hrefuse : (expandExisting (committedVolume host v q m) requested sshQuota).completes (· = w host.name)
      (fun r s' => r = .status .failedPrecondition ∧ s' = w host.name) (w host.name) :=
    completes_expandExisting_other h.subvolume he hne
  have hsame : ∀ t, t = w host.name → Function.update w host.name t = w := fun t ht => by
    rw [ht, Function.update_eq_self]
  constructor
  · obtain ⟨a, ha, rfl, hw⟩ : (controllerExpandVolume hosts v (some range) sshQuota).succeeds (fun r w' => r = .status
        (if range.limitBytes ≠ 0 ∧ range.limitBytes < committedSize (w host.name) q then .outOfRange
        else .failedPrecondition) ∧ w' = w) w := succeeds_controllerExpandVolume h hm hr
      (fun hlim => ⟨by rw [hsize, if_pos hlim], rfl⟩)
      fun hlim => succeeds_mono (fun r t ht => ⟨by rw [hsize, if_neg hlim]; exact ht.1, hsame t ht.2⟩) (completes_run hrefuse)
    exact Prod.ext ha hw
  · intro w' hw'
    refine inv_visits (C := (· = w)) rfl (inv_translateStorageErrors
      (inv_serializedExistingVolumeOperation (fun w₁ hw₁ => ?_) rfl)) hw'
    subst hw₁
    refine inv_expandVolume (C := (· = w₁)) h hm rfl fun r n hrange hn => ?_
    obtain rfl := Option.some.inj hrange
    obtain rfl : requested = n := Option.some.inj (hr.symm.trans hn)
    exact inv_imp hsame (fun _ t ht => hsame t ht.2) hrefuse.1

/-- **Resumption.** A request for the pending target settles the volume there, and so does one for the committed size when
nothing is pending. -/
theorem settles (h : Resides hosts host v q w) (hfinished : Finished v q (w host.name))
    (hr : requestedCapacity (some range) = some t)
    (ht : pendingTarget (w host.name) q = some t ∨
      pendingTarget (w host.name) q = none ∧ committedSize (w host.name) q = t) :
    (controllerExpandVolume hosts v (some range) sshQuota).succeeds (fun r w' => r = .ok t ∧
      Settled (usesGlusterQuota host sshQuota) v q t (w' host.name)) w := by
  obtain ⟨m, hm, -⟩ := h.subvolume.committed
  have hsize : committedSize (w host.name) q = m.size := by simp [committedSize, hm]
  have hle : m.size ≤ t := by
    rcases ht with ht | ⟨-, ht⟩
    · obtain ⟨e, he, rfl⟩ := Option.map_eq_some_iff.mp ht
      exact hsize ▸ h.subvolume.size_le_target he
    · exact (hsize.symm.trans ht).le
  refine succeeds_controllerExpandVolume h hm hr (fun hlim => ?_) fun _ => ?_
  · have := (requestedCapacity_range hr).2
    omega
  · refine succeeds_mono (fun r s' hs' => ?_)
      (succeeds_expandExisting hm rfl (.refl h.subvolume) hfinished ht)
    rw [Function.update_self]
    exact hs'

/-- The requests of one deployment to expand `v`. -/
def Expands (hosts : List HostVol) (v : String) (sshQuota : Bool) (p : WorldProg (Reply Int)) : Prop :=
  ∃ range, p = controllerExpandVolume hosts v range sshQuota

/-- **Expansions are monotone and resumable.** Along any sequence of requests to expand `v`, each of which may crash
anywhere, no size falls; while one is pending, a request for another size changes nothing; and where no create of `v` was left
in consistent files, a request for the pending size finishes it. -/
theorem expansions_resumable (h₀ : Resides hosts host v q w₀) (h : Attempts (Expands hosts v sshQuota) w₀ w) :
    (∀ w', Attempts (Expands hosts v sshQuota) w w' →
      Above (usesGlusterQuota host sshQuota) v q (w host.name) (w' host.name)) ∧
    (∀ range requested t, requestedCapacity (some range) = some requested → pendingTarget (w host.name) q = some t →
      requested ≠ t →
      (controllerExpandVolume hosts v (some range) sshQuota).run w = (.ok (.status
          (if range.limitBytes ≠ 0 ∧ range.limitBytes < committedSize (w host.name) q then .outOfRange
          else .failedPrecondition)), w) ∧
        ∀ w', (controllerExpandVolume hosts v (some range) sshQuota).Visits w w' → w' = w) ∧
    (Finished v q (w₀ host.name) → ∀ range t, requestedCapacity (some range) = some t →
      (pendingTarget (w host.name) q = some t ∨
        pendingTarget (w host.name) q = none ∧ committedSize (w host.name) q = t) →
      (controllerExpandVolume hosts v (some range) sshQuota).succeeds (fun r w' => r = .ok t ∧
        Settled (usesGlusterQuota host sshQuota) v q t (w' host.name)) w) := by
  have hsequel : ∀ {w₁ w₂ : World}, Resides hosts host v q w₁ → Attempts (Expands hosts v sshQuota) w₁ w₂ →
      Sequel hosts host sshQuota v q (w₁ host.name) w₂ := fun h₁ h₂ =>
    h₂.invariant (fun p ⟨range, hp⟩ w' hw' => ⟨_, hp ▸ inv_controllerExpandVolume hw'⟩) ⟨h₁, .refl h₁.subvolume⟩
  have hw := hsequel h₀ h
  exact ⟨fun w' hw' => (hsequel hw.1 hw').2.above, fun range requested t => refuses_other hw.1,
    fun hfinished range t => settles hw.1 (hw.2.finished hfinished)⟩

end Sequence

end

/-! ## A quota on an external cluster -/

attribute [local instance] sampleHash

/-- A pool on an external cluster. -/
def externalPool : HostVol := { name := "pool", type := "External" }

/-- The path of the created volume. -/
def createdPath : Path := ["subvol", "d3", "d3", "pvc-1"]

def createdMetadata : Metadata :=
  { size := 1000, pathPrefix := some ["subvol", "d3", "d3"], incarnation := some sampleEnv.intentUuid }

/-- A world with the volume at its path, and nothing pending in the pool. -/
theorem resides_of_created {w : World} (hmetadata : (w "pool").metadata.lookup createdPath = some createdMetadata)
    (halone : ∀ x ∈ allPaths "pvc-1", x.2 ≠ createdPath → (w "pool").metadata.lookup x.2 = none)
    (hrows : ∀ f ∈ (w "pool").rows.entries, 0 < f.2) (hcapacity : 0 < (w "pool").capacity)
    (hpayload : ((w "pool").payloads.lookup createdPath).isSome)
    (hexpansions : (w "pool").expansions.lookup createdPath = none) :
    Resides [externalPool] externalPool "pvc-1" createdPath w where
  distinct := by decide
  mem := List.mem_singleton_self _
  shared := rfl
  elsewhere other hmem hne := absurd (congrArg HostVol.name (List.mem_singleton.mp hmem)) hne
  subvolume := by
    have hpath : createdPath ∈ volumePaths .subvol "pvc-1" := by decide +kernel
    have hsize : committedSize (w "pool") createdPath = 1000 := by
      rw [committedSize, hmetadata]
      rfl
    refine ⟨fun u k hk => hrows ⟨u, k⟩ (AList.mem_lookup_iff.mp hk), hcapacity,
      ⟨createdMetadata, hmetadata, ⟨by decide +kernel, hpath, by decide, rfl⟩, rfl, rfl, by decide +kernel⟩, ?_,
      fun u p hp hne => halone (u, p) (mem_allPaths.mpr hp) hne, hpayload, fun e he => ?_⟩
    · show 0 < committedSize (w "pool") createdPath
      rw [hsize]
      decide
    · rw [show (w externalPool.name).expansions.lookup createdPath = none from hexpansions] at he
      cases he

theorem createdWorld_resides : Resides [externalPool] externalPool "pvc-1" createdPath createdWorld :=
  resides_of_created (by decide +kernel) (by decide +kernel) (by decide +kernel) (by decide +kernel) (by decide +kernel)
    (by decide +kernel)

theorem createdWorld_finished : Finished "pvc-1" createdPath (createdWorld "pool") where
  scannable := scan_ok_iff.mp ((ok_of_test (P := fun _ => True) (by decide +kernel)).imp fun _ h => h.1)
  created i hi := createdWorld_pending _ (.inl ⟨i, hi⟩)
  expanding p e he hv := absurd (.inr ⟨e, p, he, hv⟩) (createdWorld_pending "pvc-1")

/-- An expansion to 1010 bytes crashes after its reservation. -/
def pendingWorld : World :=
  (controllerExpandVolume [externalPool] "pvc-1" (some ⟨1010, 0⟩) true).after 9 createdWorld

theorem pendingWorld_attempts : Attempts (Expands [externalPool] "pvc-1" true) createdWorld pendingWorld :=
  .single ⟨_, ⟨some ⟨1010, 0⟩, rfl⟩, after_visits _ _ _⟩

/-- The retry of the crashed expansion. -/
theorem pendingWorld_settles : pendingTarget (pendingWorld "pool") createdPath = some 1010 ∧
    (controllerExpandVolume [externalPool] "pvc-1" (some ⟨1010, 0⟩) true).succeeds
      (fun r u => r = .ok 1010 ∧ Settled true "pvc-1" createdPath 1010 (u "pool")) pendingWorld :=
  have ht : pendingTarget (pendingWorld "pool") createdPath = some 1010 := by decide +kernel
  ⟨ht, (expansions_resumable createdWorld_resides pendingWorld_attempts).2.2 createdWorld_finished ⟨1010, 0⟩ 1010 rfl (.inl ht)⟩

/-- The create of the volume crashes before its intent is removed. -/
def leftWorld : World := sampleCreate.after 15 (emptyWorld 1500)

theorem leftWorld_resides : Resides [externalPool] externalPool "pvc-1" createdPath leftWorld :=
  resides_of_created (by decide +kernel) (by decide +kernel) (by decide +kernel) (by decide +kernel) (by decide +kernel)
    (by decide +kernel)

/-- An expansion to 1010 bytes crashes after its metadata. -/
def stuckWorld : World := (controllerExpandVolume [externalPool] "pvc-1" (some ⟨1010, 0⟩) true).after 12 leftWorld

theorem stuckWorld_attempts : Attempts (Expands [externalPool] "pvc-1" true) leftWorld stuckWorld :=
  .single ⟨_, ⟨some ⟨1010, 0⟩, rfl⟩, after_visits _ _ _⟩

/-- The external cluster is left with 959.5 bytes for a volume of 1010; a request below the committed size is not refused for
the pending expansion; and where a create intent was left the retry fails, as the scan finds another size than that of the
intent. -/
theorem expansion_unsettled :
    (Resides [externalPool] externalPool "pvc-1" createdPath createdWorld ∧
      Attempts (Expands [externalPool] "pvc-1" true) createdWorld pendingWorld ∧
      pendingTarget (pendingWorld "pool") createdPath = some 1010 ∧
      (controllerExpandVolume [externalPool] "pvc-1" (some ⟨1010, 0⟩) true).succeeds (fun r u => r = .ok 1010 ∧
        appliedGlusterQuota (u "pool") createdPath < 100 * committedSize (createdWorld "pool") createdPath) pendingWorld ∧
      ((controllerExpandVolume [externalPool] "pvc-1" (some ⟨900, 950⟩) true).run pendingWorld).1 = .ok (.status .outOfRange)) ∧
    Resides [externalPool] externalPool "pvc-1" createdPath leftWorld ∧
      Attempts (Expands [externalPool] "pvc-1" true) leftWorld stuckWorld ∧
      pendingTarget (stuckWorld "pool") createdPath = some 1010 ∧
      ((controllerExpandVolume [externalPool] "pvc-1" (some ⟨1010, 0⟩) true).run stuckWorld).1 = .ok (.status .internal) ∧
      pendingTarget (((controllerExpandVolume [externalPool] "pvc-1" (some ⟨1010, 0⟩) true).run stuckWorld).2 "pool")
        createdPath = some 1010 := by
  refine ⟨⟨createdWorld_resides, pendingWorld_attempts, by decide +kernel, ?_, by decide +kernel⟩, leftWorld_resides,
    stuckWorld_attempts, by decide +kernel, by decide +kernel, by decide +kernel⟩
  exact ⟨.ok 1010, by decide +kernel, by decide +kernel⟩

end Kadalu
