import Kadalu.Volume.Archives

/-!
# The cleanup tool spares live volumes

Whatever the pool holds, the tool leaves the files at the paths of a volume alone, and the row of a volume whose metadata is
there (`cleanup_spares`). The reservation of a volume that is about to be archived may move to the row of its archive.
-/

namespace Kadalu

open Durable Durable.Prog Except

section

variable [VolnameHash] {t : PvType} {v : String} {p q : Path} {m : Metadata} {s s' s₀ : Pool} {a : ArchiveDetails}

/-- Active metadata of `v`: plain, of an unfinished delete, or prepared for an archive. -/
structure ActiveForm (v : String) (q : Path) (m : Metadata) : Prop where
  id : m.volumeId.getD q.basename = v
  state : m.state = none ∨ m.state = some .deleting ∨ m.state = some .archiving

/-- The index has a row for the volume, or for the archive that it is about to become. -/
def Accounted (v : String) (m : Metadata) (s : Pool) : Prop :=
  (s.rows.lookup v).isSome ∨ m.state = some .archiving ∧ ∃ n, m.archiveName = some n ∧ (s.rows.lookup n).isSome

/-- The record of active metadata is not gone while its payload is there; only an archive in preparation reserves under
another name than the volume. -/
theorem capacityRecord_activeForm (hv : isValidCsiIdentifier v = true) (hq : q ∈ volumePaths t v) (h : ActiveForm v q m)
    (hp : (s.payloads.lookup q).isSome) {r : CapacityRecord} (hr : capacityRecord s.payloads q m = .ok r) :
    r.gone = false ∧ (r.id = v ∨ m.state = some .archiving ∧ m.archiveName = some r.id) := by
  have hgone : r.gone = false := by
    by_contra hg
    rw [Bool.not_eq_false] at hg
    have hnone := (capacityRecord_gone hr hg).2.1
    rw [hnone] at hp
    cases hp
  refine ⟨hgone, ?_⟩
  simp only [capacityRecord, throw_eq_error, ite_error_ok, bind_ok, pure_eq_ok, Except.ok.injEq] at hr
  obtain ⟨-, ⟨id, al⟩, hid, gone, -, rfl⟩ := hr
  cases hname : m.archiveName with
  | none =>
    have hstate : m.state ≠ some .reclaiming := by rcases h.state with hs | hs | hs <;> simp [hs]
    rw [capacityRecordIdentity_own ⟨hv, hq, h.id, hname⟩ hstate] at hid
    cases hid
    exact .inl rfl
  | some n =>
    right
    rw [capacityRecordIdentity, hname] at hid
    dsimp only at hid
    split at hid
    · cases hid
    rename_i n' o hident
    obtain rfl : n = n' := Option.some.inj (hname.symm.trans (archiveIdentity_some hident).1)
    rw [throw_eq_error, ite_error_ok] at hid
    obtain ⟨hstate, hid⟩ := hid
    have harchiving : m.state = some .archiving := by
      rcases h.state with hs | hs | hs
      · exact absurd ⟨by simp [hs], by simp [hs], by simp [hs]⟩ hstate
      · exact absurd ⟨by simp [hs], by simp [hs], by simp [hs]⟩ hstate
      · exact hs
    refine ⟨harchiving, ?_⟩
    obtain ⟨o, -, hid⟩ := bind_ok.mp hid
    cases o with
    | some _ =>
      cases hid
      rfl
    | none =>
      dsimp only at hid
      rw [if_neg (not_not.mpr harchiving)] at hid
      obtain ⟨ts, -, hid⟩ := bind_ok.mp hid
      obtain ⟨b, -, hid⟩ := bind_ok.mp hid
      cases b with
      | true =>
        cases hid
        rfl
      | false => cases hid

/-- What the tool keeps of a volume. -/
structure Spares (v : String) (q : Path) (s₀ s : Pool) : Prop where
  metadata : s.metadata.lookup q = s₀.metadata.lookup q
  payload : s.payloads.lookup q = s₀.payloads.lookup q
  creations : s.creations = s₀.creations
  expansions : s.expansions = s₀.expansions
  row : ∀ m, s₀.metadata.lookup q = some m → ActiveForm v q m → (s₀.payloads.lookup q).isSome → Accounted v m s₀ →
    Accounted v m s

omit [VolnameHash] in
theorem Spares.refl (v : String) (q : Path) (s : Pool) : Spares v q s s := ⟨rfl, rfl, rfl, rfl, fun _ _ _ _ h => h⟩

/-- The row that is released is not the one of another file. -/
theorem release_accounted (hv : isValidCsiIdentifier v = true) (hq : q ∈ volumePaths t v)
    (hm : s.metadata.lookup q = some m) (h : ActiveForm v q m) (hp : (s.payloads.lookup q).isSome)
    (ha : Reclaiming a p s) (hs' : releaseArchivedPvReservation s a.archiveName = .ok s') : Accounted v m s' := by
  obtain ⟨s₁, h₁, rfl, -⟩ := releaseArchivedPvReservation_ok hs'
  obtain ⟨out, rows, hscan, rfl, hrows⟩ := rebuild_rows h₁
  have hscannable := scan_ok_iff.mp ⟨out, hscan⟩
  obtain ⟨r, hr⟩ := hscannable.records q m hm
  obtain ⟨hgone, hid⟩ := capacityRecord_activeForm hv hq h hp hr
  obtain ⟨k, hk⟩ := scan_reserves_committed hscan ⟨q, r, ⟨m, hm, hr⟩, hgone, rfl, rfl⟩
  -- the tombstone of the archive has a record of its own
  have hne : r.id ≠ a.archiveName := by
    intro he
    obtain ⟨m', hm', ha', -⟩ := ha
    obtain ⟨r', hr'⟩ := hscannable.records p m' hm'
    have hr'id : r'.id = a.archiveName := by
      simp only [capacityRecord, throw_eq_error, ite_error_ok, bind_ok, pure_eq_ok, Except.ok.injEq,
        archive_identity ha'] at hr'
      obtain ⟨-, _, rfl, _, -, rfl⟩ := hr'
      rfl
    obtain rfl := hscannable.record_inj p q r' r ⟨m', hm', hr'⟩ ⟨m, hm, hr⟩ (hr'id.trans he.symm)
    exact archive_not_volumePath ha' hq
  have hrow : ((removePvRecord { s with rows } a.archiveName).rows.lookup r.id).isSome := by
    rw [removePvRecord, AList.lookup_erase_ne hne, hrows _ _ hk]
    rfl
  rcases hid with hid | ⟨hstate, hname⟩
  · exact .inl (hid ▸ hrow)
  · exact .inr ⟨hstate, r.id, hname, hrow⟩

theorem cleanup_spares_step (hv : isValidCsiIdentifier v = true) (hq : q ∈ volumePaths t v) :
    Cleanup (Spares v q s₀) where
  tombstone := by
    intro s p m a hs hm ha
    have hne : q ≠ p := fun he => archive_not_volumePath ha (he ▸ hq)
    exact ⟨(AList.lookup_insert_ne hne).trans hs.metadata, hs.payload, hs.creations, hs.expansions, hs.row⟩
  payload := by
    intro s p a payloads hs ⟨m, hm, ha, _⟩ hoff _
    have hne : q ≠ p := fun he => archive_not_volumePath ha (he ▸ hq)
    exact ⟨hs.metadata, (hoff q hne).trans hs.payload, hs.creations, hs.expansions, hs.row⟩
  release := by
    intro s s' p a hs ha _ hs'
    obtain ⟨-, -, -, rows, rfl⟩ := releaseArchivedPvReservation_ok hs'
    refine ⟨hs.metadata, hs.payload, hs.creations, hs.expansions, fun m hm hform hp _ => ?_⟩
    exact release_accounted hv hq (hs.metadata.trans hm) hform (hs.payload ▸ hp) ha hs'
  unlink := by
    intro s s' p a _ ⟨m, hm, ha, _⟩ _ _ hs
    have hne : q ≠ p := fun he => archive_not_volumePath ha (he ▸ hq)
    exact ⟨(AList.lookup_erase_ne hne).trans hs.metadata, hs.payload, hs.creations, hs.expansions, hs.row⟩

/-- The runs of the tool. -/
def Cleans (p : PoolProg Unit) : Prop := ∃ c, p = removeArchivedPv c

/-- **Live volumes are spared.** -/
theorem cleanup_spares (hv : isValidCsiIdentifier v = true) (hq : q ∈ volumePaths t v) (h : Attempts Cleans s₀ s) :
    Spares v q s₀ s :=
  h.invariant (fun _ ⟨c, hp⟩ _ hs => ⟨_, hp ▸ inv_removeArchivedPv (cleanup_spares_step hv hq) hs c⟩) (.refl v q s₀)

end

/-! ## An archive in preparation -/

attribute [local instance] sampleHash

/-- A volume whose archive is being prepared, beside a complete archive. -/
def preparedPool : Pool :=
  { metadata := (∅ : Table Metadata).insert ["archive", "archived-pvc-2"]
        { size := 10, pathPrefix := some ["archive"], archiveName := some "archived-pvc-2",
          originalVolumeId := some "pvc-2", state := some .archived }
      |>.insert ["subvol", "d3", "d3", "pvc-1"]
        { size := 1000, pathPrefix := some ["subvol", "d3", "d3"], archiveName := some "archived-pvc-1",
          originalVolumeId := some "pvc-1", state := some .archiving, pvtype := some "subvol" }
    payloads := (∅ : Table Payload).insert ["subvol", "d3", "d3", "pvc-1"] { isDir := true, quota := some 1000 }
    rows := (∅ : Rows).insert "pvc-1" 1000 |>.insert "archived-pvc-2" 10
    capacity := 1500 }

def cleanedPool : Pool := ((removeArchivedPv none).run preparedPool).2

theorem cleanedPool_attempts : Attempts Cleans preparedPool cleanedPool := .single ⟨_, ⟨none, rfl⟩, run_visits _ _⟩

theorem cleanedPool_spares : Spares "pvc-1" ["subvol", "d3", "d3", "pvc-1"] preparedPool cleanedPool :=
  cleanup_spares (t := .subvol) (by decide +kernel) (by decide +kernel) cleanedPool_attempts

/-- The row of the volume moves to its archive. -/
theorem archiving_row_moves : isValidCsiIdentifier "pvc-1" = true ∧
    ["subvol", "d3", "d3", "pvc-1"] ∈ volumePaths .subvol "pvc-1" ∧
    (∃ m, preparedPool.metadata.lookup ["subvol", "d3", "d3", "pvc-1"] = some m ∧
      ActiveForm "pvc-1" ["subvol", "d3", "d3", "pvc-1"] m ∧ m.state = some .archiving) ∧
    (preparedPool.payloads.lookup ["subvol", "d3", "d3", "pvc-1"]).isSome ∧
    preparedPool.rows.lookup "pvc-1" = some 1000 ∧ Attempts Cleans preparedPool cleanedPool ∧
    cleanedPool.rows.lookup "pvc-1" = none ∧ cleanedPool.rows.lookup "archived-pvc-1" = some 1000 := by
  refine ⟨by decide +kernel, by decide +kernel, ⟨_, rfl, ⟨rfl, .inr (.inr rfl)⟩, rfl⟩, by decide +kernel, by decide +kernel,
    cleanedPool_attempts, by decide +kernel, by decide +kernel⟩

end Kadalu
