import Kadalu.Volume.Cleanup

/-!
# Archives of old releases

An old release left the archive of `x` beside its volume, as `archived-x`, with the accounting under `x`. In a coherent
pool such an archive is accounted for and can be removed (`legacyArchive_managed`), unless its name is no valid ID or `x`
begins with the prefix of encoded names: the original path is derived in the new layout only.
-/

namespace Kadalu

open Durable Durable.Prog Except

section

variable [VolnameHash] {t : PvType} {v x u : String} {p q : Path} {m : Metadata} {s s' s₀ : Pool} {a : ArchiveDetails} {n : Int}

/-! ## Coherent pools -/

/-- The pool scans and lists, and its intents fit even what a tombstone would hide from the scan. -/
structure Coherent (s : Pool) : Prop where
  scannable : Scannable s
  creation_fits : ∀ v i n, Creating s v i → Committed s v n → n = i.size
  expansion_fits : ∀ v e n, Expanding s v e → BaseSize s v n → n = e.fromSize ∨ n = e.toSize
  archives : ∀ p m, s.metadata.lookup p = some m → ∃ o, archiveMetadataDetails p m = .ok o
  indexed : Indexed s

/-- The name `u` stands for nothing in the pool. -/
def Free (u : String) (s : Pool) : Prop := (∀ p r, Record s p r → r.id ≠ u) ∧ ¬Pending s u

/-- The metadata file at `p` is what it was, but perhaps gone. -/
structure Descends (s s' : Pool) (p : Path) (m' : Metadata) : Prop where
  record : ∃ r r', Record s p r ∧ capacityRecord s'.payloads p m' = .ok r' ∧ r'.id = r.id ∧ r'.size = r.size ∧
    (r.gone = true → r'.gone = true)
  archive : ∃ o, archiveMetadataDetails p m' = .ok o

/-- A pool stays coherent when its files only go. -/
theorem Coherent.descend (h : Coherent s) (hcre : s'.creations = s.creations) (hexp : s'.expansions = s.expansions)
    (hi : Indexed s') (hm : ∀ p m', s'.metadata.lookup p = some m' → Descends s s' p m') : Coherent s' := by
  have hrecord : ∀ {p r'}, Record s' p r' → ∃ r, Record s p r ∧ r'.id = r.id ∧ r'.size = r.size ∧
      (r.gone = true → r'.gone = true) := by
    rintro p r' ⟨m', hm', hr'⟩
    obtain ⟨r, r'', hr, hr'', hid, hsize, hgone⟩ := (hm p m' hm').record
    cases hr'.symm.trans hr''
    exact ⟨r, hr, hid, hsize, hgone⟩
  have hcommitted : ∀ {v n}, Committed s' v n → Committed s v n := by
    rintro v n ⟨p, r', hr', hgone', rfl, rfl⟩
    obtain ⟨r, hr, hid, hsize, hgone⟩ := hrecord hr'
    refine ⟨p, r, hr, ?_, hid.symm, hsize.symm⟩
    by_contra hg
    rw [hgone (by simpa using hg)] at hgone'
    cases hgone'
  have hcreating : ∀ {v i}, Creating s' v i → Creating s v i := fun ⟨p, hp, hv⟩ => ⟨p, hcre ▸ hp, hv⟩
  have hexpanding : ∀ {v e}, Expanding s' v e → Expanding s v e := fun ⟨p, hp, hv⟩ => ⟨p, hexp ▸ hp, hv⟩
  have hcfits : ∀ v i n, Creating s' v i → Committed s' v n → n = i.size := fun v i n hv hn =>
    h.creation_fits v i n (hcreating hv) (hcommitted hn)
  have hefits : ∀ v e n, Expanding s' v e → BaseSize s' v n → n = e.fromSize ∨ n = e.toSize := fun v e n hv hn =>
    h.expansion_fits v e n (hexpanding hv) (hn.imp (fun ⟨i, hi, he⟩ => ⟨i, hcreating hi, he⟩) hcommitted)
  refine ⟨⟨fun p m' hm' => ?_, fun p q r r' hr hr' he => ?_, ?_, ?_, ?_, ?_, fun v i n hv _ => hcfits v i n hv,
    fun v e n hv _ => hefits v e n hv⟩, hcfits, hefits, fun p m' hm' => (hm p m' hm').archive, hi⟩
  · obtain ⟨-, r', -, hr', -⟩ := (hm p m' hm').record
    exact ⟨r', hr'⟩
  · obtain ⟨r₁, hr₁, hid₁, -⟩ := hrecord hr
    obtain ⟨r₂, hr₂, hid₂, -⟩ := hrecord hr'
    exact h.scannable.record_inj p q r₁ r₂ hr₁ hr₂ (by rw [← hid₁, ← hid₂, he])
  · rw [hcre]; exact h.scannable.creations
  · rw [hcre]; exact h.scannable.creation_inj
  · rw [hexp]; exact h.scannable.expansions
  · rw [hexp]; exact h.scannable.expansion_inj

/-- Names stay free. -/
theorem Free.descend (h : Free u s) (hcre : s'.creations = s.creations) (hexp : s'.expansions = s.expansions)
    (hm : ∀ p m', s'.metadata.lookup p = some m' → Descends s s' p m') : Free u s' := by
  refine ⟨fun p r' ⟨m', hm', hr'⟩ he => ?_, ?_⟩
  · obtain ⟨r, r'', hr, hr'', hid, -⟩ := (hm p m' hm').record
    cases hr'.symm.trans hr''
    exact h.1 p r hr (hid.symm.trans he)
  · rintro (⟨i, q, hi, hv⟩ | ⟨e, q, he, hv⟩)
    · exact h.2 (.inl ⟨i, q, hcre ▸ hi, hv⟩)
    · exact h.2 (.inr ⟨e, q, hexp ▸ he, hv⟩)

/-- A free name is not reserved. -/
theorem Free.unreserved (h : Free u s) {out : CapacityRecords} (hout : capacityMetadataRecords s = .ok out) :
    out.reservations.lookup u = none := by
  by_contra hn
  obtain ⟨k, hk⟩ := Option.ne_none_iff_exists'.mp hn
  rcases (scan_reservations hout).mp hk with ⟨-, e, he, -⟩ | ⟨-, -, i, hi, -⟩ | ⟨-, p, r, hr, -, hid, -⟩
  · exact h.2 (.inr ⟨e, he⟩)
  · exact h.2 (.inl ⟨i, hi⟩)
  · exact h.1 p r hr hid

/-- A file that has not changed, with the payload at its path. -/
theorem Coherent.same (h : Coherent s) (hm : s.metadata.lookup p = some m)
    (hp : s'.payloads.lookup p = s.payloads.lookup p) : Descends s s' p m := by
  obtain ⟨r, hr⟩ := h.scannable.records p m hm
  exact ⟨⟨r, r, ⟨m, hm, hr⟩, (capacityRecord_congr hp).trans hr, rfl, rfl, id⟩, h.archives p m hm⟩

/-- The record of an archive. -/
theorem capacityRecord_archived {payloads : Table Payload} (h : archiveMetadataDetails p m = .ok (some a)) (hn : 0 < m.size) :
    capacityRecord payloads p m = .ok ⟨a.archiveName, some a.originalVolumeId, m.size,
      decide (m.state = some .reclaiming) && !payloadExists payloads p⟩ := by
  have hdeleting : m.state ≠ some .deleting := by
    rcases archive_cases h with ⟨t, x, hl, rfl⟩ | hf
    · rcases hl.form.state with hs | ⟨hs, -⟩ <;> simp [hs]
    · rcases hf.state with hs | hs | hs <;> simp [hs]
  rw [capacityRecord, if_neg (Int.not_le.mpr hn), archive_identity h, ok_bind]
  dsimp only
  by_cases hs : m.state = some .reclaiming
  · rw [payloadIsGone, if_pos (.inr hs), deleteTombstonePayloadPath, if_pos hs, h]
    simp [hs, (archive_path h).2]
  · rw [payloadIsGone, if_neg (by simp [Metadata.IsTombstone, hs, hdeleting])]
    simp [hs]

/-! ## The steps of the tool -/

theorem record_size_pos (h : Scannable s) (hm : s.metadata.lookup p = some m) : 0 < m.size := by
  obtain ⟨r, hr⟩ := h.records p m hm
  rw [capacityRecord, throw_eq_error, ite_error_ok] at hr
  exact Int.not_le.mp hr.1

/-- An archive stays the same archive: its tombstone, and its payload as it goes. -/
theorem archive_descends {payloads : Table Payload} {m' : Metadata} (hn : 0 < m.size) (hm : s.metadata.lookup p = some m)
    (ha : archiveMetadataDetails p m = .ok (some a)) (ha' : archiveMetadataDetails p m' = .ok (some a))
    (hsize : m'.size = m.size) (hstate : m.state = some .reclaiming → m'.state = some .reclaiming)
    (hp : (payloads.lookup p).isSome → (s.payloads.lookup p).isSome) (hs' : s'.payloads = payloads) :
    Descends s s' p m' := by
  refine ⟨⟨_, _, ⟨m, hm, capacityRecord_archived ha hn⟩, capacityRecord_archived ha' (hsize ▸ hn), rfl, hsize, ?_⟩, _, ha'⟩
  simp only [Bool.and_eq_true, decide_eq_true_eq, Bool.not_eq_true', payloadExists, hs']
  rintro ⟨hs, hnone⟩
  refine ⟨hstate hs, ?_⟩
  cases hpay : payloads.lookup p with
  | none => rfl
  | some payload =>
    rw [hp (by rw [hpay]; rfl)] at hnone
    cases hnone

theorem Coherent.tombstone (h : Coherent s) (hm : s.metadata.lookup p = some m)
    (ha : archiveMetadataDetails p m = .ok (some a)) :
    ∀ q m', (s.metadata.insert p (reclaimingMetadata a.archiveName a (listedMetadata a m))).lookup q = some m' →
      Descends s { s with metadata := s.metadata.insert p (reclaimingMetadata a.archiveName a (listedMetadata a m)) } q m' := by
  intro q m' hm'
  by_cases hq : q = p
  · subst hq
    rw [AList.lookup_insert] at hm'
    cases hm'
    exact archive_descends (record_size_pos h.scannable hm) hm ha (archive_tombstone ha) rfl (fun _ => rfl) id rfl
  · rw [AList.lookup_insert_ne hq] at hm'
    exact h.same hm' rfl

theorem Coherent.payloads (h : Coherent s) (ha : Reclaiming a p s) {payloads : Table Payload}
    (hoff : ∀ q, q ≠ p → payloads.lookup q = s.payloads.lookup q)
    (hsub : (payloads.lookup p).isSome → (s.payloads.lookup p).isSome) :
    ∀ q m', s.metadata.lookup q = some m' → Descends s { s with payloads } q m' := by
  intro q m' hm'
  by_cases hq : q = p
  · subst hq
    obtain ⟨m, hm, ha, -⟩ := ha
    obtain rfl : m = m' := Option.some.inj (hm.symm.trans hm')
    exact archive_descends (record_size_pos h.scannable hm) hm ha ha rfl id hsub rfl
  · exact h.same hm' (hoff q hq)

theorem Coherent.erase (h : Coherent s) :
    ∀ q m', (s.metadata.erase p).lookup q = some m' → Descends s { s with metadata := s.metadata.erase p } q m' := by
  intro q m' hm'
  by_cases hq : q = p
  · subst hq
    rw [AList.lookup_erase] at hm'
    cases hm'
  · rw [AList.lookup_erase_ne hq] at hm'
    exact h.same hm' rfl

/-- What a release leaves of the rows: the archive has none, nor has a free name that had none before or is its alias. -/
theorem release_rows (h : Coherent s) (ha : Reclaiming a p s) (hp : s.payloads.lookup p = none)
    (hs' : releaseArchivedPvReservation s a.archiveName = .ok s') :
    Indexed s' ∧ s'.rows.lookup a.archiveName = none ∧
      ∀ u, Free u s → s.rows.lookup u = none ∨ u = a.originalVolumeId → s'.rows.lookup u = none := by
  obtain ⟨s₁, h₁, rfl, -⟩ := releaseArchivedPvReservation_ok hs'
  refine ⟨(rebuild_indexed h₁ h.indexed).erase, AList.lookup_erase _ _, fun u hu hrow => ?_⟩
  obtain ⟨out, hout⟩ := scan_ok_iff.mpr h.scannable
  have hfree : u ∉ out.reservations := AList.lookup_eq_none.mp (hu.unreserved hout)
  have hrow₁ : s₁.rows.lookup u = none := by
    refine rebuild_unreserved h₁ hout hfree (hrow.imp id fun he => ?_)
    obtain ⟨m, hm, ha, hstate⟩ := ha
    refine (scan_tombstones hout).mpr ⟨p, _, ⟨m, hm, capacityRecord_archived ha (record_size_pos h.scannable hm)⟩, ?_,
      .inr (congrArg some he.symm)⟩
    simp [hstate, payloadExists, hp]
  by_cases hua : u = a.archiveName
  · rw [hua]
    exact AList.lookup_erase _ _
  · exact (AList.lookup_erase_ne hua).trans hrow₁

/-! ## One legacy archive -/

/-- The archive of `x` is gone with its row; and with its old row, if the pool `s₀` had no other use for `x`. -/
structure Removed (s₀ : Pool) (x : String) (p : Path) (s : Pool) : Prop where
  metadata : s.metadata.lookup p = none
  payload : s.payloads.lookup p = none
  row : s.rows.lookup (ARCHIVE_PREFIX ++ x) = none
  oldRow : Free x s₀ → s.rows.lookup x = none

/-- The archive of `x` at `p` in a coherent pool, until it is removed. -/
structure Stage (s₀ : Pool) (t : PvType) (x : String) (p : Path) (s : Pool) : Prop where
  coherent : Coherent s
  unpending : ¬Pending s (ARCHIVE_PREFIX ++ x)
  original : Free x s₀ → Free x s
  stage : (∃ m, s.metadata.lookup p = some m ∧ LegacyAt t x p m) ∨ Removed s₀ x p s ∧ Free (ARCHIVE_PREFIX ++ x) s

theorem LegacyAt.tombstone (h : LegacyAt t x p m) :
    LegacyAt t x p (reclaimingMetadata (ARCHIVE_PREFIX ++ x) (legacyDetails x p) (listedMetadata (legacyDetails x p) m)) :=
  ⟨⟨rfl, .inr ⟨rfl, rfl, rfl⟩⟩, h.safe, h.valid, h.apart, h.dir, h.path⟩

theorem LegacyAt.unique (h : LegacyAt t x p m) (ha : archiveMetadataDetails p m = .ok (some a)) : a = legacyDetails x p := by
  cases h.archive.symm.trans ha
  rfl

theorem Removed.ne (h : Removed s₀ x p s) (ha : Reclaiming a q s) : p ≠ q := by
  rintro rfl
  obtain ⟨m, hm, -⟩ := ha
  cases h.metadata.symm.trans hm

theorem stage_cleanup : Cleanup (Stage s₀ t x p) where
  tombstone := by
    intro s p' m a hs hm ha
    have hd := hs.coherent.tombstone hm ha
    refine ⟨hs.coherent.descend rfl rfl hs.coherent.indexed hd, hs.unpending, fun hx => (hs.original hx).descend rfl rfl hd, ?_⟩
    rcases hs.stage with ⟨m₀, hm₀, hl⟩ | ⟨hr, hfree⟩
    · left
      by_cases hp : p = p'
      · subst hp
        obtain rfl : m₀ = m := Option.some.inj (hm₀.symm.trans hm)
        obtain rfl := hl.unique ha
        exact ⟨_, AList.lookup_insert _, hl.tombstone⟩
      · exact ⟨m₀, (AList.lookup_insert_ne hp).trans hm₀, hl⟩
    · have hp : p ≠ p' := by
        rintro rfl
        cases hr.metadata.symm.trans hm
      exact .inr ⟨⟨(AList.lookup_insert_ne hp).trans hr.metadata, hr.payload, hr.row, hr.oldRow⟩, hfree.descend rfl rfl hd⟩
  payload := by
    intro s p' a payloads hs ha hoff hsub
    have hd := hs.coherent.payloads ha hoff hsub
    refine ⟨hs.coherent.descend rfl rfl hs.coherent.indexed hd, hs.unpending, fun hx => (hs.original hx).descend rfl rfl hd, ?_⟩
    rcases hs.stage with hl | ⟨hr, hfree⟩
    · exact .inl hl
    · exact .inr ⟨⟨hr.metadata, (hoff p (hr.ne ha)).trans hr.payload, hr.row, hr.oldRow⟩, hfree.descend rfl rfl hd⟩
  release := by
    intro s s' p' a hs ha hp hs'
    obtain ⟨hindexed, -, hrow⟩ := release_rows hs.coherent ha hp hs'
    obtain ⟨-, -, -, rows, rfl⟩ := releaseArchivedPvReservation_ok hs'
    have hd : ∀ q m', s.metadata.lookup q = some m' → Descends s { s with rows } q m' := fun q m' hm' =>
      hs.coherent.same hm' rfl
    refine ⟨hs.coherent.descend rfl rfl hindexed hd, hs.unpending, fun hx => (hs.original hx).descend rfl rfl hd, ?_⟩
    rcases hs.stage with hl | ⟨hr, hfree⟩
    · exact .inl hl
    · exact .inr ⟨⟨hr.metadata, hr.payload, hrow _ hfree (.inl hr.row), fun hx => hrow _ (hs.original hx) (.inl (hr.oldRow hx))⟩,
        hfree.descend rfl rfl hd⟩
  unlink := by
    intro s₁ s p' a hs₁ ha hp hrelease hs
    obtain ⟨-, hrow, hrows⟩ := release_rows hs₁.coherent ha hp hrelease
    obtain ⟨-, -, -, rows, rfl⟩ := releaseArchivedPvReservation_ok hrelease
    have hd := hs.coherent.erase (p := p')
    refine ⟨hs.coherent.descend rfl rfl hs.coherent.indexed hd, hs.unpending, fun hx => (hs.original hx).descend rfl rfl hd, ?_⟩
    rcases hs.stage with ⟨m₀, hm₀, hl⟩ | ⟨hr, hfree⟩
    · by_cases hpp : p = p'
      · subst hpp
        obtain ⟨m, hm, ham, -⟩ := ha
        obtain rfl : m₀ = m := Option.some.inj (hm₀.symm.trans hm)
        obtain rfl := hl.unique ham
        refine .inr ⟨⟨AList.lookup_erase _ _, hp, hrow, fun hx => hrows x (hs₁.original hx) (.inr rfl)⟩, fun q r hr he => ?_,
          hs.unpending⟩
        -- only the archive itself has its name
        obtain ⟨m, hm, hr⟩ := hr
        have hq : q ≠ p := by
          rintro rfl
          rw [AList.lookup_erase] at hm
          cases hm
        rw [AList.lookup_erase_ne hq] at hm
        exact hq (hs.coherent.scannable.record_inj q p r _ ⟨m, hm, hr⟩ ⟨m₀, hm₀, capacityRecord_archived ham
          (record_size_pos hs.coherent.scannable hm₀)⟩ he)
      · exact .inl ⟨m₀, (AList.lookup_erase_ne hpp).trans hm₀, hl⟩
    · have hpp : p ≠ p' := hr.ne (ha.of_metadata rfl)
      exact .inr ⟨⟨(AList.lookup_erase_ne hpp).trans hr.metadata, hr.payload, hr.row, hr.oldRow⟩, hfree.descend rfl rfl hd⟩

/-! ## Complete runs -/

theorem completes_reclaim (h : Coherent s) (ha : Reclaiming a p s) :
    (do
      removePayload p fun _ => false
      releaseArchivedPvReservationStep a.archiveName
      unlinkMetadata p : PoolProg Unit).completes (fun _ => True) (fun _ _ => True) s := by
  have hrest : ∀ {payloads : Table Payload}, (∀ q, q ≠ p → payloads.lookup q = s.payloads.lookup q) →
      ((payloads.lookup p).isSome → (s.payloads.lookup p).isSome) →
      (do
        releaseArchivedPvReservationStep a.archiveName
        unlinkMetadata p : PoolProg Unit).completes (fun _ => True) (fun _ _ => True) { s with payloads } := by
    intro payloads hoff hsub
    have hs : Coherent { s with payloads } := h.descend rfl rfl h.indexed (h.payloads ha hoff hsub)
    obtain ⟨s₁, h₁, -⟩ := rebuild_total hs.scannable hs.indexed
    refine completes_bind (completes_transaction (a := ()) (t := removePvRecord s₁ a.archiveName) trivial ?_ trivial trivial ?_)
    · rw [releaseArchivedPvReservation, h₁]
      rfl
    · exact completes_unlinkMetadata trivial trivial trivial
  cases hp : s.payloads.lookup p with
  | none => exact completes_bind (completes_removeNoPayload hp trivial (hrest (fun _ _ => rfl) id))
  | some payload =>
    refine completes_bind (completes_removePayload hp rfl trivial (fun _ => trivial) trivial (hrest (fun q hq => ?_) ?_))
    · exact AList.lookup_erase_ne hq
    · rw [AList.lookup_erase]
      intro hsome
      cases hsome

theorem completes_deleteArchivedPv {pv : ArchivedPv} (h : Coherent s) (hl : Lists s pv) :
    (deleteArchivedPv pv).completes (fun _ => True) (fun _ _ => True) s := by
  obtain ⟨m, a, hm, ha, -, hname, hvalues⟩ := hl
  obtain ⟨name, p, values⟩ := pv
  subst hname hvalues
  dsimp only at hm ha
  obtain ⟨hmeta, hpay⟩ := archive_path ha
  refine completes_bind (completes_ofExcept (archive_listed ha) ?_)
  dsimp only
  rw [if_neg (not_not.mpr rfl), hmeta, hpay]
  split
  · have hs : Coherent { s with
        metadata := s.metadata.insert p (reclaimingMetadata a.archiveName a (listedMetadata a m)) } :=
      h.descend rfl rfl h.indexed (h.tombstone hm ha)
    exact completes_bind (completes_writeMetadata trivial trivial (completes_reclaim hs ⟨_, AList.lookup_insert _,
      archive_tombstone ha, rfl⟩))
  · rename_i hstate
    rw [not_not] at hstate
    exact completes_reclaim h ⟨m, hm, ha, hstate⟩

/-- In coherent pools all rounds complete. -/
theorem run_deleteArchivedPvs {C : Pool → Prop} (hC : Cleanup C) (hcoherent : ∀ s, C s → Coherent s) :
    ∀ {pvs : List ArchivedPv} {s : Pool}, C s → (pvs.map ArchivedPv.metadataPath).Nodup → (∀ pv ∈ pvs, Lists s pv) →
      ∃ u, ((deleteArchivedPvs pvs).run s).1 = .ok u
  | [], s, _, _, _ => ⟨(), rfl⟩
  | pv :: pvs, s, hs, hnd, h => by
    rw [List.map_cons, List.nodup_cons] at hnd
    obtain ⟨hpv, hpvs⟩ := List.forall_mem_cons.mp h
    obtain ⟨u, hu⟩ := (completes_deleteArchivedPv (hcoherent s hs) hpv).2
    have hinv := wpc_run (inv_deleteArchivedPv hC hs hpv)
    rw [hu] at hinv
    obtain ⟨hs₁, -, hoff⟩ := hinv
    rw [deleteArchivedPvs, bind_eq, run_andThen, hu, onOk_ok]
    exact run_deleteArchivedPvs hC hcoherent hs₁ hnd.2 fun pv' hmem => (hpvs pv' hmem).of_lookup
      (hoff _ fun he => hnd.1 (he ▸ List.mem_map_of_mem hmem))

theorem getArchivedPvs_total (h : Coherent s) (c : Option String) : ∃ pvs, getArchivedPvs s c = .ok pvs := by
  have hnames : ((s.metadata.entries.filterMap listedPv).map ArchivedPv.name).Nodup := by
    refine List.Nodup.map_on (fun pv hpv pv' hpv' he => ?_) (List.Nodup.of_map ArchivedPv.metadataPath ?_)
    · obtain ⟨m, a, hm, ha, -, hname, hvalues⟩ := lists_iff.mp hpv
      obtain ⟨m', a', hm', ha', -, hname', hvalues'⟩ := lists_iff.mp hpv'
      have hpath := h.scannable.record_inj _ _ _ _
        ⟨m, hm, capacityRecord_archived ha (record_size_pos h.scannable hm)⟩
        ⟨m', hm', capacityRecord_archived ha' (record_size_pos h.scannable hm')⟩ (by rw [← hname, ← hname', he])
      obtain ⟨name, path, values⟩ := pv
      obtain ⟨name', path', values'⟩ := pv'
      dsimp only at *
      subst hpath
      obtain rfl : m = m' := Option.some.inj (hm.symm.trans hm')
      cases ha.symm.trans ha'
      rw [he, hvalues, hvalues']
    · have hkeys : (s.metadata.entries.map Sigma.fst).Nodup := s.metadata.nodupKeys
      exact hkeys.sublist (listedPv_sublist _)
  rw [getArchivedPvs, (listArchivedPvs_ok (by simp)).mpr ⟨forall_entries.mpr fun p m => h.archives p m, ?_, rfl⟩]
  · exact ⟨_, rfl⟩
  · rwa [List.reverse_nil, List.nil_append]

/-- **The tool completes** in coherent pools. -/
theorem completes_removeArchivedPv {C : Pool → Prop} (hC : Cleanup C) (hcoherent : ∀ s, C s → Coherent s) (hs : C s)
    (c : Option String) : (removeArchivedPv c).completes C (fun _ s' => C s' ∧
      (∀ pv, Lists s pv → c.all (· = pv.name) = true → s'.metadata.lookup pv.metadataPath = none) ∧
      ∀ q, s.metadata.lookup q = none → s'.metadata.lookup q = none) s := by
  refine ⟨inv_removeArchivedPv hC hs c, ?_⟩
  obtain ⟨pvs, hpvs⟩ := getArchivedPvs_total (hcoherent s hs) c
  obtain ⟨hnd, hmem⟩ := getArchivedPvs_ok hpvs
  rw [removeArchivedPv, bind_eq, run_andThen, readPool, run_read, hpvs, onOk_ok]
  exact run_deleteArchivedPvs hC hcoherent hs hnd fun pv hpv => ((hmem pv).mp hpv).1

/-! ## What an old release left -/

/-- The hash directories of `x`, where old releases put its files. -/
def hashDirs (t : PvType) (x : String) : Path := [t.name, hashDir (getVolnameHash x) 0, hashDir (getVolnameHash x) 2]

/-- Where an old release left the archive of `x`. -/
def leftPath (t : PvType) (x : String) : Path := hashDirs t x ++ [ARCHIVE_PREFIX ++ x]

/-- The pool without that archive. -/
def withoutLeft (t : PvType) (x : String) (s : Pool) : Pool := { s with metadata := s.metadata.erase (leftPath t x) }

/-- An old release has left an archive of `x` of `n` bytes in a coherent pool. -/
structure LegacyArchive (t : PvType) (x : String) (n : Int) (s : Pool) : Prop where
  safe : isSafePathComponent x = true
  apart : hashDirs t x ≠ hashDirs t (ARCHIVE_PREFIX ++ x)
  size : 0 < n
  metadata : s.metadata.lookup (leftPath t x) = some { size := n, pathPrefix := some (hashDirs t x) }
  rest : Coherent (withoutLeft t x s)
  free : Free (ARCHIVE_PREFIX ++ x) (withoutLeft t x s)

/-- The archive is accounted for and removable. -/
structure Managed (t : PvType) (x : String) (n : Int) (s : Pool) : Prop where
  reserved : ∃ out rest, capacityMetadataRecords s = .ok out ∧ capacityMetadataRecords (withoutLeft t x s) = .ok rest ∧
    rest.reservations.lookup (ARCHIVE_PREFIX ++ x) = none ∧
    ∀ v k, out.reservations.lookup v = some k ↔ v = ARCHIVE_PREFIX ++ x ∧ k = n ∨ rest.reservations.lookup v = some k
  listed : ∀ c : Option String, c.all (· = ARCHIVE_PREFIX ++ x) = true → ∃ pvs, getArchivedPvs s c = .ok pvs ∧
    ∃ pv ∈ pvs, pv.name = ARCHIVE_PREFIX ++ x ∧ pv.metadataPath = leftPath t x
  removed : ∀ s', Attempts Cleans s s' → ∀ c : Option String, c.all (· = ARCHIVE_PREFIX ++ x) = true →
    (removeArchivedPv c).succeeds (fun _ s'' => Removed s x (leftPath t x) s'') s'

omit [VolnameHash] in
theorem safe_archived (hx : isSafePathComponent x = true) (hv : isValidCsiIdentifier (ARCHIVE_PREFIX ++ x) = true) :
    isSafePathComponent (ARCHIVE_PREFIX ++ x) = true := by
  simp only [isSafePathComponent, isValidCsiIdentifier, Bool.and_eq_true, decide_eq_true_eq, String.toList_append,
    List.all_append] at hx hv ⊢
  refine ⟨⟨⟨⟨hv.1.1, fun h => ?_⟩, fun h => ?_⟩, hv.1.2⟩, by decide, hx.2⟩
  · have := congrArg String.utf8ByteSize h
    rw [String.utf8ByteSize_append] at this
    have h9 : ARCHIVE_PREFIX.utf8ByteSize = 9 := by decide
    have h1 : ".".utf8ByteSize = 1 := by decide
    omega
  · have := congrArg String.utf8ByteSize h
    rw [String.utf8ByteSize_append] at this
    have h9 : ARCHIVE_PREFIX.utf8ByteSize = 9 := by decide
    have h2 : "..".utf8ByteSize = 2 := by decide
    omega

theorem canonDir_raw (h : IsRaw v) : canonDir t v = hashDirs t v := by rw [canonDir, if_pos h, hashDirs]

/-- An old archive with a valid name and a raw original is recognised. -/
theorem LegacyArchive.at (h : LegacyArchive t x n s) (hv : isValidCsiIdentifier (ARCHIVE_PREFIX ++ x) = true)
    (hx : startsWith VOLUME_COMPONENT_ENCODING_PREFIX x = false) :
    LegacyAt t x (leftPath t x) { size := n, pathPrefix := some (hashDirs t x) } := by
  have hdir : canonDir t x = hashDirs t x := canonDir_raw ⟨h.safe, hx⟩
  have hadir : canonDir t (ARCHIVE_PREFIX ++ x) = hashDirs t (ARCHIVE_PREFIX ++ x) :=
    canonDir_raw ⟨safe_archived h.safe hv, not_encoded_of_archived (startsWith_append _ _)⟩
  exact ⟨⟨rfl, .inl rfl⟩, h.safe, hv, by rw [hdir, hadir]; exact h.apart, by rw [hdir], by rw [hdir, leftPath]⟩

/-- A scan needs the name to be valid. -/
theorem LegacyArchive.scanned (h : LegacyArchive t x n s) (hs : Scannable s) :
    isValidCsiIdentifier (ARCHIVE_PREFIX ++ x) = true := by
  obtain ⟨r, hr⟩ := hs.records _ _ h.metadata
  simp only [capacityRecord, throw_eq_error, ite_error_ok, bind_ok] at hr
  obtain ⟨-, id, hid, -⟩ := hr
  obtain ⟨o, ho, -⟩ := bind_ok.mp hid
  have hbase : (leftPath t x).basename = ARCHIVE_PREFIX ++ x := basename_concat _ _
  rw [legacyArchiveDetails, if_neg (by simp), hbase] at ho
  dsimp only at ho
  rw [startsWith_append, dropStart_append, h.safe, if_neg (by simp), if_neg (by simp), if_neg (by simp)] at ho
  obtain ⟨c, hcandidate, -⟩ := bind_ok.mp ho
  obtain ⟨_, -, hcandidate⟩ := bind_ok.mp hcandidate
  obtain ⟨_, hpath, -⟩ := bind_ok.mp hcandidate
  exact (canonicalPath_ok.mp hpath).1

/-- The list knows the archives of raw names only. -/
theorem Lists.raw {pv : ArchivedPv} (hl : Lists s pv) (hpath : pv.metadataPath = leftPath t x) : startsWith VOLUME_COMPONENT_ENCODING_PREFIX x = false := by
  obtain ⟨m, a, hm, ha, -⟩ := hl
  rw [hpath] at hm ha
  rcases archive_cases ha with ⟨u, y, hl, rfl⟩ | hf
  · have hbase : ARCHIVE_PREFIX ++ x = ARCHIVE_PREFIX ++ y := by
      have := congrArg Path.basename hl.path
      rwa [leftPath, basename_concat, basename_concat] at this
    obtain rfl : x = y := by
      have := congrArg (dropStart ARCHIVE_PREFIX) hbase
      rwa [dropStart_append, dropStart_append] at this
    have hdir : hashDirs t x = canonDir u x := by
      have := congrArg Path.dirname hl.path
      rwa [leftPath, dirname_concat, dirname_concat] at this
    by_contra hx
    rw [canonDir, if_neg fun hraw => hx hraw.2] at hdir
    have := congrArg List.length hdir
    simp [hashDirs] at this
  · have := congrArg List.length hf.path
    simp [leftPath, hashDirs] at this

namespace LegacyArchive

variable (h : LegacyArchive t x n s)
  (hl : LegacyAt t x (leftPath t x) { size := n, pathPrefix := some (hashDirs t x) })

include h hl

/-- The archive is one more record. -/
theorem record_iff {r : CapacityRecord} : Record s q r ↔
    q = leftPath t x ∧ r = ⟨ARCHIVE_PREFIX ++ x, some x, n, false⟩ ∨ Record (withoutLeft t x s) q r := by
  have hrec : capacityRecord s.payloads (leftPath t x) { size := n, pathPrefix := some (hashDirs t x) } =
      .ok ⟨ARCHIVE_PREFIX ++ x, some x, n, false⟩ := capacityRecord_archived hl.archive h.size
  by_cases hq : q = leftPath t x
  · subst hq
    constructor
    · rintro ⟨m, hm, hr⟩
      obtain rfl := Option.some.inj (h.metadata.symm.trans hm)
      cases hrec.symm.trans hr
      exact .inl ⟨rfl, rfl⟩
    · rintro (⟨-, rfl⟩ | ⟨m, hm, -⟩)
      · exact ⟨_, h.metadata, hrec⟩
      · rw [withoutLeft, AList.lookup_erase] at hm
        cases hm
  · simp only [Record, withoutLeft, AList.lookup_erase_ne hq, hq, false_and, false_or]

theorem committed_iff {k : Int} :
    Committed s v k ↔ v = ARCHIVE_PREFIX ++ x ∧ k = n ∨ Committed (withoutLeft t x s) v k := by
  constructor
  · rintro ⟨q, r, hr, hgone, rfl, rfl⟩
    rcases (h.record_iff hl).mp hr with ⟨-, rfl⟩ | hr
    · exact .inl ⟨rfl, rfl⟩
    · exact .inr ⟨q, r, hr, hgone, rfl, rfl⟩
  · rintro (⟨rfl, rfl⟩ | ⟨q, r, hr, hrest⟩)
    · exact ⟨_, _, (h.record_iff hl).mpr (.inl ⟨rfl, rfl⟩), rfl, rfl, rfl⟩
    · exact ⟨q, r, (h.record_iff hl).mpr (.inr hr), hrest⟩

theorem tombstoned_iff : Tombstoned s v ↔ Tombstoned (withoutLeft t x s) v := by
  constructor
  · rintro ⟨q, r, hr, hgone, hv⟩
    rcases (h.record_iff hl).mp hr with ⟨-, rfl⟩ | hr
    · cases hgone
    · exact ⟨q, r, hr, hgone, hv⟩
  · rintro ⟨q, r, hr, hrest⟩
    exact ⟨q, r, (h.record_iff hl).mpr (.inr hr), hrest⟩

/-- With the archive the pool is still coherent. -/
theorem coherent : Coherent s := by
  have hcfits : ∀ v i k, Creating s v i → Committed s v k → k = i.size := by
    intro v i k hi hk
    rcases (h.committed_iff hl).mp hk with ⟨rfl, -⟩ | hk
    · exact absurd (.inl ⟨i, hi⟩) h.free.2
    · exact h.rest.creation_fits v i k hi hk
  have hefits : ∀ v e k, Expanding s v e → BaseSize s v k → k = e.fromSize ∨ k = e.toSize := by
    intro v e k he hk
    rcases hk with hi | hk
    · exact h.rest.expansion_fits v e k he (.inl hi)
    · rcases (h.committed_iff hl).mp hk with ⟨rfl, -⟩ | hk
      · exact absurd (.inr ⟨e, he⟩) h.free.2
      · exact h.rest.expansion_fits v e k he (.inr hk)
  have hfile : ∀ {q m}, s.metadata.lookup q = some m → q ≠ leftPath t x → (withoutLeft t x s).metadata.lookup q = some m :=
    fun hm hq => (AList.lookup_erase_ne hq).trans hm
  refine ⟨⟨fun q m hm => ?_, fun q q' r r' hr hr' he => ?_, h.rest.scannable.creations, h.rest.scannable.creation_inj,
    h.rest.scannable.expansions, h.rest.scannable.expansion_inj, fun v i k hi _ => hcfits v i k hi,
    fun v e k he _ => hefits v e k he⟩, hcfits, hefits, fun q m hm => ?_, h.rest.indexed⟩
  · by_cases hq : q = leftPath t x
    · subst hq
      obtain rfl := Option.some.inj (h.metadata.symm.trans hm)
      exact ⟨_, capacityRecord_archived hl.archive h.size⟩
    · exact h.rest.scannable.records q m (hfile hm hq)
  · rcases (h.record_iff hl).mp hr with ⟨rfl, rfl⟩ | hr <;> rcases (h.record_iff hl).mp hr' with ⟨rfl, rfl⟩ | hr'
    · rfl
    · exact absurd he.symm (h.free.1 q' r' hr')
    · exact absurd he (h.free.1 q r hr)
    · exact h.rest.scannable.record_inj q q' r r' hr hr' he
  · by_cases hq : q = leftPath t x
    · subst hq
      obtain rfl := Option.some.inj (h.metadata.symm.trans hm)
      exact ⟨_, hl.archive⟩
    · exact h.rest.archives q m (hfile hm hq)

theorem reserved : ∃ out rest, capacityMetadataRecords s = .ok out ∧
    capacityMetadataRecords (withoutLeft t x s) = .ok rest ∧ rest.reservations.lookup (ARCHIVE_PREFIX ++ x) = none ∧
    ∀ v k, out.reservations.lookup v = some k ↔
      v = ARCHIVE_PREFIX ++ x ∧ k = n ∨ rest.reservations.lookup v = some k := by
  obtain ⟨out, hout⟩ := scan_ok_iff.mpr (h.coherent hl).scannable
  obtain ⟨rest, hrest⟩ := scan_ok_iff.mpr h.rest.scannable
  refine ⟨out, rest, hout, hrest, h.free.unreserved hrest, fun v k => ?_⟩
  have hpending : Pending s v ↔ Pending (withoutLeft t x s) v := Iff.rfl
  rw [scan_reservations hout, scan_reservations hrest, h.committed_iff hl, h.tombstoned_iff hl]
  constructor
  · rintro (he | hi | ⟨hp, hk | hk⟩)
    · exact .inr (.inl he)
    · exact .inr (.inr (.inl hi))
    · exact .inl hk
    · exact .inr (.inr (.inr ⟨hp, hk⟩))
  · rintro (⟨rfl, rfl⟩ | he | hi | ⟨hp, hk⟩)
    · exact .inr (.inr ⟨.inr h.free.2, .inl ⟨rfl, rfl⟩⟩)
    · exact .inl he
    · exact .inr (.inl hi)
    · exact .inr (.inr ⟨hp, .inr hk⟩)

end LegacyArchive

/-- A present archive is on the list. -/
theorem LegacyAt.lists (h : LegacyAt t x p m) (hm : s.metadata.lookup p = some m) :
    Lists s ⟨ARCHIVE_PREFIX ++ x, p, listedMetadata (legacyDetails x p) m⟩ := by
  refine ⟨m, _, hm, h.archive, ?_, rfl, rfl⟩
  rcases h.form.state with hs | ⟨hs, -⟩ <;> simp [hs]

/-- Whatever attempt has crashed, the next complete run removes the archive. -/
theorem Stage.removed (h : Stage s₀ t x p s) {c : Option String} (hc : c.all (· = ARCHIVE_PREFIX ++ x) = true) :
    (removeArchivedPv c).succeeds (fun _ s' => Removed s₀ x p s') s := by
  refine succeeds_mono ?_ (completes_run (completes_removeArchivedPv stage_cleanup (fun _ hs => hs.coherent) h c))
  rintro _ s' ⟨hs', hgone, hnone⟩
  have hmeta : s'.metadata.lookup p = none := by
    rcases h.stage with ⟨m, hm, hl⟩ | ⟨hr, -⟩
    · exact hgone _ (hl.lists hm) hc
    · exact hnone p hr.metadata
  rcases hs'.stage with ⟨m, hm, -⟩ | ⟨hr, -⟩
  · cases hmeta.symm.trans hm
  · exact hr

/-- **Legacy archives** are managed exactly when their name is a valid ID and the original one is not read as encoded. -/
theorem legacyArchive_managed (h : LegacyArchive t x n s) : Managed t x n s ↔
    isValidCsiIdentifier (ARCHIVE_PREFIX ++ x) = true ∧ startsWith VOLUME_COMPONENT_ENCODING_PREFIX x = false := by
  constructor
  · intro hm
    refine ⟨?_, ?_⟩
    · obtain ⟨out, -, hout, -⟩ := hm.reserved
      exact h.scanned (scan_ok_iff.mp ⟨out, hout⟩)
    · obtain ⟨pvs, hpvs, pv, hpv, -, hpath⟩ := hm.listed none rfl
      exact (((getArchivedPvs_ok hpvs).2 pv).mp hpv).1.raw hpath
  · rintro ⟨hv, hx⟩
    have hl := h.at hv hx
    have hcoherent := h.coherent hl
    refine ⟨h.reserved hl, fun c hc => ?_, fun s' hs' c hc => ?_⟩
    · obtain ⟨pvs, hpvs⟩ := getArchivedPvs_total hcoherent c
      exact ⟨pvs, hpvs, _, ((getArchivedPvs_ok hpvs).2 _).mpr ⟨hl.lists h.metadata, hc⟩, rfl, rfl⟩
    · refine Stage.removed (t := t) ?_ hc
      refine hs'.invariant (fun _ ⟨c, hp⟩ _ hs => ⟨_, hp ▸ inv_removeArchivedPv stage_cleanup hs c⟩) ?_
      exact ⟨hcoherent, h.free.2, id, .inl ⟨_, h.metadata, hl⟩⟩

/-- A pool with the archive of `x` and nothing else, accounted for under `x`. -/
def leftPool (x : String) : Pool :=
  { metadata := (∅ : Table Metadata).insert (leftPath .subvol x) { size := 10, pathPrefix := some (hashDirs .subvol x) }
    payloads := (∅ : Table Payload).insert (leftPath .subvol x) { isDir := true }
    rows := (∅ : Rows).insert x 10
    capacity := 1500 }

theorem leftPool_archive (hs : isSafePathComponent x = true) (hd : hashDirs .subvol x ≠ hashDirs .subvol (ARCHIVE_PREFIX ++ x)) :
    LegacyArchive .subvol x 10 (leftPool x) := by
  have hnone : ∀ q, (withoutLeft .subvol x (leftPool x)).metadata.lookup q = none := by
    intro q
    by_cases hq : q = leftPath .subvol x
    · rw [hq]
      exact AList.lookup_erase _ _
    · exact (AList.lookup_erase_ne hq).trans (AList.lookup_insert_ne hq)
  have hrecord : ∀ q r, ¬Record (withoutLeft .subvol x (leftPool x)) q r := by
    rintro q r ⟨m, hm, -⟩
    cases (hnone q).symm.trans hm
  have hcre : ∀ v i, ¬Creating (withoutLeft .subvol x (leftPool x)) v i := fun v i ⟨q, hq, _⟩ => by cases hq
  have hexp : ∀ v e, ¬Expanding (withoutLeft .subvol x (leftPool x)) v e := fun v e ⟨q, hq, _⟩ => by cases hq
  refine ⟨hs, hd, by decide, AList.lookup_insert _, ⟨⟨fun q m hm => ?_, fun q q' r r' hr => absurd hr (hrecord q r), ?_, ?_, ?_, ?_,
    fun v i k hi => absurd hi (hcre v i), fun v e k he => absurd he (hexp v e)⟩, fun v i k hi => absurd hi (hcre v i),
    fun v e k he => absurd he (hexp v e), fun q m hm => ?_, fun u k hk => ?_⟩, fun q r hr => absurd hr (hrecord q r), ?_⟩
  · cases (hnone q).symm.trans hm
  · exact fun q i hi => by cases hi
  · exact fun q q' i j hi => by cases hi
  · exact fun q e he => by cases he
  · exact fun q q' e f he => by cases he
  · cases (hnone q).symm.trans hm
  · exact Indexed.insert (s := {}) (fun _ _ h => by cases h) (by decide) u k hk
  · rintro (⟨i, hi⟩ | ⟨e, he⟩)
    · exact hcre _ i hi
    · exact hexp _ e he

end

/-! ## An archive that looks encoded -/

attribute [local instance] sampleHash

theorem leftPool_managed : LegacyArchive .subvol "pvc-1" 10 (leftPool "pvc-1") ∧ Managed .subvol "pvc-1" 10 (leftPool "pvc-1") :=
  have h : LegacyArchive .subvol "pvc-1" 10 (leftPool "pvc-1") := leftPool_archive (by decide) (by decide)
  ⟨h, (legacyArchive_managed h).mpr ⟨by decide, by decide⟩⟩

/-- The archive of a volume whose name begins like an encoded one is never listed. -/
theorem encoded_archive_lost : LegacyArchive .subvol ".kadalu~x" 10 (leftPool ".kadalu~x") ∧
    ¬Managed .subvol ".kadalu~x" 10 (leftPool ".kadalu~x") := by
  refine ⟨leftPool_archive (by decide) (by decide), fun h => ?_⟩
  obtain ⟨pvs, hpvs, pv, hpv, -⟩ := h.listed none rfl
  have hempty : getArchivedPvs (leftPool ".kadalu~x") none = .ok [] := by decide +kernel
  cases hempty.symm.trans hpvs
  cases hpv

end Kadalu
