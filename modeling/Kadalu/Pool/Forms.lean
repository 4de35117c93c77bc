import Kadalu.Pool.ScanSpec
import Kadalu.Volume.Paths

/-!
# The forms of a metadata file

What the scan reads off the metadata of one volume `v`, form by form: committed at one of its paths, a delete tombstone
there, prepared for an archive, moved to the archive, archived, and a reclaim tombstone. Each lemma gives the record of
one form.
-/

namespace Kadalu

open Except

/-! ## Names -/

theorem startsWith_eq {a v : String} (h : startsWith a v = true) : v = a ++ dropStart a v := by
  obtain ⟨l, hl⟩ := List.isPrefixOf_iff_prefix.mp h
  have hv : v = a ++ String.ofList l := by rw [← String.ofList_toList (s := v), ← hl, String.ofList_append, String.ofList_toList]
  rw [hv, dropStart_append]

/-- A name that begins with the archive prefix is not encoded. -/
theorem not_encoded_of_archived {v : String} (h : startsWith ARCHIVE_PREFIX v = true) :
    startsWith VOLUME_COMPONENT_ENCODING_PREFIX v = false := by
  rw [startsWith_eq h, startsWith, String.toList_append]
  rfl

/-- What follows the archive prefix of a valid ID is a valid ID, unless it is empty. -/
theorem valid_dropStart {v : String} (hv : isValidCsiIdentifier v = true) (h : startsWith ARCHIVE_PREFIX v = true)
    (hne : dropStart ARCHIVE_PREFIX v ≠ "") : isValidCsiIdentifier (dropStart ARCHIVE_PREFIX v) = true := by
  have he := startsWith_eq h
  generalize dropStart ARCHIVE_PREFIX v = o at he hne
  subst he
  simp only [isValidCsiIdentifier, Bool.and_eq_true, decide_eq_true_eq, String.toList_append, List.all_append,
    String.utf8ByteSize_append] at hv ⊢
  exact ⟨⟨hne, by omega⟩, hv.2.2⟩

theorem safe_ne_empty {v : String} (h : isSafePathComponent v = true) : v ≠ "" := by
  rintro rfl
  exact absurd h (by decide)

variable [VolnameHash] {t : PvType} {v a : String} {p : Path} {m : Metadata} {payloads : Table Payload}

/-- The name of a path of an ID with the archive prefix is the ID, and the path is its canonical one. -/
theorem basename_archived (hp : p ∈ volumePaths t v) (h : startsWith ARCHIVE_PREFIX p.basename = true) :
    p.basename = v ∧ p = canon t v := by
  rcases mem_volumePaths.mp hp with rfl | ⟨hs, rfl⟩
  · rw [basename_canon] at h ⊢
    have hne := not_encoded_of_archived h
    rw [startsWith_component, Bool.not_eq_false', decide_eq_true_eq] at hne
    exact ⟨if_pos hne, rfl⟩
  · rw [rawPath_eq_concat, basename_concat] at h ⊢
    exact ⟨rfl, rawPath_eq_concat ▸ rawPath_eq_canon_iff.mpr ⟨⟨hs, not_encoded_of_archived h⟩, rfl, rfl⟩⟩

/-- Metadata at a path of its volume is no legacy archive. -/
theorem legacyArchiveDetails_active (hv : isValidCsiIdentifier v = true) (hp : p ∈ volumePaths t v)
    (hstate : m.state ≠ some .reclaiming) : legacyArchiveDetails p m = .ok none := by
  unfold legacyArchiveDetails
  dsimp only
  split
  · rfl
  split
  · rfl
  rename_i hpre
  rw [Bool.not_eq_true, Bool.not_eq_false'] at hpre
  split
  · rfl
  rename_i hsafe
  rw [Bool.not_eq_true, Bool.not_eq_false'] at hsafe
  obtain ⟨hbase, rfl⟩ := basename_archived hp hpre
  rw [if_neg fun h => hstate h.1.1]
  refine firstHit_none fun u _ => ?_
  rw [hbase] at hpre hsafe ⊢
  have ho := valid_dropStart hv hpre (safe_ne_empty hsafe)
  rw [legacyCandidate, canonicalPath_eq ho, ok_bind, canonicalPath_eq hv, ok_bind]
  split
  · rfl
  rename_i hdir
  split
  · rfl
  split
  · rfl
  rename_i hpath
  rw [not_not, canon_eq_concat] at hpath
  have hd := congrArg Path.dirname hpath
  simp only [dirname_concat, dirname_canon] at hd hdir
  exact absurd (canonDir_type hd ▸ hd.symm) hdir

/-! ## Active metadata -/

/-- Metadata of `v` at one of its paths, without an archive identity. -/
structure OwnMetadata (t : PvType) (v : String) (p : Path) (m : Metadata) : Prop where
  valid : isValidCsiIdentifier v = true
  path : p ∈ volumePaths t v
  id : m.volumeId.getD p.basename = v
  archiveName : m.archiveName = none

theorem capacityRecordIdentity_own (h : OwnMetadata t v p m) (hstate : m.state ≠ some .reclaiming) :
    capacityRecordIdentity p m = .ok (v, none) := by
  rw [capacityRecordIdentity, h.archiveName]
  simp only [legacyArchiveDetails_active h.valid h.path hstate, ok_bind, h.id, h.valid]
  rfl

/-- A delete tombstone guards the payload at its own path. -/
theorem deleteTombstonePayloadPath_own (h : OwnMetadata t v p m) (hdir : m.pathPrefix = some p.dirname)
    (hstate : m.state = some .deleting) : deleteTombstonePayloadPath p m v = .ok p := by
  have hpaths : PvType.all.mapM (canonicalVolumePaths v) = .ok (PvType.all.map fun u => volumePaths u v) := by
    simp only [PvType.all, List.mapM_cons, List.mapM_nil, canonicalVolumePaths_eq h.valid, ok_bind]
    rfl
  rw [deleteTombstonePayloadPath, hstate, if_neg (by decide), if_neg (by decide), tombstoneCandidates, hpaths]
  simp only [ok_bind, pure_eq_ok, hdir]
  have hmem : ∀ q, q ∈ ((PvType.all.map fun u => volumePaths u v).flatten.filter fun q =>
      decide (p = q ∧ some p.dirname = some q.dirname)) ↔ q = p := by
    intro q
    simp only [List.mem_filter, decide_eq_true_eq]
    refine ⟨fun hq => hq.2.1.symm, ?_⟩
    rintro rfl
    exact ⟨List.mem_flatten.mpr ⟨_, List.mem_map.mpr ⟨t, PvType.mem_all t, rfl⟩, h.path⟩, rfl, rfl⟩
  generalize hl : ((PvType.all.map fun u => volumePaths u v).flatten.filter fun q =>
      decide (p = q ∧ some p.dirname = some q.dirname)) = l at hmem
  have hd : l.dedup = [p] := by
    have hm : ∀ q, q ∈ l.dedup ↔ q = p := fun q => List.mem_dedup.trans (hmem q)
    exact List.perm_singleton.mp ((List.perm_ext_iff_of_nodup l.nodup_dedup (List.nodup_singleton p)).mpr
      fun q => by rw [hm, List.mem_singleton])
  rw [hd]

/-- Committed metadata. -/
theorem capacityRecord_active (h : OwnMetadata t v p m) (hstate : m.state = none) (hsize : 0 < m.size) :
    capacityRecord payloads p m = .ok ⟨v, none, m.size, false⟩ := by
  rw [capacityRecord, if_neg (Int.not_le.mpr hsize), capacityRecordIdentity_own h (by simp [hstate]), ok_bind]
  dsimp only
  rw [payloadIsGone, if_neg (by simp [hstate])]
  rfl

/-- A delete tombstone. -/
theorem capacityRecord_deleting (h : OwnMetadata t v p m) (hdir : m.pathPrefix = some p.dirname)
    (hstate : m.state = some .deleting) (hsize : 0 < m.size) :
    capacityRecord payloads p m = .ok ⟨v, none, m.size, !payloadExists payloads p⟩ := by
  rw [capacityRecord, if_neg (Int.not_le.mpr hsize), capacityRecordIdentity_own h (by simp [hstate]), ok_bind]
  dsimp only
  rw [payloadIsGone, if_pos (.inl hstate), deleteTombstonePayloadPath_own h hdir hstate]
  rfl

/-! ## Archives -/

/-- Metadata of `v` that `_prepare_archive` has written for the archive name `a`. -/
structure Prepared (t : PvType) (v a : String) (q : Path) (m : Metadata) : Prop where
  valid : isValidCsiIdentifier v = true
  safe : isSafePathComponent a = true
  named : startsWith ARCHIVE_PREFIX a = true
  archiveName : m.archiveName = some a
  original : m.originalVolumeId = some v
  state : m.state = some .archiving
  dir : m.pathPrefix = some q.dirname
  legacy : m.legacyArchive = false
  pvtype : ∀ n, m.pvtype = some n → n = t.name
  size : 0 < m.size
  id : ∀ w, m.volumeId = some w → w = v
  incarnation : m.incarnation.all canonicalUuid = true

omit [VolnameHash] in
theorem archiveIdentity_eq (hv : isValidCsiIdentifier v = true) (hs : isSafePathComponent a = true)
    (hn : startsWith ARCHIVE_PREFIX a = true) (ha : m.archiveName = some a) (ho : m.originalVolumeId = some v) :
    archiveIdentity m = some (a, v) := by
  rw [archiveIdentity, ha, ho]
  simp [hv, hs, hn]

theorem archivePath_ne_volumePaths (hp : p ∈ volumePaths t v) : p ≠ ["archive", a] := fun h =>
  dirname_volumePaths_ne_archive hp (by rw [h]; rfl)

/-- Prepared metadata at the path of its volume is no archive yet. -/
theorem archiveMetadataDetails_prepared (h : Prepared t v a q m) (hp : p ∈ volumePaths t v) :
    archiveMetadataDetails p m = .ok none := by
  rw [archiveMetadataDetails, h.legacy, if_neg Bool.false_ne_true, if_neg (by simp [h.state]),
    archiveIdentity_eq h.valid h.safe h.named h.archiveName h.original]
  dsimp only
  rw [if_pos (archivePath_ne_volumePaths hp), if_pos h.state]
  rfl

omit [VolnameHash] in
theorem declaredTypes_prepared (h : Prepared t v a q m) : ∃ ts, declaredTypes m = .ok ts ∧ t ∈ ts := by
  unfold declaredTypes
  cases hn : m.pvtype with
  | none => exact ⟨_, rfl, PvType.mem_all t⟩
  | some n =>
    obtain rfl := h.pvtype n hn
    refine ⟨[t], ?_, List.mem_singleton_self t⟩
    cases t <;> rfl

theorem canonicalActive_ok {b : Bool} (hv : isValidCsiIdentifier v = true) :
    ∀ {ts : List PvType}, canonicalActive p m v ts = .ok b ↔
      b = decide (∃ u ∈ ts, p = canon u v ∧ m.pathPrefix = some (canon u v).dirname)
  | [] => by simp [canonicalActive, eq_comm]
  | u :: ts => by
    rw [canonicalActive, canonicalPath_eq hv, ok_bind]
    split
    · rename_i h
      simp [h, eq_comm]
    · rename_i h
      rw [canonicalActive_ok hv]
      simp only [List.exists_mem_cons_iff, h, false_or]

/-- **Prepared metadata** reserves under the archive name. -/
theorem capacityRecord_prepared (h : Prepared t v a (canon t v) m) :
    capacityRecord payloads (canon t v) m = .ok ⟨a, some v, m.size, false⟩ := by
  obtain ⟨ts, hts, ht⟩ := declaredTypes_prepared h
  rw [capacityRecord, if_neg (Int.not_le.mpr h.size), capacityRecordIdentity, h.archiveName]
  dsimp only
  rw [archiveIdentity_eq h.valid h.safe h.named h.archiveName h.original]
  dsimp only
  rw [if_neg (by simp [h.state]), archiveMetadataDetails_prepared h canon_mem, ok_bind]
  dsimp only
  rw [if_neg (by simp [h.state]), hts, ok_bind,
    (canonicalActive_ok h.valid).mpr (decide_eq_true ⟨t, ht, rfl, h.dir⟩).symm, ok_bind, if_pos rfl, pure_eq_ok, ok_bind]
  dsimp only
  rw [payloadIsGone, if_neg (by simp [h.state])]
  rfl

/-- Nowhere but at its canonical path does prepared metadata have a record. -/
theorem capacityRecord_prepared_iff (h : Prepared t v a q m) (hq : q ∈ volumePaths t v) :
    (∃ r, capacityRecord payloads q m = .ok r) ↔ q = canon t v := by
  refine ⟨fun hr => ?_, fun hc => by subst hc; exact ⟨_, capacityRecord_prepared h⟩⟩
  rw [capacityRecord, if_neg (Int.not_le.mpr h.size), capacityRecordIdentity, h.archiveName] at hr
  dsimp only at hr
  rw [archiveIdentity_eq h.valid h.safe h.named h.archiveName h.original] at hr
  dsimp only at hr
  rw [if_neg (by simp [h.state]), archiveMetadataDetails_prepared h hq, ok_bind] at hr
  dsimp only at hr
  rw [if_neg (by simp [h.state])] at hr
  simp only [throw_eq_error, pure_eq_ok, bind_ok, canonicalActive_ok h.valid] at hr
  obtain ⟨_, _, ⟨_, -, _, rfl, hc⟩, -⟩ := hr
  split at hc
  · rename_i hex
    obtain ⟨u, -, hu, -⟩ := of_decide_eq_true hex
    have hmem : canon u v ∈ volumePaths t v := hu ▸ hq
    rw [hu, (volumePaths_disjoint canon_mem hmem).1]
  · cases hc

/-- Metadata at an archive path, whether its archive is complete or not. -/
theorem capacityRecord_archive (hv : isValidCsiIdentifier v = true) (hs : isSafePathComponent a = true)
    (hn : startsWith ARCHIVE_PREFIX a = true) (ha : m.archiveName = some a) (ho : m.originalVolumeId = some v)
    (hl : m.legacyArchive = false) (hsize : 0 < m.size)
    (hstate : m.state = some .archived ∧ m.pathPrefix = some ["archive"] ∨
      m.state = some .archiving ∧ m.pathPrefix = some (canon t v).dirname) :
    archiveMetadataDetails ["archive", a] m = .ok (some ⟨a, ["archive", a], v, ["archive", a], false⟩) ∧
      capacityRecord payloads ["archive", a] m = .ok ⟨a, some v, m.size, false⟩ := by
  have hpaths : PvType.all.mapM (canonicalPath · v) = .ok (PvType.all.map fun u => canon u v) := by
    simp only [PvType.all, List.mapM_cons, List.mapM_nil, canonicalPath_eq hv, ok_bind]
    rfl
  have hstates : ¬(m.state ≠ some .archived ∧ m.state ≠ some .archiving ∧ m.state ≠ some .reclaiming) ∧
      ¬(m.state ≠ some .archiving ∧ m.state ≠ some .archived ∧ m.state ≠ some .reclaiming) ∧ ¬m.IsTombstone := by
    rcases hstate with ⟨h, -⟩ | ⟨h, -⟩ <;> simp [h, Metadata.IsTombstone]
  have hd : archiveMetadataDetails ["archive", a] m = .ok (some ⟨a, ["archive", a], v, ["archive", a], false⟩) := by
    rw [archiveMetadataDetails, hl, if_neg Bool.false_ne_true, if_neg hstates.1, archiveIdentity_eq hv hs hn ha ho]
    dsimp only
    rw [if_neg (not_not.mpr rfl), hpaths, ok_bind, if_neg]
    · rfl
    · rw [not_not]
      rcases hstate with ⟨hst, hdir⟩ | ⟨hst, hdir⟩
      · simp [hdir]
      · rw [hdir, if_pos hst]
        refine List.mem_map_of_mem (List.mem_cons_of_mem _ (List.mem_map_of_mem (List.mem_map_of_mem ?_)))
        exact PvType.mem_all t
  refine ⟨hd, ?_⟩
  rw [capacityRecord, if_neg (Int.not_le.mpr hsize), capacityRecordIdentity, ha]
  dsimp only
  rw [archiveIdentity_eq hv hs hn ha ho]
  dsimp only
  rw [if_neg hstates.2.1, hd, ok_bind]
  dsimp only
  rw [pure_eq_ok, ok_bind]
  dsimp only
  rw [payloadIsGone, if_neg hstates.2.2]
  rfl

/-! ## Tombstones -/

/-- A record that is gone comes from a tombstone whose payload is gone. -/
theorem capacityRecord_gone {r : CapacityRecord} (h : capacityRecord payloads p m = .ok r) (hg : r.gone = true) :
    m.IsTombstone ∧ payloads.lookup p = none ∧ capacityRecordIdentity p m = .ok (r.id, r.legacyAlias) ∧
      deleteTombstonePayloadPath p m r.id = .ok p := by
  simp only [capacityRecord, throw_eq_error, ite_error_ok, bind_ok, pure_eq_ok, Except.ok.injEq] at h
  obtain ⟨-, ⟨id, al⟩, hid, gone, hgone, rfl⟩ := h
  subst hg
  unfold payloadIsGone at hgone
  split at hgone
  · rename_i ht
    obtain ⟨q, hq, hex⟩ := bind_ok.mp hgone
    obtain rfl := deleteTombstonePayloadPath_eq hq
    simp only [payloadExists, pure_eq_ok, Except.ok.injEq, Bool.not_eq_true', Option.isSome_eq_false_iff,
      Option.isNone_iff_eq_none] at hex
    exact ⟨ht, hex, hid, hq⟩
  · cases hgone

omit [VolnameHash] in
theorem archiveIdentity_some {n o : String} (h : archiveIdentity m = some (n, o)) :
    m.archiveName = some n ∧ m.originalVolumeId = some o ∧ isSafePathComponent n = true ∧
      startsWith ARCHIVE_PREFIX n = true ∧ isValidCsiIdentifier o = true := by
  unfold archiveIdentity at h
  split at h
  · rename_i n' o' hn ho
    split at h
    · rename_i hok
      simp only [Bool.and_eq_true] at hok
      cases h
      exact ⟨hn, ho, hok.1.1, hok.1.2, hok.2⟩
    · cases h
  · cases h

/-- Metadata with the name of an archive is that of the archive. -/
theorem capacityRecordIdentity_archiveName {id archivedName : String} {al : Option String}
    (hname : m.archiveName = some archivedName) (h : capacityRecordIdentity p m = .ok (id, al)) : id = archivedName := by
  unfold capacityRecordIdentity at h
  rw [hname] at h
  dsimp only at h
  split at h
  · cases h
  · next n o hidentity =>
    obtain rfl : n = archivedName := Option.some.inj ((archiveIdentity_some hidentity).1.symm.trans hname)
    split at h
    · cases h
    · obtain ⟨details, -, h⟩ := bind_ok.mp h
      cases details with
      | some d =>
        cases h
        rfl
      | none =>
        dsimp only at h
        split at h
        · cases h
        · obtain ⟨types, -, h⟩ := bind_ok.mp h
          obtain ⟨active, -, h⟩ := bind_ok.mp h
          cases active with
          | true =>
            cases h
            rfl
          | false => cases h

/-- A reclaim tombstone names its archive, by its file name, and the original volume. -/
theorem capacityRecordIdentity_reclaiming {id : String} {al : Option String} {q : Path}
    (hstate : m.state = some .reclaiming) (hid : capacityRecordIdentity p m = .ok (id, al))
    (hq : deleteTombstonePayloadPath p m id = .ok q) : id = p.basename ∧ al = m.originalVolumeId := by
  rw [deleteTombstonePayloadPath, if_pos hstate] at hq
  obtain ⟨o, ho, hq⟩ := bind_ok.mp hq
  cases o with
  | none => cases hq
  | some d =>
    unfold capacityRecordIdentity at hid
    split at hid
    · rename_i hname
      split at hid
      · cases hid
      · rename_i n o hi
        rw [throw_eq_error, ite_error_ok] at hid
        obtain ⟨-, hid⟩ := hid
        rw [ho, ok_bind] at hid
        simp only [pure_eq_ok, Except.ok.injEq, Prod.mk.injEq] at hid
        obtain ⟨rfl, rfl⟩ := hid
        refine ⟨?_, (archiveIdentity_some hi).2.1.symm⟩
        unfold archiveMetadataDetails at ho
        split at ho
        · unfold legacyArchiveDetails at ho
          simp only [hname, ne_eq, reduceCtorEq, not_false_eq_true, or_true, if_true, pure_eq_ok] at ho
          cases ho
        · rw [if_neg (by simp [hstate]), hi] at ho
          dsimp only at ho
          split at ho
          · rw [if_neg (by simp [hstate])] at ho
            cases ho
          · rename_i hp
            rw [not_not] at hp
            rw [hp]
            rfl
    · rename_i hname
      obtain ⟨l, hl, hid⟩ := bind_ok.mp hid
      cases l with
      | none =>
        unfold archiveMetadataDetails at ho
        split at ho
        · rw [hl] at ho
          cases ho
        · rw [if_neg (by simp [hstate]), archiveIdentity, hname] at ho
          cases ho
      | some l =>
        have hd := legacyArchiveDetails_some hl
        subst hd
        rw [throw_eq_error, ite_error_ok] at hid
        cases hid.2
        refine ⟨rfl, ?_⟩
        unfold legacyArchiveDetails at hl
        dsimp only at hl
        split at hl
        · cases hl
        split at hl
        · cases hl
        split at hl
        · cases hl
        · rename_i hc _ _
          rw [throw_eq_error, ite_error_ok] at hl
          simp only [hstate, hname, ne_eq, reduceCtorEq, not_false_eq_true, not_true_eq_false, true_and, or_false,
            not_not] at hc hl
          have := hl.1
          simp only [hc, true_and, not_not] at this
          exact this.symm

/-- A delete tombstone names the volume at whose path it lies. -/
theorem capacityRecordIdentity_deleting {id : String} {al : Option String} {q : Path}
    (hstate : m.state = some .deleting) (hid : capacityRecordIdentity p m = .ok (id, al))
    (hq : deleteTombstonePayloadPath p m id = .ok q) : al = none ∧ ∃ u, p ∈ volumePaths u id := by
  refine ⟨?_, ?_⟩
  · unfold capacityRecordIdentity at hid
    split at hid
    · split at hid
      · cases hid
      · rw [throw_eq_error, if_pos (by simp [hstate])] at hid
        cases hid
    · obtain ⟨l, hl, hid⟩ := bind_ok.mp hid
      have hn : l = none := by
        unfold legacyArchiveDetails at hl
        simp only [hstate, ne_eq, reduceCtorEq, not_false_eq_true, Option.some.injEq, false_and, not_false_eq_true,
          and_self, true_or, if_true, pure_eq_ok, Except.ok.injEq] at hl
        exact hl.symm
      subst hn
      rw [throw_eq_error, ite_error_ok] at hid
      cases hid.2
      rfl
  · rw [deleteTombstonePayloadPath, hstate, if_neg (by decide), if_neg (by decide)] at hq
    obtain ⟨qs, hqs, hq⟩ := bind_ok.mp hq
    split at hq
    · rename_i q' hq'
      unfold tombstoneCandidates at hqs
      obtain ⟨paths, hpaths, hqs⟩ := bind_ok.mp hqs
      cases hqs
      have hm : q' ∈ (paths.flatten.filter fun volumePath => p = volumePath ∧ m.pathPrefix = some volumePath.dirname) :=
        List.mem_dedup.mp (by rw [hq']; exact List.mem_singleton_self q')
      obtain ⟨hm, hp⟩ := List.mem_filter.mp hm
      simp only [decide_eq_true_eq] at hp
      obtain ⟨hp, -⟩ := hp
      subst hp
      simp only [PvType.all, List.mapM_cons, List.mapM_nil, bind_ok, canonicalVolumePaths_ok, pure_eq_ok,
        Except.ok.injEq] at hpaths
      obtain ⟨_, ⟨-, rfl⟩, _, ⟨_, ⟨-, rfl⟩, _, ⟨_, ⟨-, rfl⟩, _, rfl, rfl⟩, rfl⟩, rfl⟩ := hpaths
      simp only [List.flatten_cons, List.flatten_nil, List.append_nil, List.mem_append] at hm
      rcases hm with hm | hm | hm
      · exact ⟨_, hm⟩
      · exact ⟨_, hm⟩
      · exact ⟨_, hm⟩
    · cases hq

end Kadalu
