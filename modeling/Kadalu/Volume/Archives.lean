import Kadalu.Pool.Forms
import Kadalu.Pool.Rebuild
import Kadalu.Pool.StepRules
import Kadalu.Volume.Reclaim
import Kadalu.Volume.Slot

/-!
# What the cleanup tool takes for an archive

An archive is at no path of a volume (`archive_not_volumePath`), reserves under its own name with the original ID as alias
(`archive_identity`), and stays the same archive when its tombstone is written (`archive_tombstone`).
-/

namespace Kadalu

open Durable Durable.Prog Except

variable [VolnameHash] {p : Path} {m : Metadata} {a : ArchiveDetails} {t u : PvType} {v w x : String}

/-! ## Legacy archives -/

/-- Metadata that may belong to a legacy archive: without state, or with a tombstone of one. -/
structure LegacyForm (m : Metadata) (x : String) : Prop where
  archiveName : m.archiveName = none
  state : m.state = none ∨ m.state = some .reclaiming ∧ m.legacyArchive = true ∧ m.originalVolumeId = some x

/-- The archive of `x` that an old release has left at `p`. -/
structure LegacyAt (t : PvType) (x : String) (p : Path) (m : Metadata) : Prop where
  form : LegacyForm m x
  safe : isSafePathComponent x = true
  valid : isValidCsiIdentifier (ARCHIVE_PREFIX ++ x) = true
  apart : canonDir t x ≠ canonDir t (ARCHIVE_PREFIX ++ x)
  dir : m.pathPrefix = some (canonDir t x)
  path : p = canonDir t x ++ [ARCHIVE_PREFIX ++ x]

/-- What the tool reads off a legacy archive. -/
def legacyDetails (x : String) (p : Path) : ArchiveDetails := ⟨ARCHIVE_PREFIX ++ x, p, x, p, true⟩

theorem legacyArchiveDetails_at (h : legacyArchiveDetails p m = .ok (some a)) :
    ∃ t x, LegacyAt t x p m ∧ a = legacyDetails x p := by
  unfold legacyArchiveDetails at h
  dsimp only at h
  split at h
  · cases h
  rename_i hform
  split at h
  · cases h
  rename_i hpre
  split at h
  · cases h
  rename_i hsafe
  rw [Bool.not_eq_true, Bool.not_eq_false'] at hpre hsafe
  rw [throw_eq_error, ite_error_ok] at h
  obtain ⟨horig, h⟩ := h
  obtain ⟨t, -, h⟩ := firstHit_some h
  have hname := startsWith_eq hpre
  generalize hx : dropStart ARCHIVE_PREFIX p.basename = x at hname h horig hsafe
  rw [hname] at h
  simp only [legacyCandidate, bind_ok, canonicalPath_ok] at h
  obtain ⟨_, ⟨-, rfl⟩, _, ⟨hvalid, rfl⟩, h⟩ := h
  split at h
  · cases h
  rename_i hapart
  split at h
  · cases h
  rename_i hdir
  split at h
  · cases h
  rename_i hpath
  rw [not_not] at hdir hpath
  simp only [dirname_canon, pure_eq_ok, Except.ok.injEq, Option.some.injEq] at hapart hdir hpath h
  refine ⟨t, x, ⟨⟨?_, ?_⟩, hsafe, hvalid, hapart, hdir, hpath⟩, ?_⟩
  · by_contra hn
    exact hform (.inr hn)
  · cases hs : m.state with
    | none => exact .inl rfl
    | some st =>
      have hreclaim : m.state = some .reclaiming ∧ m.legacyArchive = true := by
        by_contra hn
        exact hform (.inl ⟨by simp [hs], hn⟩)
      refine .inr ⟨hs ▸ hreclaim.1, hreclaim.2, ?_⟩
      by_contra hn
      exact horig ⟨hreclaim, hn⟩
  · rw [← h, ← hpath]
    rfl

theorem valid_original (h : LegacyAt t x p m) : isValidCsiIdentifier x = true := by
  have := valid_dropStart h.valid (startsWith_append _ _) (by rw [dropStart_append]; exact safe_ne_empty h.safe)
  rwa [dropStart_append] at this

theorem LegacyAt.details (h : LegacyAt t x p m) : legacyArchiveDetails p m = .ok (some (legacyDetails x p)) := by
  have hx := valid_original h
  have hbase : p.basename = ARCHIVE_PREFIX ++ x := by rw [h.path, basename_concat]
  have hcandidate : ∀ u, legacyCandidate p m (ARCHIVE_PREFIX ++ x) x u =
      .ok (if u = t then some (legacyDetails x p) else none) := by
    intro u
    rw [legacyCandidate, canonicalPath_eq hx, ok_bind, canonicalPath_eq h.valid, ok_bind]
    simp only [dirname_canon]
    by_cases hu : u = t
    · subst hu
      rw [if_neg h.apart, if_neg (not_not.mpr h.dir), if_neg (not_not.mpr h.path), ← h.path, if_pos rfl]
      rfl
    · have hdir : m.pathPrefix ≠ some (canonDir u x) := by
        rw [h.dir]
        exact fun he => hu (canonDir_type (Option.some.inj he)).symm
      rw [if_pos hdir, ite_self, if_neg hu]
      rfl
  have hstates : ¬((m.state ≠ none ∧ ¬(m.state = some .reclaiming ∧ m.legacyArchive = true)) ∨ m.archiveName ≠ none) := by
    rcases h.form.state with hs | ⟨hs, hl, -⟩ <;> simp [h.form.archiveName, *]
  have horig : ¬((m.state = some .reclaiming ∧ m.legacyArchive = true) ∧ m.originalVolumeId ≠ some x) := by
    rcases h.form.state with hs | ⟨-, -, ho⟩ <;> simp [*]
  rw [legacyArchiveDetails, if_neg hstates]
  dsimp only
  rw [hbase, startsWith_append, dropStart_append, h.safe, if_neg (by simp), if_neg (by simp), if_neg horig]
  cases t <;> simp [firstHit, PvType.all, hcandidate]

/-! ## Archives -/

/-- An archive under its own name in the archive directory. -/
structure Filed (a : ArchiveDetails) (p : Path) (m : Metadata) : Prop where
  identity : archiveIdentity m = some (a.archiveName, a.originalVolumeId)
  legacy : m.legacyArchive = false
  state : m.state = some .archived ∨ m.state = some .archiving ∨ m.state = some .reclaiming
  dir : m.pathPrefix = some ["archive"] ∨
    m.state = some .archiving ∧ ∃ t, m.pathPrefix = some (canonDir t a.originalVolumeId)
  path : p = ["archive", a.archiveName]
  details : a = ⟨a.archiveName, p, a.originalVolumeId, p, false⟩

theorem mapM_canonicalPath (hv : isValidCsiIdentifier v = true) :
    PvType.all.mapM (canonicalPath · v) = .ok (PvType.all.map fun u => canon u v) := by
  simp only [PvType.all, List.mapM_cons, List.mapM_nil, canonicalPath_eq hv, ok_bind]
  rfl

/-- The two layouts of archives. -/
theorem archive_cases (h : archiveMetadataDetails p m = .ok (some a)) :
    (∃ t x, LegacyAt t x p m ∧ a = legacyDetails x p) ∨ Filed a p m := by
  unfold archiveMetadataDetails at h
  split at h
  · exact .inl (legacyArchiveDetails_at h)
  rename_i hlegacy
  split at h
  · exact .inl (legacyArchiveDetails_at h)
  rename_i hstate
  split at h
  · cases h
  rename_i n o hid
  split at h
  · split at h <;> cases h
  rename_i hpath
  rw [not_not] at hpath
  obtain ⟨-, -, -, -, hvalid⟩ := archiveIdentity_some hid
  rw [mapM_canonicalPath hvalid, ok_bind] at h
  simp only [throw_eq_error, pure_eq_ok, ite_error_ok, not_not] at h
  obtain ⟨hdir, h⟩ := h
  cases h
  refine .inr ⟨hid, by simpa using hlegacy, ?_, ?_, hpath, by rw [hpath]⟩
  · by_contra hn
    simp only [not_or] at hn
    exact hstate ⟨hn.1, hn.2.1, hn.2.2⟩
  · simp only [List.map_cons, List.mem_cons] at hdir
    rcases hdir with hdir | hdir
    · exact .inl hdir
    · right
      split at hdir
      · rename_i harchiving
        simp only [List.mem_map] at hdir
        obtain ⟨_, ⟨_, ⟨u, -, rfl⟩, rfl⟩, he⟩ := hdir
        exact ⟨harchiving, u, by rw [← he, dirname_canon]⟩
      · cases hdir

theorem LegacyAt.archive (h : LegacyAt t x p m) : archiveMetadataDetails p m = .ok (some (legacyDetails x p)) := by
  unfold archiveMetadataDetails
  rcases h.form.state with hs | ⟨hs, hl, -⟩
  · simp [hs, h.details]
  · simp [hl, h.details]

theorem Filed.archive (h : Filed a p m) : archiveMetadataDetails p m = .ok (some a) := by
  obtain ⟨-, -, -, -, hvalid⟩ := archiveIdentity_some h.identity
  have hstate : ¬(m.state ≠ some .archived ∧ m.state ≠ some .archiving ∧ m.state ≠ some .reclaiming) := by
    rcases h.state with hs | hs | hs <;> simp [hs]
  rw [archiveMetadataDetails, h.legacy, if_neg Bool.false_ne_true, if_neg hstate, h.identity]
  dsimp only
  rw [if_neg (not_not.mpr h.path), mapM_canonicalPath hvalid, ok_bind, if_neg]
  · rw [← h.path, ← h.details]
    rfl
  · rw [not_not]
    rcases h.dir with hdir | ⟨hs, u, hdir⟩
    · simp [hdir]
    · rw [hdir, if_pos hs, ← dirname_canon]
      refine List.mem_map_of_mem (List.mem_cons_of_mem _ (List.mem_map_of_mem (List.mem_map_of_mem ?_)))
      exact PvType.mem_all u

/-- **Identity.** An archive reserves under its own name, with the original ID as alias. -/
theorem archive_identity (h : archiveMetadataDetails p m = .ok (some a)) :
    capacityRecordIdentity p m = .ok (a.archiveName, some a.originalVolumeId) := by
  rcases archive_cases h with ⟨t, x, hl, rfl⟩ | hf
  · rw [capacityRecordIdentity, hl.form.archiveName]
    simp [hl.details, legacyDetails, hl.valid]
  · obtain ⟨hname, -⟩ := archiveIdentity_some hf.identity
    have hstate : ¬(m.state ≠ some .archiving ∧ m.state ≠ some .archived ∧ m.state ≠ some .reclaiming) := by
      rcases hf.state with hs | hs | hs <;> simp [hs]
    rw [capacityRecordIdentity, hname]
    dsimp only
    rw [hf.identity]
    dsimp only
    rw [if_neg hstate, h]
    rfl

theorem archive_path (h : archiveMetadataDetails p m = .ok (some a)) : a.metadataPath = p ∧ a.payloadPath = p := by
  rcases archive_cases h with ⟨t, x, -, rfl⟩ | hf
  · exact ⟨rfl, rfl⟩
  · rw [hf.details]
    exact ⟨rfl, rfl⟩

/-- **Disjointness.** An archive is at no path of a volume. -/
theorem archive_not_volumePath (h : archiveMetadataDetails p m = .ok (some a)) (hp : p ∈ volumePaths u w) : False := by
  rcases archive_cases h with ⟨t, x, hl, rfl⟩ | hf
  · have hbase : p.basename = ARCHIVE_PREFIX ++ x := by rw [hl.path, basename_concat]
    obtain ⟨hw, hcanon⟩ := basename_archived hp (by rw [hbase]; exact startsWith_append _ _)
    obtain rfl : ARCHIVE_PREFIX ++ x = w := hbase.symm.trans hw
    have hd := congrArg Path.dirname (hl.path.symm.trans hcanon)
    rw [dirname_concat, dirname_canon] at hd
    obtain rfl := canonDir_type hd
    exact hl.apart hd
  · exact archivePath_ne_volumePaths hp hf.path

/-- The metadata of an archive as it is listed. -/
def listedMetadata (a : ArchiveDetails) (m : Metadata) : Metadata :=
  { m with originalVolumeId := some a.originalVolumeId, legacyArchive := a.legacy }

theorem archive_listed (h : archiveMetadataDetails p m = .ok (some a)) :
    archiveMetadataDetails p (listedMetadata a m) = .ok (some a) := by
  rcases archive_cases h with ⟨t, x, hl, rfl⟩ | hf
  · refine LegacyAt.archive (t := t) (x := x) ⟨⟨hl.form.archiveName, ?_⟩, hl.safe, hl.valid, hl.apart, hl.dir, hl.path⟩
    rcases hl.form.state with hs | ⟨hs, -⟩
    · exact .inl hs
    · exact .inr ⟨hs, rfl, rfl⟩
  · obtain ⟨hn, ho, hsafe, hpre, hvalid⟩ := archiveIdentity_some hf.identity
    refine Filed.archive ⟨?_, by rw [hf.details]; rfl, hf.state, hf.dir, hf.path, hf.details⟩
    rw [← hf.identity, archiveIdentity, archiveIdentity, listedMetadata, ho]

/-- **Tombstones.** The reclaim tombstone of an archive is the same archive. -/
theorem archive_tombstone (h : archiveMetadataDetails p m = .ok (some a)) :
    archiveMetadataDetails p (reclaimingMetadata a.archiveName a (listedMetadata a m)) = .ok (some a) := by
  rcases archive_cases h with ⟨t, x, hl, rfl⟩ | hf
  · exact LegacyAt.archive (t := t) (x := x)
      ⟨⟨rfl, .inr ⟨rfl, rfl, rfl⟩⟩, hl.safe, hl.valid, hl.apart, hl.dir, hl.path⟩
  · obtain ⟨hn, ho, hsafe, hpre, hvalid⟩ := archiveIdentity_some hf.identity
    have hlegacy : a.legacy = false := by rw [hf.details]
    refine Filed.archive ⟨?_, hlegacy, .inr (.inr rfl), .inl ?_, hf.path, hf.details⟩
    · rw [archiveIdentity, reclaimingMetadata, hlegacy]
      simp [hsafe, hpre, hvalid]
    · simp [reclaimingMetadata, hlegacy]

/-! ## The list of archives -/

/-- The entry of a metadata file; an interrupted archive has none. -/
def listedPv (f : Sigma fun _ : Path => Metadata) : Option ArchivedPv :=
  match archiveMetadataDetails f.1 f.2 with
  | .ok (some a) => if f.2.state = some .archiving then none else some ⟨a.archiveName, f.1, listedMetadata a f.2⟩
  | _ => none

theorem listedPv_some {f : Sigma fun _ : Path => Metadata} {pv : ArchivedPv} : listedPv f = some pv ↔
    ∃ a, archiveMetadataDetails f.1 f.2 = .ok (some a) ∧ f.2.state ≠ some .archiving ∧
      pv = ⟨a.archiveName, f.1, listedMetadata a f.2⟩ := by
  unfold listedPv
  split
  · rename_i a ha
    split
    · rename_i hs
      exact ⟨fun h => (by cases h), fun ⟨_, _, hn, _⟩ => absurd hs hn⟩
    · rename_i hs
      constructor
      · rintro ⟨⟩
        exact ⟨a, ha, hs, rfl⟩
      · rintro ⟨b, hb, -, rfl⟩
        cases ha.symm.trans hb
        rfl
  · rename_i hn
    exact ⟨fun h => (by cases h), fun ⟨a, ha, _⟩ => absurd ha (hn a)⟩

/-- The list succeeds when every file can be classified and no name occurs twice. -/
theorem listArchivedPvs_ok {pvs : List ArchivedPv} : ∀ {files : List (Sigma fun _ : Path => Metadata)}
    {found : List ArchivedPv}, (found.map ArchivedPv.name).Nodup →
    (listArchivedPvs files found = .ok pvs ↔ (∀ f ∈ files, ∃ o, archiveMetadataDetails f.1 f.2 = .ok o) ∧
      ((found.reverse ++ files.filterMap listedPv).map ArchivedPv.name).Nodup ∧
      pvs = found.reverse ++ files.filterMap listedPv)
  | [], found, hnd => by
    simp only [listArchivedPvs, pure_eq_ok, Except.ok.injEq, List.not_mem_nil, false_implies, implies_true,
      List.filterMap_nil, List.append_nil, true_and, List.map_reverse, List.nodup_reverse, hnd, eq_comm]
  | ⟨p, m⟩ :: files, found, hnd => by
    rw [listArchivedPvs, List.forall_mem_cons]
    cases ha : archiveMetadataDetails p m with
    | error e => simp [error_bind]
    | ok o =>
      cases o with
      | none =>
        have hskip : listedPv ⟨p, m⟩ = none := by simp only [listedPv, ha]
        simp only [ok_bind, List.filterMap_cons_none hskip, Except.ok.injEq, exists_eq', true_and]
        exact listArchivedPvs_ok hnd
      | some a =>
        simp only [ok_bind, Except.ok.injEq, exists_eq', true_and]
        split
        · rename_i hs
          have hskip : listedPv ⟨p, m⟩ = none := by simp only [listedPv, ha, hs, if_true]
          rw [List.filterMap_cons_none hskip]
          exact listArchivedPvs_ok hnd
        · rename_i hs
          have hentry : listedPv ⟨p, m⟩ = some ⟨a.archiveName, p, listedMetadata a m⟩ :=
            listedPv_some.mpr ⟨a, ha, hs, rfl⟩
          rw [List.filterMap_cons_some hentry]
          split
          · rename_i hdup
            simp only [throw_eq_error, reduceCtorEq, false_iff, not_and]
            rintro - hall
            rw [List.map_append, List.map_cons, List.nodup_append] at hall
            have := hall.2.2 a.archiveName (by simpa using hdup) a.archiveName List.mem_cons_self
            exact absurd rfl this
          · rename_i hnew
            rw [(archive_path ha).1]
            rw [listArchivedPvs_ok (by rw [List.map_cons, List.nodup_cons]; exact ⟨hnew, hnd⟩)]
            simp only [List.reverse_cons, List.append_assoc, List.singleton_append]
            rfl

/-- A round of the tool is about one metadata file. -/
def Lists (s : Pool) (pv : ArchivedPv) : Prop :=
  ∃ m a, s.metadata.lookup pv.metadataPath = some m ∧ archiveMetadataDetails pv.metadataPath m = .ok (some a) ∧
    m.state ≠ some .archiving ∧ pv.name = a.archiveName ∧ pv.values = listedMetadata a m

theorem Lists.of_lookup {s s' : Pool} {pv : ArchivedPv} (h : Lists s pv)
    (hm : s'.metadata.lookup pv.metadataPath = s.metadata.lookup pv.metadataPath) : Lists s' pv := by
  obtain ⟨m, a, hlook, hrest⟩ := h
  exact ⟨m, a, hm.trans hlook, hrest⟩

theorem lists_iff {s : Pool} {pv : ArchivedPv} : pv ∈ s.metadata.entries.filterMap listedPv ↔ Lists s pv := by
  simp only [List.mem_filterMap, listedPv_some]
  constructor
  · rintro ⟨⟨p, m⟩, hf, a, ha, hs, rfl⟩
    exact ⟨m, a, AList.mem_lookup_iff.mpr hf, ha, hs, rfl, rfl⟩
  · rintro ⟨m, a, hm, ha, hs, hn, hv⟩
    obtain ⟨name, path, values⟩ := pv
    subst hn hv
    exact ⟨⟨path, m⟩, AList.mem_lookup_iff.mp hm, a, ha, hs, rfl⟩

/-- The entries stand in the order of their files. -/
theorem listedPv_sublist : ∀ files : List (Sigma fun _ : Path => Metadata),
    ((files.filterMap listedPv).map ArchivedPv.metadataPath).Sublist (files.map Sigma.fst)
  | [] => .slnil
  | f :: files => by
    cases hf : listedPv f with
    | none =>
      rw [List.filterMap_cons_none hf]
      exact .cons _ (listedPv_sublist files)
    | some pv =>
      obtain ⟨a, -, -, rfl⟩ := listedPv_some.mp hf
      rw [List.filterMap_cons_some hf]
      exact .cons_cons _ (listedPv_sublist files)

/-- The list of archives, if there is one: its entries are about different files. -/
theorem getArchivedPvs_ok {s : Pool} {c : Option String} {pvs : List ArchivedPv} (h : getArchivedPvs s c = .ok pvs) :
    (pvs.map ArchivedPv.metadataPath).Nodup ∧ ∀ pv, pv ∈ pvs ↔ Lists s pv ∧ c.all (· = pv.name) = true := by
  obtain ⟨all, hall, h⟩ := bind_ok.mp h
  cases h
  obtain ⟨-, -, rfl⟩ := (listArchivedPvs_ok (by simp)).mp hall
  rw [List.reverse_nil, List.nil_append]
  refine ⟨?_, fun pv => ?_⟩
  · have hkeys : (s.metadata.entries.map Sigma.fst).Nodup := s.metadata.nodupKeys
    exact (hkeys.sublist (listedPv_sublist _)).sublist (List.filter_sublist.map _)
  · rw [List.mem_filter, lists_iff]

/-! ## One round -/

/-- At `p` lies the reclaim tombstone of the archive `a`. -/
def Reclaiming (a : ArchiveDetails) (p : Path) (s : Pool) : Prop :=
  ∃ m, s.metadata.lookup p = some m ∧ archiveMetadataDetails p m = .ok (some a) ∧ m.state = some .reclaiming

/-- A crash condition that the tool keeps, step by step: it writes the tombstone of an archive, removes its payload, then
its row, then the tombstone. -/
structure Cleanup (C : Pool → Prop) : Prop where
  tombstone : ∀ {s p m a}, C s → s.metadata.lookup p = some m → archiveMetadataDetails p m = .ok (some a) →
    C { s with metadata := s.metadata.insert p (reclaimingMetadata a.archiveName a (listedMetadata a m)) }
  payload : ∀ {s p a} {payloads : Table Payload}, C s → Reclaiming a p s →
    (∀ q, q ≠ p → payloads.lookup q = s.payloads.lookup q) →
    ((payloads.lookup p).isSome → (s.payloads.lookup p).isSome) → C { s with payloads }
  release : ∀ {s s' p a}, C s → Reclaiming a p s → s.payloads.lookup p = none →
    releaseArchivedPvReservation s a.archiveName = .ok s' → C s'
  unlink : ∀ {s s' p a}, C s → Reclaiming a p s → s.payloads.lookup p = none →
    releaseArchivedPvReservation s a.archiveName = .ok s' → C s' → C { s' with metadata := s'.metadata.erase p }

section Round

variable {s s' : Pool} {pv : ArchivedPv} {C : Pool → Prop}

theorem releaseArchivedPvReservation_ok {n : String} (h : releaseArchivedPvReservation s n = .ok s') :
    ∃ s₁, rebuildCommittedCapacity s = .ok s₁ ∧ s' = removePvRecord s₁ n ∧ ∃ rows, s' = { s with rows } := by
  obtain ⟨s₁, h₁, h⟩ := bind_ok.mp h
  cases h
  obtain ⟨-, rows, -, rfl, -⟩ := rebuild_rows h₁
  exact ⟨_, h₁, rfl, rows.erase n, rfl⟩

theorem Reclaiming.of_metadata (h : Reclaiming a p s) (hm : s'.metadata = s.metadata) : Reclaiming a p s' := by
  obtain ⟨m, hlook, hm'⟩ := h
  exact ⟨m, by rw [hm]; exact hlook, hm'⟩

/-- After the tombstone, a round removes payload, row and tombstone. -/
theorem inv_reclaim (hC : Cleanup C) (hs : C s) (h : Reclaiming a p s) :
    (do
      removePayload p fun _ => false
      releaseArchivedPvReservationStep a.archiveName
      unlinkMetadata p : PoolProg Unit).inv C (fun _ s' => C s' ∧ s'.metadata = s.metadata.erase p) s := by
  have hgone : ∃ payloads : Table Payload, payloads.lookup p = none ∧ (∀ q, q ≠ p → payloads.lookup q = s.payloads.lookup q) ∧
      (removePayload p fun _ => false).inv C (fun _ s' => s' = { s with payloads }) s := by
    cases hp : s.payloads.lookup p with
    | none => exact ⟨s.payloads, hp, fun _ _ => rfl, (completes_removeNoPayload hp hs rfl).1⟩
    | some payload =>
      have hpart : ∀ {payloads : Table Payload}, (∀ q, q ≠ p → payloads.lookup q = s.payloads.lookup q) →
          C { s with payloads } := fun hoff => hC.payload hs h hoff fun _ => by rw [hp]; rfl
      have herase : ∀ q, q ≠ p → (s.payloads.erase p).lookup q = s.payloads.lookup q := fun q hq => AList.lookup_erase_ne hq
      refine ⟨s.payloads.erase p, AList.lookup_erase _ _, herase, (completes_removePayload hp rfl hs (fun rest => ?_)
        (hpart herase) rfl).1⟩
      exact hpart fun q hq => AList.lookup_insert_ne hq
  obtain ⟨payloads, hnone, hoff, hinv⟩ := hgone
  refine inv_bind (inv_mono (fun _ s₁ hs₁ => ?_) hinv)
  subst hs₁
  have hs₁ : C { s with payloads } := hC.payload hs h hoff fun hsome => by rw [hnone] at hsome; cases hsome
  have h₁ : Reclaiming a p { s with payloads } := h.of_metadata rfl
  refine inv_bind (inv_transaction hs₁ fun _ s₂ hs₂ => ?_)
  obtain ⟨s₂', hrelease, hs₂⟩ := bind_ok.mp hs₂
  cases hs₂
  obtain ⟨-, -, -, rows, rfl⟩ := releaseArchivedPvReservation_ok hrelease
  have hs₂ := hC.release hs₁ h₁ hnone hrelease
  have hs₃ := hC.unlink hs₁ h₁ hnone hrelease hs₂
  exact ⟨hs₂, hs₁, (completes_unlinkMetadata hs₂ hs₃ ⟨hs₃, rfl⟩).1⟩

/-- **One round of the tool.** -/
theorem inv_deleteArchivedPv (hC : Cleanup C) (hs : C s) (h : Lists s pv) :
    (deleteArchivedPv pv).inv C (fun _ s' => C s' ∧ s'.metadata.lookup pv.metadataPath = none ∧
      ∀ q, q ≠ pv.metadataPath → s'.metadata.lookup q = s.metadata.lookup q) s := by
  obtain ⟨m, a, hm, ha, -, hname, hvalues⟩ := h
  obtain ⟨name, p, values⟩ := pv
  subst hname hvalues
  dsimp only at hm ha ⊢
  obtain ⟨hmeta, hpay⟩ := archive_path ha
  refine inv_bind (inv_ofExcept hs fun o ho => ?_)
  cases (archive_listed ha).symm.trans ho
  dsimp only
  rw [if_neg (not_not.mpr rfl), hmeta, hpay]
  have hdone : ∀ {s₁ s' : Pool}, (∀ q, q ≠ p → s₁.metadata.lookup q = s.metadata.lookup q) →
      C s' ∧ s'.metadata = s₁.metadata.erase p → C s' ∧ s'.metadata.lookup p = none ∧
        ∀ q, q ≠ p → s'.metadata.lookup q = s.metadata.lookup q := by
    rintro s₁ s' hoff ⟨hc, he⟩
    refine ⟨hc, by rw [he]; exact AList.lookup_erase _ _, fun q hq => ?_⟩
    rw [he, AList.lookup_erase_ne hq, hoff q hq]
  split
  · have hs₁ := hC.tombstone hs hm ha
    refine inv_bind (completes_writeMetadata hs hs₁ ?_).1
    refine inv_mono (fun _ s' => hdone fun q hq => AList.lookup_insert_ne hq) (inv_reclaim hC hs₁ ⟨_, AList.lookup_insert _,
      archive_tombstone ha, rfl⟩)
  · rename_i hstate
    rw [not_not] at hstate
    exact inv_mono (fun _ s' => hdone fun _ _ => rfl) (inv_reclaim hC hs ⟨m, hm, ha, hstate⟩)

/-- All rounds of the tool. -/
theorem inv_deleteArchivedPvs (hC : Cleanup C) : ∀ {pvs : List ArchivedPv} {s : Pool}, C s →
    (pvs.map ArchivedPv.metadataPath).Nodup → (∀ pv ∈ pvs, Lists s pv) →
    (deleteArchivedPvs pvs).inv C (fun _ s' => C s' ∧ (∀ pv ∈ pvs, s'.metadata.lookup pv.metadataPath = none) ∧
      ∀ q, q ∉ pvs.map ArchivedPv.metadataPath → s'.metadata.lookup q = s.metadata.lookup q) s
  | [], s, hs, _, _ => inv_ret ⟨hs, by simp, fun _ _ => rfl⟩
  | pv :: pvs, s, hs, hnd, h => by
    rw [List.map_cons, List.nodup_cons] at hnd
    obtain ⟨hpv, hpvs⟩ := List.forall_mem_cons.mp h
    refine inv_bind (inv_mono ?_ (inv_deleteArchivedPv hC hs hpv))
    rintro _ s₁ ⟨hs₁, hnone, hoff⟩
    have hlists : ∀ pv' ∈ pvs, Lists s₁ pv' := fun pv' hmem => (hpvs pv' hmem).of_lookup
      (hoff _ fun he => hnd.1 (he ▸ List.mem_map_of_mem hmem))
    refine inv_mono ?_ (inv_deleteArchivedPvs hC hs₁ hnd.2 hlists)
    rintro _ s₂ ⟨hs₂, hgone, hoff₂⟩
    refine ⟨hs₂, List.forall_mem_cons.mpr ⟨(hoff₂ _ hnd.1).trans hnone, hgone⟩, fun q hq => ?_⟩
    rw [List.map_cons, List.mem_cons, not_or] at hq
    rw [hoff₂ q hq.2, hoff q hq.1]

/-- **The tool** keeps the crash condition, and removes the metadata of the archives that it is asked for. -/
theorem inv_removeArchivedPv (hC : Cleanup C) (hs : C s) (c : Option String) :
    (removeArchivedPv c).inv C (fun _ s' => C s' ∧
      (∀ pv, Lists s pv → c.all (· = pv.name) = true → s'.metadata.lookup pv.metadataPath = none) ∧
      ∀ q, s.metadata.lookup q = none → s'.metadata.lookup q = none) s := by
  refine inv_bind (inv_read hs fun pvs hpvs => ?_)
  obtain ⟨hnd, hmem⟩ := getArchivedPvs_ok hpvs
  refine inv_mono ?_ (inv_deleteArchivedPvs hC hs hnd fun pv hpv => ((hmem pv).mp hpv).1)
  rintro _ s' ⟨hs', hgone, hoff⟩
  refine ⟨hs', fun pv hl hc => hgone pv ((hmem pv).mpr ⟨hl, hc⟩), fun q hq => ?_⟩
  by_cases hlisted : q ∈ pvs.map ArchivedPv.metadataPath
  · obtain ⟨pv, hpv, rfl⟩ := List.mem_map.mp hlisted
    exact hgone pv hpv
  · rw [hoff q hlisted, hq]

end Round

end Kadalu
