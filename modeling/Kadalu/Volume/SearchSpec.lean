import Kadalu.Durable.Returns
import Kadalu.Pool.ScanSpec
import Kadalu.Volume.Paths
import Kadalu.Volume.Search

/-!
# What a search finds

`findVolume` is the search as a function of the pools; `searchVolume` computes it and changes nothing. A search finds a
volume when exactly one pool reports it (`findVolume_some`), and nothing when no pool does (`findVolume_none`). One shared
pool reports committed metadata (`searchPool_active`), else an interrupted archive (`searchPool_transitional`), else a
pending create (`searchPool_pending`). `FoundOn` is what every found volume is like, also next to others
(`returns_searchVolume`).
-/

namespace Kadalu

open Durable Durable.Prog Except

variable [VolnameHash] {hosts : List HostVol} {host : HostVol} {v : String} {w : World} {s : Pool} {t : PvType}
  {p q : Path} {m : Metadata}

/-! ## All pools -/

/-- The paths of a valid ID in the order of the search. -/
def allPaths (v : String) : List (PvType × Path) := (PvType.all.map fun t => (volumePaths t v).map (t, ·)).flatten

theorem searchPaths_ok {paths : List (PvType × Path)} :
    searchPaths v = .ok paths ↔ isValidCsiIdentifier v = true ∧ paths = allPaths v := by
  simp only [searchPaths, searchPathsOf, PvType.all, List.mapM_cons, List.mapM_nil, bind_ok, canonicalVolumePaths_ok,
    pure_eq_ok, Except.ok.injEq]
  constructor
  · rintro ⟨_, ⟨_, ⟨_, ⟨hv, rfl⟩, rfl⟩, _, ⟨_, ⟨_, ⟨-, rfl⟩, rfl⟩, _, ⟨_, ⟨_, ⟨-, rfl⟩, rfl⟩, _, rfl, rfl⟩, rfl⟩, rfl⟩, rfl⟩
    exact ⟨hv, rfl⟩
  · rintro ⟨hv, rfl⟩
    exact ⟨_, ⟨_, ⟨_, ⟨hv, rfl⟩, rfl⟩, _, ⟨_, ⟨_, ⟨hv, rfl⟩, rfl⟩, _, ⟨_, ⟨_, ⟨hv, rfl⟩, rfl⟩, _, rfl, rfl⟩, rfl⟩, rfl⟩, rfl⟩

theorem mem_allPaths : (t, p) ∈ allPaths v ↔ p ∈ volumePaths t v := by
  simp only [allPaths, List.mem_flatten, List.mem_map]
  constructor
  · rintro ⟨_, ⟨u, -, rfl⟩, hp⟩
    obtain ⟨q, hq, he⟩ := List.mem_map.mp hp
    cases he
    exact hq
  · exact fun h => ⟨_, ⟨t, PvType.mem_all t, rfl⟩, List.mem_map.mpr ⟨p, h, rfl⟩⟩

theorem nodup_volumePaths : (volumePaths t v).Nodup := by
  unfold volumePaths
  split
  · rename_i h
    simpa using h.2.symm
  · exact List.nodup_singleton _

theorem nodup_allPaths : (allPaths v).Nodup := by
  refine List.nodup_flatten.mpr ⟨fun l hl => ?_, ?_⟩
  · obtain ⟨u, -, rfl⟩ := List.mem_map.mp hl
    exact nodup_volumePaths.map (Prod.mk_right_injective u)
  · refine List.pairwise_map.mpr ((by decide : PvType.all.Nodup).imp fun {u u'} hne x hx hx' => ?_)
    obtain ⟨p, -, rfl⟩ := List.mem_map.mp hx
    obtain ⟨p', -, he⟩ := List.mem_map.mp hx'
    exact hne (congrArg Prod.fst he).symm

/-- The parent directory of a path of `v` determines the path among those of `v`. -/
theorem filter_allPaths (hq : q ∈ volumePaths t v) :
    ((allPaths v).filter fun path => some path.2.dirname = some q.dirname) = [(t, q)] := by
  have hmem : ∀ x, x ∈ (allPaths v).filter (fun path => some path.2.dirname = some q.dirname) ↔ x ∈ [(t, q)] := by
    rintro ⟨u, p⟩
    simp only [List.mem_filter, mem_allPaths, decide_eq_true_eq, Option.some.injEq, List.mem_singleton, Prod.mk.injEq]
    constructor
    · rintro ⟨hp, hd⟩
      obtain rfl := dirname_volumePaths hp hq hd
      exact ⟨(volumePaths_disjoint hp hq).1, rfl⟩
    · rintro ⟨rfl, rfl⟩
      exact ⟨hq, rfl⟩
  exact List.perm_singleton.mp ((List.perm_ext_iff_of_nodup (nodup_allPaths.filter _) (List.nodup_singleton _)).mpr hmem)

/-- The loop of the search over the hosting volumes. -/
def findOnHosts (v : String) (w : World) : List HostVol → Option Volume → Except Err (Option Volume)
  | [], foundVolume => pure foundVolume
  | host :: hosts, foundVolume => do
    let found ← searchPool host (w host.name) v (allPaths v)
    if found.isSome && foundVolume.isSome then throw (.value "Duplicate volume identity across hosting volumes")
    else findOnHosts v w hosts (found.or foundVolume)

/-- The search as a function of the pools. -/
def findVolume (hosts : List HostVol) (v : String) (w : World) : Except Err (Option Volume) := do
  let _ ← searchPaths v
  findOnHosts v w hosts none

theorem inv_searchHosts {C : World → Prop} {Q : Option Volume → World → Prop} (hC : C w) :
    ∀ {hosts : List HostVol} {found : Option Volume}, (∀ o, findOnHosts v w hosts found = .ok o → Q o w) →
      (searchHosts v (allPaths v) hosts found).inv C Q w
  | [], found, h => inv_ret (h found rfl)
  | host :: hosts, found, h => by
    refine inv_bind (inv_read hC fun o ho => ?_)
    split
    · exact inv_raise hC
    · rename_i hdup
      refine inv_searchHosts hC fun r hr => h r ?_
      rw [findOnHosts, ho, ok_bind, if_neg hdup, hr]

/-- **The search reads.** -/
theorem inv_searchVolume {C : World → Prop} {Q : Option Volume → World → Prop} (hC : C w)
    (h : ∀ o, findVolume hosts v w = .ok o → Q o w) : (searchVolume hosts v).inv C Q w := by
  refine inv_bind (inv_ofExcept hC fun paths hp => ?_)
  obtain ⟨hv, rfl⟩ := searchPaths_ok.mp hp
  refine inv_searchHosts hC fun o ho => h o ?_
  rw [findVolume, hp, ok_bind, ho]

theorem run_searchHosts : ∀ {hosts : List HostVol} {found : Option Volume},
    (searchHosts v (allPaths v) hosts found).run w = (findOnHosts v w hosts found, w)
  | [], found => rfl
  | host :: hosts, found => by
    rw [searchHosts, findOnHosts, bind_eq, run_andThen, run_read]
    cases ho : searchPool host (w host.name) v (allPaths v) with
    | error e => rfl
    | ok o =>
      rw [ok_bind]
      dsimp only [onOk_ok]
      split
      · rfl
      · exact run_searchHosts

theorem run_searchVolume : (searchVolume hosts v).run w = (findVolume hosts v w, w) := by
  rw [searchVolume, findVolume, bind_eq, run_andThen, run_ofExcept]
  cases hp : searchPaths v with
  | error e => rfl
  | ok paths =>
    obtain ⟨hv, rfl⟩ := searchPaths_ok.mp hp
    exact run_searchHosts

/-- A pool that reports nothing of `v`. -/
def Unreported (v : String) (w : World) (host : HostVol) : Prop :=
  searchPool host (w host.name) v (allPaths v) = .ok none

/-- `v` is reported by one pool, as `vol`. -/
def ReportedBy (hosts : List HostVol) (v : String) (w : World) (host : HostVol) (vol : Volume) : Prop :=
  ∃ before after, hosts = before ++ host :: after ∧ searchPool host (w host.name) v (allPaths v) = .ok (some vol) ∧
    (∀ other ∈ before, Unreported v w other) ∧ ∀ other ∈ after, Unreported v w other

theorem findOnHosts_some {vol o} : ∀ {hosts : List HostVol},
    findOnHosts v w hosts (some vol) = .ok o ↔ o = some vol ∧ ∀ host ∈ hosts, Unreported v w host
  | [] => by simp [findOnHosts, eq_comm]
  | host :: hosts => by
    rw [findOnHosts, bind_ok, List.forall_mem_cons]
    constructor
    · rintro ⟨r, hr, h⟩
      cases r with
      | some r => cases h
      | none =>
        obtain ⟨ho, hrest⟩ := findOnHosts_some.mp h
        exact ⟨ho, hr, hrest⟩
    · rintro ⟨rfl, hr, hrest⟩
      exact ⟨none, hr, findOnHosts_some.mpr ⟨rfl, hrest⟩⟩

theorem findOnHosts_none {o} : ∀ {hosts : List HostVol},
    findOnHosts v w hosts none = .ok o ↔
      (o = none ∧ ∀ host ∈ hosts, Unreported v w host) ∨ ∃ host vol, o = some vol ∧ ReportedBy hosts v w host vol
  | [] => by simp [findOnHosts, ReportedBy, eq_comm]
  | host :: hosts => by
    rw [findOnHosts, bind_ok, List.forall_mem_cons]
    constructor
    · rintro ⟨r, hr, h⟩
      cases r with
      | some r =>
        obtain ⟨rfl, hrest⟩ := findOnHosts_some.mp h
        exact .inr ⟨host, r, rfl, [], hosts, rfl, hr, by simp, hrest⟩
      | none =>
        rcases findOnHosts_none.mp h with ⟨rfl, hrest⟩ | ⟨k, vol, rfl, before, after, rfl, hk, hb, ha⟩
        · exact .inl ⟨rfl, hr, hrest⟩
        · exact .inr ⟨k, vol, rfl, host :: before, after, rfl, hk, List.forall_mem_cons.mpr ⟨hr, hb⟩, ha⟩
    · rintro (⟨rfl, hr, hrest⟩ | ⟨k, vol, rfl, before, after, he, hk, hb, ha⟩)
      · exact ⟨none, hr, findOnHosts_none.mpr (.inl ⟨rfl, hrest⟩)⟩
      · cases before with
        | nil =>
          cases he
          exact ⟨some vol, hk, findOnHosts_some.mpr ⟨rfl, ha⟩⟩
        | cons b before =>
          cases he
          obtain ⟨hr, hb⟩ := List.forall_mem_cons.mp hb
          exact ⟨none, hr, findOnHosts_none.mpr (.inr ⟨k, vol, rfl, before, after, rfl, hk, hb, ha⟩)⟩

theorem findVolume_ok {o} : findVolume hosts v w = .ok o ↔ isValidCsiIdentifier v = true ∧
    ((o = none ∧ ∀ host ∈ hosts, Unreported v w host) ∨ ∃ host vol, o = some vol ∧ ReportedBy hosts v w host vol) := by
  simp only [findVolume, bind_ok, searchPaths_ok, findOnHosts_none]
  exact ⟨fun ⟨_, ⟨hv, _⟩, h⟩ => ⟨hv, h⟩, fun ⟨hv, h⟩ => ⟨_, ⟨hv, rfl⟩, h⟩⟩

theorem findVolume_some {vol : Volume} (hv : isValidCsiIdentifier v = true) (h : ReportedBy hosts v w host vol) :
    findVolume hosts v w = .ok (some vol) :=
  findVolume_ok.mpr ⟨hv, .inr ⟨host, vol, rfl, h⟩⟩

theorem findVolume_none (hv : isValidCsiIdentifier v = true) (h : ∀ host ∈ hosts, Unreported v w host) :
    findVolume hosts v w = .ok none :=
  findVolume_ok.mpr ⟨hv, .inl ⟨rfl, h⟩⟩

/-! ## One pool -/

/-- `v` has no metadata at its paths, but perhaps at `q`. -/
def NoMetadataBut (s : Pool) (v : String) (q : Path) : Prop :=
  ∀ u p, p ∈ volumePaths u v → p ≠ q → s.metadata.lookup p = none

/-- `v` has no metadata at its paths. -/
def NoMetadata (s : Pool) (v : String) : Prop := ∀ u p, p ∈ volumePaths u v → s.metadata.lookup p = none

/-- Metadata of an archive of `v` that was interrupted after it moved. -/
def Transitional (v : String) (p : Path) (m : Metadata) : Prop :=
  p.dirname = ["archive"] ∧ m.state = some .archiving ∧ m.originalVolumeId = some v

theorem metadataVolume_active (hm : s.metadata.lookup q = some m) (hq : q ∈ volumePaths t v)
    (honly : NoMetadataBut s v q) :
    metadataVolume host s v (allPaths v) = (activeVolume host v t q m >>= fun vol => pure (some vol)) := by
  have hfind : (allPaths v).find? (fun path => (s.metadata.lookup path.2).isSome) = some (t, q) := by
    cases hf : (allPaths v).find? (fun path => (s.metadata.lookup path.2).isSome) with
    | none =>
      have := List.find?_eq_none.mp hf (t, q) (mem_allPaths.mpr hq)
      rw [hm] at this
      exact absurd rfl this
    | some path =>
      obtain ⟨u, p⟩ := path
      have hp : p ∈ volumePaths u v := mem_allPaths.mp (List.mem_of_find?_eq_some hf)
      have hsome := List.find?_some hf
      by_cases hpq : p = q
      · subst hpq
        rw [(volumePaths_disjoint hp hq).1]
      · rw [honly u p hp hpq] at hsome
        cases hsome
  rw [metadataVolume, hfind]
  dsimp only
  rw [hm]

theorem metadataVolume_none (h : NoMetadata s v) :
    metadataVolume host s v (allPaths v) = transitionalArchiveVolume host s v (allPaths v) := by
  have hfind : (allPaths v).find? (fun path => (s.metadata.lookup path.2).isSome) = none := by
    refine List.find?_eq_none.mpr fun path hpath => ?_
    obtain ⟨u, p⟩ := path
    rw [h u p (mem_allPaths.mp hpath)]
    exact Bool.false_ne_true
  rw [metadataVolume, hfind]

section Transitional

variable {paths : List (PvType × Path)} {found : Option Volume} {files : List (Sigma fun _ : Path => Metadata)}

theorem transitionalArchives_skip {f : Sigma fun _ : Path => Metadata} (h : ¬Transitional v f.1 f.2) :
    transitionalArchives host v paths (f :: files) found = transitionalArchives host v paths files found := by
  obtain ⟨p, m⟩ := f
  simp only [Transitional, not_and_or] at h
  rw [transitionalArchives, if_pos h]

theorem transitionalArchives_none (h : ∀ f ∈ files, ¬Transitional v f.1 f.2) :
    transitionalArchives host v paths files found = .ok found := by
  induction files with
  | nil => rfl
  | cons f files ih =>
    obtain ⟨hf, hfiles⟩ := List.forall_mem_cons.mp h
    rw [transitionalArchives_skip hf, ih hfiles]

/-- The volume of an interrupted archive. -/
def transitionalVolume (host : HostVol) (v : String) (t : PvType) (q p : Path) (m : Metadata) : Volume :=
  { volname := v, voltype := t, host, size := m.size, volpath := q, state := some .archiving, metadataPath := some p,
    archiveName := m.archiveName }

theorem transitionalArchives_some {d : Option ArchiveDetails} (hmem : ⟨p, m⟩ ∈ files) (hnd : files.Nodup)
    (honly : ∀ f ∈ files, Transitional v f.1 f.2 → f = ⟨p, m⟩) (htrans : Transitional v p m)
    (hd : archiveMetadataDetails p m = .ok d) (hpath : transitionalPath v paths m = .ok (t, q)) :
    transitionalArchives host v paths files none = .ok (some (transitionalVolume host v t q p m)) := by
  induction files with
  | nil => cases hmem
  | cons f files ih =>
    obtain ⟨hf, hnd⟩ := List.nodup_cons.mp hnd
    obtain ⟨honlyf, honlys⟩ := List.forall_mem_cons.mp honly
    by_cases he : f = ⟨p, m⟩
    · subst he
      have hrest : ∀ g ∈ files, ¬Transitional v g.1 g.2 := fun g hg ht => hf (honlys g hg ht ▸ hg)
      obtain ⟨hdir, hstate, horig⟩ := htrans
      unfold transitionalArchives
      rw [if_neg (by simp [hdir, hstate, horig]), hd]
      simp only [ok_bind, hpath, Option.isSome_none, Bool.false_eq_true, if_false]
      exact transitionalArchives_none hrest
    · rw [transitionalArchives_skip fun ht => he (honlyf ht)]
      refine ih ?_ hnd honlys
      rcases List.mem_cons.mp hmem with h | h
      · exact absurd h.symm he
      · exact h

end Transitional

theorem pendingCreationVolume_none (hs : Scannable s) (h : ∀ i, ¬Creating s v i) :
    pendingCreationVolume host s v = .ok none := by
  obtain ⟨cs, hcs⟩ : ∃ cs, creationIntentRecords s = .ok cs := collectIntents_table.mpr ⟨hs.creations, hs.creation_inj⟩
  have hnone : cs.lookup v = none := by
    cases hi : cs.lookup v with
    | none => rfl
    | some i => exact absurd ((lookup_collectIntents hcs).mp hi) (h i)
  rw [pendingCreationVolume, hcs, ok_bind, hnone]
  rfl

/-- The volume of a pending create. -/
def pendingVolume (host : HostVol) (v : String) (i : CreationIntent) : Volume :=
  { volname := v, voltype := i.pvtype, host, size := i.size, volpath := i.path, state := some .creating,
    creationIntent := some i }

theorem pendingCreationVolume_ok {o : Option Volume} : pendingCreationVolume host s v = .ok o ↔
    ∃ cs, creationIntentRecords s = .ok cs ∧ o = (cs.lookup v).map (pendingVolume host v) := by
  simp only [pendingCreationVolume, bind_ok]
  refine exists_congr fun cs => and_congr_right fun _ => ?_
  cases cs.lookup v with
  | none => simp [eq_comm]
  | some i => simp [eq_comm, pendingVolume]

/-- Committed metadata of a shared pool. -/
theorem searchPool_active (hhost : host.singlePvPerPool = false) {vol : Volume} (hm : s.metadata.lookup q = some m)
    (hq : q ∈ volumePaths t v) (honly : NoMetadataBut s v q) (hvol : activeVolume host v t q m = .ok vol) :
    searchPool host s v (allPaths v) = .ok (some vol) := by
  rw [searchPool, hhost, if_neg Bool.false_ne_true, metadataVolume_active hm hq honly, hvol]
  rfl

/-- An interrupted archive of a shared pool. -/
theorem searchPool_transitional (hhost : host.singlePvPerPool = false) {d : Option ArchiveDetails}
    (hnone : NoMetadata s v) (hm : s.metadata.lookup p = some m)
    (honly : ∀ p' m', s.metadata.lookup p' = some m' → Transitional v p' m' → p' = p) (htrans : Transitional v p m)
    (hd : archiveMetadataDetails p m = .ok d) (hpath : transitionalPath v (allPaths v) m = .ok (t, q)) :
    searchPool host s v (allPaths v) = .ok (some (transitionalVolume host v t q p m)) := by
  rw [searchPool, hhost, if_neg Bool.false_ne_true, metadataVolume_none hnone, transitionalArchiveVolume,
    transitionalArchives_some (AList.mem_lookup_iff.mp hm) (entries_nodup _) (fun f hf ht => ?_) htrans hd hpath]
  · rfl
  · exact entry_eq hf (AList.mem_lookup_iff.mp hm) (honly _ _ (AList.mem_lookup_iff.mpr hf) ht)

/-- Neither metadata nor an interrupted archive: the pending create decides. -/
theorem searchPool_pending (hhost : host.singlePvPerPool = false) (hnone : NoMetadata s v)
    (htrans : ∀ p m, s.metadata.lookup p = some m → ¬Transitional v p m) :
    searchPool host s v (allPaths v) = pendingCreationVolume host s v := by
  rw [searchPool, hhost, if_neg Bool.false_ne_true, metadataVolume_none hnone, transitionalArchiveVolume,
    transitionalArchives_none (forall_entries.mpr htrans)]
  rfl

/-! ## What is found -/

/-- A volume that the search finds on a pool. A committed one that shares the pool has its metadata at a path of its ID; the owner
of a whole pool has a claim, or is the owner from before there were claims. -/
structure FoundOn (host : HostVol) (s : Pool) (v : String) (vol : Volume) : Prop where
  hosted : vol.host = host
  volname : vol.volname = v
  shared : vol.state.isSome → vol.singlePvPerPool = false
  committed : vol.state = none → vol.singlePvPerPool = false →
    vol.volpath ∈ volumePaths vol.voltype v ∧ ∃ m, s.metadata.lookup vol.volpath = some m ∧ m.size = vol.size
  owned : vol.singlePvPerPool = true →
    (∃ claim, readSinglePvClaim s = .ok (some claim) ∧ claim.volumeId = v ∧ claim.size = vol.size) ∨
      (readSinglePvClaim s = .ok none ∧ host.legacySinglePvVolumeId = some v ∧ s.capacity = vol.size)

theorem singlePvVolume_found {vol : Volume} (h : singlePvVolume host s v = .ok (some vol)) : FoundOn host s v vol := by
  unfold singlePvVolume at h
  obtain ⟨claim, hclaim, h⟩ := bind_ok.mp h
  cases claim with
  | some claim =>
    dsimp only at h
    split at h <;> cases h
    rename_i hid
    exact
      { hosted := rfl
        volname := rfl
        shared := nofun
        committed := nofun
        owned := fun _ => .inl ⟨claim, hclaim, not_not.mp hid, rfl⟩ }
  | none =>
    dsimp only at h
    split at h
    · cases h
    · rename_i hlegacy
      split at h <;> cases h
      exact
        { hosted := rfl
          volname := rfl
          shared := nofun
          committed := nofun
          owned := fun _ => .inr ⟨hclaim, not_not.mp hlegacy, rfl⟩ }

theorem activeVolume_found {data : Metadata} {vol : Volume} (hp : p ∈ volumePaths t v) (hdata : s.metadata.lookup p = some data)
    (h : activeVolume host v t p data = .ok vol) : FoundOn host s v vol := by
  unfold activeVolume at h
  obtain ⟨_, -, h⟩ := bind_ok.mp h
  obtain ⟨-, h⟩ := ite_error_ok.mp h
  obtain ⟨-, h⟩ := ite_error_ok.mp h
  cases h
  exact
    { hosted := rfl
      volname := rfl
      shared := fun _ => rfl
      committed := fun _ _ => ⟨hp, data, hdata, rfl⟩
      owned := nofun }

/-- An interrupted archive is no committed volume. -/
theorem transitionalArchives_found {paths : List (PvType × Path)} : ∀ {files : List (Sigma fun _ : Path => Metadata)}
    {found : Option Volume} {vol : Volume}, (∀ vol, found = some vol → FoundOn host s v vol) →
    transitionalArchives host v paths files found = .ok (some vol) → FoundOn host s v vol
  | [], _, _, hfound, h => hfound _ (Except.ok.inj h)
  | ⟨p, data⟩ :: files, found, vol, hfound, h => by
    rw [transitionalArchives] at h
    split at h
    · exact transitionalArchives_found hfound h
    · obtain ⟨_, -, h⟩ := bind_ok.mp h
      obtain ⟨⟨t, volpath⟩, -, h⟩ := bind_ok.mp h
      obtain ⟨-, h⟩ := ite_error_ok.mp h
      refine transitionalArchives_found (fun vol hvol => ?_) h
      cases hvol
      exact
        { hosted := rfl
          volname := rfl
          shared := fun _ => rfl
          committed := nofun
          owned := nofun }

theorem metadataVolume_found {vol : Volume} (h : metadataVolume host s v (allPaths v) = .ok (some vol)) : FoundOn host s v vol := by
  unfold metadataVolume at h
  split at h
  · rename_i t p hfind
    have hp : p ∈ volumePaths t v := mem_allPaths.mp (List.mem_of_find?_eq_some hfind)
    cases hdata : s.metadata.lookup p with
    | none =>
      simp only [hdata] at h
      cases h
    | some data =>
      simp only [hdata] at h
      obtain ⟨found, hactive, h⟩ := bind_ok.mp h
      cases h
      exact activeVolume_found hp hdata hactive
  · exact transitionalArchives_found (fun _ hvol => absurd hvol (Option.some_ne_none _).symm) h

theorem pendingCreationVolume_found {vol : Volume} (h : pendingCreationVolume host s v = .ok (some vol)) : FoundOn host s v vol := by
  unfold pendingCreationVolume at h
  obtain ⟨intents, -, h⟩ := bind_ok.mp h
  split at h
  · cases h
  · cases h
    exact
      { hosted := rfl
        volname := rfl
        shared := fun _ => rfl
        committed := nofun
        owned := nofun }

theorem searchPool_found {vol : Volume} (h : searchPool host s v (allPaths v) = .ok (some vol)) : FoundOn host s v vol := by
  unfold searchPool at h
  split at h
  · exact singlePvVolume_found h
  · obtain ⟨found, hfound, h⟩ := bind_ok.mp h
    cases found with
    | some found =>
      cases h
      exact metadataVolume_found hfound
    | none => exact pendingCreationVolume_found h

theorem returns_searchHosts {P : Volume → Prop}
    (hP : ∀ host s vol, searchPool host s v (allPaths v) = .ok (some vol) → P vol) :
    ∀ {hosts : List HostVol} {found : Option Volume}, (∀ vol, found = some vol → P vol) →
      (searchHosts v (allPaths v) hosts found).Returns fun o => ∀ vol, o = some vol → P vol
  | [], _, hfound => hfound
  | host :: hosts, found, hfound => by
    rw [searchHosts]
    refine returns_bind (P := fun o => ∀ vol, o = some vol → P vol)
      (returns_read fun w o ho vol hvol => hP host _ vol (hvol ▸ ho)) fun o ho => ?_
    refine returns_ite (fun _ => returns_throw _) fun _ => returns_searchHosts hP fun vol hvol => ?_
    rcases Option.or_eq_some_iff.mp hvol with h | ⟨-, h⟩
    · exact ho vol h
    · exact hfound vol h

/-- What holds of each volume that a pool reports holds of the volume that is found, whatever changes between the reads. -/
theorem returns_searchVolume {P : Volume → Prop}
    (hP : ∀ host s vol, searchPool host s v (allPaths v) = .ok (some vol) → P vol) :
    (searchVolume hosts v).Returns fun o => ∀ vol, o = some vol → P vol := by
  rw [searchVolume]
  refine returns_bind (P := fun paths => paths = allPaths v)
    (returns_ofExcept fun paths h => (searchPaths_ok.mp h).2) fun paths hpaths => ?_
  subst hpaths
  exact returns_searchHosts hP fun _ h => nomatch h

/-- The owner of a whole pool is found. -/
theorem unclaimed_of_unreported (hhost : host.singlePvPerPool = true) (h : searchPool host s v (allPaths v) = .ok none) {claim : Claim}
    (hclaim : readSinglePvClaim s = .ok (some claim)) : claim.volumeId ≠ v := by
  intro hid
  rw [searchPool, if_pos hhost, singlePvVolume, hclaim, ok_bind] at h
  simp [hid] at h

end Kadalu
