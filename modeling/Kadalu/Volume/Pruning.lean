import Kadalu.Durable.Trace
import Kadalu.Volume.Directories
import Kadalu.Volume.Reclaim
import Kadalu.Volume.SearchSpec

/-!
# Pruning stays below its stop

The loop of `_prune_empty_parents` ends whatever other processes do, since it climbs towards the root, which cannot be removed
(`returns_pruneLoop`). From a path below the stop it removes empty directories below the stop, and no others
(`confined_prunePayload`). The metadata of an archive that is resumed lies beside the stop; there it is the record in
`info/archive` that ends the loop, as long as it is there (`confined_pruneMetadata`).
-/

namespace Kadalu

open Durable Durable.Prog Except FileTree

section

variable [VolnameHash] {v : String} {vol : Volume} {host : HostVol} {s : Pool} {t : PvType} {p q : Path}

/-! ## Found volumes -/

/-- What `_delete_volume_locked` passes on to `_delete_managed_volume`. -/
def Volume.IsManaged (vol : Volume) : Prop := vol.singlePvPerPool = false ∧ vol.state ≠ some .creating

/-- The archive of the volume was interrupted after its metadata moved. -/
def Volume.IsResumed (vol : Volume) : Prop := (vol.metadataPath.getD vol.volpath).dirname = ["archive"]

/-- A volume with its payload at a path of its ID, and its metadata there or among the archives. -/
structure Placed (v : String) (vol : Volume) : Prop where
  volpath : vol.volpath ∈ volumePaths vol.voltype v
  metadata : vol.metadataPath.getD vol.volpath = vol.volpath ∨ vol.IsResumed

theorem activeVolume_placed {data : Metadata} (hp : p ∈ volumePaths t v) (h : activeVolume host v t p data = .ok vol) :
    Placed v vol := by
  unfold activeVolume at h
  obtain ⟨_, -, h⟩ := bind_ok.mp h
  obtain ⟨-, h⟩ := ite_error_ok.mp h
  obtain ⟨-, h⟩ := ite_error_ok.mp h
  cases h
  exact ⟨hp, .inl rfl⟩

theorem transitionalPath_mem {data : Metadata} (h : transitionalPath v (allPaths v) data = .ok (t, q)) : q ∈ volumePaths t v := by
  unfold transitionalPath at h
  split at h
  · obtain ⟨q', hq', h⟩ := bind_ok.mp h
    cases h
    exact (canonicalPath_ok.mp hq').2 ▸ canon_mem
  · split at h
    · rename_i path hpaths
      cases h
      have hmem : (t, q) ∈ (allPaths v).filter fun path => some path.2.dirname = data.pathPrefix := by
        rw [hpaths]
        exact List.mem_singleton_self _
      exact mem_allPaths.mp (List.mem_of_mem_filter hmem)
    · cases h

theorem transitionalArchives_placed : ∀ {files : List (Sigma fun _ : Path => Metadata)} {found : Option Volume},
    (∀ vol, found = some vol → Placed v vol) → transitionalArchives host v (allPaths v) files found = .ok (some vol) →
    Placed v vol
  | [], _, hfound, h => hfound _ (ok.inj h)
  | ⟨p, data⟩ :: files, found, hfound, h => by
    rw [transitionalArchives] at h
    split at h
    · exact transitionalArchives_placed hfound h
    · rename_i hdir
      obtain ⟨_, -, h⟩ := bind_ok.mp h
      obtain ⟨⟨t, volpath⟩, hpath, h⟩ := bind_ok.mp h
      obtain ⟨-, h⟩ := ite_error_ok.mp h
      refine transitionalArchives_placed (fun vol hvol => ?_) h
      cases hvol
      exact ⟨transitionalPath_mem hpath, .inr (not_not.mp fun hne => hdir (.inl hne))⟩

theorem metadataVolume_placed (h : metadataVolume host s v (allPaths v) = .ok (some vol)) : Placed v vol := by
  unfold metadataVolume at h
  split at h
  · rename_i t p hfind
    have hp : p ∈ volumePaths t v := mem_allPaths.mp (List.mem_of_find?_eq_some hfind)
    split at h
    · obtain ⟨found, hactive, h⟩ := bind_ok.mp h
      cases h
      exact activeVolume_placed hp hactive
    · cases h
  · exact transitionalArchives_placed (fun _ hvol => absurd hvol (Option.some_ne_none _).symm) h

omit [VolnameHash] in
theorem singlePvVolume_single (h : singlePvVolume host s v = .ok (some vol)) : vol.singlePvPerPool = true := by
  unfold singlePvVolume at h
  obtain ⟨claim, -, h⟩ := bind_ok.mp h
  cases claim with
  | some claim =>
    dsimp only at h
    split at h <;> cases h
    rfl
  | none =>
    dsimp only at h
    split at h
    · cases h
    · split at h <;> cases h
      rfl

theorem pendingCreationVolume_creating (h : pendingCreationVolume host s v = .ok (some vol)) : vol.state = some .creating := by
  obtain ⟨intents, -, hvol⟩ := pendingCreationVolume_ok.mp h
  obtain ⟨i, -, rfl⟩ := Option.map_eq_some_iff.mp hvol.symm
  rfl

theorem searchPool_placed (h : searchPool host s v (allPaths v) = .ok (some vol)) (hmanaged : vol.IsManaged) : Placed v vol := by
  obtain ⟨hshared, hcommitted⟩ := hmanaged
  unfold searchPool at h
  split at h
  · rw [singlePvVolume_single h] at hshared
    cases hshared
  · obtain ⟨found, hfound, h⟩ := bind_ok.mp h
    cases found with
    | some found =>
      cases h
      exact metadataVolume_placed hfound
    | none => exact absurd (pendingCreationVolume_creating h) hcommitted

/-- The search finds managed volumes in their places, whatever changes between its reads. -/
theorem returns_placed {hosts : List HostVol} :
    (searchVolume hosts v).Returns fun o => ∀ vol, o = some vol → vol.IsManaged → Placed v vol :=
  returns_searchVolume fun _ _ _ => searchPool_placed

end

/-! ## The loop -/

namespace Site

section

variable {hostvol : String} {stop parent held : Path} {s s' : Site hostvol} {n : Nat}

/-- A step that removes no directory but empty ones below `stop`. -/
def Confined (stop : Path) (s s' : Site hostvol) : Prop :=
  ∀ d, s.tree.IsDir d → ¬s'.tree.IsDir d → Above stop d ∧ ¬s.tree.Occupied d

theorem Confined.of_isDir (h : ∀ d, s.tree.IsDir d → s'.tree.IsDir d) : Confined stop s s' :=
  fun d hd hgone => absurd (h d hd) hgone

theorem Confined.refl (s : Site hostvol) : Confined stop s s := .of_isDir fun _ h => h

/-- `rmdir` is the one of the tree. -/
theorem within_rmdir (p : Path) : (rmdir p : SiteProg hostvol _).Within fun s s' => s' = s ∨ s.tree.rmdir p = .ok s'.tree := by
  refine within_step fun s s' hs' => ?_
  simp only [List.mem_cons, List.not_mem_nil, or_false] at hs'
  rcases hs' with rfl | rfl
  · exact .inl rfl
  · cases hr : s.tree.rmdir p with
    | error e => exact .inl rfl
    | ok t =>
      obtain ⟨-, -, -, rfl⟩ := rmdir_ok hr
      exact .inr rfl

/-- Below the stop, a removal is confined. -/
theorem within_rmdir_below (h : Above stop parent) : (rmdir parent : SiteProg hostvol _).Within (Confined stop) := by
  refine (within_rmdir parent).mono fun s s' hs' => ?_
  rcases hs' with rfl | hr
  · exact .refl s'
  · intro d hd hgone
    obtain rfl : d = parent := by
      by_contra hne
      exact hgone ((isDir_rmdir hr).mpr ⟨hd, hne⟩)
    exact ⟨h, (rmdir_ok hr).2.2.1⟩

/-- Above something that is held, nothing is removed. -/
theorem within_rmdir_above (h : parent <+: held) :
    (rmdir parent : SiteProg hostvol _).Within fun s s' => s.tree.Occupied held → Confined stop s s' := by
  refine (within_rmdir parent).mono fun s s' hs' hheld => ?_
  rcases hs' with rfl | hr
  · exact .refl s'
  · exact absurd (hheld.ancestor h) (rmdir_ok hr).2.2.1

/-- What holds of a step at each directory where the loop may come to holds of the loop. -/
theorem within_pruneLoop {R : Site hostvol → Site hostvol → Prop} {I : Path → Prop}
    (hstep : ∀ p, I p → p ≠ stop → (rmdir p : SiteProg hostvol _).Within R) (hup : ∀ p, I p → p ≠ stop → I p.dirname) :
    ∀ (n : Nat) {parent : Path}, I parent → (pruneLoop stop n parent : SiteProg hostvol _).Within R
  | 0, _, _ => within_pure _
  | n + 1, parent, h => by
    rw [pruneLoop]
    split
    · exact within_pure _
    · rename_i hne
      have hrest := within_pruneLoop hstep hup n (hup parent h hne)
      refine within_bind (hstep parent h hne) fun r => ?_
      cases r with
      | ok _ => exact hrest
      | error e =>
        cases e with
        | noent => exact hrest
        | notempty | exist => exact within_pure _
        | notdir | busy => exact within_throw _

/-- From below the stop, the loop stays below it. -/
theorem within_pruneEmptyParents_below {path : Path} (h : stop <+: path.dirname) :
    (pruneEmptyParents path stop : SiteProg hostvol _).Within (Confined stop) := by
  refine within_bind (within_pruneLoop (I := (stop <+: ·)) (fun p hp hne => ?_) (fun p hp hne => ?_) _ h) fun _ => within_pure _
  · exact within_rmdir_below ⟨hp, Ne.symm hne⟩
  · exact (above_iff_dropLast.mp ⟨hp, Ne.symm hne⟩).2

/-- From a directory that is held, the loop removes nothing. -/
theorem within_pruneEmptyParents_held {path : Path} (held : Path) (h : path.dirname <+: held) :
    (pruneEmptyParents path stop : SiteProg hostvol _).Within fun s s' => s.tree.Occupied held → Confined stop s s' := by
  refine within_bind (within_pruneLoop (I := (· <+: held)) (fun p hp _ => ?_) (fun p hp _ => ?_) _ h) fun _ => within_pure _
  · exact within_rmdir_above hp
  · exact (List.dropLast_prefix p).trans hp

/-- **Termination.** The loop is left within as many rounds as there are directories above it. -/
theorem returns_pruneLoop : ∀ (n : Nat) {parent : Path}, parent.length < n →
    (pruneLoop stop n parent : SiteProg hostvol _).Returns (· = true)
  | 0, _, h => absurd h (Nat.not_lt_zero _)
  | n + 1, parent, h => by
    rw [pruneLoop]
    split
    · exact returns_pure rfl
    · refine returns_bind (P := fun r => parent = [] → r = .error .busy) (returns_step fun s r hr hroot => ?_) fun r hr => ?_
      · subst hroot
        rw [rmdir_root] at hr
        exact (ok.inj hr).symm
      · -- the root cannot be removed
        have hrest (hne : r ≠ .error .busy) : (pruneLoop stop n parent.dirname : SiteProg hostvol _).Returns (· = true) := by
          refine returns_pruneLoop n ?_
          have hpos := List.length_pos_iff.mpr fun hroot => hne (hr hroot)
          rw [Path.dirname, List.length_dropLast]
          omega
        cases r with
        | ok _ => exact hrest (by simp)
        | error e =>
          cases e with
          | noent => exact hrest (by simp)
          | notempty | exist => exact returns_pure rfl
          | notdir | busy => exact returns_throw _

theorem atMost_pruneLoop : ∀ (n : Nat) (parent : Path), (pruneLoop stop n parent : SiteProg hostvol _).AtMost n
  | 0, _ => atMost_pure _
  | n + 1, parent => by
    rw [pruneLoop]
    split
    · exact atMost_pure _
    · refine atMost_step_bind fun s r _ => ?_
      cases r with
      | ok _ => exact atMost_pruneLoop n parent.dirname
      | error e =>
        cases e with
        | noent => exact atMost_pruneLoop n parent.dirname
        | notempty | exist => exact atMost_pure _
        | notdir | busy => exact atMost_throw _

end

/-! ## Delete and archive -/

section

variable [VolnameHash] {v : String} {vol : Volume} {p : Path} {policy : ReclaimPolicy} {uuids : List String}

/-- The directory of archived metadata. -/
def archiveDir (hostvol : String) : Path := mountPoint hostvol ++ ["info", "archive"]

/-- Unless the volume's own metadata has moved there, the directory of archived metadata does not matter; else it holds a file. -/
def ArchiveHeld (vol : Volume) (s : Site vol.hostvol) : Prop := vol.IsResumed → s.tree.Occupied (archiveDir vol.hostvol)

omit [VolnameHash] in
/-- The record of an archive holds the directory. -/
theorem archiveHeld_of_record {s : Site vol.hostvol} (archivedName : String)
    (h : (s.pool.metadata.lookup (archivePath archivedName)).isSome) : ArchiveHeld vol s := by
  intro _
  refine ⟨infoFile vol.hostvol .metadata (archivePath archivedName), List.mem_append_left _ (List.mem_append_left _ ?_), ?_⟩
  · refine List.mem_append_left _ (List.mem_append_left _ (List.mem_append_right _ (List.mem_map_of_mem ?_)))
    exact AList.lookup_isSome.mp h
  · exact above_iff_dropLast.mpr ⟨by simp [infoFile], by simp [infoFile, archiveDir, archivePath, mountPoint, Path.dirname]⟩

/-- The directories above a volume's file begin with that of its type. -/
theorem dirname_volumePaths_below {t : PvType} (h : p ∈ volumePaths t v) : [t.name] <+: p.dirname := by
  obtain ⟨c, -, rfl | rfl⟩ := volumePaths_form h
  · exact ⟨_, rfl⟩
  · exact ⟨_, rfl⟩

theorem confined_prunePayload (h : Placed v vol) : (prunePayload vol).Within (Confined (payloadStop vol)) := by
  refine within_pruneEmptyParents_below ?_
  have hne : vol.volpath ≠ [] := volumePaths_ne_nil h.volpath
  rw [payloadPath, payloadStop, Path.dirname, List.dropLast_append_of_ne_nil hne]
  exact (List.prefix_append_right_inj _).mpr (dirname_volumePaths_below h.volpath)

omit [VolnameHash] in
theorem dirname_infoFile (hostvol : String) (file : InfoFile) (p : Path) :
    (infoFile hostvol file p).dirname = mountPoint hostvol ++ "info" :: p.dirname := dirname_concat _ _

/-- The metadata lies below its stop, or in the directory of archived metadata. -/
theorem confined_pruneMetadata (h : Placed v vol) : (pruneMetadata vol (vol.metadataPath.getD vol.volpath)).Within
    fun s s' => ArchiveHeld vol s → Confined (infoStop vol) s s' := by
  rcases h.metadata with hpath | hresumed
  · rw [hpath]
    refine (within_pruneEmptyParents_below ?_).mono fun _ _ hc _ => hc
    rw [dirname_infoFile, infoStop]
    refine (List.prefix_append_right_inj _).mpr ?_
    exact (List.prefix_cons_inj _).mpr (dirname_volumePaths_below h.volpath)
  · refine (within_pruneEmptyParents_held (archiveDir vol.hostvol) ?_).mono fun _ _ hc hheld => hc (hheld hresumed)
    rw [dirname_infoFile, hresumed]
    exact List.prefix_refl _

/-- A step of one of the two calls, or one that removes no directory. -/
def StepConfined (vol : Volume) (s s' : Site vol.hostvol) : Prop :=
  ArchiveHeld vol s → Confined (payloadStop vol) s s' ∨ Confined (infoStop vol) s s'

omit [VolnameHash] in
theorem StepConfined.of_isDir {s s' : Site vol.hostvol} (h : ∀ d, s.tree.IsDir d → s'.tree.IsDir d) : StepConfined vol s s' :=
  fun _ => .inl (.of_isDir h)

omit [VolnameHash] in
/-- The steps on the pool leave directories behind. -/
theorem within_inPool {α : Type} (p : PoolProg α) : (inPool p).Within (StepConfined vol) := by
  refine (within_via p).mono fun s s' hs' => ?_
  rcases hs' with rfl | ⟨pool, rfl⟩
  · exact .of_isDir fun _ h => h
  · exact .of_isDir fun _ h => isDir_withFiles h

omit [VolnameHash] in
theorem within_makedirs (p : Path) : (makedirs p).Within (StepConfined vol) := by
  refine within_step fun s s' hs' => ?_
  simp only [List.mem_cons, List.mem_map] at hs'
  rcases hs' with rfl | rfl | ⟨q, -, rfl⟩
  · exact .of_isDir fun _ h => h
  · split
    · exact .of_isDir fun _ h => h
    · exact .of_isDir fun _ h => isDir_makedirs h
  · exact .of_isDir fun _ h => isDir_makedirs h

theorem within_prunePayload (h : Placed v vol) : (prunePayload vol).Within (StepConfined vol) :=
  (confined_prunePayload h).mono fun _ _ hc _ => .inl hc

theorem within_pruneMetadata (h : Placed v vol) :
    (pruneMetadata vol (vol.metadataPath.getD vol.volpath)).Within (StepConfined vol) :=
  (confined_pruneMetadata h).mono fun _ _ hc hheld => .inr (hc hheld)

theorem within_archiveVolume (h : Placed v vol) (metadata : Metadata) (size : Int) :
    (archiveVolume vol (vol.metadataPath.getD vol.volpath) metadata size uuids).Within (StepConfined vol) := by
  refine within_bind (within_inPool _) fun ⟨archivedName, metadata⟩ => ?_
  refine within_bind (within_makedirs _) fun _ => within_bind (within_makedirs _) fun _ => ?_
  refine within_bind (within_inPool _) fun _ => within_bind (within_inPool _) fun _ => ?_
  refine within_bind (within_inPool _) fun _ => within_bind (within_inPool _) fun _ => ?_
  exact within_bind (within_prunePayload h) fun _ => within_pruneMetadata h

theorem within_removeVolume (h : Placed v vol) (metadata : Metadata) :
    (removeVolume vol (vol.metadataPath.getD vol.volpath) metadata).Within (StepConfined vol) := by
  refine within_bind (within_ofExcept _) fun expectedVolpaths => ?_
  refine within_ite (within_throw _) ?_
  refine within_bind (within_inPool _) fun _ => within_bind (within_inPool _) fun _ => ?_
  refine within_bind (within_prunePayload h) fun _ => ?_
  refine within_bind (within_inPool _) fun _ => within_bind (within_inPool _) fun _ => ?_
  exact within_pruneMetadata h

theorem within_deleteManagedVolume (h : Placed v vol) : (deleteManagedVolume vol policy uuids).Within (StepConfined vol) := by
  refine within_bind (within_inPool _) fun metadata => within_bind (within_inPool _) fun metadata => ?_
  refine within_ite (within_throw _) ?_
  refine within_bind (within_inPool _) fun _ => ?_
  exact within_ite (within_archiveVolume h _ _) (within_removeVolume h _)

/-- **Pruning is confined.** Each loop ends, and while the record of a resumed archive is in its place each step of the calls
removes no directory but an empty one below the stop. -/
theorem pruning_confined {hosts : List HostVol} (hfound : Among (searchVolume hosts v) (.ret (some vol)))
    (hmanaged : vol.IsManaged) (policy : ReclaimPolicy) (uuids : List String) :
    (∀ (path stop : Path) l p', Trace (pruneLoop stop (rounds path) path.dirname : SiteProg vol.hostvol Bool) l p' →
      l.length ≤ rounds path ∧ p' ≠ .ret false) ∧
    (∀ l p', Trace (prunePayload vol) l p' → ∀ x ∈ l, Confined (payloadStop vol) x.1 x.2) ∧
    (∀ l p', Trace (pruneMetadata vol (vol.metadataPath.getD vol.volpath)) l p' → (∀ x ∈ l, ArchiveHeld vol x.1) →
      ∀ x ∈ l, Confined (infoStop vol) x.1 x.2) ∧
    ∀ l p', Trace (deleteManagedVolume vol policy uuids) l p' → (∀ x ∈ l, ArchiveHeld vol x.1) →
      ∀ x ∈ l, Confined (payloadStop vol) x.1 x.2 ∨ Confined (infoStop vol) x.1 x.2 := by
  have hplaced : Placed v vol := returns_among returns_placed hfound vol rfl hmanaged
  refine ⟨fun path stop l p' h => ⟨h.length_le (atMost_pruneLoop _ _), ?_⟩, fun l p' h => ?_, fun l p' h hl => ?_,
    fun l p' h hl => ?_⟩
  · rintro rfl
    have hlength : path.dirname.length < rounds path := by
      rw [Path.dirname, List.length_dropLast, rounds]
      omega
    exact Bool.false_ne_true (returns_among (returns_pruneLoop _ hlength) h.among)
  · refine h.within_when (H := fun _ => True) (fun s => .refl s) ?_ fun _ _ => trivial
    exact (confined_prunePayload hplaced).mono fun _ _ hc _ => hc
  · exact h.within_when (fun s => .refl s) (confined_pruneMetadata hplaced) hl
  · exact h.within_when (fun s => .inl (.refl s)) (within_deleteManagedVolume hplaced) hl

omit [VolnameHash] in
/-- Nothing else ends the loop there: an empty directory of archived metadata is removed, though it is not below the stop. -/
theorem pruneMetadata_escapes {s : Site vol.hostvol} (hresumed : vol.IsResumed) (hdir : s.tree.IsDir (archiveDir vol.hostvol))
    (hfile : archiveDir vol.hostvol ∉ s.tree.files) (hempty : ¬s.tree.Occupied (archiveDir vol.hostvol)) :
    ∃ p' s', (pruneMetadata vol (vol.metadataPath.getD vol.volpath)).next .ok s = some (p', s') ∧
      ¬Confined (infoStop vol) s s' := by
  have hlength : (archiveDir vol.hostvol).length = (infoStop vol).length := by
    simp [archiveDir, infoStop, mountPoint]
  have hstop : archiveDir vol.hostvol ≠ infoStop vol := by
    cases ht : vol.voltype <;> simp [archiveDir, infoStop, mountPoint, ht, PvType.name]
  obtain ⟨t, ht⟩ := rmdir_empty (by simp [archiveDir]) hfile hdir hempty
  have hdirname : (infoFile vol.hostvol .metadata (vol.metadataPath.getD vol.volpath)).dirname = archiveDir vol.hostvol := by
    rw [dirname_infoFile, hresumed]
    rfl
  rw [pruneMetadata, pruneEmptyParents, hdirname, rounds, pruneLoop, if_neg hstop]
  refine ⟨_, _, rfl, fun hconfined => ?_⟩
  have hgone : ¬t.IsDir (archiveDir vol.hostvol) := fun h => ((isDir_rmdir ht).mp h).2 rfl
  have habove := (hconfined _ hdir (by
    simp only [ht]
    obtain ⟨-, -, -, rfl⟩ := rmdir_ok ht
    exact hgone)).1
  exact Nat.lt_irrefl _ (hlength ▸ habove.length)

end

/-! ## An archive that is resumed -/

attribute [local instance] sampleHash

/-- The pool of an archive that was interrupted after its metadata moved. -/
def resumedPool : Pool :=
  { metadata := (∅ : Table Metadata).insert ["archive", "archived-1"]
      { size := 1000, pathPrefix := some ["subvol", "d3", "d3"], archiveName := some "archived-1",
        originalVolumeId := some "pvc-1", state := some .archiving, pvtype := some "subvol" }
    payloads := (∅ : Table Payload).insert ["archive", "archived-1"] { isDir := true, quota := some 1000 }
    rows := (∅ : Rows).insert "archived-1" 1000
    capacity := 1500 }

def resumedVolume : Volume :=
  { volname := "pvc-1", voltype := .subvol, host := { name := "pool", type := "Replica1", pvReclaimPolicy := some "archive" },
    size := 1000, volpath := ["subvol", "d3", "d3", "pvc-1"], state := some .archiving,
    metadataPath := some ["archive", "archived-1"], archiveName := some "archived-1" }

def resumedSite : Site resumedVolume.hostvol :=
  { pool := resumedPool
    dirs := [["mnt", "pool", "subvol", "d3", "d3"], ["mnt", "pool", "info", "subvol", "d3", "d3"]] }

theorem resumedVolume_found : (searchVolume [resumedVolume.host] "pvc-1").Reaches (fun _ => resumedPool)
    (.ret (some resumedVolume)) (fun _ => resumedPool) := by
  have h := run_reaches (searchVolume [resumedVolume.host] "pvc-1") fun _ => resumedPool
  have hfind : findVolume [resumedVolume.host] "pvc-1" (fun _ => resumedPool) = .ok (some resumedVolume) := by
    obtain ⟨o, ho, he⟩ := ok_of_test (x := findVolume [resumedVolume.host] "pvc-1" fun _ => resumedPool)
      (P := (· = some resumedVolume)) (by decide +kernel)
    rw [ho, he]
  rw [run_searchVolume, hfind] at h
  exact h

/-- What is left of the archiving when it comes to the directory of archived metadata. -/
def resumedRest : SiteProg resumedVolume.hostvol Unit := (deleteManagedVolume resumedVolume .archive []).rest 11 resumedSite

/-- The site then, with all archives cleaned up. -/
def cleanedSite : Site resumedVolume.hostvol :=
  ((inPool (removeArchivedPv none)).run ((deleteManagedVolume resumedVolume .archive []).after 11 resumedSite)).2

/-- Next to the cleanup of archives, archiving removes a directory that is below neither stop. -/
theorem resumedArchive_escapes :
    (searchVolume [resumedVolume.host] "pvc-1").Reaches (fun _ => resumedPool) (.ret (some resumedVolume))
      (fun _ => resumedPool) ∧
    resumedVolume.IsManaged ∧ ∃ p₁ s₁ p₂ s₂, (deleteManagedVolume resumedVolume .archive []).Reaches resumedSite p₁ s₁ ∧
      (inPool (removeArchivedPv none)).Reaches s₁ (.ret ()) cleanedSite ∧ p₁.Reaches cleanedSite p₂ s₂ ∧
      cleanedSite.tree.IsDir (archiveDir "pool") ∧ ¬s₂.tree.IsDir (archiveDir "pool") ∧
      ¬Above (payloadStop resumedVolume) (archiveDir "pool") ∧ ¬Above (infoStop resumedVolume) (archiveDir "pool") := by
  refine ⟨resumedVolume_found, ⟨rfl, by decide⟩, resumedRest, _, resumedRest.rest 1 cleanedSite, resumedRest.after 1 cleanedSite,
    rest_reaches _ _ _, ?_, rest_reaches _ _ _, by decide +kernel, by decide +kernel, by decide +kernel, by decide +kernel⟩
  have h := run_reaches (inPool (removeArchivedPv none) : SiteProg resumedVolume.hostvol Unit)
    ((deleteManagedVolume resumedVolume .archive []).after 11 resumedSite)
  obtain ⟨u, hu, -⟩ := ok_of_test (x := ((inPool (removeArchivedPv none) : SiteProg resumedVolume.hostvol Unit).run
    ((deleteManagedVolume resumedVolume .archive []).after 11 resumedSite)).1) (P := fun _ => True) (by decide +kernel)
  rw [hu] at h
  exact h

theorem resumedArchive_confined : (∀ l p', Trace (deleteManagedVolume resumedVolume .archive []) l p' →
    (∀ x ∈ l, ArchiveHeld resumedVolume x.1) →
      ∀ x ∈ l, Confined (payloadStop resumedVolume) x.1 x.2 ∨ Confined (infoStop resumedVolume) x.1 x.2) ∧
    ArchiveHeld resumedVolume resumedSite :=
  ⟨(pruning_confined (among_of_reaches resumedVolume_found) ⟨rfl, by decide⟩ .archive []).2.2.2,
    archiveHeld_of_record "archived-1" (by decide +kernel)⟩

end Site

end Kadalu
