import Kadalu.Driver.Within
import Kadalu.Pool.Forms

/-!
# Reservations across the reuse of an ID

`LiveReservation s v n` is what a pool owes the volume `v`: the target of its expansion, else the size of its create, else
the size of its metadata. A scan honours it (`KeepsReservation`) as long as no reclaim tombstone without payload names a
volume whose create or expansion is pending (`Unshadowed`). The tombstone hides the intents of that volume: its original
ID enters the tombstones of the scan, and the overlay skips the intents of every tombstone. The size of a volume that is being
archived is reserved under the name of its archive instead.

* `keeps_of_unshadowed`: an unshadowed pool keeps the reservations of all volumes that are not being archived.
* `run_keepsReservations`: so does every interleaving that never brings a pending intent and such a tombstone together.
* `reservation_lost`: a run of the driver that brings them together, and an archive that is cut short.
-/

namespace Kadalu

open Durable Durable.Prog Except

section

variable [VolnameHash]

/-! ## Live volumes -/

/-- The delete tombstone of `v` has outlived its payload. -/
def OwnGone (s : Pool) (v : String) : Prop :=
  ∃ t p m, p ∈ volumePaths t v ∧ s.metadata.lookup p = some m ∧ m.state = some .deleting ∧ s.payloads.lookup p = none

/-- The metadata of `v` at its active path has been prepared for an archive under this name. -/
def PreparedArchive (s : Pool) (v archivedName : String) (n : Int) : Prop :=
  ∃ t p m, s.metadata.lookup p = some m ∧ p ∈ volumePaths t v ∧ m.state = some .archiving ∧ m.originalVolumeId = some v ∧
    m.archiveName = some archivedName ∧ m.size = n

/-- Metadata at an active path of the volume `v`, with its size. -/
def LiveMetadata (s : Pool) (v : String) (n : Int) : Prop :=
  (∃ t p m, s.metadata.lookup p = some m ∧ OwnMetadata t v p m ∧ (m.state = none ∨ m.state = some .deleting) ∧ m.size = n) ∨
    ∃ archivedName, PreparedArchive s v archivedName n

/-- The pool owes `v` the reservation of `n` bytes. -/
def LiveReservation (s : Pool) (v : String) (n : Int) : Prop :=
  ¬OwnGone s v ∧
    ((∃ e, Expanding s v e ∧ e.toSize = n) ∨ (∀ e, ¬Expanding s v e) ∧ (∃ i, Creating s v i ∧ i.size = n) ∨
      ¬Pending s v ∧ LiveMetadata s v n)

/-- Nothing of `v` is pending, and its metadata has been prepared for an archive. -/
def BeingArchived (s : Pool) (v : String) : Prop := ¬Pending s v ∧ ∃ archivedName n, PreparedArchive s v archivedName n

/-- The scan reserves what the pool owes `v`, a rebuild writes it into the row, and so does the release of an archive that is
not itself the ID of a live volume. -/
structure KeepsReservation (s : Pool) (v : String) : Prop where
  scan : ∀ out, capacityMetadataRecords s = .ok out → ∀ n, LiveReservation s v n → out.reservations.lookup v = some n
  rebuild : ∀ s', rebuildCommittedCapacity s = .ok s' → ∀ n, LiveReservation s v n → s'.rows.lookup v = some n
  release : ∀ archivedName s', releaseArchivedPvReservation s archivedName = .ok s' →
    (∀ n, ¬LiveReservation s archivedName n) → ∀ n, LiveReservation s v n → s'.rows.lookup v = some n

/-- The size of a volume that is being archived is reserved under the name of the archive. -/
def KeepsArchives (s : Pool) : Prop :=
  ∀ out, capacityMetadataRecords s = .ok out → ∀ v archivedName n, PreparedArchive s v archivedName n →
    ¬Pending s archivedName → out.reservations.lookup archivedName = some n

/-! ## Shadows -/

omit [VolnameHash] in
/-- A reclaim tombstone without payload names `v`: as its original volume, or as the archive itself. -/
def ReclaimGone (s : Pool) (v : String) : Prop :=
  ∃ p m, s.metadata.lookup p = some m ∧ m.state = some .reclaiming ∧ s.payloads.lookup p = none ∧
    (m.originalVolumeId = some v ∨ p.basename = v)

omit [VolnameHash] in
/-- No such tombstone names a volume with a pending intent. -/
def Unshadowed (s : Pool) : Prop := ∀ v, Pending s v → ¬ReclaimGone s v

/-- The scan takes an ID for released when its own delete is past the payload, or a reclaim tombstone names it. -/
theorem tombstoned_cases {s : Pool} {v : String} (h : Tombstoned s v) : OwnGone s v ∨ ReclaimGone s v := by
  obtain ⟨p, r, ⟨m, hm, hr⟩, hg, hn⟩ := h
  obtain ⟨hstate | hstate, hgone, hid, hq⟩ := capacityRecord_gone hr hg
  · obtain ⟨hal, u, hu⟩ := capacityRecordIdentity_deleting hstate hid hq
    rcases hn with rfl | hn
    · exact .inl ⟨u, p, m, hu, hm, hstate, hgone⟩
    · rw [hal] at hn
      cases hn
  · obtain ⟨hbase, horig⟩ := capacityRecordIdentity_reclaiming hstate hid hq
    refine .inr ⟨p, m, hm, hstate, hgone, ?_⟩
    rcases hn with hn | hn
    · exact .inr (hbase ▸ hn)
    · exact .inl (horig ▸ hn)

/-- Metadata of a volume is committed capacity, unless its payload is gone or it has been prepared for an archive. -/
theorem committed_of_live {s : Pool} {v : String} {n : Int} (hs : Scannable s) (h : LiveMetadata s v n)
    (hgone : ¬OwnGone s v) (harchive : ∀ archivedName, ¬PreparedArchive s v archivedName n) : Committed s v n := by
  obtain ⟨t, p, m, hm, hown, hstate, rfl⟩ := h.resolve_right (not_exists.mpr harchive)
  obtain ⟨r, hr⟩ := hs.records p m hm
  have hno : m.state ≠ some .reclaiming := by rcases hstate with h | h <;> simp [h]
  have hid := capacityRecordIdentity_own hown hno
  refine ⟨p, r, ⟨m, hm, hr⟩, ?_, ?_⟩
  · cases hg : r.gone with
    | false => rfl
    | true =>
      obtain ⟨hd | hd, hpay, -, -⟩ := capacityRecord_gone hr hg
      · exact absurd ⟨t, p, m, hown.path, hm, hd, hpay⟩ hgone
      · exact absurd hd hno
  · simp only [capacityRecord, throw_eq_error, ite_error_ok, bind_ok, pure_eq_ok, Except.ok.injEq, hid] at hr
    obtain ⟨-, _, rfl, _, -, rfl⟩ := hr
    exact ⟨rfl, rfl⟩

/-- **Unshadowed pools keep their reservations.** -/
theorem keeps_of_unshadowed {s : Pool} {v : String} (h : Unshadowed s) (harchive : ¬BeingArchived s v) :
    KeepsReservation s v := by
  have hscan : ∀ out, capacityMetadataRecords s = .ok out → ∀ n, LiveReservation s v n →
      out.reservations.lookup v = some n := by
    intro out hout n ⟨hgone, hlive⟩
    have hclear : Pending s v → ¬Tombstoned s v := fun hp ht =>
      (tombstoned_cases ht).elim hgone (h v hp)
    refine (scan_reservations hout).mpr ?_
    rcases hlive with ⟨e, he, hn⟩ | ⟨hne, i, hi, hn⟩ | ⟨hp, hm⟩
    · exact .inl ⟨hclear (.inr ⟨e, he⟩), e, he, hn⟩
    · exact .inr (.inl ⟨hclear (.inl ⟨i, hi⟩), hne, i, hi, hn⟩)
    · have hprepared : ∀ archivedName, ¬PreparedArchive s v archivedName n := fun archivedName hprepared =>
        harchive ⟨hp, archivedName, n, hprepared⟩
      exact .inr (.inr ⟨.inr hp, committed_of_live (scan_ok_iff.mp ⟨out, hout⟩) hm hgone hprepared⟩)
  have hrebuild : ∀ s', rebuildCommittedCapacity s = .ok s' → ∀ n, LiveReservation s v n → s'.rows.lookup v = some n := by
    intro s' hs' n hv
    obtain ⟨out, rows, hout, rfl, hrows⟩ := rebuild_rows hs'
    exact hrows v n (hscan out hout n hv)
  refine ⟨hscan, hrebuild, fun archivedName s' hs' hdead n hv => ?_⟩
  obtain ⟨s₁, h₁, he⟩ := bind_ok.mp hs'
  cases he
  have hne : v ≠ archivedName := fun he => hdead n (he ▸ hv)
  exact (AList.lookup_erase_ne hne).trans (hrebuild s₁ h₁ n hv)

/-- The record of prepared metadata is that of the archive. -/
theorem keepsArchives (s : Pool) : KeepsArchives s := by
  rintro out hout v archivedName n ⟨t, p, m, hm, -, hstate, -, hname, rfl⟩ hpending
  obtain ⟨r, hr⟩ := (scan_ok_iff.mp ⟨out, hout⟩).records p m hm
  refine (scan_reservations hout).mpr (.inr (.inr ⟨.inr hpending, p, r, ⟨m, hm, hr⟩, ?_, ?_⟩))
  · cases hg : r.gone with
    | false => rfl
    | true =>
      obtain ⟨hd | hd, -, -, -⟩ := capacityRecord_gone hr hg <;> rw [hstate] at hd <;> cases hd
  · simp only [capacityRecord, throw_eq_error, ite_error_ok, bind_ok, pure_eq_ok, Except.ok.injEq] at hr
    obtain ⟨-, ⟨id, al⟩, hid, _, -, rfl⟩ := hr
    exact ⟨capacityRecordIdentity_archiveName hname hid, rfl⟩

/-! ## Runs -/

omit [VolnameHash] in
/-- A step that brings no pending intent together with a tombstone that `Gone` tells: it links no intent of a volume with
such a tombstone, and makes no such tombstone for a volume with a pending intent. -/
def KeepsApart (Gone : Pool → String → Prop) (s s' : Pool) : Prop :=
  ∀ v, (Pending s' v → ¬Pending s v → ¬Gone s v) ∧ (Gone s' v → ¬Gone s v → ¬Pending s v)

omit [VolnameHash] in
/-- Steps that keep intents and tombstones apart never bring them together. -/
theorem apart_step {Gone : Pool → String → Prop} {s s' : Pool}
    (hfiles : ∀ s s' v, s'.metadata = s.metadata → s'.payloads = s.payloads → Gone s' v → Gone s v)
    (h : ∀ v, Pending s v → ¬Gone s v) (hstep : ScanStep s s') (hC : KeepsApart Gone s s') :
    ∀ v, Pending s' v → ¬Gone s' v := by
  intro v hp hg
  obtain ⟨hlink, htomb⟩ := hC v
  rcases hstep with ⟨hm, hpay⟩ | ⟨hc, he⟩
  · -- the tombstones are the ones before the step
    have hg' : Gone s v := hfiles s s' v hm hpay hg
    by_cases hp' : Pending s v
    · exact h v hp' hg'
    · exact hlink hp hp' hg'
  · -- the intents are among the ones before the step
    have hp' : Pending s v := by
      rcases hp with ⟨i, p, hi, hv⟩ | ⟨e, p, hi, hv⟩
      · exact .inl ⟨i, p, hc p i hi, hv⟩
      · exact .inr ⟨e, p, he p e hi, hv⟩
    by_cases hg' : Gone s v
    · exact h v hp' hg'
    · exact htomb hg hg' hp'

/-- A run whose steps keep the intents and the tombstones of a pool apart. -/
theorem run_apart {Gone : Pool → String → Prop} {w : World} {a : Sys World Lock Err} {hostvol : String}
    (hfiles : ∀ s s' v, s'.metadata = s.metadata → s'.payloads = s.payloads → Gone s' v → Gone s v)
    (h₀ : ∀ v, Pending (w hostvol) v → ¬Gone (w hostvol) v)
    (h : Run DriverOp (fun w w' => KeepsApart Gone (w hostvol) (w' hostvol)) w a) :
    ∀ v, Pending (a.store hostvol) v → ¬Gone (a.store hostvol) v :=
  Run.invariant (J := fun w => ∀ v, Pending (w hostvol) v → ¬Gone (w hostvol) v) (fun _ => within_driverOp)
    (fun _ _ hJ hG hC => apart_step hfiles hJ (hG hostvol) hC) h₀ h

omit [VolnameHash] in
theorem reclaimGone_files (s s' : Pool) (v : String) (hm : s'.metadata = s.metadata) (hp : s'.payloads = s.payloads)
    (h : ReclaimGone s' v) : ReclaimGone s v := by
  unfold ReclaimGone at h ⊢
  rwa [hm, hp] at h

/-- **Reservations survive** every interleaving of the driver's operations, with crashes anywhere, whose steps keep the pending
intents and the reclaim tombstones without payload of a pool apart; those of volumes that are being archived do so under the names
of their archives. -/
theorem run_keepsReservations {w : World} {a : Sys World Lock Err} {hostvol : String} (h₀ : Unshadowed (w hostvol))
    (h : Run DriverOp (fun w w' => KeepsApart ReclaimGone (w hostvol) (w' hostvol)) w a) :
    (∀ v, ¬BeingArchived (a.store hostvol) v → KeepsReservation (a.store hostvol) v) ∧ KeepsArchives (a.store hostvol) :=
  ⟨fun _ => keeps_of_unshadowed (run_apart reclaimGone_files h₀ h), keepsArchives _⟩

end

/-! ## A lost reservation -/

attribute [local instance] sampleHash

/-- The request for the volume. -/
def sampleCreate : WorldProg Unit := createVolume sampleEnv [samplePool] sampleRequest >>= fun _ => pure ()

/-- Its create crashes after its admission. -/
def admittedWorld : World := sampleCreate.after 7 (emptyWorld 1500)

/-- It is sent again, and succeeds. -/
def retriedWorld : World := sampleCreate.after 60 admittedWorld

/-- No metadata of the pool is marked. -/
def Unmarked (w : World) : Prop := ∀ f ∈ (w "pool").metadata.entries, f.2.state = none

instance (w : World) : Decidable (Unmarked w) := inferInstanceAs (Decidable (∀ f ∈ (w "pool").metadata.entries, f.2.state = none))

theorem Unmarked.reclaimGone {w : World} (h : Unmarked w) (v : String) : ¬ReclaimGone (w "pool") v := by
  rintro ⟨p, m, hm, hstate, -⟩
  rw [h ⟨p, m⟩ (AList.mem_lookup_iff.mp hm)] at hstate
  cases hstate

/-- A create that crashes and its retry, as a run under a condition that unmarked pools meet. -/
theorem retriedWorld_run {C : World → World → Prop} (hC : ∀ w w', Unmarked w → Unmarked w' → C w w') :
    Run DriverOp C (emptyWorld 1500) ⟨retriedWorld, []⟩ := by
  have hadmitted : ∀ t ∈ sampleCreate.trace 7 (emptyWorld 1500), Unmarked t := by decide +kernel
  have hretried : ∀ t ∈ sampleCreate.trace 60 admittedWorld, Unmarked t := by decide +kernel
  exact (Run.nil.trans_after hC (.create _ _ _) 7 hadmitted).trans_after hC (.create _ _ _) 60 hretried

/-- The reservation of the admission is durable after the crash, and kept after the retry. -/
theorem retriedWorld_keepsReservations : (admittedWorld "pool").creatingIds = ["pvc-1"] ∧
    (retriedWorld "pool").creatingIds = [] ∧ KeepsReservation (retriedWorld "pool") "pvc-1" := by
  have hrun := retriedWorld_run (C := fun w t => KeepsApart ReclaimGone (w "pool") (t "pool"))
    fun w w' h h' v => ⟨fun _ _ => h.reclaimGone v, fun hgone => absurd hgone (h'.reclaimGone v)⟩
  have hpending : ∀ v, ¬Pending (emptyWorld 1500 "pool") v := by
    rintro v (⟨i, p, hi, -⟩ | ⟨e, p, he, -⟩)
    · cases hi
    · cases he
  refine ⟨by decide +kernel, by decide +kernel, (run_keepsReservations (fun v hp => absurd hp (hpending v)) hrun).1 _ ?_⟩
  rintro ⟨-, archivedName, n, t, p, m, hm, -, hstate, -⟩
  have hunmarked : Unmarked retriedWorld := by decide +kernel
  rw [hunmarked ⟨p, m⟩ (AList.mem_lookup_iff.mp hm)] at hstate
  cases hstate

/-- The volume is created. -/
def createdWorld : World := (sampleCreate.run (emptyWorld 1500)).2

theorem createdWorld_pending (v : String) : ¬Pending (createdWorld "pool") v := by
  rw [pending_iff_mem, show (createdWorld "pool").creatingIds = [] by decide +kernel,
    show (createdWorld "pool").expandingIds = [] by decide +kernel]
  exact not_or.mpr ⟨List.not_mem_nil, List.not_mem_nil⟩

theorem createdWorld_run : Run DriverOp Anywhere (emptyWorld 1500) ⟨createdWorld, []⟩ :=
  Run.nil.trans_visits (.create _ _ _) (run_visits _ _)

/-- A pool that archives what it deletes. -/
def archivePool : HostVol := { samplePool with pvReclaimPolicy := some "archive" }

/-- The volume is archived, and the reclaiming of its archive crashes after the payload. -/
def reclaimingWorld : World :=
  (onPool "pool" (removeArchivedPv none)).after 3 ((deleteVolume [archivePool] "pvc-1" [sampleUuid]).run createdWorld).2

theorem reclaimingWorld_run : Run DriverOp Anywhere (emptyWorld 1500) ⟨reclaimingWorld, []⟩ :=
  (createdWorld_run.trans_visits (.delete _ _ _) (run_visits _ _)).trans_visits (.reclaim _ _) (after_visits _ _ _)

/-- A create of the same ID crashes after its admission. -/
def recreatedWorld : World := sampleCreate.after 7 reclaimingWorld

theorem recreatedWorld_run {w : World} (h : Run DriverOp Anywhere w ⟨reclaimingWorld, []⟩) :
    Run DriverOp Anywhere w ⟨recreatedWorld, []⟩ :=
  h.trans_visits (.create _ _ _) (after_visits _ _ _)

/-- Its archive crashes after its metadata has been prepared. -/
def archivingWorld : World := (deleteVolume [archivePool] "pvc-1" [sampleUuid] : WorldProg Unit).after 10 createdWorld

/-- The create intent is durable, and the scan does not see it; and prepared metadata is reserved as the archive only. -/
theorem reservation_lost :
    (∃ a, Run DriverOp Anywhere (emptyWorld 1500) a ∧ ¬BeingArchived (a.store "pool") "pvc-1" ∧
      ¬KeepsReservation (a.store "pool") "pvc-1") ∧
    ∃ a, Run DriverOp Anywhere (emptyWorld 1500) a ∧ BeingArchived (a.store "pool") "pvc-1" ∧
      ¬KeepsReservation (a.store "pool") "pvc-1" := by
  constructor
  · have hscan : ∃ out, capacityMetadataRecords (recreatedWorld "pool") = .ok out ∧
        out.reservations.lookup "pvc-1" = none := ok_of_test (by decide +kernel)
    have hintent : ((recreatedWorld "pool").creations.lookup ["subvol", "d3", "d3", "pvc-1"]).map
        (fun i => (i.volumeId, i.size)) = some ("pvc-1", 1000) := by decide +kernel
    have hexp : (recreatedWorld "pool").expandingIds = [] := by decide +kernel
    have hstate : ∀ f ∈ (recreatedWorld "pool").metadata.entries, f.2.state ≠ some .deleting := by decide +kernel
    obtain ⟨out, hout, hnone⟩ := hscan
    obtain ⟨i, hi, hv⟩ := Option.map_eq_some_iff.mp hintent
    simp only [Prod.mk.injEq] at hv
    have hpending : Pending (recreatedWorld "pool") "pvc-1" := .inl ⟨i, _, hi, hv.1⟩
    refine ⟨_, recreatedWorld_run reclaimingWorld_run, fun h => h.1 hpending, fun h => ?_⟩
    have hlive : LiveReservation (recreatedWorld "pool") "pvc-1" 1000 := by
      refine ⟨fun ⟨_, p, m, _, hm, hs, _⟩ => hstate ⟨p, m⟩ (AList.mem_lookup_iff.mp hm) hs,
        .inr (.inl ⟨fun e he => ?_, i, ⟨_, hi, hv.1⟩, hv.2⟩)⟩
      have := expanding_iff_mem.mp ⟨e, he⟩
      rw [hexp] at this
      cases this
    have := h.scan out hout 1000 hlive
    rw [hnone] at this
    cases this
  · have hscan : ∃ out, capacityMetadataRecords (archivingWorld "pool") = .ok out ∧
        out.reservations.lookup "pvc-1" = none := ok_of_test (by decide +kernel)
    have hprepared : ((archivingWorld "pool").metadata.lookup ["subvol", "d3", "d3", "pvc-1"]).map
        (fun m => (m.state, m.originalVolumeId, m.archiveName, m.size)) =
          some (some .archiving, some "pvc-1", some ("archived-" ++ sampleUuid), 1000) := by decide +kernel
    have hpending : ¬Pending (archivingWorld "pool") "pvc-1" := by decide +kernel
    have hstate : ∀ f ∈ (archivingWorld "pool").metadata.entries, f.2.state ≠ some .deleting := by decide +kernel
    obtain ⟨out, hout, hnone⟩ := hscan
    obtain ⟨m, hm, hv⟩ := Option.map_eq_some_iff.mp hprepared
    simp only [Prod.mk.injEq] at hv
    have harchive : PreparedArchive (archivingWorld "pool") "pvc-1" ("archived-" ++ sampleUuid) 1000 :=
      ⟨.subvol, _, m, hm, by decide +kernel, hv.1, hv.2.1, hv.2.2.1, hv.2.2.2⟩
    refine ⟨_, createdWorld_run.trans_visits (.delete _ _ _) (after_visits _ _ _), ⟨hpending, _, _, harchive⟩, fun h => ?_⟩
    have hlive : LiveReservation (archivingWorld "pool") "pvc-1" 1000 :=
      ⟨fun ⟨_, p, m, _, hm, hs, _⟩ => hstate ⟨p, m⟩ (AList.mem_lookup_iff.mp hm) hs, .inr (.inr ⟨hpending, .inr ⟨_, harchive⟩⟩)⟩
    have := h.scan out hout 1000 hlive
    rw [hnone] at this
    cases this

end Kadalu
