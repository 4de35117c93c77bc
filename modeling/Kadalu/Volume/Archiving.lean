import Kadalu.Pool.StepRules
import Kadalu.Volume.Stored

/-!
# Archiving survives crashes

Archiving moves the payload, the accounting row and the metadata in this order; the metadata carries the archive's name from
before the first move on. `ArchiveStage` lists what a crash can leave. In each stage the scan reserves the volume once
(`ArchiveStage.reserved`), and a retry completes the archive (`ArchiveStage.resumes`), provided that the volume lies at
its canonical path: the scan does not know prepared metadata at a legacy path (`archive_crash_safe`).
-/

namespace Kadalu

open Durable Durable.Prog Except

section

variable [VolnameHash]

section

variable {t : PvType} {v a : String} {p d q : Path} {m m' : Metadata} {payload : Payload} {s s' s₀ : Pool} {uuids : List String}
  {n : Int}

/-- The archive name that `_prepare_archive` draws. A fresh `uuid4` makes it new to the pool. -/
structure Draws (s : Pool) (uuids : List String) (a : String) : Prop where
  drawn : freshArchiveName s uuids = .ok a
  safe : isSafePathComponent a = true
  unused : ∀ p r, Record s p r → r.id ≠ a
  idle : ¬Pending s a

/-- A scan succeeds and reserves `n` bytes under exactly one of two names. -/
def ReservedOnce (v a : String) (n : Int) (s : Pool) : Prop :=
  ∃ out, capacityMetadataRecords s = .ok out ∧
    (out.reservations.lookup v = some n ∧ out.reservations.lookup a = none ∨
      out.reservations.lookup v = none ∧ out.reservations.lookup a = some n)

/-- The archive `a` of `v` is complete, and nothing else of `v` is left. -/
structure ArchivedAs (v a : String) (m : Metadata) (payload : Payload) (s : Pool) : Prop where
  payload : s.payloads.lookup (archivePath a) = some payload
  metadata : s.metadata.lookup (archivePath a) = some
    { m with archiveName := some a, originalVolumeId := some v, pathPrefix := some ["archive"], state := some .archived }
  row : s.rows.lookup a = some m.size
  released : s.rows.lookup v = none
  gone : ∀ u p, p ∈ volumePaths u v → s.metadata.lookup p = none ∧ s.payloads.lookup p = none

/-- The metadata that `_prepare_archive` writes. -/
def preparedMetadata (v a : String) (m : Metadata) : Metadata :=
  { m with archiveName := some a, originalVolumeId := some v, state := some .archiving }

/-- The metadata of the finished archive. -/
def archivedMetadata (v a : String) (m : Metadata) : Metadata :=
  { preparedMetadata v a m with pathPrefix := some ["archive"], state := some .archived }

omit [VolnameHash] in
theorem freshArchiveName_ok (h : freshArchiveName s uuids = .ok a) : startsWith ARCHIVE_PREFIX a = true ∧
    s.payloads.lookup (archivePath a) = none ∧ s.metadata.lookup (archivePath a) = none := by
  unfold freshArchiveName at h
  split at h
  · rename_i candidate hfind
    cases h
    have hfree := List.find?_some hfind
    obtain ⟨hp, hm⟩ := Bool.and_eq_true_iff.mp hfree
    obtain ⟨u, -, rfl⟩ := List.mem_map.mp (List.mem_of_find?_eq_some hfind)
    exact ⟨startsWith_append _ _, Option.isNone_iff_eq_none.mp hp, Option.isNone_iff_eq_none.mp hm⟩
  · cases h

theorem prepared_of_plain (h : Plain t v q m) (hs : isSafePathComponent a = true)
    (hn : startsWith ARCHIVE_PREFIX a = true) : Prepared t v a q (preparedMetadata v a m) where
  valid := h.valid
  safe := hs
  named := hn
  archiveName := rfl
  original := rfl
  state := rfl
  dir := h.dir
  legacy := h.legacy
  pvtype := h.pvtype
  size := h.size
  id w hw := by
    have hid := h.id
    rw [show m.volumeId = some w from hw] at hid
    exact hid
  incarnation := h.incarnation

/-- The archive name `a` is new to the pool `s`, in which `v` lies at `q`. -/
structure NewName (v : String) (q : Path) (a : String) (s : Pool) : Prop where
  safe : isSafePathComponent a = true
  named : startsWith ARCHIVE_PREFIX a = true
  ne : v ≠ a
  metadata : s.metadata.lookup (archivePath a) = none
  payload : s.payloads.lookup (archivePath a) = none
  separate : Separate [q, archivePath a] [v, a] s

/-! ## Between two places -/

/-- Of the two places `q` and `archive/a`, the metadata `m` lies at `p` and the payload at `d`; apart from them and from
the two rows the pool is `s₀`. -/
structure Moving (v a : String) (q : Path) (payload : Payload) (s₀ : Pool) (p : Path) (m : Metadata) (d : Path)
    (s : Pool) : Prop where
  frame : Frame [q, archivePath a] [v, a] s₀ s
  noIntents : ∀ p', p' = q ∨ p' = archivePath a → NoIntents p' s
  metadata : ∀ p', p' = q ∨ p' = archivePath a → s.metadata.lookup p' = if p' = p then some m else none
  payloads : ∀ p', p' = q ∨ p' = archivePath a → s.payloads.lookup p' = if p' = d then some payload else none

theorem archivePath_ne (h : q ∈ volumePaths t v) : archivePath a ≠ q := (archivePath_ne_volumePaths h).symm

omit [VolnameHash] in
/-- A rename from one of two places to the other one, done or not. -/
theorem renameForArchive_moves {α : Type} {table : Table α} {x : α} {source destination : Path} (hne : q ≠ destination)
    (hsource : source = q ∨ source = destination ∧ d = destination) (hd : d = q ∨ d = destination)
    (h : ∀ p', p' = q ∨ p' = destination → table.lookup p' = if p' = d then some x else none) :
    ∃ table', renameForArchive table source destination = .ok table' ∧
      (∀ p', p' = q ∨ p' = destination → table'.lookup p' = if p' = destination then some x else none) ∧
      ∀ p', p' ∉ [q, destination] → table'.lookup p' = table.lookup p' := by
  have hq := h q (.inl rfl)
  have hdest := h destination (.inr rfl)
  unfold renameForArchive
  rcases hsource with rfl | ⟨rfl, rfl⟩
  · rw [if_neg hne]
    rcases hd with rfl | rfl
    · rw [if_pos rfl] at hq
      rw [if_neg (Ne.symm hne)] at hdest
      rw [hq, hdest]
      refine ⟨_, rfl, fun p' hp' => ?_, fun p' hp' => ?_⟩
      · rcases hp' with rfl | rfl
        · rw [if_neg hne, AList.lookup_insert_ne hne, AList.lookup_erase]
        · rw [if_pos rfl, AList.lookup_insert]
      · simp only [List.mem_cons, List.not_mem_nil, or_false, not_or] at hp'
        rw [AList.lookup_insert_ne hp'.2, AList.lookup_erase_ne hp'.1]
    · rw [if_neg hne] at hq
      rw [if_pos rfl] at hdest
      rw [hq, hdest]
      exact ⟨_, rfl, h, fun _ _ => rfl⟩
  · rw [if_pos rfl] at hdest ⊢
    rw [hdest]
    exact ⟨_, rfl, h, fun _ _ => rfl⟩

/-- An unused name is new to the pool. -/
theorem newName_of_separate (hsep : Separate [q] [v] s) (h₀ : Stored t v q m payload s) (hs : isSafePathComponent a = true)
    (hnamed : startsWith ARCHIVE_PREFIX a = true) (hm : s.metadata.lookup (archivePath a) = none)
    (hp : s.payloads.lookup (archivePath a) = none) (hunused : ∀ p r, Record s p r → r.id ≠ a) (hidle : ¬Pending s a) :
    NewName v q a s := by
  refine ⟨hs, hnamed, fun he => hunused q _ h₀.record he, hm, hp, fun p hp r hr u hu => ?_, fun p r hr hv => ?_,
    fun p i hi hv => ?_, fun p e he hv => ?_⟩
  · rcases List.mem_pair.mp hp with rfl | rfl
    · exact List.mem_cons.mpr (.inl (List.mem_singleton.mp (hsep.names p (List.mem_singleton_self p) r hr u hu)))
    · obtain ⟨m', hm', -⟩ := hr
      rw [hm] at hm'
      cases hm'
  · rcases List.mem_pair.mp hv with hv | hv
    · exact List.mem_cons.mpr (.inl (List.mem_singleton.mp (hsep.record_out p r hr (by simp [hv]))))
    · exact absurd hv (hunused p r hr)
  · rcases List.mem_pair.mp hv with hv | hv
    · exact List.mem_cons.mpr (.inl (List.mem_singleton.mp (hsep.creation_out p i hi (by simp [hv]))))
    · exact absurd (.inl ⟨i, p, hi, hv⟩) hidle
  · rcases List.mem_pair.mp hv with hv | hv
    · exact List.mem_cons.mpr (.inl (List.mem_singleton.mp (hsep.expansion_out p e he (by simp [hv]))))
    · exact absurd (.inr ⟨e, p, he, hv⟩) hidle

theorem newName_of_draws (h₀ : Stored t v q m payload s) (hidle : ¬Pending s v) (hd : Draws s uuids a) : NewName v q a s := by
  obtain ⟨hnamed, hpayload, hmetadata⟩ := freshArchiveName_ok hd.drawn
  have hsep : Separate [q] [v] s := h₀.separate (fun p i hi hv => absurd (.inl ⟨i, p, hi, hv⟩) hidle)
    fun p e he hv => absurd (.inr ⟨e, p, he, hv⟩) hidle
  exact newName_of_separate hsep h₀ hd.safe hnamed hmetadata hpayload hd.unused hd.idle

namespace Moving

/-- Nothing has moved yet. -/
theorem start (hq : q ∈ volumePaths t v) (hn : NewName v q a s₀) (hf : Frame [q] [v] s₀ s)
    (hno : NoIntents q s) (hm : s.metadata.lookup q = some m) (hp : s.payloads.lookup q = some payload)
    (hc : NoIntents (archivePath a) s) : Moving v a q payload s₀ q m q s where
  frame := hf.mono (by simp) (by simp)
  noIntents p' hp' := by
    rcases hp' with rfl | rfl
    · exact hno
    · exact hc
  metadata p' hp' := by
    rcases hp' with rfl | rfl
    · rw [if_pos rfl, hm]
    · rw [if_neg (archivePath_ne hq), hf.metadata _ (by simpa using archivePath_ne hq), hn.metadata]
  payloads p' hp' := by
    rcases hp' with rfl | rfl
    · rw [if_pos rfl, hp]
    · rw [if_neg (archivePath_ne hq), hf.payloads _ (by simpa using archivePath_ne hq), hn.payload]

theorem stored (h : Stored t v q m payload s) (hidle : ¬Pending s v) (hn : NewName v q a s) : Moving v a q payload s q m q s :=
  start h.active.path hn (.refl s) (noIntents_of_idle h.scannable hidle h.active.path) h.metadata h.payload
    (noIntents_archive h.scannable)

omit [VolnameHash] in
/-- The metadata file is rewritten in its place. -/
theorem rewrite (h : Moving v a q payload s₀ p m d s) (m' : Metadata) (hp : p = q ∨ p = archivePath a) :
    Moving v a q payload s₀ p m' d { s with metadata := s.metadata.insert p m' } where
  frame := h.frame.set_metadata (lookup_insert_off (by simpa using hp))
  noIntents := h.noIntents
  metadata p' hp' := by
    by_cases he : p' = p
    · rw [he, if_pos rfl, AList.lookup_insert]
    · rw [if_neg he, AList.lookup_insert_ne he, h.metadata p' hp', if_neg he]
  payloads := h.payloads

omit [VolnameHash] in
theorem rows (h : Moving v a q payload s₀ p m d s) {rows : Rows} (hrows : ∀ u, u ∉ [v, a] → rows.lookup u = s.rows.lookup u) :
    Moving v a q payload s₀ p m d { s with rows } where
  frame := h.frame.set_rows hrows
  noIntents := h.noIntents
  metadata := h.metadata
  payloads := h.payloads

section

variable {m₀ : Metadata} {payload₀ : Payload} (h₀ : Stored t v q m₀ payload₀ s₀) (h : Moving v a q payload s₀ p m d s)

include h₀ h

theorem elsewhere : NoMetadataBut s v q := by
  intro u p' hp' hne
  have hoff : p' ∉ [q, archivePath a] := by simp [hne, (archivePath_ne hp').symm]
  rw [h.frame.metadata p' hoff]
  exact (h₀.elsewhere u p' hp' hne).1

theorem noMetadata (hp : q ≠ p) : NoMetadata s v := by
  intro u p' hp'
  by_cases he : p' = q
  · rw [he, h.metadata q (.inl rfl), if_neg hp]
  · exact elsewhere h₀ h u p' hp' he

theorem transitional {p' : Path} {m' : Metadata} (hm : s.metadata.lookup p' = some m') (ht : Transitional v p' m') :
    p' = archivePath a := by
  by_contra hne
  have hoff : p' ∉ [q, archivePath a] := by
    rintro hmem
    rcases List.mem_pair.mp hmem with rfl | he
    · exact dirname_volumePaths_ne_archive h₀.active.path ht.1
    · exact hne he
  rw [h.frame.metadata p' hoff] at hm
  exact h₀.whole p' m' hm ht

/-- The scan of a pool in between goes by the record of the one metadata file. -/
theorem scan (hn : NewName v q a s₀) (hp : p = q ∨ p = archivePath a) {r : CapacityRecord}
    (hr : capacityRecord s.payloads p m = .ok r) (hnames : ∀ u, r.Names u → u ∈ [v, a]) :
    Scannable s ∧ ∀ u ∈ [v, a], ¬Pending s u ∧ ∀ n, Committed s u n ↔ r.gone = false ∧ r.id = u ∧ r.size = n := by
  refine slot_single hn.separate h.frame (fun p' hp' => h.noIntents p' (List.mem_pair.mp hp')) h₀.scannable (q := p) ?_
    (fun p' hp' hne => ?_) hr hnames
  · rw [h.metadata p hp, if_pos rfl]
  · rw [h.metadata p' (List.mem_pair.mp hp'), if_neg hne]

end

end Moving

/-! ## The moves -/

/-- The payload, the row and the metadata move, in this order. -/
def moveArchive (vol : Volume) (infoFilePath : Path) (size : Int) (archivedName : String) (metadata : Metadata) :
    PoolProg Unit := do
  renamePayload vol.volpath (archivePath archivedName)
  archivePvReservationStep vol.volname archivedName size
  renameMetadata infoFilePath (archivePath archivedName)
  writeMetadata (archivePath archivedName) { metadata with pathPrefix := some ["archive"], state := some .archived }
  pruneEmptyParents
  pruneEmptyParents

omit [VolnameHash] in
theorem archiveVolume_eq (vol : Volume) (infoFilePath : Path) :
    archiveVolume vol infoFilePath m n uuids =
      prepareArchive vol infoFilePath m uuids >>= fun x => moveArchive vol infoFilePath n x.1 x.2 := rfl

omit [VolnameHash] in
/-- Prepared metadata keeps its name. -/
theorem prepareArchive_prepared {vol : Volume} (hs : isSafePathComponent a = true) (hn : startsWith ARCHIVE_PREFIX a = true)
    (ha : m.archiveName = some a) (ho : m.originalVolumeId = some vol.volname) (hstate : m.state = some .archiving) :
    prepareArchive vol p m uuids = pure (a, m) := by
  rw [prepareArchive, ha]
  dsimp only
  rw [if_neg (by simp [hs, hn, ho, hstate])]

/-- What a crash can leave of the archiving of `v` as `a`, once it has a name. -/
inductive ArchiveStage (v a : String) (q : Path) (m : Metadata) (payload : Payload) (s₀ : Pool) : Pool → Prop
  | prepared {s : Pool} : Moving v a q payload s₀ q (preparedMetadata v a m) q s → ArchiveStage v a q m payload s₀ s
  | moved {s : Pool} : Moving v a q payload s₀ q (preparedMetadata v a m) (archivePath a) s → ArchiveStage v a q m payload s₀ s
  | renamed {s : Pool} : Moving v a q payload s₀ (archivePath a) (preparedMetadata v a m) (archivePath a) s →
      ArchiveStage v a q m payload s₀ s
  | archived {s : Pool} : Moving v a q payload s₀ (archivePath a) (archivedMetadata v a m) (archivePath a) s →
      s.rows.lookup a = some m.size → s.rows.lookup v = none → ArchiveStage v a q m payload s₀ s

omit [VolnameHash] in
theorem ArchiveStage.frame (h : ArchiveStage v a q m payload s₀ s) : Frame [q, archivePath a] [v, a] s₀ s := by
  cases h with
  | prepared h => exact h.frame
  | moved h => exact h.frame
  | renamed h => exact h.frame
  | archived h => exact h.frame

section

variable {m₀ : Metadata} {payload₀ : Payload} (h₀ : Stored t v q m₀ payload₀ s₀) (hn : NewName v q a s₀)

include h₀

/-- The end of the archiving. -/
theorem archivedAs_of_moving (h : Moving v a q payload s₀ (archivePath a) (archivedMetadata v a m) (archivePath a) s)
    (ha : s.rows.lookup a = some m.size) (hv : s.rows.lookup v = none) : ArchivedAs v a m payload s where
  payload := by rw [h.payloads _ (.inr rfl), if_pos rfl]
  metadata := by
    rw [h.metadata _ (.inr rfl), if_pos rfl]
    rfl
  row := ha
  released := hv
  gone u p hp := by
    have hne : archivePath a ≠ p := archivePath_ne hp
    by_cases he : p = q
    · subst he
      rw [h.metadata p (.inl rfl), h.payloads p (.inl rfl), if_neg hne.symm]
      exact ⟨rfl, if_neg hne.symm⟩
    · have hoff : p ∉ [q, archivePath a] := by simp [he, hne.symm]
      rw [h.frame.metadata p hoff, h.frame.payloads p hoff]
      exact h₀.elsewhere u p hp he

include hn

/-- **The moves.** From each stage on, every crash leaves a stage, and the last one is reached. -/
theorem completes_moveArchive {vol : Volume} (hname : vol.volname = v) (hpath : vol.volpath = q) (hsize : 0 < m.size)
    (hp : p = q ∧ (d = q ∨ d = archivePath a) ∨ p = archivePath a ∧ d = archivePath a)
    (h : Moving v a q payload s₀ p (preparedMetadata v a m) d s) {C : Pool → Prop}
    (hC : ∀ s, ArchiveStage v a q m payload s₀ s → C s) :
    (moveArchive vol p m.size a (preparedMetadata v a m)).completes C
      (fun _ s => ArchiveStage v a q m payload s₀ s ∧ ArchivedAs v a m payload s) s := by
  have hne : q ≠ archivePath a := (archivePath_ne h₀.active.path).symm
  have hstage : ∀ {d s}, p = q ∧ (d = q ∨ d = archivePath a) ∨ p = archivePath a ∧ d = archivePath a →
      Moving v a q payload s₀ p (preparedMetadata v a m) d s → C s := by
    rintro d s (⟨rfl, rfl | rfl⟩ | ⟨rfl, rfl⟩) h
    · exact hC _ (.prepared h)
    · exact hC _ (.moved h)
    · exact hC _ (.renamed h)
  have hp' : p = q ∨ p = archivePath a := hp.imp And.left And.left
  have hd' : d = q ∨ d = archivePath a := hp.elim And.right fun h => .inr h.2
  rw [moveArchive, hname, hpath]
  -- the payload
  obtain ⟨payloads, hrename, hpayloads, hothers⟩ := renameForArchive_moves hne (.inl rfl) hd' h.payloads
  have h₁ : Moving v a q payload s₀ p (preparedMetadata v a m) (archivePath a) { s with payloads } :=
    ⟨h.frame.set_payloads hothers, h.noIntents, h.metadata, hpayloads⟩
  have hp₁ : p = q ∧ (archivePath a = q ∨ archivePath a = archivePath a) ∨ p = archivePath a ∧ archivePath a = archivePath a :=
    hp.imp (fun h => ⟨h.1, .inr rfl⟩) fun h => ⟨h.1, rfl⟩
  have hC₁ := hstage hp₁ h₁
  refine completes_bind (completes_update (hstage hp h) (by rw [hrename]; rfl) hC₁ ?_)
  -- the row
  have hrows : ∀ u, u ∉ [v, a] → (((s.rows.erase v).erase a).insert a m.size).lookup u = s.rows.lookup u := by
    intro u hu
    simp only [List.mem_cons, List.not_mem_nil, or_false, not_or] at hu
    rw [AList.lookup_insert_ne hu.2, AList.lookup_erase_ne hu.2, AList.lookup_erase_ne hu.1]
  have h₂ := h₁.rows hrows
  have hC₂ := hstage hp₁ h₂
  refine completes_bind (completes_transaction (a := ()) hC₁ ?_ hC₂ hC₁ ?_)
  · rw [archivePvReservation, renamePvRecord, validSize, if_neg (Int.not_le.mpr hsize)]
    rfl
  -- the metadata
  obtain ⟨metadata, hrename', hmetadata, hothers'⟩ :=
    renameForArchive_moves hne (hp'.imp id fun h => ⟨h, h⟩) hp' h₂.metadata
  have h₃ : Moving v a q payload s₀ (archivePath a) (preparedMetadata v a m) (archivePath a)
      { s with payloads, rows := ((s.rows.erase v).erase a).insert a m.size, metadata } :=
    ⟨h₂.frame.set_metadata hothers', h₂.noIntents, hmetadata, h₂.payloads⟩
  have hC₃ : C _ := hC _ (.renamed h₃)
  refine completes_bind (completes_update hC₂ (by rw [hrename']; rfl) hC₃ ?_)
  have h₄ := h₃.rewrite (archivedMetadata v a m) (.inr rfl)
  have hrow : (((s.rows.erase v).erase a).insert a m.size).lookup a = some m.size := AList.lookup_insert _
  have hrel : (((s.rows.erase v).erase a).insert a m.size).lookup v = none := by
    rw [AList.lookup_insert_ne hn.ne, AList.lookup_erase_ne hn.ne, AList.lookup_erase]
  have hC₄ := hC _ (.archived h₄ hrow hrel)
  refine completes_bind (completes_writeMetadata hC₃ hC₄ ?_)
  exact completes_bind (completes_pruneEmptyParents hC₄ (completes_pruneEmptyParents hC₄
    ⟨.archived h₄ hrow hrel, archivedAs_of_moving h₀ h₄ hrow hrel⟩))

/-- **The first attempt.** -/
theorem completes_archiveVolume {vol : Volume} (hname : vol.volname = v) (hpath : vol.volpath = q) (hsize : 0 < m.size)
    (hnone : m.archiveName = none) (h : Moving v a q payload s₀ q m q s) (hdrawn : freshArchiveName s uuids = .ok a)
    {C : Pool → Prop} (hs : C s) (hC : ∀ s, ArchiveStage v a q m payload s₀ s → C s) :
    (archiveVolume vol q m m.size uuids).completes C
      (fun _ s => ArchiveStage v a q m payload s₀ s ∧ ArchivedAs v a m payload s) s := by
  have h₁ := h.rewrite (preparedMetadata v a m) (.inl rfl)
  rw [archiveVolume_eq, prepareArchive, hnone, hname]
  refine completes_bind (completes_bind (completes_readPool hs hdrawn ?_))
  refine completes_bind (completes_writeMetadata hs (hC _ (.prepared h₁)) (completes_pure ?_))
  exact completes_moveArchive h₀ hn hname hpath hsize (.inl ⟨rfl, .inl rfl⟩) h₁ hC

/-- **A resumed attempt.** -/
theorem completes_archiveVolume_resumed {vol : Volume} (hname : vol.volname = v) (hpath : vol.volpath = q)
    (hsize : 0 < m.size) (hp : p = q ∧ (d = q ∨ d = archivePath a) ∨ p = archivePath a ∧ d = archivePath a)
    (h : Moving v a q payload s₀ p (preparedMetadata v a m) d s) :
    (archiveVolume vol p (preparedMetadata v a m) m.size uuids).completes (ArchiveStage v a q m payload s₀)
      (fun _ s => ArchiveStage v a q m payload s₀ s ∧ ArchivedAs v a m payload s) s := by
  rw [archiveVolume_eq, prepareArchive_prepared hn.safe hn.named rfl (congrArg some hname.symm) rfl]
  exact completes_bind (completes_pure (completes_moveArchive h₀ hn hname hpath hsize hp h fun _ => id))

end

end

/-! ## The scan -/

section

variable {t : PvType} {v a : String} {p d q : Path} {m m' m₀ : Metadata} {payload payload₀ : Payload} {s s₀ : Pool}
  {uuids : List String} {r : CapacityRecord}

/-- One record reserves under its name only. -/
theorem reserved_of_record (hs : Scannable s) (hg : r.gone = false)
    (h : ∀ u ∈ [v, a], ¬Pending s u ∧ ∀ n, Committed s u n ↔ r.gone = false ∧ r.id = u ∧ r.size = n) :
    ∃ out, capacityMetadataRecords s = .ok out ∧
      ∀ u ∈ [v, a], out.reservations.lookup u = if r.id = u then some r.size else none := by
  obtain ⟨out, hout, hres⟩ := scan_of_committed hs
  refine ⟨out, hout, fun u hu => ?_⟩
  have hat : ∀ n, out.reservations.lookup u = some n ↔ r.id = u ∧ r.size = n := fun n => by
    rw [hres u (h u hu).1, (h u hu).2, hg]
    simp
  split
  · rename_i hid
    exact (hat _).mpr ⟨hid, rfl⟩
  · rename_i hid
    by_contra hsome
    obtain ⟨n, hn⟩ := Option.ne_none_iff_exists'.mp hsome
    exact hid ((hat n).mp hn).1

theorem Stored.reservedOnce (h : Stored t v q m payload s) (hidle : ¬Pending s v) (hn : NewName v q a s) :
    ReservedOnce v a m.size s := by
  have hr : capacityRecord s.payloads q m = .ok ⟨v, none, m.size, false⟩ :=
    capacityRecord_active h.active.toOwnMetadata h.active.state h.active.size
  obtain ⟨hs, h⟩ := Moving.scan h (.stored h hidle hn) hn (.inl rfl) hr fun u hu => by
    rcases hu with rfl | hu
    · exact List.mem_cons_self
    · cases hu
  obtain ⟨out, hout, hres⟩ := reserved_of_record hs rfl h
  refine ⟨out, hout, .inl ⟨(hres v (by simp)).trans (if_pos rfl), (hres a (by simp)).trans (if_neg hn.ne)⟩⟩

/-- The record of the archive, complete or not. -/
theorem capacityRecord_stage (hm : Plain t v (canon t v) m) (hn : NewName v q a s₀)
    (he : m' = preparedMetadata v a m ∨ m' = archivedMetadata v a m) :
    archiveMetadataDetails (archivePath a) m' = .ok (some ⟨a, archivePath a, v, archivePath a, false⟩) ∧
      capacityRecord s.payloads (archivePath a) m' = .ok ⟨a, some v, m.size, false⟩ := by
  rcases he with rfl | rfl
  · exact capacityRecord_archive (t := t) hm.valid hn.safe hn.named rfl rfl hm.legacy hm.size (.inr ⟨rfl, hm.dir⟩)
  · exact capacityRecord_archive (t := t) hm.valid hn.safe hn.named rfl rfl hm.legacy hm.size (.inl ⟨rfl, rfl⟩)

/-- **Every stage is reserved** under the name of the archive. -/
theorem ArchiveStage.reserved (h₀ : Stored t v (canon t v) m₀ payload₀ s₀) (hn : NewName v (canon t v) a s₀)
    (hm : Plain t v (canon t v) m) (h : ArchiveStage v a (canon t v) m payload s₀ s) :
    Scannable s ∧ ¬Pending s v ∧ ∃ out, capacityMetadataRecords s = .ok out ∧ out.reservations.lookup v = none ∧
      out.reservations.lookup a = some m.size := by
  have hprep := prepared_of_plain hm hn.safe hn.named
  have hreserved : ∀ {p m' d}, Moving v a (canon t v) payload s₀ p m' d s → p = canon t v ∨ p = archivePath a →
      capacityRecord s.payloads p m' = .ok ⟨a, some v, m.size, false⟩ →
      Scannable s ∧ ¬Pending s v ∧ ∃ out, capacityMetadataRecords s = .ok out ∧ out.reservations.lookup v = none ∧
        out.reservations.lookup a = some m.size := by
    intro p m' d h hp hr
    obtain ⟨hs, h⟩ := Moving.scan h₀ h hn hp hr fun u hu => by
      rcases hu with rfl | hu
      · simp
      · cases hu
        exact List.mem_cons_self
    obtain ⟨out, hout, hres⟩ := reserved_of_record hs rfl h
    exact ⟨hs, (h v List.mem_cons_self).1, out, hout, (hres v (by simp)).trans (if_neg hn.ne.symm),
      (hres a (by simp)).trans (if_pos rfl)⟩
  cases h with
  | prepared h => exact hreserved h (.inl rfl) (capacityRecord_prepared hprep)
  | moved h => exact hreserved h (.inl rfl) (capacityRecord_prepared hprep)
  | renamed h => exact hreserved h (.inr rfl) (capacityRecord_stage hm hn (.inl rfl)).2
  | archived h _ _ => exact hreserved h (.inr rfl) (capacityRecord_stage hm hn (.inr rfl)).2

end

/-! ## The retry -/

section

variable {t : PvType} {v a : String} {p q : Path} {m m₀ : Metadata} {payload payload₀ : Payload} {s s₀ : Pool}
  {uuids us : List String} {hosts : List HostVol} {host : HostVol} {w : World} {vol : Volume} {C : Pool → Prop}
  {Q : Unit → Pool → Prop}

/-- Without intents, a managed volume is archived as it is. -/
theorem completes_archiveManaged (hm : s.metadata.lookup (vol.metadataPath.getD vol.volpath) = some m)
    (hno : NoIntents vol.volpath s) (hsize : 0 < m.size) (hC : C s)
    (h : (archiveVolume vol (vol.metadataPath.getD vol.volpath) m m.size us).completes C Q s) :
    (deleteManagedVolume vol .archive us).completes C Q s := by
  rw [deleteManagedVolume]
  refine completes_bind (completes_readPool (a := m) hC (by rw [hm]; rfl) ?_)
  refine completes_bind (completes_bind (completes_readPool hC (readVolumeExpansionIntent_absent hno.2) (completes_pure ?_)))
  rw [if_neg (Int.not_le.mpr hsize)]
  refine completes_bind (completes_bind (completes_readPool hC (readVolumeCreationIntent_absent hno.1) (completes_pure ?_)))
  rw [if_pos rfl]
  exact h

/-- The old place of prepared metadata that has moved. -/
theorem transitionalPath_prepared (h : Prepared t v a (canon t v) m) :
    transitionalPath v (allPaths v) m = .ok (t, canon t v) := by
  unfold transitionalPath
  cases hn : m.pvtype with
  | some n =>
    obtain rfl := h.pvtype n hn
    have hfind : (PvType.all.find? fun u => u.name = t.name) = some t := by cases t <;> rfl
    dsimp only [Option.bind_some]
    rw [hfind]
    dsimp only
    rw [canonicalPath_eq h.valid]
    rfl
  | none =>
    dsimp only [Option.bind_none]
    rw [h.dir, filter_allPaths canon_mem]
    rfl

/-- `vol` is the volume of an interrupted archive, which the archive policy completes. -/
structure Interrupted (v a : String) (q : Path) (m : Metadata) (payload : Payload) (s₀ s : Pool) (host : HostVol) (vol : Volume) :
    Prop where
  volname : vol.volname = v
  host : vol.host = host
  shared : vol.singlePvPerPool = false
  state : vol.state = some .archiving
  place : vol.metadataPath.getD vol.volpath = q ∨ vol.metadataPath.getD vol.volpath = archivePath a
  metadata : s.metadata.lookup (vol.metadataPath.getD vol.volpath) = some (preparedMetadata v a m)
  noIntents : NoIntents vol.volpath s
  completes : ∀ us, (deleteManagedVolume vol .archive us).completes (ArchiveStage v a q m payload s₀)
    (fun _ s => ArchiveStage v a q m payload s₀ s ∧ ArchivedAs v a m payload s) s

/-- **What a retry finds.** Nothing after a finished archive, else an interrupted one. -/
theorem ArchiveStage.found (h₀ : Stored t v (canon t v) m₀ payload₀ s₀) (hn : NewName v (canon t v) a s₀)
    (hm : Plain t v (canon t v) m) (hshared : host.singlePvPerPool = false) (h : ArchiveStage v a (canon t v) m payload s₀ s) :
    (searchPool host s v (allPaths v) = .ok none ∧ ArchivedAs v a m payload s) ∨
    ∃ vol, searchPool host s v (allPaths v) = .ok (some vol) ∧ Interrupted v a (canon t v) m payload s₀ s host vol := by
  have hne : canon t v ≠ archivePath a := (archivePath_ne canon_mem).symm
  have hprep := prepared_of_plain hm hn.safe hn.named
  obtain ⟨hscan, hidle, -⟩ := h.reserved h₀ hn hm
  have hresume : ∀ {d}, d = canon t v ∨ d = archivePath a →
      Moving v a (canon t v) payload s₀ (canon t v) (preparedMetadata v a m) d s →
      ∃ vol, searchPool host s v (allPaths v) = .ok (some vol) ∧ Interrupted v a (canon t v) m payload s₀ s host vol := by
    intro d hd h'
    have hlookup : s.metadata.lookup (canon t v) = some (preparedMetadata v a m) := by
      rw [h'.metadata _ (.inl rfl), if_pos rfl]
    have hfound : activeVolume host v t (canon t v) (preparedMetadata v a m) =
        .ok (foundVolume host t v (canon t v) (some .archiving) (preparedMetadata v a m)) :=
      activeVolume_eq rfl hm.id hm.incarnation
    refine ⟨_, searchPool_active hshared hlookup canon_mem (Moving.elsewhere h₀ h') hfound, rfl, rfl, rfl, rfl, .inl rfl,
      hlookup, h'.noIntents _ (.inl rfl), fun us => ?_⟩
    exact completes_archiveManaged hlookup (h'.noIntents _ (.inl rfl)) hm.size h
      (completes_archiveVolume_resumed h₀ hn rfl rfl hm.size (.inl ⟨rfl, hd⟩) h')
  cases h with
  | prepared h' => exact .inr (hresume (.inl rfl) h')
  | moved h' => exact .inr (hresume (.inr rfl) h')
  | renamed h' =>
    have hlookup : s.metadata.lookup (archivePath a) = some (preparedMetadata v a m) := by
      rw [h'.metadata _ (.inr rfl), if_pos rfl]
    have hdetails := (capacityRecord_stage (s := s) hm hn (.inl rfl)).1
    refine .inr ⟨_, searchPool_transitional hshared (Moving.noMetadata h₀ h' hne) hlookup
      (fun p' m' hm' htrans => Moving.transitional h₀ h' hm' htrans) ⟨rfl, rfl, rfl⟩ hdetails (transitionalPath_prepared hprep),
      rfl, rfl, rfl, rfl, .inr rfl, hlookup, h'.noIntents _ (.inl rfl), fun us => ?_⟩
    exact completes_archiveManaged hlookup (h'.noIntents _ (.inl rfl)) hm.size (.renamed h')
      (completes_archiveVolume_resumed h₀ hn rfl rfl hm.size (.inr ⟨rfl, rfl⟩) h')
  | archived h' hrow hrel =>
    refine .inl ⟨?_, archivedAs_of_moving h₀ h' hrow hrel⟩
    rw [searchPool_pending hshared (Moving.noMetadata h₀ h' hne) fun p' m' hm' htrans => ?_]
    · exact pendingCreationVolume_none hscan fun i hi => hidle (.inl ⟨i, hi⟩)
    · obtain rfl := Moving.transitional h₀ h' hm' htrans
      rw [h'.metadata _ (.inr rfl), if_pos rfl] at hm'
      cases hm'
      exact absurd htrans.2.1 (by simp [archivedMetadata])

omit [VolnameHash] in
theorem reclaimPolicyOf_archive (hpolicy : host.pvReclaimPolicy = some "archive") :
    reclaimPolicyOf host.pvReclaimPolicy = .ok .archive := by
  rw [hpolicy]
  rfl

/-- A retry of an attempt that has written nothing. -/
theorem succeeds_deleteVolume_stored (h₀ : Stored t v q m payload s₀) (hidle : ¬Pending s₀ v)
    (hhost : HostedBy hosts host v w) (hpolicy : host.pvReclaimPolicy = some "archive") (hd : Draws s₀ us a) :
    (deleteVolume hosts v us).succeeds (fun _ w' => ArchivedAs v a m payload (w' host.name))
      (Function.update w host.name s₀) := by
  have hactive := h₀.active
  have hn := newName_of_draws h₀ hidle hd
  have hfound : activeVolume host v t q m = .ok (foundVolume host t v q none m) :=
    activeVolume_eq (by rw [hactive.state]; rfl) hactive.id hactive.incarnation
  have hsearch := searchPool_active hhost.shared h₀.metadata hactive.path (fun u p hp hne => (h₀.elsewhere u p hp hne).1) hfound
  refine hhost.retry hactive.valid hsearch rfl rfl rfl ?_
  rw [deleteVolumeLocked_managed (reclaimPolicyOf_archive hpolicy) (by decide) (Option.some_ne_none _).symm rfl]
  have harchive : (deleteManagedVolume (foundVolume host t v q none m) .archive us).completes (fun _ => True)
      (fun _ s => ArchiveStage v a q m payload s₀ s ∧ ArchivedAs v a m payload s) s₀ :=
    completes_archiveManaged h₀.metadata (noIntents_of_idle h₀.scannable hidle hactive.path) hactive.size trivial
      (completes_archiveVolume h₀ hn rfl rfl hactive.size hactive.archiveName (.stored h₀ hidle hn) hd.drawn trivial
        fun _ _ => trivial)
  obtain ⟨u, hu, -, hend⟩ := completes_run harchive
  exact ⟨u, hu, hend⟩

/-- **A retry completes the archive**, whatever stage the crash has left. -/
theorem ArchiveStage.resumes (h₀ : Stored t v (canon t v) m₀ payload₀ s₀) (hn : NewName v (canon t v) a s₀)
    (hm : Plain t v (canon t v) m) (hhost : HostedBy hosts host v w) (hpolicy : host.pvReclaimPolicy = some "archive")
    (h : ArchiveStage v a (canon t v) m payload s₀ s) :
    (deleteVolume hosts v us).succeeds (fun _ w' => ArchivedAs v a m payload (w' host.name))
      (Function.update w host.name s) := by
  rcases h.found h₀ hn hm hhost.shared with ⟨hsearch, hend⟩ | ⟨vol, hsearch, hvol⟩
  · exact hhost.retry_absent hm.valid hsearch hend
  · have hpolicy' : reclaimPolicyOf vol.host.pvReclaimPolicy = .ok .archive := by
      rw [hvol.host, reclaimPolicyOf_archive hpolicy]
    refine hhost.retry hm.valid hsearch hvol.volname hvol.host hvol.shared ?_
    rw [deleteVolumeLocked_managed hpolicy' (by decide) (by simp [hvol.state]) hvol.shared]
    obtain ⟨u, hu, -, hend⟩ := completes_run (hvol.completes us)
    exact ⟨u, hu, hend⟩

/-- The crash right after the name has been written. -/
theorem prepared_visited (h₀ : Stored t v q m payload s) (hd : Draws s uuids a) (hname : vol.volname = v) :
    (archiveVolume vol q m m.size uuids).Visits s
      { s with metadata := s.metadata.insert q (preparedMetadata v a m) } := by
  rw [archiveVolume_eq, prepareArchive, h₀.active.archiveName, hname]
  refine .cons (i := .ok) rfl ?_
  dsimp only
  rw [hd.drawn]
  exact .cons (i := .ok) rfl (.refl _ _)

/-- **Archiving is crash-safe exactly at canonical paths.** -/
theorem archive_crash_safe (h₀ : Stored t v q m payload s) (hidle : ¬Pending s v) (hd : Draws s uuids a)
    (hhost : HostedBy hosts host v w) (hpolicy : host.pvReclaimPolicy = some "archive") :
    (∀ s', (archiveVolume (foundVolume host t v q none m) q m m.size uuids).Visits s s' → ReservedOnce v a m.size s' ∧
      ∀ us, (s' = s → ∃ b, Draws s us b) → (deleteVolume hosts v us).succeeds
        (fun _ w' => ∃ b, (s' = s ∨ b = a) ∧ ArchivedAs v b m payload (w' host.name))
        (Function.update w host.name s')) ↔ q = canon t v := by
  have hn := newName_of_draws h₀ hidle hd
  constructor
  · intro h
    obtain ⟨⟨out, hout, -⟩, -⟩ := h _ (prepared_visited h₀ hd rfl)
    obtain ⟨r, hr⟩ := (scan_ok_iff.mp ⟨out, hout⟩).records q _ (AList.lookup_insert _)
    exact (capacityRecord_prepared_iff (prepared_of_plain h₀.active.toPlain hn.safe hn.named) h₀.active.path).mp ⟨r, hr⟩
  · rintro rfl s' hv
    have harchive : (archiveVolume (foundVolume host t v (canon t v) none m) (canon t v) m m.size uuids).completes
        (fun s' => s' = s ∨ ArchiveStage v a (canon t v) m payload s s')
        (fun _ s' => ArchiveStage v a (canon t v) m payload s s' ∧ ArchivedAs v a m payload s') s :=
      completes_archiveVolume h₀ hn rfl rfl h₀.active.size h₀.active.archiveName (.stored h₀ hidle hn) hd.drawn (.inl rfl)
        fun _ => .inr
    rcases inv_visits (.inl rfl) harchive.1 hv with rfl | hstage
    · refine ⟨h₀.reservedOnce hidle hn, fun us hus => ?_⟩
      obtain ⟨b, hb⟩ := hus rfl
      exact succeeds_mono (fun _ w' h => ⟨b, .inl rfl, h⟩) (succeeds_deleteVolume_stored h₀ hidle hhost hpolicy hb)
    · obtain ⟨-, -, out, hout, hv, ha⟩ := hstage.reserved h₀ hn h₀.active.toPlain
      exact ⟨⟨out, hout, .inr ⟨hv, ha⟩⟩, fun us _ => succeeds_mono (fun _ w' h => ⟨a, .inr rfl, h⟩) (hstage.resumes h₀ hn h₀.active.toPlain hhost hpolicy)⟩

end

end

section

variable {t : PvType} {v : String} {q : Path} [VolnameHash]

/-- A name that is not the volume's is free for an archive. -/
theorem lonePool_draws {a : String} {uuids : List String} (hv : isValidCsiIdentifier v = true) (hq : q ∈ volumePaths t v)
    (hdrawn : freshArchiveName (lonePool v q) uuids = .ok a) (hs : isSafePathComponent a = true) (hne : v ≠ a) :
    Draws (lonePool v q) uuids a := by
  refine ⟨hdrawn, hs, fun p r hr => ?_, lonePool_idle⟩
  obtain ⟨m, hm, -⟩ := id hr
  obtain ⟨rfl, -⟩ := lookup_single hm
  obtain rfl := Record.functional (lonePool_stored hv hq).record hr
  exact hne

end

section

attribute [local instance] sampleHash

/-- A shared pool under the archive policy. -/
def archivingHost : HostVol := { name := "pool", type := "Replica1", pvReclaimPolicy := some "archive" }

/-- At a legacy path, a crash right after the archive has its name leaves a pool that cannot be scanned. -/
theorem legacyArchiving_wedges : ∃ v q a uuids s', Stored .subvol v q (loneMetadata v q) lonePayload (lonePool v q) ∧
    ¬Pending (lonePool v q) v ∧ Draws (lonePool v q) uuids a ∧
    (archiveVolume (foundVolume archivingHost .subvol v q none (loneMetadata v q)) q (loneMetadata v q) 1000 uuids).Visits
      (lonePool v q) s' ∧ ∀ out, capacityMetadataRecords s' ≠ .ok out := by
  have hv : isValidCsiIdentifier ".kadalu~x" = true := by decide +kernel
  have hq : ["subvol", "cb", "d4", ".kadalu~x"] ∈ volumePaths .subvol ".kadalu~x" := by decide +kernel
  have hd : Draws (lonePool ".kadalu~x" ["subvol", "cb", "d4", ".kadalu~x"]) ["1"] "archived-1" :=
    lonePool_draws hv hq (by decide +kernel) (by decide +kernel) (by decide)
  refine ⟨".kadalu~x", ["subvol", "cb", "d4", ".kadalu~x"], "archived-1", ["1"], _, lonePool_stored hv hq, lonePool_idle, hd,
    prepared_visited (lonePool_stored hv hq) hd rfl, fun out hout => ?_⟩
  obtain ⟨r, hr⟩ := (scan_ok_iff.mp ⟨out, hout⟩).records _ _ (AList.lookup_insert _)
  have hprep := prepared_of_plain (lonePool_stored hv hq).active.toPlain hd.safe (freshArchiveName_ok hd.drawn).1
  exact absurd ((capacityRecord_prepared_iff hprep hq).mp ⟨r, hr⟩) (by decide +kernel)

/-- At its canonical path, the same volume is archived whatever happens. -/
theorem canonicalArchiving_resumes :
    Draws (lonePool "pvc-1" ["subvol", "d3", "d3", "pvc-1"]) ["1"] "archived-1" ∧
    ∀ s', (archiveVolume (foundVolume archivingHost .subvol "pvc-1" ["subvol", "d3", "d3", "pvc-1"] none
        (loneMetadata "pvc-1" ["subvol", "d3", "d3", "pvc-1"])) ["subvol", "d3", "d3", "pvc-1"]
        (loneMetadata "pvc-1" ["subvol", "d3", "d3", "pvc-1"]) 1000 ["1"]).Visits
        (lonePool "pvc-1" ["subvol", "d3", "d3", "pvc-1"]) s' →
      ReservedOnce "pvc-1" "archived-1" 1000 s' ∧ ∀ us, (s' = lonePool "pvc-1" ["subvol", "d3", "d3", "pvc-1"] →
        ∃ b, Draws (lonePool "pvc-1" ["subvol", "d3", "d3", "pvc-1"]) us b) →
        (deleteVolume [archivingHost] "pvc-1" us).succeeds
          (fun _ w₁ => ∃ b, (s' = lonePool "pvc-1" ["subvol", "d3", "d3", "pvc-1"] ∨ b = "archived-1") ∧
            ArchivedAs "pvc-1" b (loneMetadata "pvc-1" ["subvol", "d3", "d3", "pvc-1"]) lonePayload (w₁ "pool"))
          (Function.update (fun _ => lonePool "pvc-1" ["subvol", "d3", "d3", "pvc-1"]) "pool" s') := by
  have hv : isValidCsiIdentifier "pvc-1" = true := by decide +kernel
  have hq : ["subvol", "d3", "d3", "pvc-1"] ∈ volumePaths .subvol "pvc-1" := by decide +kernel
  have hd : Draws (lonePool "pvc-1" ["subvol", "d3", "d3", "pvc-1"]) ["1"] "archived-1" :=
    lonePool_draws hv hq (by decide +kernel) (by decide +kernel) (by decide)
  exact ⟨hd, (archive_crash_safe (lonePool_stored hv hq) lonePool_idle hd ⟨rfl, [], [], rfl, by simp⟩ rfl).mpr
    (by decide +kernel)⟩

end

end Kadalu
