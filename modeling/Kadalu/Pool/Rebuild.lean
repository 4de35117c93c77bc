import Kadalu.Pool.Accounting
import Kadalu.Pool.ScanSpec

/-!
# What the accounting transactions do

One lemma for each operation of `Accounting.lean`. A rebuild touches rows only and leaves every reservation of its scan
in its row (`rebuild_rows`); an admission that grants new bytes links one intent and adds one row (`admit_cases`), an
expansion likewise (`reserve_cases`).
-/

namespace Kadalu

open Except

variable {s s' : Pool} {v : String} {n : Int}

@[simp] theorem validSize_ok {m : Int} : validSize n = .ok m ↔ 0 < n ∧ m = n := by
  rw [validSize, throw_eq_error, pure_eq_ok, ite_error_ok, Int.not_le, Except.ok.injEq, eq_comm (a := n)]

@[simp] theorem updateSummary_ok : updateSummary s n = .ok s' ↔ 0 < n ∧ s' = { s with summary := some n } := by
  simp only [updateSummary, bind_ok, validSize_ok, pure_eq_ok, Except.ok.injEq]
  exact ⟨fun ⟨_, ⟨h, rfl⟩, he⟩ => ⟨h, he.symm⟩, fun ⟨h, he⟩ => ⟨n, ⟨h, rfl⟩, he.symm⟩⟩

@[simp] theorem updatePvRecord_ok :
    updatePvRecord s v n = .ok s' ↔ 0 < n ∧ s' = { s with rows := s.rows.insert v n } := by
  simp only [updatePvRecord, bind_ok, validSize_ok, pure_eq_ok, Except.ok.injEq]
  exact ⟨fun ⟨_, ⟨h, rfl⟩, he⟩ => ⟨h, he.symm⟩, fun ⟨h, he⟩ => ⟨n, ⟨h, rfl⟩, he.symm⟩⟩

@[simp] theorem renamePvRecord_ok {u : String} :
    renamePvRecord s u v n = .ok s' ↔ 0 < n ∧ s' = { s with rows := ((s.rows.erase u).erase v).insert v n } := by
  simp only [renamePvRecord, bind_ok, validSize_ok, pure_eq_ok, Except.ok.injEq]
  exact ⟨fun ⟨_, ⟨h, rfl⟩, he⟩ => ⟨h, he.symm⟩, fun ⟨h, he⟩ => ⟨n, ⟨h, rfl⟩, he.symm⟩⟩

theorem getPvSize_ok : getPvSize s v = .ok n ↔ (s.rows.lookup v = some n ∧ 0 < n) ∨ (s.rows.lookup v = none ∧ n = 0) := by
  unfold getPvSize
  cases h : s.rows.lookup v with
  | none => simp [eq_comm]
  | some m =>
    simp only [validSize_ok, Option.some.injEq, reduceCtorEq, false_and, or_false]
    exact ⟨fun ⟨hm, he⟩ => ⟨he.symm, he ▸ hm⟩, fun ⟨he, hn⟩ => ⟨he ▸ hn, he.symm⟩⟩

theorem getPvSize_zero (h : getPvSize s v = .ok 0) : s.rows.lookup v = none := by
  rcases getPvSize_ok.mp h with ⟨-, h⟩ | ⟨h, -⟩
  · exact absurd h (by decide)
  · exact h

/-- The statistics only come out of valid rows. -/
theorem freeSizeBytes_ok (hsum : s.summary = some n) {free : Int} (h : freeSizeBytes s = .ok free) :
    (∀ u k, s.rows.lookup u = some k → 0 < k) ∧ free = n - s.rows.total := by
  simp only [freeSizeBytes, hsum, throw_eq_error, ite_error_ok, bind_ok, validSize_ok, pure_eq_ok,
    Except.ok.injEq] at h
  obtain ⟨hall, _, ⟨-, rfl⟩, rfl⟩ := h
  refine ⟨fun u k hk => ?_, rfl⟩
  by_contra hle
  exact hall (List.any_eq_true.mpr ⟨⟨u, k⟩, AList.mem_lookup_iff.mp hk, by simpa using hle⟩)

theorem mapError_ok {α : Type} {f : Err → Err} {x : Except Err α} {a : α} : x.mapError f = .ok a ↔ x = .ok a := by
  cases x <;> simp [Except.mapError]

/-! ## Rebuilding -/

theorem removeTombstones_eq (records : CapacityRecords) (s : Pool) :
    ∃ rows, removeTombstones records s = { s with rows } := by
  unfold removeTombstones
  generalize records.tombstones.filter _ = vs
  induction vs generalizing s with
  | nil => exact ⟨s.rows, rfl⟩
  | cons v vs ih => exact ih (removePvRecord s v)

theorem renameObsoleteAlias_ok {records : CapacityRecords} (h : renameObsoleteAlias records s v n = .ok s') :
    ∃ rows, s' = { s with rows } ∧
      ∀ u, u ≠ v → u ∈ records.reservations → rows.lookup u = s.rows.lookup u := by
  unfold renameObsoleteAlias at h
  split at h
  · rename_i a ha
    obtain ⟨-, rfl⟩ := renamePvRecord_ok.mp h
    have ha' : a ∉ records.reservations := by simpa using (Option.filter_eq_some_iff.mp ha).2
    refine ⟨_, rfl, fun u hu hres => ?_⟩
    rw [AList.lookup_insert_ne hu, AList.lookup_erase_ne hu, AList.lookup_erase_ne fun he : u = a => ha' (he ▸ hres)]
  · cases h
    exact ⟨_, rfl, fun _ _ _ => rfl⟩

theorem repairPvRecord_ok (hn : 0 < n) (h : repairPvRecord s v n = .ok s') :
    ∃ rows, s' = { s with rows } ∧ rows.lookup v = some n ∧ ∀ u, u ≠ v → rows.lookup u = s.rows.lookup u := by
  obtain ⟨k, hk, hrow⟩ := bind_ok.mp h
  split at hrow
  · obtain ⟨-, rfl⟩ := updatePvRecord_ok.mp hrow
    exact ⟨_, rfl, AList.lookup_insert _, fun u hu => AList.lookup_insert_ne hu⟩
  · rename_i hkn
    rw [not_not] at hkn
    subst hkn
    cases hrow
    rcases getPvSize_ok.mp hk with ⟨hk, -⟩ | ⟨-, hk⟩
    · exact ⟨_, rfl, hk, fun _ _ => rfl⟩
    · omega

/-- The loop leaves the size of every reservation it visits in its row, and the rows of all other reservations alone. -/
theorem rebuildRecords_ok {records : CapacityRecords} :
    ∀ {es : List (Sigma fun _ : String => Int)} {s s' : Pool}, es.NodupKeys →
      (∀ e ∈ es, 0 < e.2 ∧ e.1 ∈ records.reservations) → rebuildRecords records es s = .ok s' →
      ∃ rows, s' = { s with rows } ∧ (∀ e ∈ es, rows.lookup e.1 = some e.2) ∧
        ∀ u ∈ records.reservations, u ∉ es.keys → rows.lookup u = s.rows.lookup u
  | [], s, s', _, _, h => by cases h; exact ⟨s.rows, rfl, by simp, fun _ _ _ => rfl⟩
  | ⟨v, n⟩ :: es, s, s', hnd, hes, h => by
    obtain ⟨hv, hnd⟩ := List.nodupKeys_cons.mp hnd
    obtain ⟨⟨hn, hvres⟩, hes⟩ := List.forall_mem_cons.mp hes
    simp only [rebuildRecords, bind_ok] at h
    obtain ⟨s₁, h₁, s₂, h₂, h⟩ := h
    obtain ⟨rows₁, rfl, hrows₁⟩ := renameObsoleteAlias_ok h₁
    obtain ⟨rows₂, rfl, hv₂, hrows₂⟩ := repairPvRecord_ok hn h₂
    obtain ⟨rows, rfl, hrows, hother⟩ := rebuildRecords_ok hnd hes h
    refine ⟨rows, rfl, List.forall_mem_cons.mpr ⟨(hother v hvres hv).trans hv₂, hrows⟩, fun u hu hnot => ?_⟩
    obtain ⟨hne, hnot⟩ := not_or.mp (mt List.mem_cons.mpr hnot)
    rw [hother u hu hnot, hrows₂ u hne, hrows₁ u hne hu]

/-- Every row of the index is positive. -/
def Indexed (s : Pool) : Prop := ∀ u k, s.rows.lookup u = some k → 0 < k

theorem Indexed.insert (h : Indexed s) (hn : 0 < n) : Indexed { s with rows := s.rows.insert v n } := by
  intro u k hk
  by_cases hu : u = v
  · subst hu
    rw [AList.lookup_insert] at hk
    cases hk
    exact hn
  · rw [AList.lookup_insert_ne hu] at hk
    exact h u k hk

theorem Indexed.erase (h : Indexed s) : Indexed (removePvRecord s v) := by
  intro u k hk
  by_cases hu : u = v
  · subst hu
    rw [removePvRecord, AList.lookup_erase] at hk
    cases hk
  · rw [removePvRecord, AList.lookup_erase_ne hu] at hk
    exact h u k hk

theorem Indexed.getPvSize (h : Indexed s) : ∃ k, getPvSize s v = .ok k := by
  unfold Kadalu.getPvSize
  cases hv : s.rows.lookup v with
  | none => exact ⟨0, rfl⟩
  | some k => exact ⟨k, validSize_ok.mpr ⟨h v k hv, rfl⟩⟩

theorem Indexed.removeTombstones (records : CapacityRecords) (h : Indexed s) : Indexed (removeTombstones records s) := by
  unfold Kadalu.removeTombstones
  generalize records.tombstones.filter _ = vs
  induction vs generalizing s with
  | nil => exact h
  | cons v vs ih => exact ih h.erase

/-- Over positive rows the loop succeeds. -/
theorem rebuildRecords_total {records : CapacityRecords} :
    ∀ {es : List (Sigma fun _ : String => Int)} {s : Pool}, (∀ e ∈ es, 0 < e.2) → Indexed s →
      ∃ s', rebuildRecords records es s = .ok s' ∧ Indexed s'
  | [], s, _, h => ⟨s, rfl, h⟩
  | ⟨v, n⟩ :: es, s, hes, h => by
    obtain ⟨hn, hes⟩ := List.forall_mem_cons.mp hes
    obtain ⟨s₁, h₁, hi₁⟩ : ∃ s₁, renameObsoleteAlias records s v n = .ok s₁ ∧ Indexed s₁ := by
      unfold renameObsoleteAlias
      split
      · exact ⟨_, renamePvRecord_ok.mpr ⟨hn, rfl⟩, Indexed.insert h.erase.erase hn⟩
      · exact ⟨s, rfl, h⟩
    obtain ⟨s₂, h₂, hi₂⟩ : ∃ s₂, repairPvRecord s₁ v n = .ok s₂ ∧ Indexed s₂ := by
      obtain ⟨k, hk⟩ := hi₁.getPvSize (v := v)
      rw [repairPvRecord, hk, ok_bind]
      split
      · exact ⟨_, updatePvRecord_ok.mpr ⟨hn, rfl⟩, hi₁.insert hn⟩
      · exact ⟨s₁, rfl, hi₁⟩
    obtain ⟨s', hs', hi'⟩ : ∃ s', rebuildRecords records es s₂ = .ok s' ∧ Indexed s' := rebuildRecords_total hes hi₂
    exact ⟨s', by rw [rebuildRecords, h₁, ok_bind, h₂, ok_bind, hs'], hi'⟩

/-- A name that nothing reserves gets no row from the loop. -/
theorem rebuildRecords_unreserved {records : CapacityRecords} {u : String} :
    ∀ {es : List (Sigma fun _ : String => Int)} {s s' : Pool}, (∀ e ∈ es, e.1 ≠ u) → s.rows.lookup u = none →
      rebuildRecords records es s = .ok s' → s'.rows.lookup u = none
  | [], s, s', _, hrow, h => by cases h; exact hrow
  | ⟨v, n⟩ :: es, s, s', hes, hrow, h => by
    obtain ⟨hne, hes⟩ := List.forall_mem_cons.mp hes
    have hne : u ≠ v := fun he => hne he.symm
    simp only [rebuildRecords, bind_ok] at h
    obtain ⟨s₁, h₁, s₂, h₂, h⟩ := h
    have hrow₁ : s₁.rows.lookup u = none := by
      unfold renameObsoleteAlias at h₁
      split at h₁
      · rename_i a _
        obtain ⟨-, rfl⟩ := renamePvRecord_ok.mp h₁
        rw [AList.lookup_insert_ne hne, AList.lookup_erase_ne hne]
        by_cases ha : u = a
        · rw [ha, AList.lookup_erase]
        · rw [AList.lookup_erase_ne ha, hrow]
      · cases h₁
        exact hrow
    have hrow₂ : s₂.rows.lookup u = none := by
      obtain ⟨k, -, h₂⟩ := bind_ok.mp h₂
      split at h₂
      · obtain ⟨-, rfl⟩ := updatePvRecord_ok.mp h₂
        rw [AList.lookup_insert_ne hne, hrow₁]
      · cases h₂
        exact hrow₁
    exact rebuildRecords_unreserved hes hrow₂ h

theorem removePvRecord_foldl {u : String} : ∀ {vs : List String} {s : Pool}, s.rows.lookup u = none ∨ u ∈ vs →
    (vs.foldl removePvRecord s).rows.lookup u = none
  | [], s, h => h.resolve_right (List.not_mem_nil)
  | v :: vs, s, h => by
    refine removePvRecord_foldl (s := removePvRecord s v) ?_
    by_cases huv : u = v
    · exact .inl (by rw [huv]; exact AList.lookup_erase _ _)
    · rcases h with h | h
      · exact .inl ((AList.lookup_erase_ne huv).trans h)
      · exact .inr ((List.mem_cons.mp h).resolve_left huv)

variable [VolnameHash]

/-- Every reservation of a scan is positive. -/
theorem scan_reservations_pos {out : CapacityRecords} (h : capacityMetadataRecords s = .ok out)
    (hv : out.reservations.lookup v = some n) : 0 < n := by
  have hs := scan_ok_iff.mp ⟨out, h⟩
  rcases (scan_reservations h).mp hv with ⟨-, e, ⟨p, hp, -⟩, rfl⟩ | ⟨-, -, i, ⟨p, hp, -⟩, rfl⟩ | ⟨-, p, r, ⟨m, -, hr⟩, -, -, rfl⟩
  · have := hs.expansions p e hp
    simp only [validateExpansionIntent, throw_eq_error, ite_error_ok, bind_ok, not_or, not_not] at this
    obtain ⟨-, -, -, ⟨-, -, hpos, -⟩, -⟩ := this
    exact hpos
  · have := hs.creations p i hp
    simp only [validateCreationIntent, throw_eq_error, ite_error_ok, not_or, Int.not_le] at this
    exact this.1.2.2
  · simp only [capacityRecord, throw_eq_error, ite_error_ok, bind_ok, pure_eq_ok, Except.ok.injEq] at hr
    obtain ⟨hsize, ⟨id, a⟩, -, gone, -, rfl⟩ := hr
    exact Int.not_le.mp hsize

/-- **The rebuild.** It changes rows only, and the row of every reservation then holds its size. -/
theorem rebuild_rows (h : rebuildCommittedCapacity s = .ok s') :
    ∃ records rows, capacityMetadataRecords s = .ok records ∧ s' = { s with rows } ∧
      ∀ v n, records.reservations.lookup v = some n → rows.lookup v = some n := by
  obtain ⟨records, hscan, h⟩ := bind_ok.mp h
  obtain ⟨rows₀, h₀⟩ := removeTombstones_eq records s
  rw [h₀] at h
  obtain ⟨rows, rfl, hrows, -⟩ := rebuildRecords_ok records.reservations.nodupKeys
    (fun e he => ⟨scan_reservations_pos hscan (AList.mem_lookup_iff.mpr he), List.mem_keys_of_mem he⟩) h
  exact ⟨records, rows, hscan, rfl, fun v n hv => hrows ⟨v, n⟩ (AList.mem_lookup_iff.mp hv)⟩

/-- A scannable pool with positive rows can be rebuilt, and its rows stay positive. -/
theorem rebuild_total (hs : Scannable s) (hi : Indexed s) :
    ∃ s', rebuildCommittedCapacity s = .ok s' ∧ Indexed s' := by
  obtain ⟨records, hscan⟩ := scan_ok_iff.mpr hs
  obtain ⟨s', hs', hi'⟩ : ∃ s', rebuildRecords records records.reservations.entries (removeTombstones records s) = .ok s' ∧
      Indexed s' := rebuildRecords_total
    (fun e he => scan_reservations_pos hscan (AList.mem_lookup_iff.mpr he)) (hi.removeTombstones records)
  exact ⟨s', by rw [rebuildCommittedCapacity, hscan, ok_bind, hs'], hi'⟩

theorem rebuild_indexed (h : rebuildCommittedCapacity s = .ok s') (hi : Indexed s) : Indexed s' := by
  obtain ⟨records, hscan, -⟩ := bind_ok.mp h
  obtain ⟨s'', hs'', hi''⟩ := rebuild_total (scan_ok_iff.mp ⟨records, hscan⟩) hi
  cases h.symm.trans hs''
  exact hi''

/-- After a rebuild a name that nothing reserves has no row, if it had none before or was released. -/
theorem rebuild_unreserved {records : CapacityRecords} {u : String} (h : rebuildCommittedCapacity s = .ok s')
    (hscan : capacityMetadataRecords s = .ok records) (hu : u ∉ records.reservations)
    (hrow : s.rows.lookup u = none ∨ u ∈ records.tombstones) : s'.rows.lookup u = none := by
  rw [rebuildCommittedCapacity, hscan, ok_bind] at h
  refine rebuildRecords_unreserved (fun e he hne => hu ?_) (removePvRecord_foldl ?_) h
  · exact hne ▸ List.mem_keys_of_mem he
  · exact hrow.imp id fun ht => List.mem_filter.mpr ⟨ht, by simpa using hu⟩

/-! ## Admission -/

/-- The rows `rows` hold every reservation of the pool. -/
def Covers (s : Pool) (rows : Rows) : Prop :=
  ∃ records, capacityMetadataRecords s = .ok records ∧
    ∀ v n, records.reservations.lookup v = some n → rows.lookup v = some n

theorem reconcile_ok {total : Int} (h : reconcileHostingVolumeCapacity s total = .ok s') :
    ∃ rows, Covers s rows ∧ s' = { s with rows, summary := some total } := by
  obtain ⟨s₁, h₁, h⟩ := bind_ok.mp (mapError_ok.mp h)
  obtain ⟨-, rfl⟩ := updateSummary_ok.mp h₁
  obtain ⟨records, rows, hscan, rfl, hrows⟩ := rebuild_rows h
  exact ⟨rows, ⟨records, hscan, hrows⟩, rfl⟩

/-- What an admission did: it resumed an intent, refused the bytes, or granted them. -/
inductive Admission (s : Pool) (total : Int) (v : String) (t : PvType) (size : Int) (uuid : String) (p : Path)
    (rows : Rows) : Bool → Pool → Prop
  | resumed (existing : CreationIntent) :
    readVolumeCreationIntent s v t p = .ok (some existing) → creationIntentMatches existing v t p size = true →
      Admission s total v t size uuid p rows true { s with rows, summary := some total }
  | refused :
    s.creations.lookup p = none → rows.lookup v = none →
      Admission s total v t size uuid p rows false { s with rows, summary := some total }
  | granted :
    s.creations.lookup p = none → rows.lookup v = none → 0 < size → (∀ u n, rows.lookup u = some n → 0 < n) →
      ¬exceedsFree size (total - rows.total) →
      Admission s total v t size uuid p rows true
        { s with
          rows := rows.insert v size
          summary := some total
          creations := s.creations.insert p (volumeCreationIntent v t p size (some uuid)) }

theorem readVolumeCreationIntent_none {t : PvType} {p : Path} (h : readVolumeCreationIntent s v t p = .ok none) :
    s.creations.lookup p = none := by
  unfold readVolumeCreationIntent at h
  split at h
  · assumption
  · obtain ⟨-, -, h⟩ := bind_ok.mp h
    split at h <;> cases h

theorem finishVolumeCreation_ok {t : PvType} {p : Path} {i : CreationIntent}
    (h : finishVolumeCreation s v t p i = .ok s') : s' = { s with creations := s.creations.erase p } := by
  simp only [finishVolumeCreation, bind_ok, throw_eq_error, ite_error_ok, pure_eq_ok, Except.ok.injEq] at h
  obtain ⟨-, -, -, rfl⟩ := h
  rfl

/-- Linking a new intent where none was. -/
theorem prepareVolumeCreation_new {t : PvType} {p : Path} {uuid : String} {i : CreationIntent}
    (hnone : s.creations.lookup p = none) (h : prepareVolumeCreation s v t p n uuid = .ok (i, s')) :
    0 < n ∧ i = volumeCreationIntent v t p n (some uuid) ∧ s' = { s with creations := s.creations.insert p i } := by
  simp only [prepareVolumeCreation, bind_ok, hnone, throw_eq_error, ite_error_ok, pure_eq_ok, Except.ok.injEq,
    Prod.mk.injEq, not_or, Int.not_le] at h
  obtain ⟨_, -, ⟨-, hn⟩, rfl, rfl⟩ := h
  exact ⟨hn, rfl, rfl⟩

/-- **Admission.** It rebuilds the rows and then resumes, refuses or grants. -/
theorem admit_cases {total : Int} {t : PvType} {size : Int} {uuid : String} {b : Bool}
    (h : admitVolumeCreation s total v t size uuid = .ok (b, s')) :
    ∃ p rows, canonicalPath t v = .ok p ∧ Covers s rows ∧ Admission s total v t size uuid p rows b s' := by
  simp only [admitVolumeCreation, bind_ok] at h
  obtain ⟨s₁, h₁, p, hp, existing, hex, h⟩ := h
  obtain ⟨rows, hcov, rfl⟩ := reconcile_ok h₁
  refine ⟨p, rows, hp, hcov, ?_⟩
  cases existing with
  | some existing =>
    simp only [throw_eq_error, ite_error_ok, Bool.not_eq_true', Bool.not_eq_false, pure_eq_ok, Except.ok.injEq,
      Prod.mk.injEq] at h
    obtain ⟨hm, rfl, rfl⟩ := h
    exact .resumed existing hex hm
  | none =>
    obtain ⟨k, hk, h⟩ := bind_ok.mp h
    rw [throw_eq_error, ite_error_ok, not_not] at h
    obtain ⟨rfl, h⟩ := h
    obtain ⟨free, hfree, h⟩ := bind_ok.mp h
    have hnone := readVolumeCreationIntent_none hex
    have hrow := getPvSize_zero hk
    split at h
    · cases h
      exact .refused hnone hrow
    · rename_i hfit
      obtain ⟨hpos, rfl⟩ := freeSizeBytes_ok rfl (mapError_ok.mp hfree)
      obtain ⟨⟨i, s₂⟩, h₂, h⟩ := bind_ok.mp h
      obtain ⟨s₃, h₃, h⟩ := bind_ok.mp h
      obtain ⟨hn, rfl, rfl⟩ := prepareVolumeCreation_new (by exact hnone) h₂
      obtain ⟨-, rfl⟩ := updatePvRecord_ok.mp h₃
      cases h
      exact .granted hnone hrow hn hpos hfit

/-! ## Expansion -/

/-- Active metadata of `v` at `p` whose size is one end of the expansion. -/
def Expandable (s : Pool) (v : String) (t : PvType) (p : Path) (fromSize toSize : Int) : Prop :=
  (∃ paths, canonicalVolumePaths v t = .ok paths ∧ p ∈ paths) ∧
    ∃ m, s.metadata.lookup p = some m ∧ (m.size = fromSize ∨ m.size = toSize) ∧ m.pathPrefix = some p.dirname ∧
      m.volumeId.getD v = v ∧ m.state = none

/-- What a reservation of an expansion did: it resumed an intent, refused the bytes, linked again an intent whose target
is already committed, or granted the bytes. -/
inductive Expansion (s : Pool) (total : Int) (v : String) (t : PvType) (p : Path) (fromSize toSize : Int)
    (rows : Rows) : Option ExpansionIntent → Pool → Prop
  | resumed :
    s.expansions.lookup p = some (expansionIntent v t p fromSize toSize) →
      Expansion s total v t p fromSize toSize rows (some (expansionIntent v t p fromSize toSize))
        { s with rows := rows.insert v toSize, summary := some total }
  | refused :
    s.expansions.lookup p = none → rows.lookup v = some fromSize →
      Expansion s total v t p fromSize toSize rows none { s with rows, summary := some total }
  | replayed :
    s.expansions.lookup p = none → rows.lookup v = some toSize → Expandable s v t p fromSize toSize →
      Expansion s total v t p fromSize toSize rows (some (expansionIntent v t p fromSize toSize))
        { s with
          rows := rows.insert v toSize
          summary := some total
          expansions := s.expansions.insert p (expansionIntent v t p fromSize toSize) }
  | granted :
    s.expansions.lookup p = none → rows.lookup v = some fromSize → (∀ u n, rows.lookup u = some n → 0 < n) →
      ¬exceedsFree (toSize - fromSize) (total - rows.total) → Expandable s v t p fromSize toSize →
      Expansion s total v t p fromSize toSize rows (some (expansionIntent v t p fromSize toSize))
        { s with
          rows := rows.insert v toSize
          summary := some total
          expansions := s.expansions.insert p (expansionIntent v t p fromSize toSize) }

theorem readVolumeExpansionIntent_none {t : PvType} {p : Path} (h : readVolumeExpansionIntent s v t p = .ok none) :
    s.expansions.lookup p = none := by
  unfold readVolumeExpansionIntent at h
  split at h
  · assumption
  · obtain ⟨-, -, h⟩ := bind_ok.mp h
    split at h <;> cases h

theorem readVolumeExpansionIntent_some {t : PvType} {p : Path} {e : ExpansionIntent}
    (h : readVolumeExpansionIntent s v t p = .ok (some e)) : s.expansions.lookup p = some e := by
  unfold readVolumeExpansionIntent at h
  split at h
  · cases h
  · obtain ⟨-, -, h⟩ := bind_ok.mp h
    split at h
    · cases h
    · cases h
      assumption

/-- Linking a new expansion intent where none was. -/
theorem prepareVolumeExpansion_new {t : PvType} {p : Path} {fromSize toSize : Int} {e : ExpansionIntent}
    (hnone : s.expansions.lookup p = none) (h : prepareVolumeExpansion s v t p fromSize toSize = .ok (e, s')) :
    Expandable s v t p fromSize toSize ∧ e = expansionIntent v t p fromSize toSize ∧
      s' = { s with expansions := s.expansions.insert p e } := by
  simp only [prepareVolumeExpansion, bind_ok, throw_eq_error, ite_error_ok, not_not] at h
  obtain ⟨paths, hpaths, hp, h⟩ := h
  split at h
  · cases h
  · rename_i m hm
    simp only [hnone, ite_error_ok, not_or, not_and_or, not_not, pure_eq_ok, Except.ok.injEq, Prod.mk.injEq] at h
    obtain ⟨⟨hsize, hdir, hid, hstate⟩, rfl, rfl⟩ := h
    exact ⟨⟨⟨paths, hpaths, hp⟩, m, hm, hsize, hdir, hid, hstate⟩, rfl, rfl⟩

/-- **Expansion.** It rebuilds the rows and then resumes, refuses, links again or grants. -/
theorem reserve_cases {total : Int} {t : PvType} {p : Path} {fromSize toSize : Int} {e : Option ExpansionIntent}
    (h : reserveVolumeExpansion s total v t p fromSize toSize = .ok (e, s')) :
    0 < fromSize ∧ fromSize < toSize ∧ ∃ rows, Covers s rows ∧ (Indexed s → Indexed { s with rows }) ∧
      Expansion s total v t p fromSize toSize rows e s' := by
  simp only [reserveVolumeExpansion, throw_eq_error, ite_error_ok, not_not, Int.not_le, bind_ok] at h
  obtain ⟨⟨hfrom, -⟩, hlt, s₀, h₀, s₁, h₁, existing, hex, h⟩ := h
  obtain ⟨-, rfl⟩ := updateSummary_ok.mp h₀
  obtain ⟨records, rows, hscan, rfl, hrows⟩ := rebuild_rows h₁
  have hindexed := rebuild_indexed h₁
  refine ⟨hfrom, hlt, rows, ⟨records, hscan, hrows⟩, hindexed, ?_⟩
  cases existing with
  | some existing =>
    simp only [ite_error_ok, not_not, bind_ok, updatePvRecord_ok, pure_eq_ok, Except.ok.injEq, Prod.mk.injEq] at h
    obtain ⟨rfl, _, ⟨-, rfl⟩, rfl, rfl⟩ := h
    exact .resumed (readVolumeExpansionIntent_some hex)
  | none =>
    obtain ⟨k, hk, h⟩ := bind_ok.mp h
    have hnone : s.expansions.lookup p = none := readVolumeExpansionIntent_none hex
    have hto : 0 < toSize := hfrom.trans hlt
    have hrow : 0 < k → rows.lookup v = some k := fun hpos => by
      rcases getPvSize_ok.mp hk with ⟨hk, -⟩ | ⟨-, rfl⟩
      · exact hk
      · exact absurd hpos (Int.lt_irrefl 0)
    split at h
    · rename_i hkto
      subst hkto
      obtain ⟨⟨i, s₂⟩, h₂, h⟩ := bind_ok.mp h
      obtain ⟨s₃, h₃, h⟩ := bind_ok.mp h
      obtain ⟨hexp, rfl, rfl⟩ := prepareVolumeExpansion_new (by exact hnone) h₂
      obtain ⟨-, rfl⟩ := updatePvRecord_ok.mp h₃
      cases h
      exact .replayed hnone (hrow hto) hexp
    · rw [ite_error_ok, not_not] at h
      obtain ⟨rfl, h⟩ := h
      obtain ⟨free, hfree, h⟩ := bind_ok.mp h
      obtain ⟨hpos, rfl⟩ := freeSizeBytes_ok rfl hfree
      split at h
      · cases h
        exact .refused hnone (hrow hfrom)
      · rename_i hfit
        obtain ⟨⟨i, s₂⟩, h₂, h⟩ := bind_ok.mp h
        obtain ⟨s₃, h₃, h⟩ := bind_ok.mp h
        obtain ⟨hexp, rfl, rfl⟩ := prepareVolumeExpansion_new (by exact hnone) h₂
        obtain ⟨-, rfl⟩ := updatePvRecord_ok.mp h₃
        cases h
        exact .granted hnone (hrow hfrom) hpos hfit hexp

end Kadalu
