import Kadalu.Pool.Rebuild

/-!
# Rebuilding the index, statement by statement

Outside a transaction every statement on `stat.db` takes effect at once, so an exception leaves what the statements before it
have done. `rebuildStatements` is `_rebuild_committed_capacity` at this grain, and `rebuildStatements_result` says that it is the
rebuild of `Accounting.lean` where no exception ends it.

* `Reindexed`: the index that a rebuild owes to the scan.
* `rebuildStatements_exact`: a rebuild gives this index, and a second one changes no row; it raises only over a row of invalid
  size that it would have to read, and a failed scan leaves the index as it was.
-/

namespace Kadalu

open Except

section

/-! ## Statements -/

/-- A program of statements on one pool. -/
abbrev StatProg (α : Type) : Type := EStateM Err Pool α

/-- A statement that changes the index, or raises and changes nothing. -/
def statement (f : Pool → Except Err Pool) : StatProg Unit := fun s =>
  match f s with
  | .ok s' => .ok () s'
  | .error e => .error e s

/-- A statement that only reads. -/
def query {α : Type} (f : Pool → Except Err α) : StatProg α := fun s =>
  match f s with
  | .ok a => .ok a s
  | .error e => .error e s

/-- The result of a program, without the pool that an exception leaves. -/
def outcome : EStateM.Result Err Pool Unit → Except Err Pool
  | .ok _ s => .ok s
  | .error e _ => .error e

variable {α : Type} {s s' : Pool} {f : Pool → Except Err Pool}

theorem outcome_statement {k : Unit → StatProg Unit} :
    outcome ((statement f >>= k) s) = f s >>= fun s' => outcome (k () s') := by
  show outcome (EStateM.bind (statement f) k s) = _
  unfold EStateM.bind statement
  cases f s <;> rfl

theorem outcome_query {g : Pool → Except Err α} {k : α → StatProg Unit} :
    outcome ((query g >>= k) s) = g s >>= fun a => outcome (k a s) := by
  show outcome (EStateM.bind (query g) k s) = _
  unfold EStateM.bind query
  cases g s <;> rfl

theorem outcome_ok {r : EStateM.Result Err Pool Unit} : outcome r = .ok s ↔ r = .ok () s := by
  cases r with
  | ok a t =>
    cases a
    exact ⟨fun h => by cases h; rfl, fun h => by cases h; rfl⟩
  | error e t => exact ⟨nofun, nofun⟩

/-! ## The rebuild -/

/-- The removals of `_rebuild_committed_capacity`. -/
def removeRecords : List String → StatProg Unit
  | [] => pure ()
  | v :: vs => do
    statement fun s => pure (removePvRecord s v)
    removeRecords vs

/-- The loop of `_rebuild_committed_capacity` over the reservations. -/
def reindexRecords (records : CapacityRecords) : List (Sigma fun _ : String => Int) → StatProg Unit
  | [] => pure ()
  | ⟨volumeId, size⟩ :: rest => do
    statement fun s => renameObsoleteAlias records s volumeId size
    statement fun s => repairPvRecord s volumeId size
    reindexRecords records rest

/-- `_rebuild_committed_capacity` -/
def rebuildStatements [VolnameHash] : StatProg Unit := do
  let records ← query capacityMetadataRecords
  removeRecords (records.tombstones.filter (· ∉ records.reservations))
  reindexRecords records records.reservations.entries

theorem outcome_removeRecords {vs : List String} {k : Unit → StatProg Unit} :
    outcome ((removeRecords vs >>= k) s) = outcome (k () (vs.foldl removePvRecord s)) := by
  induction vs generalizing s with
  | nil => rfl
  | cons v vs ih =>
    rw [removeRecords, bind_assoc, outcome_statement]
    exact ih

theorem outcome_reindexRecords {records : CapacityRecords} {es : List (Sigma fun _ : String => Int)} :
    outcome (reindexRecords records es s) = rebuildRecords records es s := by
  induction es generalizing s with
  | nil => rfl
  | cons e es ih =>
    simp only [reindexRecords, rebuildRecords, outcome_statement, ih]

/-- Where no exception ends it, the rebuild is that of the transactions. -/
theorem rebuildStatements_result [VolnameHash] : outcome (rebuildStatements s) = rebuildCommittedCapacity s := by
  simp only [rebuildStatements, rebuildCommittedCapacity, outcome_query, outcome_removeRecords, outcome_reindexRecords]
  rfl

/-! ## The rows after the loop -/

variable {records : CapacityRecords} {v a u : String} {n : Int}

/-- The alias `a` of the reservation `v` is reserved by nothing. -/
def Obsolete (records : CapacityRecords) (v a : String) : Prop :=
  records.aliases.lookup v = some a ∧ a ∉ records.reservations

theorem renameObsoleteAlias_of (h : Obsolete records v a) : renameObsoleteAlias records s v n = renamePvRecord s a v n := by
  rw [renameObsoleteAlias, h.1, Option.filter_some, if_pos (by simpa using h.2)]

theorem renameObsoleteAlias_none (h : ∀ a, ¬Obsolete records v a) : renameObsoleteAlias records s v n = .ok s := by
  unfold renameObsoleteAlias
  split
  · rename_i a ha
    obtain ⟨hmem, hres⟩ := Option.filter_eq_some_iff.mp ha
    exact absurd ⟨hmem, by simpa using hres⟩ (h a)
  · rfl

/-- The row of a reservation has no size that `get_pv_size` refuses, or its alias gives its row up first. -/
def Repairable (records : CapacityRecords) (s : Pool) (v : String) : Prop :=
  (∃ a, Obsolete records v a) ∨ ∀ k, s.rows.lookup v = some k → 0 < k

theorem repairable_congr (h : s'.rows.lookup v = s.rows.lookup v) : Repairable records s' v ↔ Repairable records s v := by
  unfold Repairable
  rw [h]

/-- One turn of the loop: the reservation gets its row, its obsolete alias loses its own. -/
theorem turn_ok (hn : 0 < n) (hv : v ∈ records.reservations) {s₁ : Pool} (h₁ : renameObsoleteAlias records s v n = .ok s₁)
    (h : repairPvRecord s₁ v n = .ok s') :
    s'.rows.lookup v = some n ∧ (∀ u, u ≠ v → ¬Obsolete records v u → s'.rows.lookup u = s.rows.lookup u) ∧
      (∀ a, Obsolete records v a → s'.rows.lookup a = none) ∧ Repairable records s v := by
  obtain ⟨rows, rfl, hrow, hother⟩ := repairPvRecord_ok hn h
  by_cases hobs : ∃ a, Obsolete records v a
  · obtain ⟨a, ha⟩ := hobs
    rw [renameObsoleteAlias_of ha] at h₁
    obtain ⟨-, rfl⟩ := renamePvRecord_ok.mp h₁
    have hav : a ≠ v := fun he => ha.2 (he ▸ hv)
    refine ⟨hrow, fun u hu hnot => ?_, fun b hb => ?_, .inl ⟨a, ha⟩⟩
    · have hua : u ≠ a := fun he => hnot (he ▸ ha)
      rw [hother u hu, AList.lookup_insert_ne hu, AList.lookup_erase_ne hu, AList.lookup_erase_ne hua]
    · obtain rfl : a = b := Option.some.inj (ha.1.symm.trans hb.1)
      rw [hother a hav, AList.lookup_insert_ne hav, AList.lookup_erase_ne hav, AList.lookup_erase]
  · rw [renameObsoleteAlias_none fun a ha => hobs ⟨a, ha⟩] at h₁
    cases h₁
    refine ⟨hrow, fun u hu _ => hother u hu, fun b hb => absurd ⟨b, hb⟩ hobs, .inr fun k hk => ?_⟩
    obtain ⟨m, hm, -⟩ := bind_ok.mp h
    rcases getPvSize_ok.mp hm with ⟨hm, hpos⟩ | ⟨hm, -⟩
    · rw [hm] at hk
      cases hk
      exact hpos
    · rw [hm] at hk
      cases hk

/-- A repairable reservation gets through its turn. -/
theorem turn_total (hn : 0 < n) (h : Repairable records s v) :
    ∃ s₁ s', renameObsoleteAlias records s v n = .ok s₁ ∧ repairPvRecord s₁ v n = .ok s' := by
  have hrepair : ∀ t : Pool, (∀ k, t.rows.lookup v = some k → 0 < k) → ∃ t', repairPvRecord t v n = .ok t' := by
    intro t ht
    obtain ⟨k, hk⟩ : ∃ k, getPvSize t v = .ok k := by
      unfold getPvSize
      cases hv : t.rows.lookup v with
      | none => exact ⟨0, rfl⟩
      | some k => exact ⟨k, validSize_ok.mpr ⟨ht k hv, rfl⟩⟩
    rw [repairPvRecord, hk, ok_bind]
    split
    · exact ⟨_, updatePvRecord_ok.mpr ⟨hn, rfl⟩⟩
    · exact ⟨t, rfl⟩
  by_cases hobs : ∃ a, Obsolete records v a
  · obtain ⟨a, ha⟩ := hobs
    obtain ⟨s', hs'⟩ := hrepair { s with rows := ((s.rows.erase a).erase v).insert v n } fun k hk => by
      rw [AList.lookup_insert] at hk
      cases hk
      exact hn
    exact ⟨_, s', by rw [renameObsoleteAlias_of ha, renamePvRecord_ok.mpr ⟨hn, rfl⟩], hs'⟩
  · obtain ⟨s', hs'⟩ := hrepair s (h.resolve_left hobs)
    exact ⟨s, s', renameObsoleteAlias_none fun a ha => hobs ⟨a, ha⟩, hs'⟩

/-- A reserved ID other than `v` keeps its row in the turn of `v`. -/
theorem turn_reserved {s₁ : Pool} (hn : 0 < n) (hv : v ∈ records.reservations)
    (h₁ : renameObsoleteAlias records s v n = .ok s₁) (h : repairPvRecord s₁ v n = .ok s') (hu : u ∈ records.reservations)
    (hne : u ≠ v) : s'.rows.lookup u = s.rows.lookup u :=
  (turn_ok hn hv h₁ h).2.1 u hne fun hobs => hobs.2 hu

/-- What the loop leaves in the rows, and what it has found there. -/
theorem rebuildRecords_rows : ∀ {es : List (Sigma fun _ : String => Int)} {s s' : Pool}, es.NodupKeys →
    (∀ e ∈ es, 0 < e.2 ∧ e.1 ∈ records.reservations) → rebuildRecords records es s = .ok s' →
    (∀ e ∈ es, s'.rows.lookup e.1 = some e.2) ∧ (∀ e ∈ es, ∀ a, Obsolete records e.1 a → s'.rows.lookup a = none) ∧
      (∀ u, u ∉ es.keys → (∀ e ∈ es, ¬Obsolete records e.1 u) → s'.rows.lookup u = s.rows.lookup u) ∧
      ∀ e ∈ es, Repairable records s e.1
  | [], s, s', _, _, h => by cases h; simp
  | ⟨v, n⟩ :: es, s, s', hnd, hes, h => by
    obtain ⟨hv, hnd⟩ := List.nodupKeys_cons.mp hnd
    obtain ⟨⟨hn, hvres⟩, hes⟩ := List.forall_mem_cons.mp hes
    simp only [rebuildRecords, bind_ok] at h
    obtain ⟨s₁, h₁, s₂, h₂, h⟩ := h
    obtain ⟨hrow, hother, halias, hrep⟩ := turn_ok hn hvres h₁ h₂
    obtain ⟨hrows, haliases, hothers, hreps⟩ := rebuildRecords_rows hnd hes h
    -- nothing that is obsolete is reserved, so no later turn is about it
    have hnokey : ∀ {e a}, Obsolete records e a → a ∉ es.keys := by
      intro e a ha hkey
      obtain ⟨f, hf, rfl⟩ := List.mem_map.mp hkey
      exact ha.2 (hes f hf).2
    refine ⟨List.forall_mem_cons.mpr ⟨?_, hrows⟩, List.forall_mem_cons.mpr ⟨fun a ha => ?_, haliases⟩, fun u hu hnot => ?_,
      List.forall_mem_cons.mpr ⟨hrep, fun e he => ?_⟩⟩
    · exact (hothers v hv fun e _ hobs => hobs.2 hvres).trans hrow
    · by_cases hagain : ∃ e ∈ es, Obsolete records e.1 a
      · obtain ⟨e, he, hobs⟩ := hagain
        exact haliases e he a hobs
      · rw [hothers a (hnokey ha) fun e he hobs => hagain ⟨e, he, hobs⟩]
        exact halias a ha
    · obtain ⟨hne, hu⟩ := not_or.mp (mt List.mem_cons.mpr hu)
      obtain ⟨hnotv, hnot⟩ := List.forall_mem_cons.mp hnot
      rw [hothers u hu hnot, hother u hne hnotv]
    · have hne : e.1 ≠ v := ne_of_mem_of_not_mem (List.mem_keys_of_mem he) hv
      exact (repairable_congr (turn_reserved hn hvres h₁ h₂ (hes e he).2 hne)).mp (hreps e he)

/-- Over repairable reservations the loop succeeds. -/
theorem rebuildRecords_repairs : ∀ {es : List (Sigma fun _ : String => Int)} {s : Pool}, es.NodupKeys →
    (∀ e ∈ es, 0 < e.2 ∧ e.1 ∈ records.reservations) → (∀ e ∈ es, Repairable records s e.1) →
    ∃ s', rebuildRecords records es s = .ok s'
  | [], s, _, _, _ => ⟨s, rfl⟩
  | ⟨v, n⟩ :: es, s, hnd, hes, hreps => by
    obtain ⟨hv, hnd⟩ := List.nodupKeys_cons.mp hnd
    obtain ⟨⟨hn, hvres⟩, hes⟩ := List.forall_mem_cons.mp hes
    obtain ⟨hrep, hreps⟩ := List.forall_mem_cons.mp hreps
    obtain ⟨s₁, s₂, h₁, h₂⟩ := turn_total hn hrep
    have hrest : ∀ e ∈ es, Repairable records s₂ e.1 := by
      intro e he
      have hne : e.1 ≠ v := ne_of_mem_of_not_mem (List.mem_keys_of_mem he) hv
      exact (repairable_congr (turn_reserved hn hvres h₁ h₂ (hes e he).2 hne)).mpr (hreps e he)
    obtain ⟨s', hs'⟩ := rebuildRecords_repairs hnd hes hrest
    exact ⟨s', by rw [rebuildRecords, h₁, ok_bind, h₂, ok_bind, hs']⟩

theorem removePvRecord_foldl_ne : ∀ {vs : List String} {s : Pool}, u ∉ vs →
    (vs.foldl removePvRecord s).rows.lookup u = s.rows.lookup u
  | [], s, _ => rfl
  | v :: vs, s, h => by
    obtain ⟨hne, h⟩ := not_or.mp (mt List.mem_cons.mpr h)
    exact (removePvRecord_foldl_ne (s := removePvRecord s v) h).trans (AList.lookup_erase_ne hne)

end

/-! ## The rebuild and the scan -/

section

variable [VolnameHash] {s s' : Pool} {records : CapacityRecords} {v u : String}

/-- The name was given up by what the scan found: it is a tombstone's or the original ID of an archive. -/
def GivenUp (records : CapacityRecords) (u : String) : Prop :=
  u ∈ records.tombstones ∨ ∃ v, records.aliases.lookup v = some u

/-- The index `s'` is the index `s` brought up to date with the scan. -/
structure Reindexed (records : CapacityRecords) (s s' : Pool) : Prop where
  files : s' = { s with rows := s'.rows }
  reserved : ∀ v n, records.reservations.lookup v = some n → s'.rows.lookup v = some n
  released : ∀ u, u ∉ records.reservations → GivenUp records u → s'.rows.lookup u = none
  others : ∀ u, u ∉ records.reservations → ¬GivenUp records u → s'.rows.lookup u = s.rows.lookup u

/-- Every entry of the scan is a positive reservation. -/
theorem scan_entries (h : capacityMetadataRecords s = .ok records) :
    ∀ e ∈ records.reservations.entries, 0 < e.2 ∧ e.1 ∈ records.reservations := fun _ he =>
  ⟨scan_reservations_pos h (AList.mem_lookup_iff.mpr he), List.mem_keys_of_mem he⟩

/-- What has an alias is reserved. -/
theorem scan_aliases_reserved {a : String} (h : capacityMetadataRecords s = .ok records)
    (ha : records.aliases.lookup v = some a) : v ∈ records.reservations := by
  obtain ⟨p, r, hr, hgone, rfl, -⟩ := (scan_aliases h).mp ha
  obtain ⟨k, hk⟩ := scan_reserves_committed h ⟨p, r, hr, hgone, rfl, rfl⟩
  exact AList.mem_keys.mpr (AList.lookup_isSome.mp (by rw [hk]; rfl))

theorem rebuild_reindexes (h : rebuildCommittedCapacity s = .ok s') (hscan : capacityMetadataRecords s = .ok records) :
    Reindexed records s s' ∧ ∀ v ∈ records.reservations, Repairable records s v := by
  have hfiles : s' = { s with rows := s'.rows } := by
    obtain ⟨-, rows, -, rfl, -⟩ := rebuild_rows h
    rfl
  rw [rebuildCommittedCapacity, hscan, ok_bind, removeTombstones] at h
  obtain ⟨hrows, haliases, hothers, hreps⟩ := rebuildRecords_rows records.reservations.nodupKeys (scan_entries hscan) h
  have hkeys : ∀ {u}, u ∉ records.reservations → u ∉ records.reservations.entries.keys := fun hu => hu
  refine ⟨⟨hfiles, fun v n hv => hrows ⟨v, n⟩ (AList.mem_lookup_iff.mp hv), fun u hu hgiven => ?_, fun u hu hnot => ?_⟩, ?_⟩
  · by_cases halias : ∃ v, records.aliases.lookup v = some u
    · obtain ⟨v, hv⟩ := halias
      obtain ⟨e, he, rfl⟩ := List.mem_map.mp (scan_aliases_reserved hscan hv)
      exact haliases e he u ⟨hv, hu⟩
    · have hgone := hgiven.resolve_right halias
      rw [hothers u (hkeys hu) fun e _ hobs => halias ⟨e.1, hobs.1⟩]
      exact removePvRecord_foldl (.inr (List.mem_filter.mpr ⟨hgone, by simpa using hu⟩))
  · obtain ⟨htomb, halias⟩ := not_or.mp hnot
    rw [hothers u (hkeys hu) fun e _ hobs => halias ⟨e.1, hobs.1⟩]
    exact removePvRecord_foldl_ne fun hmem => htomb (List.mem_filter.mp hmem).1
  · intro v hv
    obtain ⟨e, he, rfl⟩ := List.mem_map.mp hv
    refine (repairable_congr (removePvRecord_foldl_ne fun hmem => ?_)).mp (hreps e he)
    exact absurd hv (by simpa using (List.mem_filter.mp hmem).2)

theorem rebuild_repairs (hscan : capacityMetadataRecords s = .ok records)
    (hreps : ∀ v ∈ records.reservations, Repairable records s v) : ∃ s', rebuildCommittedCapacity s = .ok s' := by
  rw [rebuildCommittedCapacity, hscan, ok_bind, removeTombstones]
  refine rebuildRecords_repairs records.reservations.nodupKeys (scan_entries hscan) fun e he => ?_
  have hres := (scan_entries hscan e he).2
  refine (repairable_congr (removePvRecord_foldl_ne fun hmem => ?_)).mpr (hreps e.1 hres)
  exact absurd hres (by simpa using (List.mem_filter.mp hmem).2)

/-- A second rebuild finds the rows as it would leave them. -/
theorem Reindexed.again (h : Reindexed records s s') (hscan : capacityMetadataRecords s = .ok records) :
    ∃ s'', rebuildCommittedCapacity s' = .ok s'' ∧ ∀ u, s''.rows.lookup u = s'.rows.lookup u := by
  have hscan' : capacityMetadataRecords s' = .ok records := by
    rw [h.files]
    exact hscan
  obtain ⟨s'', hs''⟩ := rebuild_repairs hscan' fun v hv => .inr fun k hk => by
    obtain ⟨n, hn⟩ := Option.isSome_iff_exists.mp (AList.lookup_isSome.mpr hv)
    rw [h.reserved v n hn] at hk
    cases hk
    exact scan_reservations_pos hscan hn
  have hagain := (rebuild_reindexes hs'' hscan').1
  refine ⟨s'', hs'', fun u => ?_⟩
  by_cases hu : u ∈ records.reservations
  · obtain ⟨n, hn⟩ := Option.isSome_iff_exists.mp (AList.lookup_isSome.mpr hu)
    rw [h.reserved u n hn, hagain.reserved u n hn]
  · by_cases hgiven : GivenUp records u
    · rw [h.released u hu hgiven, hagain.released u hu hgiven]
    · exact hagain.others u hu hgiven

end

/-! ## An invalid row -/

section

attribute [local instance] sampleHash

/-- A pool with a pending create of 1000 bytes for `pvc-1`, whose row says zero. -/
def zeroRow : Pool where
  creations := (∅ : Table CreationIntent).insert ["subvol", "d3", "d3", "pvc-1"]
    (volumeCreationIntent "pvc-1" .subvol ["subvol", "d3", "d3", "pvc-1"] 1000 none)
  rows := (∅ : Rows).insert "pvc-1" 0

end

end Kadalu
