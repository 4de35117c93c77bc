import Kadalu.Driver.Reservations

/-!
# Admission and the capacity of a pool

`Durable s v n` is the reservation of `v` that the files of a pool carry, whatever its rows say: the target of its
expansion, else the size of its create, else its committed size. An admission of new bytes must leave a pool whose durable
reservations fit its capacity, each volume counted once (`FitsWithin`), and a refused one must leave nothing behind
(`AdmissionsFit`).

* `admissionsFit_of_clear`: both hold where no intent is pending for an ID that the scan takes for released.
* `run_admissionsFit`: so they hold in every interleaving that keeps pending intents and payload-less tombstones apart.
* `admission_overcommits`: after a run that brings them together an admission exceeds the capacity.
-/

namespace Kadalu

open Durable Durable.Prog Except

section

variable [VolnameHash]

/-! ## The durable reservations -/

/-- The files of the pool reserve `n` bytes for `v`. -/
def Durable (s : Pool) (v : String) (n : Int) : Prop :=
  (∃ e, Expanding s v e ∧ e.toSize = n) ∨ (∀ e, ¬Expanding s v e) ∧ (∃ i, Creating s v i ∧ i.size = n) ∨
    ¬Pending s v ∧ Committed s v n

/-- Each volume counted once, the durable reservations are at most `total` bytes. -/
def FitsWithin (s : Pool) (total : Int) : Prop :=
  ∀ d : Rows, (∀ v n, d.lookup v = some n → Durable s v n) → d.total ≤ total

/-- What the transactions of a pool owe its capacity. A grant counts as one of new bytes when the volume had no durable
reservation, or a smaller one. -/
structure AdmissionsFit (s : Pool) : Prop where
  create : ∀ total v t size uuid s', admitVolumeCreation s total v t size uuid = .ok (true, s') →
    (∀ n, ¬Durable s v n) → FitsWithin s' total
  create_refused : ∀ total v t size uuid s', admitVolumeCreation s total v t size uuid = .ok (false, s') →
    ¬Pending s' v ∧ s'.rows.lookup v = none ∧ ∀ u n, Durable s u n → s'.rows.lookup u = some n
  expand : ∀ total v t p fromSize toSize e s',
    reserveVolumeExpansion s total v t p fromSize toSize = .ok (some e, s') →
      ∀ n, Durable s v n → n < toSize → FitsWithin s' total
  expand_refused : ∀ total v t p fromSize toSize s',
    reserveVolumeExpansion s total v t p fromSize toSize = .ok (none, s') →
      s'.expansions.lookup p = none ∧ ∀ u n, Durable s u n → s'.rows.lookup u = some n

/-- No intent is pending for an ID that the scan takes for released. -/
def Clear (s : Pool) : Prop := ∀ v, Pending s v → ¬Tombstoned s v

/-! ## Sums -/

variable {s s' : Pool} {rows : Rows} {v : String} {k n total : Int}

/-- In a clear pool, rows that cover the scan cover every durable reservation. -/
theorem covers_durable (hc : Clear s) (hcov : Covers s rows) (h : Durable s v n) : rows.lookup v = some n := by
  obtain ⟨out, hout, hrows⟩ := hcov
  refine hrows v n ((scan_reservations hout).mpr ?_)
  rcases h with ⟨e, he, hn⟩ | ⟨hne, i, hi, hn⟩ | ⟨hp, hm⟩
  · exact .inl ⟨hc v (.inr ⟨e, he⟩), e, he, hn⟩
  · exact .inr (.inl ⟨hc v (.inl ⟨i, hi⟩), hne, i, hi, hn⟩)
  · exact .inr (.inr ⟨.inr hp, hm⟩)

/-- One reservation of at most `k` bytes next to reservations in their rows. -/
theorem fits_of_rows (hrows : ∀ u n, Durable s u n → rows.lookup u = some n)
    (hpos : ∀ u n, rows.lookup u = some n → 0 < n)
    (hnew : ∀ u n, Durable s' u n → u = v ∧ n ≤ k ∨ u ≠ v ∧ Durable s u n) (hk : 0 ≤ k)
    (hsum : k + (rows.erase v).total ≤ total) : FitsWithin s' total := by
  intro d hd
  have hrest : (d.erase v).total ≤ (rows.erase v).total := by
    refine AList.total_le_total (fun u n hu => ?_) fun u n hu => ?_
    · by_cases huv : u = v
      · rw [huv, AList.lookup_erase] at hu
        cases hu
      · rw [AList.lookup_erase_ne huv] at hu
        exact (hpos u n hu).le
    · by_cases huv : u = v
      · rw [huv, AList.lookup_erase] at hu
        cases hu
      · rw [AList.lookup_erase_ne huv] at hu ⊢
        rcases hnew u n (hd u n hu) with ⟨he, -⟩ | ⟨-, hu⟩
        · exact absurd he huv
        · exact hrows u n hu
  cases hv : d.lookup v with
  | none =>
    rw [AList.total_erase_of_none hv] at hrest
    omega
  | some n =>
    have htotal := AList.total_erase hv
    rcases hnew v n (hd v n hv) with ⟨-, hn⟩ | ⟨hne, -⟩
    · omega
    · exact absurd rfl hne

omit [VolnameHash] in
/-- What fits the free space less its reserve fits the pool. -/
theorem sum_of_fits {size used : Int} (hsize : 0 < size) (h : ¬exceedsFree size (total - used)) :
    size + used ≤ total := by
  unfold exceedsFree RESERVED_SIZE_PERCENTAGE at h
  omega

/-! ## Grants -/

section

omit [VolnameHash]

/-- A pool with one more create intent. -/
theorem creating_insert {i j : CreationIntent} {p : Path} {u : String}
    (h : Creating { s with creations := s.creations.insert p i } u j) : Creating s u j ∨ u = i.volumeId ∧ j = i := by
  obtain ⟨q, hq, hu⟩ := h
  by_cases hpq : q = p
  · subst hpq
    rw [AList.lookup_insert] at hq
    cases hq
    exact .inr ⟨hu.symm, rfl⟩
  · rw [AList.lookup_insert_ne hpq] at hq
    exact .inl ⟨q, hq, hu⟩

/-- A pool with one more expansion intent. -/
theorem expanding_insert {e f : ExpansionIntent} {p : Path} {u : String}
    (h : Expanding { s with expansions := s.expansions.insert p e } u f) : Expanding s u f ∨ u = e.volumeId ∧ f = e := by
  obtain ⟨q, hq, hu⟩ := h
  by_cases hpq : q = p
  · subst hpq
    rw [AList.lookup_insert] at hq
    cases hq
    exact .inr ⟨hu.symm, rfl⟩
  · rw [AList.lookup_insert_ne hpq] at hq
    exact .inl ⟨q, hq, hu⟩

theorem creating_of_insert {i : CreationIntent} {j : CreationIntent} {p : Path} {u : String}
    (hnone : s.creations.lookup p = none) (h : Creating s u j) :
    Creating { s with creations := s.creations.insert p i } u j := by
  obtain ⟨q, hq, hu⟩ := h
  have hpq : q ≠ p := fun he => by rw [he, hnone] at hq; cases hq
  exact ⟨q, (AList.lookup_insert_ne hpq).trans hq, hu⟩

theorem expanding_of_insert {e f : ExpansionIntent} {p : Path} {u : String} (hnone : s.expansions.lookup p = none)
    (h : Expanding s u f) : Expanding { s with expansions := s.expansions.insert p e } u f := by
  obtain ⟨q, hq, hu⟩ := h
  have hpq : q ≠ p := fun he => by rw [he, hnone] at hq; cases hq
  exact ⟨q, (AList.lookup_insert_ne hpq).trans hq, hu⟩

end

/-- The reservations after a new create intent of `v`, which had none. -/
theorem durable_creation {i : CreationIntent} {p : Path} (hnone : s.creations.lookup p = none)
    (hnew : ∀ n, ¬Durable s i.volumeId n) {u : String}
    (h : Durable { s with creations := s.creations.insert p i } u n) :
    u = i.volumeId ∧ n ≤ i.size ∨ u ≠ i.volumeId ∧ Durable s u n := by
  by_cases hu : u = i.volumeId
  · subst hu
    refine .inl ⟨rfl, ?_⟩
    have hexp : ∀ e, ¬Expanding s i.volumeId e := fun e he => hnew _ (.inl ⟨e, he, rfl⟩)
    rcases h with ⟨e, he, -⟩ | ⟨-, j, hj, hn⟩ | ⟨hp, -⟩
    · exact absurd he (hexp e)
    · rcases creating_insert hj with hj | ⟨-, rfl⟩
      · exact absurd (.inr (.inl ⟨hexp, j, hj, rfl⟩)) (hnew j.size)
      · exact hn.ge
    · exact absurd (.inl ⟨i, p, AList.lookup_insert _, rfl⟩) hp
  · refine .inr ⟨hu, ?_⟩
    rcases h with ⟨e, he, hn⟩ | ⟨hne, j, hj, hn⟩ | ⟨hp, hm⟩
    · exact .inl ⟨e, he, hn⟩
    · rcases creating_insert hj with hj | ⟨he, -⟩
      · exact .inr (.inl ⟨hne, j, hj, hn⟩)
      · exact absurd he hu
    · refine .inr (.inr ⟨fun hp' => hp ?_, hm⟩)
      rcases hp' with ⟨j, hj⟩ | he
      · exact .inl ⟨j, creating_of_insert hnone hj⟩
      · exact .inr he

/-- The reservations after a new expansion intent of `v`, which had at most `e.toSize` bytes. -/
theorem durable_expansion {e : ExpansionIntent} {p : Path} (hnone : s.expansions.lookup p = none)
    (hold : ∀ n, Durable s e.volumeId n → n ≤ e.toSize) {u : String}
    (h : Durable { s with expansions := s.expansions.insert p e } u n) :
    u = e.volumeId ∧ n ≤ e.toSize ∨ u ≠ e.volumeId ∧ Durable s u n := by
  by_cases hu : u = e.volumeId
  · subst hu
    refine .inl ⟨rfl, ?_⟩
    have he : Expanding { s with expansions := s.expansions.insert p e } e.volumeId e := ⟨p, AList.lookup_insert _, rfl⟩
    rcases h with ⟨f, hf, hn⟩ | ⟨hne, -⟩ | ⟨hp, -⟩
    · rcases expanding_insert hf with hf | ⟨-, rfl⟩
      · exact hold n (.inl ⟨f, hf, hn⟩)
      · exact hn.ge
    · exact absurd he (hne e)
    · exact absurd (.inr ⟨e, he⟩) hp
  · refine .inr ⟨hu, ?_⟩
    rcases h with ⟨f, hf, hn⟩ | ⟨hne, j, hj, hn⟩ | ⟨hp, hm⟩
    · rcases expanding_insert hf with hf | ⟨he, -⟩
      · exact .inl ⟨f, hf, hn⟩
      · exact absurd he hu
    · exact .inr (.inl ⟨fun f hf => hne f (expanding_of_insert hnone hf), j, hj, hn⟩)
    · refine .inr (.inr ⟨fun hp' => hp ?_, hm⟩)
      rcases hp' with hj | ⟨f, hf⟩
      · exact .inl hj
      · exact .inr ⟨f, expanding_of_insert hnone hf⟩

/-- A pending volume has a durable reservation. -/
theorem durable_of_pending (h : Pending s v) : ∃ n, Durable s v n := by
  by_cases he : ∃ e, Expanding s v e
  · obtain ⟨e, he⟩ := he
    exact ⟨_, .inl ⟨e, he, rfl⟩⟩
  · rcases h with ⟨i, hi⟩ | h
    · exact ⟨_, .inr (.inl ⟨fun e hx => he ⟨e, hx⟩, i, hi, rfl⟩)⟩
    · exact absurd h he

/-- **Clear pools are never over-committed by an admission.** -/
theorem admissionsFit_of_clear (hc : Clear s) : AdmissionsFit s where
  create total v t size uuid s' h hnew := by
    obtain ⟨p, rows, -, hcov, h⟩ := admit_cases h
    cases h with
    | resumed existing hread hmatch =>
      obtain ⟨n, hn⟩ := durable_of_pending (s := s) (v := v) (by
        have hmem : s.creations.lookup p = some existing := by
          unfold readVolumeCreationIntent at hread
          split at hread
          · cases hread
          · rename_i i hi
            simp only [throw_eq_error, pure_eq_ok, bind_ok, ite_error_ok, Except.ok.injEq, Option.some.injEq] at hread
            obtain ⟨-, -, -, rfl⟩ := hread
            exact hi
        refine .inl ⟨existing, p, hmem, ?_⟩
        rw [creationIntentMatches, decide_eq_true_eq] at hmatch
        rw [hmatch]
        rfl)
      exact absurd hn (hnew n)
    | granted hnone hrow hsize hpos hfit =>
      refine fits_of_rows (v := v) (k := size) (fun u n hu => covers_durable hc hcov hu) hpos
        (fun u n hu => durable_creation hnone hnew hu) hsize.le ?_
      rw [AList.total_erase_of_none hrow]
      exact sum_of_fits hsize hfit
  create_refused total v t size uuid s' h := by
    obtain ⟨p, rows, -, hcov, h⟩ := admit_cases h
    cases h with
    | refused hnone hrow =>
      refine ⟨fun hp => ?_, hrow, fun u n hu => covers_durable hc hcov hu⟩
      obtain ⟨n, hn⟩ := durable_of_pending (s := s) hp
      rw [covers_durable hc hcov hn] at hrow
      cases hrow
  expand total v t p fromSize toSize e s' h n hn hlt := by
    obtain ⟨hfrom, hto, rows, hcov, -, h⟩ := reserve_cases h
    have hrow := covers_durable hc hcov hn
    cases h with
    | resumed hex =>
      have := covers_durable hc hcov (.inl ⟨_, ⟨p, hex, rfl⟩, rfl⟩)
      simp only [expansionIntent] at this
      rw [hrow] at this
      cases this
      exact absurd hlt (Int.lt_irrefl _)
    | replayed hnone hrow' _ =>
      rw [hrow] at hrow'
      cases hrow'
      exact absurd hlt (Int.lt_irrefl _)
    | granted hnone hrow' hpos hfit _ =>
      refine fits_of_rows (v := v) (k := toSize) (fun u n hu => covers_durable hc hcov hu) hpos
        (fun u m hu => durable_expansion hnone (fun m hm => ?_) hu) (hfrom.trans hto).le ?_
      · have := covers_durable hc hcov hm
        rw [show (expansionIntent v t p fromSize toSize).volumeId = v from rfl, hrow] at this
        cases this
        exact hlt.le
      · have htotal := AList.total_erase hrow'
        have hsum := sum_of_fits (Int.sub_pos_of_lt hto) hfit
        omega
  expand_refused total v t p fromSize toSize s' h := by
    obtain ⟨-, -, rows, hcov, -, h⟩ := reserve_cases h
    cases h with
    | refused hnone _ => exact ⟨hnone, fun u n hu => covers_durable hc hcov hu⟩

/-! ## Runs -/

/-- A tombstone of `v` has lost its payload: its delete, or the reclaiming of an archive that names it. -/
def PayloadGone (s : Pool) (v : String) : Prop := OwnGone s v ∨ ReclaimGone s v

theorem payloadGone_files (s s' : Pool) (v : String) (hm : s'.metadata = s.metadata) (hp : s'.payloads = s.payloads)
    (h : PayloadGone s' v) : PayloadGone s v := by
  unfold PayloadGone OwnGone ReclaimGone at h ⊢
  rwa [hm, hp] at h

/-- **Admission never over-commits a pool**, in any interleaving of the driver's operations with crashes anywhere, whose
steps keep its pending intents and tombstones without payload apart. -/
theorem run_admissionsFit {w : World} {a : Sys World Lock Err} {hostvol : String}
    (h₀ : ∀ v, Pending (w hostvol) v → ¬PayloadGone (w hostvol) v)
    (h : Run DriverOp (fun w w' => KeepsApart PayloadGone (w hostvol) (w' hostvol)) w a) :
    AdmissionsFit (a.store hostvol) :=
  admissionsFit_of_clear fun v hp ht => run_apart payloadGone_files h₀ h v hp (tombstoned_cases ht)

end

/-! ## An over-committed pool -/

attribute [local instance] sampleHash

/-- After a create that crashed and its retry the pool admits within its capacity. -/
theorem retriedWorld_admissionsFit : (admittedWorld "pool").creatingIds = ["pvc-1"] ∧
    (retriedWorld "pool").creatingIds = [] ∧ AdmissionsFit (retriedWorld "pool") := by
  have hgone {w : World} (h : Unmarked w) (v : String) : ¬PayloadGone (w "pool") v := by
    rintro (⟨_, p, m, -, hm, hstate, -⟩ | hreclaim)
    · rw [h ⟨p, m⟩ (AList.mem_lookup_iff.mp hm)] at hstate
      cases hstate
    · exact h.reclaimGone v hreclaim
  have hrun := retriedWorld_run (C := fun w t => KeepsApart PayloadGone (w "pool") (t "pool"))
    fun w w' h h' v => ⟨fun _ _ => hgone h v, fun hg => absurd hg (hgone h' v)⟩
  have hempty : Unmarked (emptyWorld 1500) := by decide +kernel
  exact ⟨by decide +kernel, by decide +kernel, run_admissionsFit (fun v _ => hgone hempty v) hrun⟩

/-- Nothing is reserved while the archive is being reclaimed. -/
theorem reclaimingWorld_fits : FitsWithin (reclaimingWorld "pool") 1500 := by
  have hpending : ∀ v, ¬Pending (reclaimingWorld "pool") v := fun v => by
    rw [pending_iff_mem, show (reclaimingWorld "pool").creatingIds = [] by decide +kernel,
      show (reclaimingWorld "pool").expandingIds = [] by decide +kernel]
    exact not_or.mpr ⟨List.not_mem_nil, List.not_mem_nil⟩
  obtain ⟨out, hout, hres⟩ : ∃ out, capacityMetadataRecords (reclaimingWorld "pool") = .ok out ∧
      out.reservations.entries = [] := ok_of_test (by decide +kernel)
  intro d hd
  have hempty : ∀ v n, d.lookup v = some n → (∅ : Rows).lookup v = some n := fun v n hv => by
    have hrow := covers_durable (fun v hp => absurd hp (hpending v)) ⟨out, hout, fun _ _ h => h⟩ (hd v n hv)
    have := AList.mem_lookup_iff.mp hrow
    rw [hres] at this
    cases this
  have hle : d.total ≤ (∅ : Rows).total := AList.total_le_total (fun v n h => by cases h) hempty
  exact hle.trans (by decide)

/-- Two volumes of 1000 bytes on a pool of 1500. -/
def overcommitted : Rows := (∅ : Rows).insert "pvc-1" 1000 |>.insert "pvc-2" 1000

/-- The hidden create intent leaves room for another volume, which does not fit. -/
theorem admission_overcommits :
    Run DriverOp Anywhere (emptyWorld 1500) ⟨reclaimingWorld, []⟩ ∧ FitsWithin (reclaimingWorld "pool") 1500 ∧
      ∃ a, Run DriverOp Anywhere reclaimingWorld a ∧ ¬AdmissionsFit (a.store "pool") := by
  refine ⟨reclaimingWorld_run, reclaimingWorld_fits, _, recreatedWorld_run .nil, fun h => ?_⟩
  obtain ⟨⟨b, s'⟩, hadmit, rfl, hcreating, hexpanding⟩ : ∃ r,
      admitVolumeCreation (recreatedWorld "pool") 1500 "pvc-2" .subvol 1000 sampleEnv.intentUuid = .ok r ∧
        r.1 = true ∧ r.2.creations.entries.map (fun f => (f.2.volumeId, f.2.size)) = [("pvc-2", 1000), ("pvc-1", 1000)] ∧
        r.2.expandingIds = [] := ok_of_test (by decide +kernel)
  have hnew : ∀ n, ¬Durable (recreatedWorld "pool") "pvc-2" n := by
    have hpending : ¬Pending (recreatedWorld "pool") "pvc-2" := by decide +kernel
    obtain ⟨out, hout, hnone⟩ : ∃ out, capacityMetadataRecords (recreatedWorld "pool") = .ok out ∧
        out.reservations.lookup "pvc-2" = none := ok_of_test (by decide +kernel)
    rintro n (⟨e, he, -⟩ | ⟨-, i, hi, -⟩ | ⟨-, hm⟩)
    · exact hpending (.inr ⟨e, he⟩)
    · exact hpending (.inl ⟨i, hi⟩)
    · have := (scan_reservations hout).mpr (.inr (.inr ⟨.inr hpending, hm⟩))
      rw [hnone] at this
      cases this
  have hdurable : ∀ v n, overcommitted.lookup v = some n → Durable s' v n := by
    intro v n hv
    have hmem : (v, n) ∈ s'.creations.entries.map fun f => (f.2.volumeId, f.2.size) := by
      have hv := AList.mem_lookup_iff.mp hv
      rw [hcreating]
      have hall : ∀ f ∈ overcommitted.entries, (f.1, f.2) ∈ [("pvc-2", (1000 : Int)), ("pvc-1", 1000)] := by decide
      exact hall ⟨v, n⟩ hv
    obtain ⟨f, hf, he⟩ := List.mem_map.mp hmem
    simp only [Prod.mk.injEq] at he
    refine .inr (.inl ⟨fun e he => ?_, f.2, ⟨f.1, AList.mem_lookup_iff.mpr hf, he.1⟩, he.2⟩)
    have := expanding_iff_mem.mp ⟨e, he⟩
    rw [hexpanding] at this
    cases this
  exact absurd (h.create _ _ _ _ _ _ hadmit hnew overcommitted hdurable) (by decide)

end Kadalu
