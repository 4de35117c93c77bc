import Kadalu.Data.InStep
import Kadalu.Pool.Records

/-!
# The meaning of a scan

A pool is read off its files by four relations: `Committed` and `Tombstoned` for its metadata, `Creating` and `Expanding`
for its intents. A pool is `Scannable` when every file has its meaning, no identity occurs twice and the intents fit the
committed sizes.

* `scan_ok_iff`: the scan succeeds exactly on the scannable pools.
* `scan_reservations`, `scan_tombstones`, `scan_aliases`: what it returns there.
-/

namespace Kadalu

open Except InStep

/-! ## What the files of a pool say -/

variable [VolnameHash]

/-- The metadata file at `p` stands for `r`. -/
def Record (s : Pool) (p : Path) (r : CapacityRecord) : Prop :=
  ∃ m, s.metadata.lookup p = some m ∧ capacityRecord s.payloads p m = .ok r

/-- Metadata reserves `n` bytes for the ID `v`. -/
def Committed (s : Pool) (v : String) (n : Int) : Prop := ∃ p r, Record s p r ∧ r.gone = false ∧ r.id = v ∧ r.size = n

/-- A tombstone without payload names the ID `v`. -/
def Tombstoned (s : Pool) (v : String) : Prop := ∃ p r, Record s p r ∧ r.gone = true ∧ r.Names v

def Creating (s : Pool) (v : String) (i : CreationIntent) : Prop :=
  ∃ p, s.creations.lookup p = some i ∧ i.volumeId = v

def Expanding (s : Pool) (v : String) (e : ExpansionIntent) : Prop :=
  ∃ p, s.expansions.lookup p = some e ∧ e.volumeId = v

/-- A create or an expansion of `v` is under way. -/
def Pending (s : Pool) (v : String) : Prop := (∃ i, Creating s v i) ∨ ∃ e, Expanding s v e

/-- The size of `v` that an expansion starts from. -/
def BaseSize (s : Pool) (v : String) (n : Int) : Prop := (∃ i, Creating s v i ∧ i.size = n) ∨ Committed s v n

/-- The files of the pool are consistent. -/
structure Scannable (s : Pool) : Prop where
  records : ∀ p m, s.metadata.lookup p = some m → ∃ r, capacityRecord s.payloads p m = .ok r
  record_inj : ∀ p q r r', Record s p r → Record s q r' → r.id = r'.id → p = q
  creations : ∀ p i, s.creations.lookup p = some i → validateCreationIntent p i = .ok ()
  creation_inj : ∀ p q i j, s.creations.lookup p = some i → s.creations.lookup q = some j →
    i.volumeId = j.volumeId → p = q
  expansions : ∀ p e, s.expansions.lookup p = some e → validateExpansionIntent p e = .ok ()
  expansion_inj : ∀ p q e f, s.expansions.lookup p = some e → s.expansions.lookup q = some f →
    e.volumeId = f.volumeId → p = q
  creation_fits : ∀ v i n, Creating s v i → ¬Tombstoned s v → Committed s v n → n = i.size
  expansion_fits : ∀ v e n, Expanding s v e → ¬Tombstoned s v → BaseSize s v n → n = e.fromSize ∨ n = e.toSize

theorem Record.functional {s : Pool} {p : Path} {r r' : CapacityRecord} (h : Record s p r) (h' : Record s p r') :
    r = r' := by
  obtain ⟨m, hm, hr⟩ := h
  obtain ⟨m', hm', hr'⟩ := h'
  rw [hm] at hm'
  cases hm'
  rw [hr] at hr'
  cases hr'
  rfl

/-! ## Intents by enumeration -/

section Entries

omit [VolnameHash]

variable {s : Pool} {v : String}

/-- The volumes with a create intent. -/
def Pool.creatingIds (s : Pool) : List String := s.creations.entries.map (·.2.volumeId)

/-- The volumes with an expansion intent. -/
def Pool.expandingIds (s : Pool) : List String := s.expansions.entries.map (·.2.volumeId)

theorem creating_iff_mem : (∃ i, Creating s v i) ↔ v ∈ s.creatingIds := by
  simp only [Pool.creatingIds, List.mem_map]
  constructor
  · rintro ⟨i, p, hi, hv⟩
    exact ⟨⟨p, i⟩, AList.mem_lookup_iff.mp hi, hv⟩
  · rintro ⟨f, hf, hv⟩
    exact ⟨f.2, f.1, AList.mem_lookup_iff.mpr hf, hv⟩

theorem expanding_iff_mem : (∃ e, Expanding s v e) ↔ v ∈ s.expandingIds := by
  simp only [Pool.expandingIds, List.mem_map]
  constructor
  · rintro ⟨e, p, he, hv⟩
    exact ⟨⟨p, e⟩, AList.mem_lookup_iff.mp he, hv⟩
  · rintro ⟨f, hf, hv⟩
    exact ⟨f.2, f.1, AList.mem_lookup_iff.mpr hf, hv⟩

theorem pending_iff_mem : Pending s v ↔ v ∈ s.creatingIds ∨ v ∈ s.expandingIds :=
  or_congr creating_iff_mem expanding_iff_mem

instance : Decidable (Pending s v) := decidable_of_iff' _ pending_iff_mem

end Entries

/-! ## The three collections -/

section Tables

omit [VolnameHash]

variable {ι : Type} {t : Table ι}

theorem entries_nodup {κ : Type} {β : κ → Type} (t : AList β) : t.entries.Nodup :=
  (List.nodupKeys_iff_pairwise.mp t.nodupKeys).imp fun {_ _} hne he => hne (congrArg Sigma.fst he)

/-- A statement about the entries of a table is one about its paths. -/
theorem forall_entries {P : Path → ι → Prop} : (∀ f ∈ t.entries, P f.1 f.2) ↔ ∀ p i, t.lookup p = some i → P p i :=
  ⟨fun h p i hi => h ⟨p, i⟩ (AList.mem_lookup_iff.mp hi), fun h f hf => h f.1 f.2 (AList.mem_lookup_iff.mpr hf)⟩

theorem entry_eq {f g : Sigma fun _ : Path => ι} (hf : f ∈ t.entries) (hg : g ∈ t.entries) (h : f.1 = g.1) : f = g := by
  obtain ⟨p, i⟩ := f
  obtain ⟨q, j⟩ := g
  cases h
  have hi := AList.mem_lookup_iff.mpr hf
  rw [AList.mem_lookup_iff.mpr hg] at hi
  cases hi
  rfl

/-- A table of intents collects when all are valid and their IDs differ. -/
theorem collectIntents_table {validate : Path → ι → Except Err Unit} {idOf : ι → String} {err : Err} :
    (∃ out, collectIntents validate idOf err t.entries ∅ = .ok out) ↔
      (∀ p i, t.lookup p = some i → validate p i = .ok ()) ∧
        ∀ p q i j, t.lookup p = some i → t.lookup q = some j → idOf i = idOf j → p = q := by
  have hinj : (t.entries.map fun f => idOf f.2).Nodup ↔
      ∀ p q i j, t.lookup p = some i → t.lookup q = some j → idOf i = idOf j → p = q := by
    rw [List.nodup_map_iff_inj_on (entries_nodup t)]
    refine ⟨fun h p q i j hp hq he => ?_, fun h f hf g hg he => ?_⟩
    · exact congrArg Sigma.fst (h ⟨p, i⟩ (AList.mem_lookup_iff.mp hp) ⟨q, j⟩ (AList.mem_lookup_iff.mp hq) he)
    · exact entry_eq hf hg (h _ _ _ _ (AList.mem_lookup_iff.mpr hf) (AList.mem_lookup_iff.mpr hg) he)
  simp only [collectIntents_ok_iff, hinj, forall_entries (P := fun p i => validate p i = .ok ())]
  exact ⟨fun ⟨_, hv, hi, _⟩ => ⟨hv, hi⟩, fun ⟨hv, hi⟩ => ⟨_, hv, hi, fun _ _ => AList.lookup_empty _, rfl⟩⟩

/-- The intent collected for an ID is the one that carries it. -/
theorem lookup_collectIntents {validate : Path → ι → Except Err Unit} {idOf : ι → String} {err : Err}
    {out : AList fun _ : String => ι} (h : collectIntents validate idOf err t.entries ∅ = .ok out) {v : String} {i : ι} :
    out.lookup v = some i ↔ ∃ p, t.lookup p = some i ∧ idOf i = v := by
  obtain ⟨-, hnd, -, rfl⟩ := collectIntents_ok_iff.mp h
  rw [lookup_foldl_insert hnd]
  simp only [AList.lookup_empty, reduceCtorEq, and_false, or_false]
  constructor
  · rintro ⟨f, hf, rfl, hv⟩
    exact ⟨f.1, AList.mem_lookup_iff.mpr hf, hv⟩
  · rintro ⟨p, hp, hv⟩
    exact ⟨⟨p, i⟩, AList.mem_lookup_iff.mp hp, rfl, hv⟩

end Tables

section Metadata

variable {s : Pool} {out : CapacityRecords} {v : String}

/-- The metadata collects when every file has a record and their IDs differ. -/
theorem collectMetadata_table :
    (∃ out, collectMetadata s.payloads s.metadata.entries [] {} = .ok out) ↔
      (∀ p m, s.metadata.lookup p = some m → ∃ r, capacityRecord s.payloads p m = .ok r) ∧
        ∀ p q r r', Record s p r → Record s q r' → r.id = r'.id → p = q := by
  have hfun : ∀ (f : Sigma fun _ : Path => Metadata) r r', capacityRecord s.payloads f.1 f.2 = .ok r →
      capacityRecord s.payloads f.1 f.2 = .ok r' → r = r' := fun f r r' h h' => by rw [h] at h'; cases h'; rfl
  have hinj : ∀ {rs}, List.Forall₂ (fun f r => capacityRecord s.payloads f.1 f.2 = .ok r) s.metadata.entries rs →
      ((rs.map CapacityRecord.id).Nodup ↔ ∀ p q r r', Record s p r → Record s q r' → r.id = r'.id → p = q) := by
    intro rs hrs
    rw [forall₂_nodup_iff hfun hrs (entries_nodup s.metadata)]
    refine ⟨fun h p q r r' ⟨m, hm, hr⟩ ⟨m', hm', hr'⟩ he => ?_, fun h f hf g hg r r' hr hr' he => ?_⟩
    · exact congrArg Sigma.fst
        (h ⟨p, m⟩ (AList.mem_lookup_iff.mp hm) ⟨q, m'⟩ (AList.mem_lookup_iff.mp hm') r r' hr hr' he)
    · exact entry_eq hf hg
        (h _ _ r r' ⟨f.2, AList.mem_lookup_iff.mpr hf, hr⟩ ⟨g.2, AList.mem_lookup_iff.mpr hg, hr'⟩ he)
  simp only [collectMetadata_ok_iff]
  constructor
  · rintro ⟨_, rs, hrs, hnd, -, -⟩
    refine ⟨fun p m hm => ?_, (hinj hrs).mp hnd⟩
    obtain ⟨r, -, hr⟩ := forall₂_left hrs ⟨p, m⟩ (AList.mem_lookup_iff.mp hm)
    exact ⟨r, hr⟩
  · rintro ⟨hrec, hid⟩
    have hall : ∀ f ∈ s.metadata.entries, ∃ r, capacityRecord s.payloads f.1 f.2 = .ok r :=
      fun f hf => hrec f.1 f.2 (AList.mem_lookup_iff.mpr hf)
    obtain ⟨rs, hrs⟩ := exists_forall₂ hall
    exact ⟨_, rs, hrs, (hinj hrs).mpr hid, by simp, rfl⟩

/-- The records of the loop are the records of the pool. -/
theorem collectMetadata_records (h : collectMetadata s.payloads s.metadata.entries [] {} = .ok out) :
    ∃ rs : List CapacityRecord, (rs.map CapacityRecord.id).Nodup ∧ out = rs.foldl CapacityRecords.add {} ∧
      ∀ r, r ∈ rs ↔ ∃ p, Record s p r := by
  obtain ⟨rs, hrs, hnd, -, rfl⟩ := collectMetadata_ok_iff.mp h
  refine ⟨rs, hnd, rfl, fun r => ⟨fun hr => ?_, fun ⟨p, m, hm, hr⟩ => ?_⟩⟩
  · obtain ⟨f, hf, hfr⟩ := forall₂_right hrs r hr
    exact ⟨f.1, f.2, AList.mem_lookup_iff.mpr hf, hfr⟩
  · obtain ⟨r', hr', hfr⟩ := forall₂_left hrs ⟨p, m⟩ (AList.mem_lookup_iff.mp hm)
    rw [hr] at hfr
    cases hfr
    exact hr'

theorem collectMetadata_reservations (h : collectMetadata s.payloads s.metadata.entries [] {} = .ok out) {n : Int} :
    out.reservations.lookup v = some n ↔ Committed s v n := by
  obtain ⟨rs, hnd, rfl, hrs⟩ := collectMetadata_records h
  rw [foldl_reservations hnd]
  simp only [AList.lookup_empty, reduceCtorEq, and_false, or_false, hrs, Committed]
  exact ⟨fun ⟨r, ⟨p, hr⟩, h⟩ => ⟨p, r, hr, h⟩, fun ⟨p, r, hr, h⟩ => ⟨r, ⟨p, hr⟩, h⟩⟩

theorem collectMetadata_tombstones (h : collectMetadata s.payloads s.metadata.entries [] {} = .ok out) :
    v ∈ out.tombstones ↔ Tombstoned s v := by
  obtain ⟨rs, -, rfl, hrs⟩ := collectMetadata_records h
  rw [mem_foldl_tombstones]
  simp only [List.not_mem_nil, or_false, hrs, Tombstoned]
  exact ⟨fun ⟨r, ⟨p, hr⟩, h⟩ => ⟨p, r, hr, h⟩, fun ⟨p, r, hr, h⟩ => ⟨r, ⟨p, hr⟩, h⟩⟩

theorem collectMetadata_aliases (h : collectMetadata s.payloads s.metadata.entries [] {} = .ok out) {a : String} :
    out.aliases.lookup v = some a ↔ ∃ p r, Record s p r ∧ r.gone = false ∧ r.id = v ∧ r.legacyAlias = some a := by
  obtain ⟨rs, hnd, rfl, hrs⟩ := collectMetadata_records h
  rw [foldl_aliases hnd]
  simp only [AList.lookup_empty, reduceCtorEq, and_false, or_false, hrs]
  exact ⟨fun ⟨r, ⟨p, hr⟩, h⟩ => ⟨p, r, hr, h⟩, fun ⟨p, r, hr, h⟩ => ⟨r, ⟨p, hr⟩, h⟩⟩

end Metadata

/-! ## The scan -/

section Scan

variable {s : Pool} {out : CapacityRecords} {v : String} {n : Int}

/-- The parts of a successful scan. -/
theorem scan_parts :
    capacityMetadataRecords s = .ok out ↔
      ∃ cs es records res₁ res₂, creationIntentRecords s = .ok cs ∧ expansionIntentRecords s = .ok es ∧
        collectMetadata s.payloads s.metadata.entries [] {} = .ok records ∧
        overlayCreations records.tombstones cs.entries records.reservations = .ok res₁ ∧
        overlayExpansions records.tombstones es.entries res₁ = .ok res₂ ∧
        out = { records with reservations := res₂ } := by
  simp only [capacityMetadataRecords, bind_ok, pure_eq_ok, Except.ok.injEq]
  exact ⟨fun ⟨cs, hcs, es, hes, r, hr, r₁, h₁, r₂, h₂, he⟩ => ⟨cs, es, r, r₁, r₂, hcs, hes, hr, h₁, h₂, he.symm⟩,
    fun ⟨cs, es, r, r₁, r₂, hcs, hes, hr, h₁, h₂, he⟩ => ⟨cs, hcs, es, hes, r, hr, r₁, h₁, r₂, h₂, he.symm⟩⟩

theorem creating_iff {cs : AList fun _ : String => CreationIntent} (h : creationIntentRecords s = .ok cs)
    {i : CreationIntent} : ⟨v, i⟩ ∈ cs.entries ↔ Creating s v i :=
  AList.mem_lookup_iff.symm.trans (lookup_collectIntents h)

theorem expanding_iff {es : AList fun _ : String => ExpansionIntent} (h : expansionIntentRecords s = .ok es)
    {e : ExpansionIntent} : ⟨v, e⟩ ∈ es.entries ↔ Expanding s v e :=
  AList.mem_lookup_iff.symm.trans (lookup_collectIntents h)

/-- The reservations after the create intents. -/
theorem overlayCreations_lookup {cs : AList fun _ : String => CreationIntent} {records : CapacityRecords} {res₁ : Rows}
    (hcs : creationIntentRecords s = .ok cs) (hr : collectMetadata s.payloads s.metadata.entries [] {} = .ok records)
    (h₁ : overlayCreations records.tombstones cs.entries records.reservations = .ok res₁) :
    res₁.lookup v = some n ↔ (¬Tombstoned s v ∧ ∃ i, Creating s v i ∧ i.size = n) ∨
      (Tombstoned s v ∨ ∀ i, ¬Creating s v i) ∧ Committed s v n := by
  rw [overlayIntents_lookup cs.nodupKeys h₁, collectMetadata_tombstones hr, collectMetadata_reservations hr]
  simp only [creating_iff hcs]

/-- **What the scan accepts.** The scan succeeds exactly on the scannable pools. -/
theorem scan_ok_iff : (∃ out, capacityMetadataRecords s = .ok out) ↔ Scannable s := by
  constructor
  · rintro ⟨out, h⟩
    obtain ⟨cs, es, records, res₁, res₂, hcs, hes, hr, h₁, h₂, -⟩ := scan_parts.mp h
    obtain ⟨hcv, hci⟩ := collectIntents_table.mp ⟨cs, hcs⟩
    obtain ⟨hev, hei⟩ := collectIntents_table.mp ⟨es, hes⟩
    obtain ⟨hmv, hmi⟩ := collectMetadata_table.mp ⟨records, hr⟩
    have hcf := (overlayIntents_exists cs.nodupKeys).mp ⟨res₁, h₁⟩
    have hef := (overlayIntents_exists es.nodupKeys).mp ⟨res₂, h₂⟩
    have hcfit : ∀ v i n, Creating s v i → ¬Tombstoned s v → Committed s v n → n = i.size := by
      intro v i n hi ht hn
      simpa using hcf ⟨v, i⟩ ((creating_iff hcs).mpr hi) (mt (collectMetadata_tombstones hr).mp ht) n
        ((collectMetadata_reservations hr).mpr hn)
    refine ⟨hmv, hmi, hcv, hci, hev, hei, hcfit, fun v e n he ht hn => ?_⟩
    have hlook : res₁.lookup v = some n := by
      rw [overlayCreations_lookup hcs hr h₁]
      rcases hn with hn | hn
      · exact .inl ⟨ht, hn⟩
      · by_cases hi : ∃ i, Creating s v i
        · obtain ⟨i, hi⟩ := hi
          exact .inl ⟨ht, i, hi, (hcfit v i n hi ht hn).symm⟩
        · exact .inr ⟨.inr fun i hc => hi ⟨i, hc⟩, hn⟩
    simpa using hef ⟨v, e⟩ ((expanding_iff hes).mpr he) (mt (collectMetadata_tombstones hr).mp ht) n hlook
  · rintro ⟨hmv, hmi, hcv, hci, hev, hei, hcfit, hefit⟩
    obtain ⟨cs, hcs⟩ : ∃ cs, creationIntentRecords s = .ok cs := collectIntents_table.mpr ⟨hcv, hci⟩
    obtain ⟨es, hes⟩ : ∃ es, expansionIntentRecords s = .ok es := collectIntents_table.mpr ⟨hev, hei⟩
    obtain ⟨records, hr⟩ := collectMetadata_table.mpr ⟨hmv, hmi⟩
    obtain ⟨res₁, h₁⟩ : ∃ out, overlayCreations records.tombstones cs.entries records.reservations = .ok out := by
      refine (overlayIntents_exists cs.nodupKeys).mpr fun e he ht n hn => decide_eq_true ?_
      exact hcfit e.1 e.2 n ((creating_iff hcs).mp he) (mt (collectMetadata_tombstones hr).mpr ht)
        ((collectMetadata_reservations hr).mp hn)
    obtain ⟨res₂, h₂⟩ : ∃ out, overlayExpansions records.tombstones es.entries res₁ = .ok out := by
      refine (overlayIntents_exists es.nodupKeys).mpr fun e he ht n hn => decide_eq_true ?_
      refine hefit e.1 e.2 n ((expanding_iff hes).mp he) (mt (collectMetadata_tombstones hr).mpr ht) ?_
      rcases (overlayCreations_lookup hcs hr h₁).mp hn with ⟨-, hn⟩ | ⟨-, hn⟩
      · exact .inl hn
      · exact .inr hn
    exact ⟨_, scan_parts.mpr ⟨cs, es, records, res₁, res₂, hcs, hes, hr, h₁, h₂, rfl⟩⟩

/-- The tombstones of a scan are the IDs that a payload-less tombstone names. -/
theorem scan_tombstones (h : capacityMetadataRecords s = .ok out) : v ∈ out.tombstones ↔ Tombstoned s v := by
  obtain ⟨cs, es, records, res₁, res₂, -, -, hr, -, -, rfl⟩ := scan_parts.mp h
  exact @collectMetadata_tombstones _ _ records _ hr

theorem scan_aliases (h : capacityMetadataRecords s = .ok out) {a : String} :
    out.aliases.lookup v = some a ↔ ∃ p r, Record s p r ∧ r.gone = false ∧ r.id = v ∧ r.legacyAlias = some a := by
  obtain ⟨cs, es, records, res₁, res₂, -, -, hr, -, -, rfl⟩ := scan_parts.mp h
  exact @collectMetadata_aliases _ _ records _ hr a

/-- **What the scan returns.** An ID that no payload-less tombstone names is reserved at its expansion target, else at
its create size, else at its committed size; one that such a tombstone names only keeps its committed size. -/
theorem scan_reservations (h : capacityMetadataRecords s = .ok out) :
    out.reservations.lookup v = some n ↔
      (¬Tombstoned s v ∧ ∃ e, Expanding s v e ∧ e.toSize = n) ∨
      (¬Tombstoned s v ∧ (∀ e, ¬Expanding s v e) ∧ ∃ i, Creating s v i ∧ i.size = n) ∨
      (Tombstoned s v ∨ ¬Pending s v) ∧ Committed s v n := by
  obtain ⟨cs, es, records, res₁, res₂, hcs, hes, hr, h₁, h₂, rfl⟩ := scan_parts.mp h
  rw [overlayIntents_lookup es.nodupKeys h₂, overlayCreations_lookup hcs hr h₁, collectMetadata_tombstones hr]
  simp only [expanding_iff hes, Pending, not_or, not_exists]
  by_cases ht : Tombstoned s v
  · simp only [ht, not_true_eq_false, false_and, true_or, true_and, false_or]
  · simp only [ht, not_false_eq_true, true_and, false_or]
    by_cases he : ∀ e, ¬Expanding s v e
    · simp only [he, not_false_eq_true, implies_true, true_and, and_true]
    · simp only [he, false_and, and_false, or_false]

end Scan

/-- What is committed is reserved, if only at the size of an intent. -/
theorem scan_reserves_committed (h : capacityMetadataRecords s = .ok out) {n : Int} (hv : Committed s v n) :
    ∃ k, out.reservations.lookup v = some k := by
  by_cases ht : Tombstoned s v
  · exact ⟨n, (scan_reservations h).mpr (.inr (.inr ⟨.inl ht, hv⟩))⟩
  by_cases he : ∃ e, Expanding s v e
  · obtain ⟨e, he⟩ := he
    exact ⟨e.toSize, (scan_reservations h).mpr (.inl ⟨ht, e, he, rfl⟩)⟩
  by_cases hi : ∃ i, Creating s v i
  · obtain ⟨i, hi⟩ := hi
    exact ⟨i.size, (scan_reservations h).mpr (.inr (.inl ⟨ht, fun e h => he ⟨e, h⟩, i, hi, rfl⟩))⟩
  exact ⟨n, (scan_reservations h).mpr (.inr (.inr ⟨.inr (not_or.mpr ⟨hi, he⟩), hv⟩))⟩

end Kadalu
