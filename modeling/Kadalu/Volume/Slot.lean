import Kadalu.Pool.Forms
import Kadalu.Pool.Rebuild

/-!
# The files of one volume in a pool

`Frame ps vs s s'`: from `s` to `s'` only the files at the paths `ps` and the rows of the IDs `vs` have changed. When the
files at `ps` are exactly those of the IDs `vs` (`Separate`), the scan of the whole pool succeeds as soon as the files at
`ps` fit together (`SlotFits`, `scannable_of_slot`).
-/

namespace Kadalu

open Except

variable {ps : List Path} {vs : List String} {s s' s'' : Pool} {v : String} {p q : Path} {n : Int}

/-- Only the files at `ps` and the rows of `vs` have changed. -/
structure Frame (ps : List Path) (vs : List String) (s s' : Pool) : Prop where
  metadata : ∀ p, p ∉ ps → s'.metadata.lookup p = s.metadata.lookup p
  creations : ∀ p, p ∉ ps → s'.creations.lookup p = s.creations.lookup p
  expansions : ∀ p, p ∉ ps → s'.expansions.lookup p = s.expansions.lookup p
  payloads : ∀ p, p ∉ ps → s'.payloads.lookup p = s.payloads.lookup p
  rows : ∀ v, v ∉ vs → s'.rows.lookup v = s.rows.lookup v

theorem Frame.refl (s : Pool) : Frame ps vs s s :=
  ⟨fun _ _ => rfl, fun _ _ => rfl, fun _ _ => rfl, fun _ _ => rfl, fun _ _ => rfl⟩

theorem Frame.mono {qs : List Path} {us : List String} (hp : ps ⊆ qs) (hv : vs ⊆ us) (h : Frame ps vs s s') :
    Frame qs us s s' :=
  ⟨fun p hn => h.metadata p fun hm => hn (hp hm), fun p hn => h.creations p fun hm => hn (hp hm),
    fun p hn => h.expansions p fun hm => hn (hp hm), fun p hn => h.payloads p fun hm => hn (hp hm),
    fun v hn => h.rows v fun hm => hn (hv hm)⟩

section Updates

variable {α : Type}

theorem lookup_insert_off {t : Table α} {a : α} (hq : q ∈ ps) (p : Path) (hp : p ∉ ps) :
    (t.insert q a).lookup p = t.lookup p :=
  AList.lookup_insert_ne fun h => hp (h ▸ hq)

theorem lookup_erase_off {t : Table α} (hq : q ∈ ps) (p : Path) (hp : p ∉ ps) : (t.erase q).lookup p = t.lookup p :=
  AList.lookup_erase_ne fun h => hp (h ▸ hq)

theorem Frame.set_metadata {t : Table Metadata} (h : Frame ps vs s s')
    (ht : ∀ p, p ∉ ps → t.lookup p = s'.metadata.lookup p) : Frame ps vs s { s' with metadata := t } :=
  ⟨fun p hp => (ht p hp).trans (h.metadata p hp), h.creations, h.expansions, h.payloads, h.rows⟩

theorem Frame.set_creations {t : Table CreationIntent} (h : Frame ps vs s s')
    (ht : ∀ p, p ∉ ps → t.lookup p = s'.creations.lookup p) : Frame ps vs s { s' with creations := t } :=
  ⟨h.metadata, fun p hp => (ht p hp).trans (h.creations p hp), h.expansions, h.payloads, h.rows⟩

theorem Frame.set_expansions {t : Table ExpansionIntent} (h : Frame ps vs s s')
    (ht : ∀ p, p ∉ ps → t.lookup p = s'.expansions.lookup p) : Frame ps vs s { s' with expansions := t } :=
  ⟨h.metadata, h.creations, fun p hp => (ht p hp).trans (h.expansions p hp), h.payloads, h.rows⟩

theorem Frame.set_payloads {t : Table Payload} (h : Frame ps vs s s')
    (ht : ∀ p, p ∉ ps → t.lookup p = s'.payloads.lookup p) : Frame ps vs s { s' with payloads := t } :=
  ⟨h.metadata, h.creations, h.expansions, fun p hp => (ht p hp).trans (h.payloads p hp), h.rows⟩

theorem Frame.set_rows {t : Rows} (h : Frame ps vs s s') (ht : ∀ v, v ∉ vs → t.lookup v = s'.rows.lookup v) :
    Frame ps vs s { s' with rows := t } :=
  ⟨h.metadata, h.creations, h.expansions, h.payloads, fun v hv => (ht v hv).trans (h.rows v hv)⟩

end Updates

variable [VolnameHash]

/-! ## Records outside the slot -/

/-- The record of a metadata file depends on the payload at its own path only. -/
theorem capacityRecord_congr {payloads payloads' : Table Payload} {m : Metadata}
    (h : payloads.lookup p = payloads'.lookup p) : capacityRecord payloads p m = capacityRecord payloads' p m := by
  have hgone : ∀ id, payloadIsGone payloads p m id = payloadIsGone payloads' p m id := by
    intro id
    unfold payloadIsGone
    split
    · cases hd : deleteTombstonePayloadPath p m id with
      | error e => rfl
      | ok q =>
        rw [ok_bind, ok_bind, deleteTombstonePayloadPath_eq hd, payloadExists, payloadExists, h]
    · rfl
  simp only [capacityRecord, hgone]

theorem Frame.record {r : CapacityRecord} (h : Frame ps vs s s') (hp : p ∉ ps) : Record s' p r ↔ Record s p r := by
  unfold Record
  rw [h.metadata p hp]
  simp only [capacityRecord_congr (h.payloads p hp)]

/-! ## Slots -/

/-- The files at `ps` are those of the IDs `vs`. -/
structure Separate (ps : List Path) (vs : List String) (s : Pool) : Prop where
  names : ∀ p ∈ ps, ∀ r, Record s p r → ∀ v, r.Names v → v ∈ vs
  record_out : ∀ p r, Record s p r → r.id ∈ vs → p ∈ ps
  creation_out : ∀ p i, s.creations.lookup p = some i → i.volumeId ∈ vs → p ∈ ps
  expansion_out : ∀ p e, s.expansions.lookup p = some e → e.volumeId ∈ vs → p ∈ ps

/-- The files at `ps` fit together, and belong to the IDs `vs`. -/
structure SlotFits (ps : List Path) (vs : List String) (s : Pool) : Prop where
  records : ∀ p ∈ ps, ∀ m, s.metadata.lookup p = some m → ∃ r, capacityRecord s.payloads p m = .ok r
  names : ∀ p ∈ ps, ∀ r, Record s p r → ∀ v, r.Names v → v ∈ vs
  record_inj : ∀ p ∈ ps, ∀ q ∈ ps, ∀ r r', Record s p r → Record s q r' → r.id = r'.id → p = q
  creations : ∀ p ∈ ps, ∀ i, s.creations.lookup p = some i → validateCreationIntent p i = .ok () ∧ i.volumeId ∈ vs
  creation_inj : ∀ p ∈ ps, ∀ q ∈ ps, ∀ i j, s.creations.lookup p = some i → s.creations.lookup q = some j →
    i.volumeId = j.volumeId → p = q
  expansions : ∀ p ∈ ps, ∀ e, s.expansions.lookup p = some e → validateExpansionIntent p e = .ok () ∧ e.volumeId ∈ vs
  expansion_inj : ∀ p ∈ ps, ∀ q ∈ ps, ∀ e f, s.expansions.lookup p = some e → s.expansions.lookup q = some f →
    e.volumeId = f.volumeId → p = q
  creation_fits : ∀ v ∈ vs, ∀ i n, Creating s v i → ¬Tombstoned s v → Committed s v n → n = i.size
  expansion_fits : ∀ v ∈ vs, ∀ e n, Expanding s v e → ¬Tombstoned s v → BaseSize s v n →
    n = e.fromSize ∨ n = e.toSize

section

variable {s₀ : Pool} (hsep : Separate ps vs s₀) (hf : Frame ps vs s₀ s) (hslot : SlotFits ps vs s)

include hsep hf hslot

/-- The separation survives. -/
theorem separate_of_slot : Separate ps vs s where
  names := hslot.names
  record_out p r hr hv := by
    by_contra hp
    exact hp (hsep.record_out p r ((hf.record hp).mp hr) hv)
  creation_out p i hi hv := by
    by_contra hp
    rw [hf.creations p hp] at hi
    exact hp (hsep.creation_out p i hi hv)
  expansion_out p e he hv := by
    by_contra hp
    rw [hf.expansions p hp] at he
    exact hp (hsep.expansion_out p e he hv)

/-- Outside `vs` the files say what they said before. -/
theorem outside_of_slot (hv : v ∉ vs) : (∀ n, Committed s v n → Committed s₀ v n) ∧
    (Tombstoned s₀ v → Tombstoned s v) ∧ (∀ i, Creating s v i → Creating s₀ v i) ∧
    ∀ e, Expanding s v e → Expanding s₀ v e := by
  refine ⟨?_, ?_, ?_, ?_⟩
  · rintro n ⟨p, r, hr, hg, rfl, hn⟩
    have hp : p ∉ ps := fun hp => hv (hslot.names p hp r hr _ (.inl rfl))
    exact ⟨p, r, (hf.record hp).mp hr, hg, rfl, hn⟩
  · rintro ⟨p, r, hr, hg, hn⟩
    have hp : p ∉ ps := fun hp => hv (hsep.names p hp r hr v hn)
    exact ⟨p, r, (hf.record hp).mpr hr, hg, hn⟩
  · rintro i ⟨p, hi, rfl⟩
    have hp : p ∉ ps := fun hp => hv (hslot.creations p hp i hi).2
    exact ⟨p, (hf.creations p hp).symm.trans hi, rfl⟩
  · rintro e ⟨p, he, rfl⟩
    have hp : p ∉ ps := fun hp => hv (hslot.expansions p hp e he).2
    exact ⟨p, (hf.expansions p hp).symm.trans he, rfl⟩

/-- **One slot.** The scan of the pool succeeds when the files of the slot fit together. -/
theorem scannable_of_slot (h₀ : Scannable s₀) : Scannable s where
  records p m hm := by
    by_cases hp : p ∈ ps
    · exact hslot.records p hp m hm
    · rw [hf.metadata p hp] at hm
      obtain ⟨r, hr⟩ := h₀.records p m hm
      exact ⟨r, (capacityRecord_congr (hf.payloads p hp)).trans hr⟩
  record_inj p q r r' hr hr' he := by
    have hsep' := separate_of_slot hsep hf hslot
    by_cases hp : p ∈ ps
    · have hq : q ∈ ps := hsep'.record_out q r' hr' (he ▸ hslot.names p hp r hr _ (.inl rfl))
      exact hslot.record_inj p hp q hq r r' hr hr' he
    · have hq : q ∉ ps := fun hq => hp (hsep'.record_out p r hr (he ▸ hslot.names q hq r' hr' _ (.inl rfl)))
      exact h₀.record_inj p q r r' ((hf.record hp).mp hr) ((hf.record hq).mp hr') he
  creations p i hi := by
    by_cases hp : p ∈ ps
    · exact (hslot.creations p hp i hi).1
    · exact h₀.creations p i ((hf.creations p hp).symm.trans hi)
  creation_inj p q i j hi hj he := by
    have hsep' := separate_of_slot hsep hf hslot
    by_cases hp : p ∈ ps
    · have hq : q ∈ ps := hsep'.creation_out q j hj (he ▸ (hslot.creations p hp i hi).2)
      exact hslot.creation_inj p hp q hq i j hi hj he
    · have hq : q ∉ ps := fun hq => hp (hsep'.creation_out p i hi (he ▸ (hslot.creations q hq j hj).2))
      exact h₀.creation_inj p q i j ((hf.creations p hp).symm.trans hi) ((hf.creations q hq).symm.trans hj) he
  expansions p e he := by
    by_cases hp : p ∈ ps
    · exact (hslot.expansions p hp e he).1
    · exact h₀.expansions p e ((hf.expansions p hp).symm.trans he)
  expansion_inj p q e f he hf' hid := by
    have hsep' := separate_of_slot hsep hf hslot
    by_cases hp : p ∈ ps
    · have hq : q ∈ ps := hsep'.expansion_out q f hf' (hid ▸ (hslot.expansions p hp e he).2)
      exact hslot.expansion_inj p hp q hq e f he hf' hid
    · have hq : q ∉ ps := fun hq => hp (hsep'.expansion_out p e he (hid ▸ (hslot.expansions q hq f hf').2))
      exact h₀.expansion_inj p q e f ((hf.expansions p hp).symm.trans he) ((hf.expansions q hq).symm.trans hf') hid
  creation_fits v i n hi ht hn := by
    by_cases hv : v ∈ vs
    · exact hslot.creation_fits v hv i n hi ht hn
    · obtain ⟨hcom, htomb, hcre, -⟩ := outside_of_slot hsep hf hslot hv
      exact h₀.creation_fits v i n (hcre i hi) (fun h => ht (htomb h)) (hcom n hn)
  expansion_fits v e n he ht hn := by
    by_cases hv : v ∈ vs
    · exact hslot.expansion_fits v hv e n he ht hn
    · obtain ⟨hcom, htomb, hcre, hexp⟩ := outside_of_slot hsep hf hslot hv
      refine h₀.expansion_fits v e n (hexp e he) (fun h => ht (htomb h)) ?_
      rcases hn with ⟨i, hi, hn⟩ | hn
      · exact .inl ⟨i, hcre i hi, hn⟩
      · exact .inr (hcom n hn)

end

/-! ## Slots without intents -/

omit [VolnameHash] in
/-- No intent lies at `p`. -/
def NoIntents (p : Path) (s : Pool) : Prop := s.creations.lookup p = none ∧ s.expansions.lookup p = none

section

variable {s₀ : Pool} (hsep : Separate ps vs s₀) (hf : Frame ps vs s₀ s) (hno : ∀ p ∈ ps, NoIntents p s)

include hsep hf

theorem record_in_slot {r : CapacityRecord} (hr : Record s p r) (hv : r.id ∈ vs) : p ∈ ps := by
  by_contra hp
  exact hp (hsep.record_out p r ((hf.record hp).mp hr) hv)

include hno

theorem not_pending_of_noIntents (hv : v ∈ vs) : ¬Pending s v := by
  rintro (⟨i, p, hi, rfl⟩ | ⟨e, p, he, rfl⟩)
  · by_cases hp : p ∈ ps
    · rw [(hno p hp).1] at hi
      cases hi
    · rw [hf.creations p hp] at hi
      exact hp (hsep.creation_out p i hi hv)
  · by_cases hp : p ∈ ps
    · rw [(hno p hp).2] at he
      cases he
    · rw [hf.expansions p hp] at he
      exact hp (hsep.expansion_out p e he hv)

theorem slotFits_of_noIntents
    (hrec : ∀ p ∈ ps, ∀ m, s.metadata.lookup p = some m →
      ∃ r, capacityRecord s.payloads p m = .ok r ∧ ∀ v, r.Names v → v ∈ vs)
    (hone : ∀ p ∈ ps, ∀ q ∈ ps, (s.metadata.lookup p).isSome → (s.metadata.lookup q).isSome → p = q) :
    SlotFits ps vs s where
  records p hp m hm := let ⟨r, hr, _⟩ := hrec p hp m hm; ⟨r, hr⟩
  names p hp r hr v hv := by
    obtain ⟨m, hm, hr'⟩ := hr
    obtain ⟨r', hr'', hnames⟩ := hrec p hp m hm
    cases hr'.symm.trans hr''
    exact hnames v hv
  record_inj p hp q hq r r' hr hr' _ := by
    obtain ⟨m, hm, -⟩ := hr
    obtain ⟨m', hm', -⟩ := hr'
    exact hone p hp q hq (by rw [hm]; rfl) (by rw [hm']; rfl)
  creations p hp i hi := by
    rw [(hno p hp).1] at hi
    cases hi
  creation_inj p hp q hq i j hi := by
    rw [(hno p hp).1] at hi
    cases hi
  expansions p hp e he := by
    rw [(hno p hp).2] at he
    cases he
  expansion_inj p hp q hq e f he := by
    rw [(hno p hp).2] at he
    cases he
  creation_fits v hv i n hi := absurd (.inl ⟨i, hi⟩) (not_pending_of_noIntents hsep hf hno hv)
  expansion_fits v hv e n he := absurd (.inr ⟨e, he⟩) (not_pending_of_noIntents hsep hf hno hv)

/-- A slot with one metadata file. -/
theorem slot_single {m : Metadata} {r : CapacityRecord} (h₀ : Scannable s₀) (hm : s.metadata.lookup q = some m)
    (hothers : ∀ p ∈ ps, p ≠ q → s.metadata.lookup p = none) (hr : capacityRecord s.payloads q m = .ok r)
    (hnames : ∀ v, r.Names v → v ∈ vs) :
    Scannable s ∧ ∀ v ∈ vs, ¬Pending s v ∧ ∀ n, Committed s v n ↔ r.gone = false ∧ r.id = v ∧ r.size = n := by
  have hat : ∀ p ∈ ps, (s.metadata.lookup p).isSome → p = q := fun p hp hsome => by
    by_contra hne
    rw [hothers p hp hne] at hsome
    cases hsome
  have hrec : ∀ p ∈ ps, ∀ m', s.metadata.lookup p = some m' →
      ∃ r, capacityRecord s.payloads p m' = .ok r ∧ ∀ v, r.Names v → v ∈ vs := fun p hp m' hm' => by
    obtain rfl := hat p hp (by rw [hm']; rfl)
    cases hm.symm.trans hm'
    exact ⟨r, hr, hnames⟩
  have hslot := slotFits_of_noIntents hsep hf hno hrec fun p hp p' hp' h h' => (hat p hp h).trans (hat p' hp' h').symm
  refine ⟨scannable_of_slot hsep hf hslot h₀, fun v hv => ⟨not_pending_of_noIntents hsep hf hno hv, fun n => ?_⟩⟩
  constructor
  · rintro ⟨p, r', hr', hg, rfl, rfl⟩
    have hp : p ∈ ps := record_in_slot hsep hf hr' hv
    have ⟨m', hm', _⟩ := hr'
    obtain rfl := hat p hp (by rw [hm']; rfl)
    obtain rfl := Record.functional ⟨m, hm, hr⟩ hr'
    exact ⟨hg, rfl, rfl⟩
  · rintro ⟨hg, rfl, rfl⟩
    exact ⟨q, r, ⟨m, hm, hr⟩, hg, rfl, rfl⟩

/-- A slot without metadata. -/
theorem slot_empty (h₀ : Scannable s₀) (hnone : ∀ p ∈ ps, s.metadata.lookup p = none) :
    Scannable s ∧ ∀ v ∈ vs, ¬Pending s v ∧ ∀ n, ¬Committed s v n := by
  have hslot : SlotFits ps vs s := slotFits_of_noIntents hsep hf hno
    (fun p hp m hm => by rw [hnone p hp] at hm; cases hm)
    fun p hp q _ h => by rw [hnone p hp] at h; cases h
  refine ⟨scannable_of_slot hsep hf hslot h₀, fun v hv => ⟨not_pending_of_noIntents hsep hf hno hv, fun n => ?_⟩⟩
  rintro ⟨p, r, hr, -, rfl, -⟩
  have hp := record_in_slot hsep hf hr hv
  obtain ⟨m, hm, -⟩ := hr
  rw [hnone p hp] at hm
  cases hm

end

/-- Without intents a scan reserves what is committed. -/
theorem scan_of_committed (hs : Scannable s) :
    ∃ out, capacityMetadataRecords s = .ok out ∧
      ∀ v, ¬Pending s v → ∀ n, out.reservations.lookup v = some n ↔ Committed s v n := by
  obtain ⟨out, hout⟩ := scan_ok_iff.mpr hs
  refine ⟨out, hout, fun v hp n => (scan_reservations hout).trans ⟨?_, fun h => .inr (.inr ⟨.inr hp, h⟩)⟩⟩
  rintro (⟨-, e, he, -⟩ | ⟨-, -, i, hi, -⟩ | ⟨-, h⟩)
  · exact absurd (.inr ⟨e, he⟩) hp
  · exact absurd (.inl ⟨i, hi⟩) hp
  · exact h

end Kadalu
