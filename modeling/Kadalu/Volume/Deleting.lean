import Kadalu.Pool.StepRules
import Kadalu.Volume.Stored

/-!
# Deleting survives crashes

The delete policy first makes the intents of the volume redundant, then leaves a tombstone, removes the payload, the
accounting row and at last the tombstone. `Doomed` is what a crash can leave. While the payload is there, a scan reserves its
bytes (`Alive.reserved`), and a retry removes what is left (`Doomed.resumes`).
-/

namespace Kadalu

open Durable Durable.Prog Except

section

variable [VolnameHash]

section

variable {t : PvType} {v : String} {p q : Path} {m m' : Metadata} {payload : Payload} {s s' s₀ : Pool} {uuids us : List String}
  {n lo : Int}

/-- `v` lies at `q` with the metadata `m`: active, or a tombstone without intents. A reservation of `lo` bytes has been
promised. -/
structure Alive (t : PvType) (v : String) (q : Path) (lo : Int) (m : Metadata) (s : Pool) : Prop extends
    Plain t v q m where
  metadata : s.metadata.lookup q = some m
  kind : ∀ payload, s.payloads.lookup q = some payload → payload.isDir = decide (t = .subvol)
  state : m.state = none ∧ (s.payloads.lookup q).isSome ∨
    m.state = some .deleting ∧ m.volumeId = some v ∧ NoIntents q s
  expansion : ∀ e, s.expansions.lookup q = some e → validateExpansionIntent q e = .ok () ∧
    (m.size = e.fromSize ∨ m.size = e.toSize)
  creation : ∀ i, s.creations.lookup q = some i → validateCreationIntent q i = .ok () ∧
    validateCommittedCreation m.size m.incarnation i = .ok ()
  ordered : ∀ i e, s.creations.lookup q = some i → s.expansions.lookup q = some e → m.size = e.toSize
  promise : lo ≤ m.size ∨ ¬Tombstoned s v ∧ ∃ e, s.expansions.lookup q = some e ∧ lo ≤ e.toSize

/-- Nothing is left at `q`, and `v` has no row. -/
structure Vanished (v : String) (q : Path) (s : Pool) : Prop where
  metadata : s.metadata.lookup q = none
  payload : s.payloads.lookup q = none
  intents : NoIntents q s
  row : s.rows.lookup v = none

/-- What a crash can leave of the deletion of `v`. -/
structure Doomed (t : PvType) (v : String) (q : Path) (lo : Int) (s₀ s : Pool) : Prop where
  frame : Frame [q] [v] s₀ s
  indexed : Indexed s
  stage : (∃ m, Alive t v q lo m s) ∨ Vanished v q s

/-! ## The program keeps it -/

/-- An expansion intent that is read is the one of the volume. -/
theorem readVolumeExpansionIntent_own (hq : q ∈ volumePaths t v) {e : ExpansionIntent} (he : s.expansions.lookup q = some e)
    (hvalid : validateExpansionIntent q e = .ok ()) : readVolumeExpansionIntent s v t q = .ok (some e) := by
  obtain ⟨ht, hv⟩ := volumePaths_disjoint (expansion_path hvalid) hq
  have hpath : e.path = q := by
    simp only [validateExpansionIntent, throw_eq_error, ite_error_ok, bind_ok, not_not] at hvalid
    obtain ⟨-, -, -, -, hp, -⟩ := hvalid
    exact hp.symm
  rw [readVolumeExpansionIntent, he]
  dsimp only
  rw [hvalid, ok_bind, if_neg (by simp [ht, hv, hpath])]
  rfl

theorem readVolumeCreationIntent_own (hq : q ∈ volumePaths t v) {i : CreationIntent} (hi : s.creations.lookup q = some i)
    (hvalid : validateCreationIntent q i = .ok ()) : readVolumeCreationIntent s v t q = .ok (some i) := by
  obtain ⟨ht, hv⟩ := volumePaths_disjoint (creation_path hvalid) hq
  have hmatch : creationIntentMatches i v t q i.size = true := by
    simp only [validateCreationIntent, throw_eq_error, ite_error_ok, bind_ok, not_not, not_or] at hvalid
    obtain ⟨⟨hver, -⟩, -, _, -, hpath, hp, -⟩ := hvalid
    obtain ⟨path, pvtype, size, version, volumeId, incarnation⟩ := i
    subst ht hv
    exact decide_eq_true (by simp_all [volumeCreationIntent])
  rw [readVolumeCreationIntent, hi]
  dsimp only
  rw [hvalid, ok_bind, hmatch]
  rfl

theorem Alive.lo_le (h : Alive t v q lo m s) (he : s.expansions.lookup q = none) : lo ≤ m.size := by
  rcases h.promise with h | ⟨-, e, hsome, -⟩
  · exact h
  · rw [he] at hsome
    cases hsome

/-- Intents may go, once the metadata has the promised size. -/
theorem Alive.drop (h : Alive t v q lo m s) (hlo : lo ≤ m.size) (hm : s'.metadata.lookup q = some m)
    (hp : s'.payloads.lookup q = s.payloads.lookup q)
    (hc : s'.creations.lookup q = s.creations.lookup q ∨ s'.creations.lookup q = none)
    (he : s'.expansions.lookup q = s.expansions.lookup q ∨ s'.expansions.lookup q = none) : Alive t v q lo m s' := by
  have hcreation : ∀ i, s'.creations.lookup q = some i → s.creations.lookup q = some i := fun i hi => by
    rcases hc with hc | hc <;> rw [hc] at hi
    · exact hi
    · cases hi
  have hexpansion : ∀ e, s'.expansions.lookup q = some e → s.expansions.lookup q = some e := fun e hi => by
    rcases he with he | he <;> rw [he] at hi
    · exact hi
    · cases hi
  refine ⟨h.toPlain, hm, hp ▸ h.kind, ?_, fun e he => h.expansion e (hexpansion e he),
    fun i hi => h.creation i (hcreation i hi), fun i e hi he => h.ordered i e (hcreation i hi) (hexpansion e he), .inl hlo⟩
  rw [hp]
  refine h.state.imp id fun ⟨hstate, hid, hno⟩ => ⟨hstate, hid, ?_, ?_⟩
  · exact hc.elim (·.trans hno.1) id
  · exact he.elim (·.trans hno.2) id

/-- A pending expansion becomes the committed size. -/
theorem Alive.expanded (h : Alive t v q lo m s) {e : ExpansionIntent} (he : s.expansions.lookup q = some e) :
    Alive t v q lo { m with size := e.toSize } { s with metadata := s.metadata.insert q { m with size := e.toSize } } ∧
      lo ≤ e.toSize := by
  obtain ⟨hvalid, hsize⟩ := h.expansion e he
  have hsizes : 0 < e.toSize ∧ e.fromSize < e.toSize := by
    simp only [validateExpansionIntent, throw_eq_error, ite_error_ok, bind_ok, not_or, not_not] at hvalid
    obtain ⟨-, -, -, ⟨-, -, hpos, hlt⟩, -⟩ := hvalid
    exact ⟨hpos, hlt⟩
  have hlo : lo ≤ e.toSize := by
    rcases h.promise with hlo | ⟨-, e', he', hlo⟩
    · rcases hsize with hsize | hsize <;> omega
    · cases he.symm.trans he'
      exact hlo
  refine ⟨⟨⟨⟨h.valid, h.path, h.id, h.archiveName⟩, hsizes.1, h.dir, h.legacy, h.pvtype, h.incarnation⟩,
    AList.lookup_insert _, h.kind, ?_,
    fun e' he' => ?_, fun i hi => ?_, fun i e' hi he' => ?_, .inl hlo⟩, hlo⟩
  · refine h.state.imp id fun ⟨_, _, hno⟩ => ?_
    rw [hno.2] at he
    cases he
  · cases he.symm.trans he'
    exact ⟨hvalid, .inr rfl⟩
  · have := h.creation i hi
    rwa [h.ordered i e hi he] at this
  · cases he.symm.trans he'
    rfl

section

variable {vol : Volume} (hname : vol.volname = v) (htype : vol.voltype = t) (hpath : vol.volpath = q)
  (hf : Frame [q] [v] s₀ s) (hi : Indexed s)

include hname htype hpath hf hi

theorem completes_absorbExpansion (h : Alive t v q lo m s) :
    (absorbExpansion vol q m).completes (Doomed t v q lo s₀) (fun m' s' => Alive t v q lo m' s' ∧
      s'.expansions.lookup q = none ∧ Frame [q] [v] s₀ s' ∧ Indexed s' ∧ s'.payloads = s.payloads) s := by
  have hdoomed : Doomed t v q lo s₀ s := ⟨hf, hi, .inl ⟨m, h⟩⟩
  rw [absorbExpansion, hname, htype, hpath]
  cases he : s.expansions.lookup q with
  | none =>
    exact completes_bind (completes_readPool hdoomed (readVolumeExpansionIntent_absent he) (completes_pure ⟨h, he, hf, hi, rfl⟩))
  | some e =>
    obtain ⟨hvalid, hsize⟩ := h.expansion e he
    have hread := readVolumeExpansionIntent_own (s := s) h.path he hvalid
    refine completes_bind (completes_readPool hdoomed hread ?_)
    dsimp only
    rw [if_neg fun hne => hsize.elim hne.1 hne.2]
    obtain ⟨h₁, hlo⟩ := h.expanded he
    have hf₁ := hf.set_metadata (lookup_insert_off (a := { m with size := e.toSize }) (List.mem_singleton_self q))
    have hdoomed₁ : Doomed t v q lo s₀ _ := ⟨hf₁, hi, .inl ⟨_, h₁⟩⟩
    refine completes_bind (completes_writeMetadata hdoomed hdoomed₁ ?_)
    have h₂ : Alive t v q lo { m with size := e.toSize }
        { s with
          metadata := s.metadata.insert q { m with size := e.toSize }
          expansions := s.expansions.erase q } :=
      h₁.drop hlo (AList.lookup_insert _) rfl (.inl rfl) (.inr (AList.lookup_erase _ _))
    have hf₂ := hf₁.set_expansions (lookup_erase_off (t := s.expansions) (List.mem_singleton_self q))
    have hdoomed₂ : Doomed t v q lo s₀ _ := ⟨hf₂, hi, .inl ⟨_, h₂⟩⟩
    refine completes_bind (completes_update hdoomed₁ ?_ hdoomed₂ (completes_pure ⟨h₂, AList.lookup_erase _ _, hf₂, hi, rfl⟩))
    have hread₁ : readVolumeExpansionIntent { s with metadata := s.metadata.insert q { m with size := e.toSize } } v t q =
        .ok (some e) := readVolumeExpansionIntent_own h.path he hvalid
    rw [finishVolumeExpansion, hread₁, ok_bind, if_neg (not_not.mpr rfl)]
    rfl

theorem completes_absorbCreation (h : Alive t v q lo m s) (he : s.expansions.lookup q = none) :
    (absorbCreation vol m).completes (Doomed t v q lo s₀) (fun _ s' => Alive t v q lo m s' ∧ NoIntents q s' ∧
      Frame [q] [v] s₀ s' ∧ Indexed s' ∧ s'.payloads = s.payloads) s := by
  have hdoomed : Doomed t v q lo s₀ s := ⟨hf, hi, .inl ⟨m, h⟩⟩
  rw [absorbCreation, hname, htype, hpath]
  cases hc : s.creations.lookup q with
  | none =>
    exact completes_bind (completes_readPool hdoomed (readVolumeCreationIntent_absent hc) (completes_pure ⟨h, ⟨hc, he⟩, hf, hi, rfl⟩))
  | some i =>
    obtain ⟨hvalid, hcommitted⟩ := h.creation i hc
    have hread := readVolumeCreationIntent_own (s := s) h.path hc hvalid
    refine completes_bind (completes_readPool hdoomed hread ?_)
    dsimp only
    rw [hcommitted]
    have h₁ : Alive t v q lo m { s with creations := s.creations.erase q } :=
      h.drop (h.lo_le he) h.metadata rfl (.inr (AList.lookup_erase _ _)) (.inl rfl)
    have hf₁ := hf.set_creations (lookup_erase_off (t := s.creations) (List.mem_singleton_self q))
    have hdoomed₁ : Doomed t v q lo s₀ _ := ⟨hf₁, hi, .inl ⟨_, h₁⟩⟩
    refine completes_bind (completes_pure (completes_update hdoomed ?_ hdoomed₁ ⟨h₁, ⟨AList.lookup_erase _ _, he⟩, hf₁, hi, rfl⟩))
    rw [finishVolumeCreation, hread, ok_bind, if_neg (not_not.mpr rfl)]
    rfl

omit htype hpath in
/-- The tombstone. -/
theorem completes_markDeleting (h : Alive t v q lo m s) (hno : NoIntents q s) :
    (markDeleting vol q m).completes (Doomed t v q lo s₀) (fun _ s' => (∃ m', Alive t v q lo m' s' ∧
      m'.state = some .deleting) ∧ NoIntents q s' ∧ Frame [q] [v] s₀ s' ∧ Indexed s') s := by
  have hdoomed : Doomed t v q lo s₀ s := ⟨hf, hi, .inl ⟨m, h⟩⟩
  rw [markDeleting, hname]
  rcases h.state with ⟨hstate, hsome⟩ | ⟨hstate, hid, -⟩
  · rw [hstate]
    have h₁ : Alive t v q lo { m with state := some .deleting, volumeId := some v }
        { s with metadata := s.metadata.insert q { m with state := some .deleting, volumeId := some v } } :=
      ⟨⟨⟨h.valid, h.path, rfl, h.archiveName⟩, h.size, h.dir, h.legacy, h.pvtype, h.incarnation⟩, AList.lookup_insert _,
        h.kind, .inr ⟨rfl, rfl, hno⟩, h.expansion, h.creation, h.ordered, .inl (h.lo_le hno.2)⟩
    have hf₁ := hf.set_metadata (lookup_insert_off (t := s.metadata) (a := { m with state := some .deleting, volumeId := some v })
      (List.mem_singleton_self q))
    exact completes_writeMetadata hdoomed ⟨hf₁, hi, .inl ⟨_, h₁⟩⟩ ⟨⟨_, h₁, rfl⟩, hno, hf₁, hi⟩
  · rw [hstate]
    dsimp only
    rw [if_neg (by simp [hid])]
    exact completes_pure ⟨⟨m, h, hstate⟩, hno, hf, hi⟩

omit hname htype hpath in
/-- The payload of a tombstone goes, in parts. -/
theorem completes_removePayloadOf (h : Alive t v q lo m s) (hstate : m.state = some .deleting) (hno : NoIntents q s) :
    (removePayloadOf t q).completes (Doomed t v q lo s₀) (fun _ s' => Alive t v q lo m s' ∧
      s'.payloads.lookup q = none ∧ NoIntents q s' ∧ Frame [q] [v] s₀ s' ∧ Indexed s') s := by
  have hdoomed : Doomed t v q lo s₀ s := ⟨hf, hi, .inl ⟨m, h⟩⟩
  -- a tombstone stays one whatever becomes of its payload
  have hkept : ∀ {payloads : Table Payload}, m.state = none ∧ (payloads.lookup q).isSome ∨
      m.state = some .deleting ∧ m.volumeId = some v ∧ NoIntents q { s with payloads } := by
    rcases h.state with ⟨hnone, -⟩ | ⟨-, hid, -⟩
    · rw [hstate] at hnone
      cases hnone
    · exact .inr ⟨hstate, hid, hno⟩
  have hpayloads : ∀ {payloads : Table Payload},
      (∀ payload, payloads.lookup q = some payload → payload.isDir = decide (t = .subvol)) → Alive t v q lo m { s with payloads } :=
    fun hkind => ⟨h.toPlain, h.metadata, hkind, hkept, h.expansion, h.creation,
      h.ordered, .inl (h.lo_le hno.2)⟩
  have hframe : ∀ {payloads : Table Payload}, (∀ p, p ∉ [q] → payloads.lookup p = s.payloads.lookup p) →
      Frame [q] [v] s₀ { s with payloads } := fun hp => hf.set_payloads hp
  rw [removePayloadOf]
  cases hp : s.payloads.lookup q with
  | none => exact completes_removeNoPayload hp hdoomed ⟨h, hp, hno, hf, hi⟩
  | some payload =>
    have hkind := h.kind payload hp
    have hgone : Alive t v q lo m { s with payloads := s.payloads.erase q } := hpayloads fun payload hp => by
      rw [AList.lookup_erase] at hp
      cases hp
    have hf₁ := hframe (lookup_erase_off (List.mem_singleton_self q))
    refine completes_removePayload hp (by simp [hkind]) hdoomed (fun rest => ?_) ⟨hf₁, hi, .inl ⟨_, hgone⟩⟩
      ⟨hgone, AList.lookup_erase _ _, hno, hf₁, hi⟩
    refine ⟨hframe (lookup_insert_off (List.mem_singleton_self q)), hi, .inl ⟨m, hpayloads fun payload' hp' => ?_⟩⟩
    rw [AList.lookup_insert] at hp'
    cases hp'
    exact hkind

theorem completes_removeVolume (h : Alive t v q lo m s) (hno : NoIntents q s) :
    (removeVolume vol q m).completes (Doomed t v q lo s₀) (fun _ s' => Doomed t v q lo s₀ s' ∧ Vanished v q s') s := by
  rw [removeVolume, hname, htype, hpath, canonicalVolumePaths_eq h.valid]
  refine completes_bind (completes_pure ?_)
  rw [if_neg (by simp [h.path])]
  refine completes_bind (completes_mono ?_ (completes_markDeleting hname hf hi h hno))
  rintro - s₁ ⟨⟨m₁, h₁, hstate⟩, hno₁, hf₁, hi₁⟩
  refine completes_bind (completes_mono ?_ (completes_removePayloadOf hf₁ hi₁ h₁ hstate hno₁))
  rintro - s₂ ⟨h₂, hp₂, hno₂, hf₂, hi₂⟩
  have hdoomed₂ : Doomed t v q lo s₀ s₂ := ⟨hf₂, hi₂, .inl ⟨m₁, h₂⟩⟩
  refine completes_bind (completes_pruneEmptyParents hdoomed₂ ?_)
  -- the row goes while the tombstone is there
  have h₃ : Alive t v q lo m₁ (removePvRecord s₂ v) :=
    h₂.drop (h₂.lo_le hno₂.2) h₂.metadata rfl (.inl rfl) (.inl rfl)
  have hf₃ : Frame [q] [v] s₀ (removePvRecord s₂ v) :=
    hf₂.set_rows fun u hu => AList.lookup_erase_ne fun he => hu (he ▸ List.mem_singleton_self u)
  have hdoomed₃ : Doomed t v q lo s₀ _ := ⟨hf₃, hi₂.erase, .inl ⟨m₁, h₃⟩⟩
  refine completes_bind (completes_releaseRow h.size hdoomed₂ hdoomed₃ ?_)
  have hvanished : Vanished v q { removePvRecord s₂ v with metadata := s₂.metadata.erase q } :=
    ⟨AList.lookup_erase _ _, hp₂, hno₂, AList.lookup_erase _ _⟩
  have hdoomed₄ : Doomed t v q lo s₀ _ :=
    ⟨hf₃.set_metadata (lookup_erase_off (t := s₂.metadata) (List.mem_singleton_self q)), hi₂.erase, .inr hvanished⟩
  refine completes_bind (completes_unlinkMetadata hdoomed₃ hdoomed₄ ?_)
  exact completes_pruneEmptyParents hdoomed₄ ⟨hdoomed₄, hvanished⟩

/-- **The intents go first**, under either policy. -/
theorem completes_absorb {policy : ReclaimPolicy} {C : Pool → Prop} {Q : Unit → Pool → Prop}
    (hmeta : vol.metadataPath.getD vol.volpath = q) (h : Alive t v q lo m s) (hC : ∀ s, Doomed t v q lo s₀ s → C s)
    (hrest : ∀ m' s', Alive t v q lo m' s' → NoIntents q s' → Frame [q] [v] s₀ s' → Indexed s' →
      s'.payloads = s.payloads → (if policy = .archive then archiveVolume vol q m' m'.size us
        else removeVolume vol q m').completes C Q s') :
    (deleteManagedVolume vol policy us).completes C Q s := by
  have hdoomed : Doomed t v q lo s₀ s := ⟨hf, hi, .inl ⟨m, h⟩⟩
  rw [deleteManagedVolume, hmeta]
  refine completes_bind (completes_readPool (a := m) (hC _ hdoomed) (by rw [h.metadata]; rfl) ?_)
  refine completes_bind (completes_imp hC (completes_mono ?_ (completes_absorbExpansion hname htype hpath hf hi h)))
  rintro m₁ s₁ ⟨h₁, he₁, hf₁, hi₁, hp₁⟩
  rw [if_neg (Int.not_le.mpr h₁.size)]
  refine completes_bind (completes_imp hC (completes_mono ?_ (completes_absorbCreation hname htype hpath hf₁ hi₁ h₁ he₁)))
  rintro - s₂ ⟨h₂, hno₂, hf₂, hi₂, hp₂⟩
  exact hrest m₁ s₂ h₂ hno₂ hf₂ hi₂ (hp₂.trans hp₁)

/-- **The deletion.** Every crash leaves a doomed volume, and the end of it nothing. -/
theorem completes_deleteManagedVolume (hmeta : vol.metadataPath.getD vol.volpath = q) (h : Alive t v q lo m s) :
    (deleteManagedVolume vol .delete us).completes (Doomed t v q lo s₀)
      (fun _ s' => Doomed t v q lo s₀ s' ∧ Vanished v q s') s := by
  refine completes_absorb hname htype hpath hf hi hmeta h (fun _ => id) fun m₁ s₁ h₁ hno₁ hf₁ hi₁ _ => ?_
  rw [if_neg (by decide)]
  exact completes_removeVolume hname htype hpath hf₁ hi₁ h₁ hno₁

end

/-! ## The reservation -/

/-- A scan reserves at least `lo` bytes for `v`, and so does the row after a rebuild. -/
def ReservedAtLeast (v : String) (lo : Int) (s : Pool) : Prop :=
  ∃ n, lo ≤ n ∧ (∃ out, capacityMetadataRecords s = .ok out ∧ out.reservations.lookup v = some n) ∧
    ∃ s', rebuildCommittedCapacity s = .ok s' ∧ s'.rows.lookup v = some n

theorem reservedAtLeast_of_scan {out : CapacityRecords} (hi : Indexed s) (hout : capacityMetadataRecords s = .ok out)
    (hlo : lo ≤ n) (hn : out.reservations.lookup v = some n) : ReservedAtLeast v lo s := by
  obtain ⟨s', hs', -⟩ := rebuild_total (scan_ok_iff.mp ⟨out, hout⟩) hi
  obtain ⟨records, rows, hrecords, rfl, hrows⟩ := rebuild_rows hs'
  cases hout.symm.trans hrecords
  exact ⟨n, hlo, ⟨out, hout, hn⟩, _, hs', hrows v n hn⟩

omit [VolnameHash] in
theorem validateCommittedCreation_size {inc : Option String} {i : CreationIntent}
    (h : validateCommittedCreation n inc i = .ok ()) : n = i.size := by
  unfold validateCommittedCreation at h
  by_contra hne
  rw [if_pos hne] at h
  cases h

theorem Alive.creation_size (h : Alive t v q lo m s) {i : CreationIntent} (hi : s.creations.lookup q = some i) :
    m.size = i.size :=
  validateCommittedCreation_size (h.creation i hi).2

/-- With its payload, the metadata of `v` reserves. -/
theorem Alive.record (h : Alive t v q lo m s) (hp : (s.payloads.lookup q).isSome) :
    capacityRecord s.payloads q m = .ok ⟨v, none, m.size, false⟩ := by
  rcases h.state with ⟨hstate, -⟩ | ⟨hstate, -⟩
  · exact capacityRecord_active h.toOwnMetadata hstate h.size
  · rw [capacityRecord_deleting h.toOwnMetadata h.dir hstate h.size, payloadExists, hp]
    rfl

section

variable (hsep : Separate [q] [v] s₀) (hf : Frame [q] [v] s₀ s)

include hsep hf

theorem creating_at {i : CreationIntent} (hi : Creating s v i) : s.creations.lookup q = some i := by
  obtain ⟨p, hp, hid⟩ := hi
  by_cases he : p = q
  · exact he ▸ hp
  · have hoff : p ∉ [q] := by simpa using he
    rw [hf.creations p hoff] at hp
    exact absurd (hsep.creation_out p i hp (by simp [hid])) hoff

theorem expanding_at {e : ExpansionIntent} (he : Expanding s v e) : s.expansions.lookup q = some e := by
  obtain ⟨p, hp, hid⟩ := he
  by_cases he : p = q
  · exact he ▸ hp
  · have hoff : p ∉ [q] := by simpa using he
    rw [hf.expansions p hoff] at hp
    exact absurd (hsep.expansion_out p e hp (by simp [hid])) hoff

theorem Alive.committed (h : Alive t v q lo m s) (hp : (s.payloads.lookup q).isSome) : Committed s v n ↔ n = m.size := by
  have hrecord : Record s q ⟨v, none, m.size, false⟩ := ⟨m, h.metadata, h.record hp⟩
  constructor
  · rintro ⟨p, r, hr, -, hid, rfl⟩
    obtain rfl := List.mem_singleton.mp (record_in_slot hsep hf hr (by simp [hid]))
    rw [Record.functional hr hrecord]
  · rintro rfl
    exact ⟨q, _, hrecord, rfl, rfl, rfl⟩

/-- The scan succeeds. -/
theorem Alive.scannable (h : Alive t v q lo m s) (h₀ : Scannable s₀) (hp : (s.payloads.lookup q).isSome) : Scannable s := by
  have hrecord := h.record hp
  have hslot : SlotFits [q] [v] s := by
    refine ⟨fun p hp m' hm => ?_, fun p hp r hr u hu => ?_, fun p hp p' hp' _ _ _ _ _ => ?_, fun p hp i hi => ?_,
      fun p hp p' hp' _ _ _ _ _ => ?_, fun p hp e he => ?_, fun p hp p' hp' _ _ _ _ _ => ?_, fun u hu i k hi _ hk => ?_,
      fun u hu e k he _ hk => ?_⟩
    · obtain rfl := List.mem_singleton.mp hp
      cases h.metadata.symm.trans hm
      exact ⟨_, hrecord⟩
    · obtain rfl := List.mem_singleton.mp hp
      obtain rfl := Record.functional hr ⟨m, h.metadata, hrecord⟩
      rcases hu with rfl | hu
      · exact List.mem_singleton_self _
      · cases hu
    · exact (List.mem_singleton.mp hp).trans (List.mem_singleton.mp hp').symm
    · obtain rfl := List.mem_singleton.mp hp
      obtain ⟨hvalid, -⟩ := h.creation i hi
      exact ⟨hvalid, by simp [(volumePaths_disjoint (creation_path hvalid) h.path).2]⟩
    · exact (List.mem_singleton.mp hp).trans (List.mem_singleton.mp hp').symm
    · obtain rfl := List.mem_singleton.mp hp
      obtain ⟨hvalid, -⟩ := h.expansion e he
      exact ⟨hvalid, by simp [(volumePaths_disjoint (expansion_path hvalid) h.path).2]⟩
    · exact (List.mem_singleton.mp hp).trans (List.mem_singleton.mp hp').symm
    · obtain rfl := List.mem_singleton.mp hu
      rw [(h.committed hsep hf hp).mp hk]
      exact h.creation_size (creating_at hsep hf hi)
    · obtain rfl := List.mem_singleton.mp hu
      have hat := (h.expansion e (expanding_at hsep hf he)).2
      rcases hk with ⟨i, hi, rfl⟩ | hk
      · rwa [← h.creation_size (creating_at hsep hf hi)]
      · rwa [(h.committed hsep hf hp).mp hk]
  exact scannable_of_slot hsep hf hslot h₀

/-- **The bytes stay reserved** while the payload is there. -/
theorem Alive.reserved (h : Alive t v q lo m s) (h₀ : Scannable s₀) (hi : Indexed s) (hp : (s.payloads.lookup q).isSome) :
    ReservedAtLeast v lo s := by
  obtain ⟨out, hout⟩ := scan_ok_iff.mpr (h.scannable hsep hf h₀ hp)
  have hcommitted := (h.committed hsep hf hp (n := m.size)).mpr rfl
  by_cases ht : Tombstoned s v
  · have hlo : lo ≤ m.size := h.promise.elim id fun h => absurd ht h.1
    exact reservedAtLeast_of_scan hi hout hlo ((scan_reservations hout).mpr (.inr (.inr ⟨.inl ht, hcommitted⟩)))
  cases he : s.expansions.lookup q with
  | some e =>
    obtain ⟨hvalid, -⟩ := h.expansion e he
    have hexp : Expanding s v e := ⟨q, he, (volumePaths_disjoint (expansion_path hvalid) h.path).2⟩
    exact reservedAtLeast_of_scan hi hout (h.expanded he).2 ((scan_reservations hout).mpr (.inl ⟨ht, e, hexp, rfl⟩))
  | none =>
    have hnone : ∀ e, ¬Expanding s v e := fun e hexp => by
      rw [expanding_at hsep hf hexp] at he
      cases he
    obtain ⟨k, hk⟩ := scan_reserves_committed hout hcommitted
    have hsize : k = m.size := by
      rcases (scan_reservations hout).mp hk with ⟨-, e, hexp, -⟩ | ⟨-, -, i, hcre, rfl⟩ | ⟨-, hk⟩
      · exact absurd hexp (hnone e)
      · exact (h.creation_size (creating_at hsep hf hcre)).symm
      · exact (h.committed hsep hf hp).mp hk
    exact reservedAtLeast_of_scan hi hout (hsize ▸ h.lo_le he) hk

end

/-! ## The retry -/

/-- Nothing of `v` is left, and all else is as in `s₀`. -/
structure RemovedFrom (v : String) (q : Path) (s₀ s : Pool) : Prop where
  frame : Frame [q] [v] s₀ s
  gone : ∀ u p, p ∈ volumePaths u v → s.metadata.lookup p = none ∧ s.payloads.lookup p = none
  idle : ¬Pending s v
  row : s.rows.lookup v = none

section

variable {hosts : List HostVol} {host : HostVol} {w : World} {m₁ : Metadata}
  (h₀ : Stored t v q m payload s₀) (hsep : Separate [q] [v] s₀)

include h₀

theorem elsewhere_of_frame (hf : Frame [q] [v] s₀ s) : NoMetadataBut s v q := fun u p hp hne => by
  rw [hf.metadata p (by simpa using hne)]
  exact (h₀.elsewhere u p hp hne).1

include hsep

theorem removed_of_vanished (hf : Frame [q] [v] s₀ s) (h : Vanished v q s) : RemovedFrom v q s₀ s where
  frame := hf
  gone u p hp := by
    by_cases he : p = q
    · exact he ▸ ⟨h.metadata, h.payload⟩
    · exact ⟨elsewhere_of_frame h₀ hf u p hp he,
        (hf.payloads p (by simpa using he)).trans (h₀.elsewhere u p hp he).2⟩
  idle := by
    rintro (⟨i, hi⟩ | ⟨e, he⟩)
    · exact absurd ((creating_at hsep hf hi).symm.trans h.intents.1) (Option.some_ne_none _)
    · exact absurd ((expanding_at hsep hf he).symm.trans h.intents.2) (Option.some_ne_none _)
  row := h.row

omit hsep in
/-- A search finds the volume, under deletion or not. -/
theorem Alive.found (hf : Frame [q] [v] s₀ s) (hshared : host.singlePvPerPool = false) (h : Alive t v q lo m₁ s) :
    ∃ state, state ≠ some .creating ∧ searchPool host s v (allPaths v) = .ok (some (foundVolume host t v q state m₁)) := by
  obtain ⟨state, hstate, hcreating⟩ : ∃ state, activeState m₁.state = .ok state ∧ state ≠ some .creating := by
    rcases h.state with ⟨hstate, -⟩ | ⟨hstate, -⟩
    · exact ⟨none, by rw [hstate]; rfl, nofun⟩
    · exact ⟨some .deleting, by rw [hstate]; rfl, by simp⟩
  exact ⟨state, hcreating, searchPool_active hshared h.metadata h.path (elsewhere_of_frame h₀ hf)
    (activeVolume_eq hstate h.id h.incarnation)⟩

/-- A search finds nothing of a vanished volume, and a scan reserves nothing for it. -/
theorem Vanished.absent (hf : Frame [q] [v] s₀ s) (hshared : host.singlePvPerPool = false) (h : Vanished v q s) :
    searchPool host s v (allPaths v) = .ok none ∧
      ∃ out, capacityMetadataRecords s = .ok out ∧ out.reservations.lookup v = none := by
  have hno : ∀ p ∈ [q], NoIntents p s := fun p hp => List.mem_singleton.mp hp ▸ h.intents
  obtain ⟨hscan, hidle⟩ := slot_empty hsep hf hno h₀.scannable fun p hp => List.mem_singleton.mp hp ▸ h.metadata
  obtain ⟨hpending, hcommitted⟩ := hidle v (List.mem_singleton_self v)
  constructor
  · rw [searchPool_pending hshared (fun u p hp => ((removed_of_vanished h₀ hsep hf h).gone u p hp).1) fun p m' hm ht => ?_]
    · exact pendingCreationVolume_none hscan fun i hi => hpending (.inl ⟨i, hi⟩)
    · by_cases he : p = q
      · rw [he, h.metadata] at hm
        cases hm
      · rw [hf.metadata p (by simpa using he)] at hm
        exact h₀.whole p m' hm ht
  · obtain ⟨out, hout, hres⟩ := scan_of_committed hscan
    refine ⟨out, hout, ?_⟩
    by_contra hsome
    obtain ⟨n, hn⟩ := Option.ne_none_iff_exists'.mp hsome
    exact hcommitted n ((hres v hpending n).mp hn)

/-- **A retry removes what is left.** -/
theorem Doomed.resumes (hhost : HostedBy hosts host v w) (hpolicy : reclaimPolicyOf host.pvReclaimPolicy = .ok .delete)
    (h : Doomed t v q lo s₀ s) :
    (deleteVolume hosts v us).succeeds (fun _ w' => RemovedFrom v q s₀ (w' host.name)) (Function.update w host.name s) := by
  have hvalid := h₀.active.valid
  rcases h.stage with ⟨m₁, halive⟩ | hvanished
  · obtain ⟨state, hcreating, hsearch⟩ := halive.found h₀ h.frame hhost.shared
    refine hhost.retry hvalid hsearch rfl rfl rfl ?_
    have hdelete : (deleteManagedVolume (foundVolume host t v q state m₁) .delete us).completes (Doomed t v q lo s₀)
        (fun _ s' => Doomed t v q lo s₀ s' ∧ Vanished v q s') s :=
      completes_deleteManagedVolume rfl rfl rfl h.frame h.indexed rfl halive
    rw [deleteVolumeLocked_managed hpolicy (by decide) hcreating rfl]
    obtain ⟨u, hu, hend, hgone⟩ := completes_run hdelete
    exact ⟨u, hu, removed_of_vanished h₀ hsep hend.frame hgone⟩
  · exact hhost.retry_absent hvalid (hvanished.absent h₀ hsep h.frame hhost.shared).1
      (removed_of_vanished h₀ hsep h.frame hvanished)

end

/-! ## The claim on a committed volume -/

/-- The intents that `v` may have left: a create of the same type, size and incarnation, and an expansion of the committed
file. -/
structure OwnIntents (t : PvType) (v : String) (q : Path) (m : Metadata) (s : Pool) : Prop where
  creation : ∀ i, Creating s v i → i.pvtype = t ∧ validateCommittedCreation m.size m.incarnation i = .ok ()
  expansion : ∀ p e, s.expansions.lookup p = some e → e.volumeId = v → p = q ∧ (m.size = e.fromSize ∨ m.size = e.toSize)

/-- The deletion finds the create intent, and no expansion has outgrown it. -/
structure Orderly (t : PvType) (v : String) (q : Path) (m : Metadata) (s : Pool) : Prop where
  canonical : ∀ i, Creating s v i → q = canon t v
  sized : ∀ i e, Creating s v i → Expanding s v e → m.size = e.toSize

section

variable {hosts : List HostVol} {host : HostVol} {w : World} {vol : Volume}

theorem creating_path (hs : Scannable s) {i : CreationIntent} (ht : i.pvtype = t) (hi : Creating s v i) :
    s.creations.lookup (canon t v) = some i := by
  obtain ⟨p, hp, rfl⟩ := hi
  have hvalid := hs.creations p i hp
  simp only [validateCreationIntent, throw_eq_error, ite_error_ok, bind_ok, canonicalPath_ok, not_not] at hvalid
  obtain ⟨-, -, _, ⟨-, rfl⟩, -, rfl, -⟩ := hvalid
  rwa [← ht]

theorem separate_of_orderly (h₀ : Stored t v q m payload s) (hint : OwnIntents t v q m s) (hord : Orderly t v q m s) :
    Separate [q] [v] s := by
  refine h₀.separate (fun p i hi hv => ?_) fun p e he hv => (hint.expansion p e he hv).1
  have hcre : Creating s v i := ⟨p, hi, hv⟩
  have hat := creating_path h₀.scannable (hint.creation i hcre).1 hcre
  rw [hord.canonical i hcre]
  exact h₀.scannable.creation_inj p _ i i hi hat rfl

/-- What the scan reserves before is the promise. -/
theorem alive_of_stored (h₀ : Stored t v q m payload s) (hkind : payload.isDir = decide (t = .subvol))
    (hint : OwnIntents t v q m s) (hord : Orderly t v q m s) {out : CapacityRecords}
    (hout : capacityMetadataRecords s = .ok out) (hlo : out.reservations.lookup v = some lo) : Alive t v q lo m s := by
  have hactive := h₀.active
  have hsome : (s.payloads.lookup q).isSome := by
    rw [h₀.payload]
    rfl
  have hexpanding : ∀ e, s.expansions.lookup q = some e → Expanding s v e := fun e he =>
    ⟨q, he, (volumePaths_disjoint (expansion_path (h₀.scannable.expansions q e he)) hactive.path).2⟩
  have hcreating : ∀ i, s.creations.lookup q = some i → Creating s v i := fun i hi =>
    ⟨q, hi, (volumePaths_disjoint (creation_path (h₀.scannable.creations q i hi)) hactive.path).2⟩
  refine ⟨hactive.toPlain, h₀.metadata, fun payload' hp => ?_,
    .inl ⟨hactive.state, hsome⟩, fun e he => ⟨h₀.scannable.expansions q e he,
      (hint.expansion q e he (hexpanding e he).choose_spec.2).2⟩,
    fun i hi => ⟨h₀.scannable.creations q i hi, (hint.creation i (hcreating i hi)).2⟩,
    fun i e hi he => hord.sized i e (hcreating i hi) (hexpanding e he), ?_⟩
  · cases h₀.payload.symm.trans hp
    exact hkind
  rcases (scan_reservations hout).mp hlo with ⟨ht, e, ⟨p, he, hid⟩, rfl⟩ | ⟨-, -, i, hi, rfl⟩ | ⟨-, hcommitted⟩
  · obtain ⟨rfl, -⟩ := hint.expansion p e he hid
    exact .inr ⟨ht, e, he, le_rfl⟩
  · exact .inl (validateCommittedCreation_size (hint.creation i hi).2).ge
  · obtain ⟨p, r, hr, -, hid, rfl⟩ := hcommitted
    obtain rfl := h₀.record_at hr hid
    rw [Record.functional hr h₀.record]
    exact .inl le_rfl

/-- A create intent that the expansion has outgrown stops the deletion. -/
theorem deleteManagedVolume_fails (hq : q ∈ volumePaths t v) (hm : s.metadata.lookup q = some m) {e : ExpansionIntent}
    (he : s.expansions.lookup q = some e) (hve : validateExpansionIntent q e = .ok ())
    (hsize : m.size = e.fromSize ∨ m.size = e.toSize) {i : CreationIntent} (hi : s.creations.lookup q = some i)
    (hvi : validateCreationIntent q i = .ok ()) (hisize : i.size ≠ e.toSize) (host : HostVol) :
    ((deleteManagedVolume (foundVolume host t v q none m) .delete us).run s).1 ≠ .ok () := by
  refine inv_never (C := fun _ => True) ?_
  refine inv_bind (inv_read trivial fun m₁ hm₁ => ?_)
  obtain rfl : m = m₁ := by
    rw [show (foundVolume host t v q none m).metadataPath.getD (foundVolume host t v q none m).volpath = q from rfl, hm] at hm₁
    exact ok.inj hm₁
  have habsorb : (absorbExpansion (foundVolume host t v q none m) q m).inv (fun _ => True)
      (fun m' s' => m'.size = e.toSize ∧ s'.creations = s.creations) s := by
    refine inv_bind (inv_read trivial fun o ho => ?_)
    cases (readVolumeExpansionIntent_own hq he hve).symm.trans ho
    dsimp only
    rw [if_neg fun hne => hsize.elim hne.1 hne.2]
    refine inv_bind (inv_update trivial fun s₁ hs₁ => ⟨trivial, ?_⟩)
    cases hs₁
    refine inv_bind (inv_update trivial fun s₂ hs₂ => ⟨trivial, rfl, ?_⟩)
    obtain ⟨o, -, hs₂⟩ := bind_ok.mp hs₂
    rw [throw_eq_error, ite_error_ok] at hs₂
    cases hs₂.2
    rfl
  refine inv_bind (inv_mono ?_ habsorb)
  rintro m₁ s₁ ⟨hm₁, hs₁⟩
  refine inv_ite (fun _ => inv_raise trivial) fun _ => inv_bind (inv_bind (inv_read trivial fun o ho => ?_))
  cases (readVolumeCreationIntent_own (s := s₁) hq (by rw [hs₁, hi]) hvi).symm.trans ho
  refine inv_bind (inv_ofExcept trivial fun u hu => ?_)
  exact absurd (hm₁ ▸ validateCommittedCreation_size hu).symm hisize

/-- **Deletion is crash-safe exactly for orderly intents.** -/
theorem delete_crash_safe (h₀ : Stored t v q m payload s) (hkind : payload.isDir = decide (t = .subvol))
    (hindexed : Indexed s) (hint : OwnIntents t v q m s) (hhost : HostedBy hosts host v w)
    (hpolicy : reclaimPolicyOf host.pvReclaimPolicy = .ok .delete) :
    (∀ s', (deleteManagedVolume (foundVolume host t v q none m) .delete uuids).Visits s s' →
      Frame [q] [v] s s' ∧
      ((s'.payloads.lookup q).isSome → ∀ out lo, capacityMetadataRecords s = .ok out → out.reservations.lookup v = some lo →
        ReservedAtLeast v lo s') ∧
      ∀ us, (deleteVolume hosts v us).succeeds (fun _ w' => RemovedFrom v q s (w' host.name))
        (Function.update w host.name s')) ↔ Orderly t v q m s := by
  have hactive := h₀.active
  constructor
  · intro h
    obtain ⟨-, -, hretry⟩ := h s (.refl _ _)
    have hcanonical : ∀ i, Creating s v i → q = canon t v := fun i hi => by
      by_contra hne
      obtain ⟨-, -, hremoved⟩ := hretry []
      have hat := creating_path h₀.scannable (hint.creation i hi).1 hi
      have hid : i.volumeId = v := hi.choose_spec.2
      refine hremoved.idle (.inl ⟨i, canon t v, ?_, hid⟩)
      rwa [hremoved.frame.creations _ (by simpa using Ne.symm hne)]
    refine ⟨hcanonical, fun i e hi he => ?_⟩
    by_contra hne
    obtain rfl := hcanonical i hi
    have hat := creating_path h₀.scannable (hint.creation i hi).1 hi
    have hisize := validateCommittedCreation_size (hint.creation i hi).2
    obtain ⟨p, hp, hid⟩ := he
    obtain ⟨rfl, hsize⟩ := hint.expansion p e hp hid
    have hfound : activeVolume host v t (canon t v) m = .ok (foundVolume host t v (canon t v) none m) :=
      activeVolume_eq (by rw [hactive.state]; rfl) hactive.id hactive.incarnation
    have hsearch := searchPool_active hhost.shared h₀.metadata hactive.path
      (fun u p hp hne => (h₀.elsewhere u p hp hne).1) hfound
    obtain ⟨u, hu, -⟩ := hretry []
    rw [hhost.run_deleteVolume hactive.valid hsearch rfl rfl rfl, deleteVolumeLocked_managed hpolicy (by decide)
      (Option.some_ne_none _).symm rfl] at hu
    exact deleteManagedVolume_fails hactive.path h₀.metadata hp (h₀.scannable.expansions _ e hp) hsize hat
      (h₀.scannable.creations _ i hat) (hisize ▸ hne) host hu
  · intro hord s' hv
    have hsep := separate_of_orderly h₀ hint hord
    have hdoomed : ∀ out lo, capacityMetadataRecords s = .ok out → out.reservations.lookup v = some lo →
        Doomed t v q lo s s' := fun out lo hout hlo => by
      have halive := alive_of_stored h₀ hkind hint hord hout hlo
      have hdelete : (deleteManagedVolume (foundVolume host t v q none m) .delete uuids).completes (Doomed t v q lo s)
          (fun _ s' => Doomed t v q lo s s' ∧ Vanished v q s') s :=
        completes_deleteManagedVolume rfl rfl rfl (.refl s) hindexed rfl halive
      exact inv_visits ⟨.refl s, hindexed, .inl ⟨m, halive⟩⟩ hdelete.1 hv
    obtain ⟨out, hout⟩ := scan_ok_iff.mpr h₀.scannable
    obtain ⟨lo, hlo⟩ := scan_reserves_committed hout ⟨q, _, h₀.record, rfl, rfl, rfl⟩
    have hany := hdoomed out lo hout hlo
    refine ⟨hany.frame, fun hp out lo hout hlo => ?_, fun us => hany.resumes h₀ hsep hhost hpolicy⟩
    obtain ⟨hf, hi, ⟨m₁, halive⟩ | hvanished⟩ := hdoomed out lo hout hlo
    · exact halive.reserved hsep hf h₀.scannable hi hp
    · rw [hvanished.payload] at hp
      cases hp

end

end

end

section

attribute [local instance] sampleHash

def grownPath : Path := ["subvol", "d3", "d3", "pvc-1"]

/-- A volume under expansion, and the create intents `creations`. -/
def grownPool (creations : Table CreationIntent) : Pool :=
  { lonePool "pvc-1" grownPath with
    creations
    expansions := (∅ : Table ExpansionIntent).insert grownPath (expansionIntent "pvc-1" .subvol grownPath 1000 2000) }

def deletingHost : HostVol := { name := "pool", type := "Replica1", pvReclaimPolicy := some "delete" }

theorem grownPool_stored {creations : Table CreationIntent}
    (hscan : ∃ out, capacityMetadataRecords (grownPool creations) = .ok out) :
    Stored .subvol "pvc-1" grownPath (loneMetadata "pvc-1" grownPath) lonePayload (grownPool creations) :=
  stored_of_lone (by decide +kernel) (by decide +kernel) rfl rfl (scan_ok_iff.mp hscan)

theorem grownPool_ownIntents {creations : Table CreationIntent}
    (hc : ∀ p i, creations.lookup p = some i → i.pvtype = .subvol ∧ validateCommittedCreation 1000 none i = .ok ()) :
    OwnIntents .subvol "pvc-1" grownPath (loneMetadata "pvc-1" grownPath) (grownPool creations) where
  creation := fun i ⟨p, hi, _⟩ => hc p i hi
  expansion p e he _ := by
    obtain ⟨rfl, rfl⟩ := lookup_single he
    exact ⟨rfl, .inl rfl⟩

/-- The create intent of a volume that is expanded before its creation has been finalized. -/
def staleCreations : Table CreationIntent :=
  (∅ : Table CreationIntent).insert grownPath (volumeCreationIntent "pvc-1" .subvol grownPath 1000 none)

/-- With both intents left, the deletion raises, and what it leaves behind cannot be scanned. -/
theorem outgrownIntent_wedges :
    Stored .subvol "pvc-1" grownPath (loneMetadata "pvc-1" grownPath) lonePayload (grownPool staleCreations) ∧
    OwnIntents .subvol "pvc-1" grownPath (loneMetadata "pvc-1" grownPath) (grownPool staleCreations) ∧
    (∃ s', (deleteManagedVolume (foundVolume deletingHost .subvol "pvc-1" grownPath none (loneMetadata "pvc-1" grownPath))
      .delete []).Visits (grownPool staleCreations) s' ∧ (s'.payloads.lookup grownPath).isSome ∧
        ∀ out, capacityMetadataRecords s' ≠ .ok out) ∧
    ((deleteVolume [deletingHost] "pvc-1" []).run fun _ => grownPool staleCreations).1 ≠ .ok () := by
  refine ⟨grownPool_stored ?_, grownPool_ownIntents fun p i hi => ?_, ⟨_, after_visits 3 _ _, by decide +kernel, ?_⟩,
    by decide +kernel⟩
  · obtain ⟨out, hout, -⟩ := ok_of_test (x := capacityMetadataRecords (grownPool staleCreations)) (P := fun _ => True)
      (by decide +kernel)
    exact ⟨out, hout⟩
  · obtain ⟨-, rfl⟩ := lookup_single hi
    exact ⟨rfl, rfl⟩
  · intro out hout
    have hnone : (capacityMetadataRecords ((deleteManagedVolume (foundVolume deletingHost .subvol "pvc-1" grownPath none
      (loneMetadata "pvc-1" grownPath)) .delete []).after 3 (grownPool staleCreations))).toOption.isNone = true := by
      decide +kernel
    rw [hout] at hnone
    cases hnone

/-- Without the create intent, the expanded volume is deleted whatever happens. -/
theorem grownVolume_deleted :
    OwnIntents .subvol "pvc-1" grownPath (loneMetadata "pvc-1" grownPath) (grownPool ∅) ∧
    ∀ s', (deleteManagedVolume (foundVolume deletingHost .subvol "pvc-1" grownPath none (loneMetadata "pvc-1" grownPath))
        .delete []).Visits (grownPool ∅) s' →
      Frame [grownPath] ["pvc-1"] (grownPool ∅) s' ∧
      ((s'.payloads.lookup grownPath).isSome → ∀ out lo, capacityMetadataRecords (grownPool ∅) = .ok out →
        out.reservations.lookup "pvc-1" = some lo → ReservedAtLeast "pvc-1" lo s') ∧
      ∀ us, (deleteVolume [deletingHost] "pvc-1" us).succeeds
        (fun _ w₁ => RemovedFrom "pvc-1" grownPath (grownPool ∅) (w₁ "pool"))
        (Function.update (fun _ => grownPool ∅) "pool" s') := by
  have hscan : ∃ out, capacityMetadataRecords (grownPool ∅) = .ok out := by
    obtain ⟨out, hout, -⟩ := ok_of_test (x := capacityMetadataRecords (grownPool ∅)) (P := fun _ => True)
      (by decide +kernel)
    exact ⟨out, hout⟩
  have hindexed : Indexed (grownPool ∅) := Indexed.insert (s := { grownPool ∅ with rows := ∅ }) nofun (by decide)
  refine ⟨grownPool_ownIntents nofun, (delete_crash_safe (grownPool_stored hscan) rfl hindexed (grownPool_ownIntents nofun)
    ⟨rfl, [], [], rfl, by simp⟩ rfl).mpr ⟨fun i hi => ?_, fun i e hi => ?_⟩⟩
  · obtain ⟨p, hp, -⟩ := hi
    cases hp
  · obtain ⟨p, hp, -⟩ := hi
    cases hp

end

end Kadalu
