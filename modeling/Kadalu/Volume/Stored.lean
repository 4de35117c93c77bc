import Kadalu.Volume.Delete
import Kadalu.Volume.SearchSpec
import Kadalu.Volume.Slot

/-!
# One volume in its pool

`Stored t v q m payload s`: the volume `v` is committed at its path `q`, and nothing is under way with it. `HostedBy` says
that no other pool knows it. What a retry of `deleteVolume` finds then depends on its own pool only
(`HostedBy.run_deleteVolume`).
-/

namespace Kadalu

open Durable Durable.Prog Except

section

variable [VolnameHash]

/-! ## The pool -/

/-- Metadata of `v` at its path `q`, as the driver writes it. -/
structure Plain (t : PvType) (v : String) (q : Path) (m : Metadata) : Prop extends OwnMetadata t v q m where
  size : 0 < m.size
  dir : m.pathPrefix = some q.dirname
  legacy : m.legacyArchive = false
  pvtype : ∀ n, m.pvtype = some n → n = t.name
  incarnation : m.incarnation.all canonicalUuid = true

/-- Committed metadata. -/
structure Active (t : PvType) (v : String) (q : Path) (m : Metadata) : Prop extends Plain t v q m where
  state : m.state = none

/-- `v` is committed at `q`. Archives of its earlier generations may be there. -/
structure Stored (t : PvType) (v : String) (q : Path) (m : Metadata) (payload : Payload) (s : Pool) : Prop where
  active : Active t v q m
  metadata : s.metadata.lookup q = some m
  payload : s.payloads.lookup q = some payload
  elsewhere : ∀ u p, p ∈ volumePaths u v → p ≠ q → s.metadata.lookup p = none ∧ s.payloads.lookup p = none
  whole : ∀ p m', s.metadata.lookup p = some m' → ¬Transitional v p m'
  scannable : Scannable s

section

variable {t u : PvType} {v : String} {p q : Path} {m : Metadata} {payload : Payload} {s : Pool}

omit [VolnameHash] in
theorem volumeId_eq (h : m.volumeId.getD q.basename = v) : m.volumeId.any (· ≠ v) = false := by
  cases hid : m.volumeId with
  | none => rfl
  | some w =>
    rw [hid] at h
    simpa using h

/-- The volume that a search reads off metadata at `q`. -/
def foundVolume (host : HostVol) (t : PvType) (v : String) (q : Path) (state : Option Lifecycle) (m : Metadata) : Volume :=
  { volname := v, voltype := t, host, size := m.size, volpath := q, state, metadataPath := some q,
    incarnation := m.incarnation }

omit [VolnameHash] in
theorem activeVolume_eq {host : HostVol} {state : Option Lifecycle} (hstate : activeState m.state = .ok state)
    (hid : m.volumeId.getD q.basename = v) (hinc : m.incarnation.all canonicalUuid = true) :
    activeVolume host v t q m = .ok (foundVolume host t v q state m) := by
  rw [activeVolume, hstate, ok_bind, volumeId_eq hid, hinc]
  rfl

/-- An intent lies at a path of its volume. -/
theorem creation_path {i : CreationIntent} (h : validateCreationIntent p i = .ok ()) :
    p ∈ volumePaths i.pvtype i.volumeId := by
  simp only [validateCreationIntent, throw_eq_error, ite_error_ok, bind_ok, canonicalPath_ok, not_not] at h
  obtain ⟨-, -, _, ⟨-, rfl⟩, -, rfl, -⟩ := h
  exact canon_mem

theorem expansion_path {e : ExpansionIntent} (h : validateExpansionIntent p e = .ok ()) :
    p ∈ volumePaths e.pvtype e.volumeId := by
  simp only [validateExpansionIntent, throw_eq_error, ite_error_ok, bind_ok, canonicalVolumePaths_ok, not_or,
    not_not] at h
  obtain ⟨-, _, ⟨-, rfl⟩, ⟨hmem, -⟩, rfl, -⟩ := h
  exact hmem

/-- Without pending intents of `v` there is none at its paths. -/
theorem noIntents_of_idle (hs : Scannable s) (h : ¬Pending s v) (hp : p ∈ volumePaths u v) : NoIntents p s := by
  constructor
  · cases hi : s.creations.lookup p with
    | none => rfl
    | some i => exact absurd (.inl ⟨i, p, hi, (volumePaths_disjoint (creation_path (hs.creations p i hi)) hp).2⟩) h
  · cases he : s.expansions.lookup p with
    | none => rfl
    | some e => exact absurd (.inr ⟨e, p, he, (volumePaths_disjoint (expansion_path (hs.expansions p e he)) hp).2⟩) h

theorem noIntents_archive {a : String} (hs : Scannable s) : NoIntents (archivePath a) s := by
  constructor
  · cases hi : s.creations.lookup (archivePath a) with
    | none => rfl
    | some i => exact absurd rfl (archivePath_ne_volumePaths (creation_path (hs.creations _ i hi)))
  · cases he : s.expansions.lookup (archivePath a) with
    | none => rfl
    | some e => exact absurd rfl (archivePath_ne_volumePaths (expansion_path (hs.expansions _ e he)))

theorem readVolumeExpansionIntent_absent (h : s.expansions.lookup p = none) :
    readVolumeExpansionIntent s v t p = .ok none := by
  rw [readVolumeExpansionIntent, h]
  rfl

theorem readVolumeCreationIntent_absent (h : s.creations.lookup p = none) :
    readVolumeCreationIntent s v t p = .ok none := by
  rw [readVolumeCreationIntent, h]
  rfl

/-- The record of a committed volume. -/
theorem Stored.record (h : Stored t v q m payload s) : Record s q ⟨v, none, m.size, false⟩ :=
  ⟨m, h.metadata, capacityRecord_active h.active.toOwnMetadata h.active.state h.active.size⟩

theorem Stored.record_at (h : Stored t v q m payload s) {r : CapacityRecord} (hr : Record s p r) (hv : r.id = v) : p = q :=
  h.scannable.record_inj p q r _ hr h.record hv

/-- A volume whose intents lie at its path is apart from the rest. -/
theorem Stored.separate (h : Stored t v q m payload s)
    (hc : ∀ p i, s.creations.lookup p = some i → i.volumeId = v → p = q)
    (he : ∀ p e, s.expansions.lookup p = some e → e.volumeId = v → p = q) : Separate [q] [v] s where
  names p hp r hr u hu := by
    obtain rfl := List.mem_singleton.mp hp
    obtain rfl := Record.functional h.record hr
    rcases hu with rfl | hu
    · exact List.mem_singleton_self _
    · cases hu
  record_out p r hr hv := List.mem_singleton.mpr (h.record_at hr (List.mem_singleton.mp hv))
  creation_out p i hi hv := List.mem_singleton.mpr (hc p i hi (List.mem_singleton.mp hv))
  expansion_out p e hp hv := List.mem_singleton.mpr (he p e hp (List.mem_singleton.mp hv))

end

/-! ## The other pools -/

section

variable {hosts : List HostVol} {host : HostVol} {v : String} {w : World} {vol : Volume} {uuids : List String} {s : Pool}
  {P : Pool → Prop}

/-- `host` is a shared pool, and no other pool of `hosts` knows `v`. -/
structure HostedBy (hosts : List HostVol) (host : HostVol) (v : String) (w : World) : Prop where
  shared : host.singlePvPerPool = false
  among : ∃ before after, hosts = before ++ host :: after ∧
    ∀ other, other ∈ before ∨ other ∈ after → other.name ≠ host.name ∧ Unreported v w other

theorem HostedBy.finds (h : HostedBy hosts host v w)
    (hsearch : searchPool host s v (allPaths v) = .ok (some vol)) :
    ReportedBy hosts v (Function.update w host.name s) host vol := by
  obtain ⟨before, after, rfl, hothers⟩ := h.among
  have hother : ∀ other, other ∈ before ∨ other ∈ after → Unreported v (Function.update w host.name s) other := by
    intro other hmem
    obtain ⟨hne, hnone⟩ := hothers other hmem
    rwa [Unreported, Function.update_of_ne hne]
  exact ⟨before, after, rfl, by rwa [Function.update_self], fun o ho => hother o (.inl ho), fun o ho => hother o (.inr ho)⟩

theorem HostedBy.misses (h : HostedBy hosts host v w) (hsearch : searchPool host s v (allPaths v) = .ok none) :
    ∀ other ∈ hosts, Unreported v (Function.update w host.name s) other := by
  obtain ⟨before, after, rfl, hothers⟩ := h.among
  intro other hmem
  rcases List.mem_append.mp hmem with hmem | hmem
  · obtain ⟨hne, hnone⟩ := hothers other (.inl hmem)
    rwa [Unreported, Function.update_of_ne hne]
  · rcases List.mem_cons.mp hmem with rfl | hmem
    · rwa [Unreported, Function.update_self]
    · obtain ⟨hne, hnone⟩ := hothers other (.inr hmem)
      rwa [Unreported, Function.update_of_ne hne]

theorem succeeds_searchVolume {Q : Option Volume → World → Prop} {o : Option Volume} (ho : findVolume hosts v w = .ok o)
    (hQ : Q o w) : (searchVolume hosts v).succeeds Q w :=
  ⟨o, by rw [run_searchVolume, ho], by rwa [run_searchVolume]⟩

/-- Committed volumes of shared pools, and those under deletion or archiving, are managed ones. -/
theorem deleteVolumeLocked_managed {policy : ReclaimPolicy}
    (hpolicy : reclaimPolicyOf vol.host.pvReclaimPolicy = .ok policy) (hretain : policy ≠ .retain)
    (hstate : vol.state ≠ some .creating) (hshared : vol.singlePvPerPool = false) :
    deleteVolumeLocked vol uuids = deleteManagedVolume vol policy uuids := by
  rw [deleteVolumeLocked, hpolicy]
  show (if policy = .retain then _ else _) = _
  rw [if_neg hretain, if_neg hstate, hshared]
  rfl

/-- **A retry.** Without others at work the second look finds what the first one found, and the volume is deleted there. -/
theorem HostedBy.run_deleteVolume (h : HostedBy hosts host v w) (hv : isValidCsiIdentifier v = true)
    (hsearch : searchPool host s v (allPaths v) = .ok (some vol)) (hname : vol.volname = v) (hhost : vol.host = host)
    (hshared : vol.singlePvPerPool = false) (us : List String) :
    (deleteVolume hosts v us).run (Function.update w host.name s) = (((deleteVolumeLocked vol us).run s).1,
      Function.update w host.name ((deleteVolumeLocked vol us).run s).2) := by
  have hfind := findVolume_some hv (h.finds hsearch)
  have hvol : vol.hostvol = host.name := congrArg HostVol.name hhost
  rw [deleteVolume, bind_eq, run_andThen, run_searchVolume, hfind, onOk_ok]
  dsimp only
  rw [hshared, if_neg Bool.false_ne_true, bind_eq, run_andThen, readIncarnation, run_read]
  dsimp only
  rw [pure_eq_ok, onOk_ok, run_withLock, deleteRefound, hname, bind_eq, run_andThen, run_searchVolume, hfind, onOk_ok]
  dsimp only
  rw [if_neg (not_not.mpr rfl), bind_eq, run_andThen, readIncarnation, run_read]
  dsimp only
  rw [pure_eq_ok, onOk_ok, if_neg (not_not.mpr rfl), run_focus, hvol, Function.update_self, Function.update_idem]

theorem HostedBy.retry (h : HostedBy hosts host v w) (hv : isValidCsiIdentifier v = true)
    (hsearch : searchPool host s v (allPaths v) = .ok (some vol)) (hname : vol.volname = v) (hhost : vol.host = host)
    (hshared : vol.singlePvPerPool = false) (hlocked : (deleteVolumeLocked vol uuids).succeeds (fun _ => P) s) :
    (deleteVolume hosts v uuids).succeeds (fun _ w' => P (w' host.name)) (Function.update w host.name s) := by
  obtain ⟨u, hu, hP⟩ := hlocked
  have hrun := h.run_deleteVolume hv hsearch hname hhost hshared uuids
  exact ⟨u, by rw [hrun, hu], by rw [hrun]; simpa using hP⟩

/-- Nothing is found, nothing is done. -/
theorem HostedBy.retry_absent (h : HostedBy hosts host v w) (hv : isValidCsiIdentifier v = true)
    (hsearch : searchPool host s v (allPaths v) = .ok none) (hP : P s) :
    (deleteVolume hosts v uuids).succeeds (fun _ w' => P (w' host.name)) (Function.update w host.name s) :=
  succeeds_bind (succeeds_searchVolume (findVolume_none hv (h.misses hsearch))
    (succeeds_pure (by rwa [Function.update_self])))

section

variable {C : Pool → Prop} {w' : World} (h : HostedBy hosts host v w) (hvalid : isValidCsiIdentifier v = true) (hC : C s)

include h hvalid hC

/-- **An attempt.** Whatever happens, only the pool of the volume changes, and as the deletion there changes it. -/
theorem HostedBy.visits_deleteVolume (hsearch : searchPool host s v (allPaths v) = .ok (some vol)) (hname : vol.volname = v)
    (hhost : vol.host = host) (hshared : vol.singlePvPerPool = false)
    (hlocked : (deleteVolumeLocked vol uuids).inv C (fun _ => C) s)
    (hv : (deleteVolume hosts v uuids).Visits (Function.update w host.name s) w') :
    ∃ s', w' = Function.update w host.name s' ∧ C s' := by
  have hfind := findVolume_some hvalid (h.finds hsearch)
  have hstart : ∃ s', Function.update w host.name s = Function.update w host.name s' ∧ C s' := ⟨s, rfl, hC⟩
  have hkept : ∀ s', C s' → ∃ s₁, Function.update (Function.update w host.name s) host.name s' =
      Function.update w host.name s₁ ∧ C s₁ := fun s' hs' => ⟨s', Function.update_idem .., hs'⟩
  refine inv_visits (C := fun w' => ∃ s', w' = Function.update w host.name s' ∧ C s') (Q := fun _ _ => True) hstart ?_ hv
  refine inv_bind (inv_searchVolume hstart fun o ho => ?_)
  cases hfind.symm.trans ho
  dsimp only
  rw [hshared, if_neg Bool.false_ne_true]
  refine inv_bind (inv_read hstart fun i _ => inv_withLock hstart ?_)
  rw [deleteRefound, hname]
  refine inv_bind (inv_searchVolume hstart fun o ho => ?_)
  cases hfind.symm.trans ho
  dsimp only
  rw [if_neg (not_not.mpr rfl)]
  refine inv_bind (inv_read hstart fun i' _ => inv_ite (fun _ => inv_raise hstart) fun _ => inv_focus ?_)
  have hvol : vol.hostvol = host.name := congrArg HostVol.name hhost
  rw [hvol, Function.update_self]
  exact inv_imp hkept (fun _ s' hs' => ⟨hkept s' hs', trivial⟩) hlocked

theorem HostedBy.visits_deleteVolume_absent (hsearch : searchPool host s v (allPaths v) = .ok none)
    (hv : (deleteVolume hosts v uuids).Visits (Function.update w host.name s) w') :
    ∃ s', w' = Function.update w host.name s' ∧ C s' := by
  have hstart : ∃ s', Function.update w host.name s = Function.update w host.name s' ∧ C s' := ⟨s, rfl, hC⟩
  refine inv_visits (C := fun w' => ∃ s', w' = Function.update w host.name s' ∧ C s') (Q := fun _ _ => True) hstart ?_ hv
  refine inv_bind (inv_searchVolume hstart fun o ho => ?_)
  cases (findVolume_none hvalid (h.misses hsearch)).symm.trans ho
  exact inv_ret trivial

end

end

end

/-! ## A pool with one volume -/

theorem lookup_single {α : Type} {p q : Path} {x y : α} (h : ((∅ : Table α).insert q x).lookup p = some y) :
    p = q ∧ y = x := by
  by_cases he : p = q
  · subst he
    rw [AList.lookup_insert] at h
    exact ⟨rfl, (Option.some.inj h).symm⟩
  · rw [AList.lookup_insert_ne he] at h
    cases h

/-- The metadata of the only volume. -/
def loneMetadata (v : String) (q : Path) : Metadata := { size := 1000, pathPrefix := some q.dirname, volumeId := some v }

def lonePayload : Payload := { isDir := true, quota := some 1000 }

/-- A pool with nothing but the volume `v`. -/
def lonePool (v : String) (q : Path) : Pool :=
  { metadata := (∅ : Table Metadata).insert q (loneMetadata v q)
    payloads := (∅ : Table Payload).insert q lonePayload
    rows := (∅ : Rows).insert v 1000
    capacity := 1500 }

section

variable [VolnameHash] {t : PvType} {v : String} {q : Path} {s : Pool}

theorem loneMetadata_active (hv : isValidCsiIdentifier v = true) (hq : q ∈ volumePaths t v) :
    Active t v q (loneMetadata v q) :=
  ⟨⟨⟨hv, hq, rfl, rfl⟩, by simp [loneMetadata], rfl, rfl, nofun, rfl⟩, rfl⟩

theorem stored_of_lone (hv : isValidCsiIdentifier v = true) (hq : q ∈ volumePaths t v)
    (hm : s.metadata = (∅ : Table Metadata).insert q (loneMetadata v q))
    (hp : s.payloads = (∅ : Table Payload).insert q lonePayload) (hs : Scannable s) :
    Stored t v q (loneMetadata v q) lonePayload s := by
  refine ⟨loneMetadata_active hv hq, by rw [hm, AList.lookup_insert], by rw [hp, AList.lookup_insert], fun u p _ hne => ?_,
    fun p m' hm' ht => ?_, hs⟩
  · rw [hm, hp, AList.lookup_insert_ne hne, AList.lookup_insert_ne hne]
    exact ⟨rfl, rfl⟩
  · rw [hm] at hm'
    obtain ⟨rfl, -⟩ := lookup_single hm'
    exact dirname_volumePaths_ne_archive hq ht.1

omit [VolnameHash] in
theorem lonePool_idle {u : String} : ¬Pending (lonePool v q) u := by
  rintro (⟨i, p, hi, -⟩ | ⟨e, p, he, -⟩)
  · cases hi
  · cases he

theorem lonePool_stored (hv : isValidCsiIdentifier v = true) (hq : q ∈ volumePaths t v) :
    Stored t v q (loneMetadata v q) lonePayload (lonePool v q) := by
  have hactive := loneMetadata_active hv hq
  have hrecord : ∀ p r, Record (lonePool v q) p r → p = q := fun p r ⟨m, hm, _⟩ => (lookup_single hm).1
  have hnone {α : Type} {p : Path} {x : α} (h : (∅ : Table α).lookup p = some x) : False :=
    Option.some_ne_none _ (h.symm.trans (AList.lookup_empty p))
  refine stored_of_lone hv hq rfl rfl ⟨fun p m hm => ?_, fun p p' r r' hr hr' _ => ?_, fun _ _ hi => (hnone hi).elim,
    fun _ _ _ _ hi => (hnone hi).elim, fun _ _ he => (hnone he).elim, fun _ _ _ _ he => (hnone he).elim,
    fun u i _ hi => absurd (.inl ⟨i, hi⟩) lonePool_idle, fun u e _ he => absurd (.inr ⟨e, he⟩) lonePool_idle⟩
  · obtain ⟨rfl, rfl⟩ := lookup_single hm
    exact ⟨_, capacityRecord_active hactive.toOwnMetadata rfl hactive.size⟩
  · rw [hrecord p r hr, hrecord p' r' hr']

end

end Kadalu
