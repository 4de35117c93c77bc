import Kadalu.Data.Result
import Kadalu.Operator.StorageClass

/-!
# Whose StorageClass is deleted

`World` holds the StorageClasses while others create, change and delete them as well. Every state of a class has a UID and a
`resourceVersion` of its own.

* `Own`: what `validateStorageClassOwner` accepts.
* `Spared`: the class is still there after a request, unless the request deletes exactly it and the operation owns it.
* `only_own_classes`: in every run every class is spared by every request.
-/

namespace Kadalu.StorageClasses

open Calls Calls.Prog Operator ClassRequest

/-! ## What is accepted -/

/-- The durable parts of an identity. -/
def durableAnnotations (identity : Identity) : List (String × String) :=
  [(STORAGE_CLASS_VOLUME_ID_ANNOTATION, identity.volumeId), (STORAGE_CLASS_MOUNT_IDENTITY_ANNOTATION, identity.mountIdentity),
    (STORAGE_CLASS_BACKEND_FINGERPRINT_ANNOTATION, identity.backendFingerprint)]

/-- The annotations name the owner, and contradict no durable part that is known. -/
structure Annotated (identity : Identity) (annotations : Fields) : Prop where
  storageNamespace : annotations.lookup STORAGE_CLASS_NAMESPACE_ANNOTATION = some identity.storageNamespace
  storageName : annotations.lookup STORAGE_CLASS_NAME_ANNOTATION = some identity.name
  uid : identity.uid ≠ "" → annotations.lookup STORAGE_CLASS_UID_ANNOTATION = some identity.uid
  durable : ∀ a ∈ durableAnnotations identity, a.2 ≠ "" → ∀ value, annotations.lookup a.1 = some value → value = a.2

/-- The class is the pool's. A class of an older version has no annotations, and is accepted if `allowLegacy`. -/
structure Own (identity : Identity) (allowLegacy : Bool) (c : StorageClass) : Prop where
  name : c.name = identity.storageClassName
  provisioner : c.provisioner = CSI_DRIVER_NAME
  parameters : canonicalStorageClassParameters c.parameters = canonicalStorageClassParameters identity.parameters
  owner : Annotated identity c.annotations ∨
    allowLegacy = true ∧ ∀ a ∈ storageClassOwnerAnnotations identity, a.1 ∉ c.annotations

theorem not_contradicts {annotations : Fields} {key expected : String} :
    contradicts annotations key expected = false ↔
      (expected ≠ "" → ∀ value, annotations.lookup key = some value → value = expected) := by
  by_cases he : expected = ""
  · simp [contradicts, he]
  · cases h : annotations.lookup key <;> simp [contradicts, he, h]

theorem annotated_iff {identity : Identity} {annotations : Fields} :
    Annotated identity annotations ↔
      ¬(annotations.lookup STORAGE_CLASS_NAMESPACE_ANNOTATION ≠ some identity.storageNamespace ∨
        annotations.lookup STORAGE_CLASS_NAME_ANNOTATION ≠ some identity.name ∨
        identity.uid ≠ "" ∧ annotations.lookup STORAGE_CLASS_UID_ANNOTATION ≠ some identity.uid) ∧
      ¬(contradicts annotations STORAGE_CLASS_VOLUME_ID_ANNOTATION identity.volumeId = true ∨
        contradicts annotations STORAGE_CLASS_MOUNT_IDENTITY_ANNOTATION identity.mountIdentity = true ∨
        contradicts annotations STORAGE_CLASS_BACKEND_FINGERPRINT_ANNOTATION identity.backendFingerprint = true) := by
  simp only [not_or, Bool.not_eq_true, not_contradicts, not_and, not_not, ne_eq]
  constructor
  · intro h
    exact ⟨⟨h.storageNamespace, h.storageName, h.uid⟩,
      h.durable (STORAGE_CLASS_VOLUME_ID_ANNOTATION, identity.volumeId) (by simp [durableAnnotations]),
      h.durable (STORAGE_CLASS_MOUNT_IDENTITY_ANNOTATION, identity.mountIdentity) (by simp [durableAnnotations]),
      h.durable (STORAGE_CLASS_BACKEND_FINGERPRINT_ANNOTATION, identity.backendFingerprint) (by simp [durableAnnotations])⟩
  · rintro ⟨⟨hns, hn, hu⟩, hv, hm, hb⟩
    refine ⟨hns, hn, hu, fun a ha => ?_⟩
    simp only [durableAnnotations, List.mem_cons, List.not_mem_nil, or_false] at ha
    obtain rfl | rfl | rfl := ha
    · exact hv
    · exact hm
    · exact hb

/-- A class with the annotations of its owner has one of them. -/
theorem Annotated.any {identity : Identity} {annotations : Fields} (h : Annotated identity annotations) :
    ¬∀ a ∈ storageClassOwnerAnnotations identity, a.1 ∉ annotations := by
  intro hnone
  have habsent := hnone (STORAGE_CLASS_NAMESPACE_ANNOTATION, identity.storageNamespace) (List.mem_cons_self ..)
  have hthere := h.storageNamespace
  rw [Finmap.lookup_eq_none.mpr habsent] at hthere
  cases hthere

/-- The canonical name, under which a class without annotations is accepted. -/
def legacyAllowed (identity : Identity) (allowLegacy : Option Bool) : Bool :=
  allowLegacy.getD (identity.storageClassName = STORAGE_CLASS_NAME_PREFIX ++ identity.name)

/-- **What is accepted.** -/
theorem validateStorageClassOwner_ok {c : StorageClass} {identity : Identity} {allowLegacy : Option Bool} :
    validateStorageClassOwner c identity allowLegacy = .ok () ↔ Own identity (legacyAllowed identity allowLegacy) c := by
  unfold validateStorageClassOwner
  dsimp only
  by_cases hform : c.name ≠ identity.storageClassName ∨ c.provisioner ≠ CSI_DRIVER_NAME ∨
      canonicalStorageClassParameters c.parameters ≠ canonicalStorageClassParameters identity.parameters
  · rw [if_pos hform]
    refine ⟨nofun, fun h => ?_⟩
    rcases hform with hn | hp | hc
    · exact absurd h.name hn
    · exact absurd h.provisioner hp
    · exact absurd h.parameters hc
  rw [if_neg hform]
  push Not at hform
  obtain ⟨hn, hp, hc⟩ := hform
  by_cases hnone : ∀ a ∈ storageClassOwnerAnnotations identity, a.1 ∉ c.annotations
  · rw [if_pos (by simpa using hnone)]
    cases hl : legacyAllowed identity allowLegacy with
    | true =>
      rw [show allowLegacy.getD _ = true from hl]
      exact ⟨fun _ => ⟨hn, hp, hc, .inr ⟨rfl, hnone⟩⟩, fun _ => rfl⟩
    | false =>
      rw [show allowLegacy.getD _ = false from hl]
      refine ⟨nofun, fun h => ?_⟩
      rcases h.owner with ha | ⟨hfalse, -⟩
      · exact absurd hnone ha.any
      · cases hfalse
  · rw [if_neg (by simpa using hnone)]
    constructor
    · intro h
      split at h
      · cases h
      split at h
      · cases h
      · exact ⟨hn, hp, hc, .inl (annotated_iff.mpr ⟨‹_›, ‹_›⟩)⟩
    · intro h
      rcases h.owner with ha | ⟨-, hall⟩
      · obtain ⟨hown, hdurable⟩ := annotated_iff.mp ha
        rw [if_neg hown, if_neg hdurable]
        rfl
      · exact absurd hall hnone

theorem lookup_fields (entries : List (String × String)) (key : String) :
    (fields entries).lookup key = entries.lookup key := by
  unfold fields
  rw [Finmap.dlookup_list_toFinmap]
  induction entries with
  | nil => rfl
  | cons e entries ih =>
    rw [List.map_cons, List.lookup_cons]
    by_cases hk : key = e.1
    · subst hk
      simp
    · rw [List.dlookup_cons_ne _ _ hk, ih, beq_false_of_ne hk]

/-- The class that a manifest makes is its owner's. -/
theorem own_classManifest {identity : Identity} {single allowLegacy : Bool} {reclaimPolicy : String} {c : StorageClass}
    (h : c.toManifest = classManifest identity identity.parameters single reclaimPolicy) : Own identity allowLegacy c := by
  have hannotations : c.annotations = fields (storageClassOwnerAnnotations identity) := congrArg Manifest.annotations h
  have hlook (key : String) : c.annotations.lookup key = (storageClassOwnerAnnotations identity).lookup key := by
    rw [hannotations, lookup_fields]
  refine ⟨congrArg Manifest.name h, congrArg Manifest.provisioner h, ?_, .inl ⟨hlook _, hlook _, fun _ => hlook _, ?_⟩⟩
  · rw [show c.parameters = identity.parameters from congrArg Manifest.parameters h]
  · intro a ha _ value hvalue
    rw [hlook] at hvalue
    simp only [durableAnnotations, List.mem_cons, List.not_mem_nil, or_false] at ha
    obtain rfl | rfl | rfl := ha <;> exact (Option.some.inj hvalue).symm

/-! ## The cluster -/

/-- What the operator does with the class of a pool. -/
inductive Operation where
  /-- `deploy_storage_class` -/
  | deploy (obj : KadaluStorage) (coreClient : Bool)
  /-- `handle_external_storage_addition` -/
  | deployExternal (data : PoolRecord)
  /-- `delete_storage_class` of a pool with a record -/
  | delete (data : PoolRecord)
  /-- `delete_storage_class` of a pool without one -/
  | deleteOrphan (hostvolName className : String) (expectedStorageUid : Option String)

/-- One request of an operation, and the classes just before and after it. -/
structure Moment where
  operation : Operation
  request : ClassRequest
  before : List StorageClass
  after : List StorageClass

/-- The StorageClasses, with every state that one of them ever had. -/
structure World where
  classes : List StorageClass
  seen : Set StorageClass
  /-- the records that the ConfigMap ever held, with the names of their entries -/
  stored : Set (String × PoolRecord)
  /-- the requests of the operator, the newest first -/
  log : List Moment := []
  classes_seen : ∀ c ∈ classes, c ∈ seen
  versioned : ∀ c ∈ seen, ∀ d ∈ seen, c.uid ≠ "" → c.resourceVersion ≠ "" → c.uid = d.uid →
    c.resourceVersion = d.resourceVersion → c = d

namespace World

variable {s s' t : World}

/-- More was seen. -/
structure Grown (s s' : World) : Prop where
  seen : s.seen ⊆ s'.seen
  stored : s.stored ⊆ s'.stored

theorem Grown.refl (s : World) : Grown s s := ⟨fun _ h => h, fun _ h => h⟩

theorem Grown.trans (h : Grown s s') (h' : Grown s' t) : Grown s t :=
  ⟨h.seen.trans h'.seen, h.stored.trans h'.stored⟩

/-- Others may change classes and records in any way. -/
structure Others (s t : World) : Prop extends Grown s t where
  log : t.log = s.log

/-- Nothing changes. -/
structure Same (s s' : World) : Prop extends Others s s' where
  classes : s'.classes = s.classes

/-- A deletion takes place: the class is gone, or has a finalizer and is still there, in another state. -/
structure Deletes (c : StorageClass) (s s' : World) : Prop extends Others s s' where
  mem : c ∈ s.classes
  rest : ∀ d ∈ s.classes, d ≠ c → d ∈ s'.classes

/-- A class is created under a free name. -/
structure Creates (manifest : Manifest) (s s' : World) : Prop extends Others s s' where
  free : ∀ c ∈ s.classes, c.name ≠ manifest.name
  classes : ∃ c : StorageClass, c.toManifest = manifest ∧ s'.classes = c :: s.classes

/-- What a request does. A request that raises may still have done its work. -/
def Does : (r : ClassRequest) → World → Except OpErr r.Answer → World → Prop
  | listClasses, s, a, s' => Same s s' ∧ ∀ classes, a = .ok classes → classes = s.classes
  | deleteClass name uid resourceVersion, s, a, s' =>
    (∃ c, c.name = name ∧ c.uid = uid ∧ c.resourceVersion = resourceVersion ∧ Deletes c s s') ∨
      (∃ e, a = .error e) ∧ Same s s'
  | createClass manifest, s, a, s' => Creates manifest s s' ∨ (∃ e, a = .error e) ∧ Same s s'
  | readEntry volname, s, a, s' => Same s s' ∧ ∀ data, a = .ok (some (.record data)) → (volname, data) ∈ s.stored
  | monotonic, s, _, s' => Same s s'
  | sleep, s, _, s' => Same s s'

/-- The world remembers a request. -/
def record (u : World) (moment : Moment) : World := { u with log := moment :: u.log }

/-- One request of an operation: others come first, and it is remembered. -/
def sem (operation : Operation) (r : ClassRequest) (s : World) (a : Except OpErr r.Answer) (s' : World) : Prop :=
  ∃ t u, Others s t ∧ Does r t a u ∧ s' = u.record ⟨operation, r, t.classes, u.classes⟩

end World

open World

/-! ## Operations -/

section

variable [ConfigHash] (NAMESPACE : String)

def Operation.run (fuel : Nat) : Operation → ClassProg Unit
  | deploy obj coreClient => deployStorageClass NAMESPACE fuel obj coreClient
  | deployExternal data => deployExternalStorageClass NAMESPACE fuel data
  | delete data => deleteStorageClass NAMESPACE fuel data
  | deleteOrphan hostvolName className uid => deleteOrphanStorageClass NAMESPACE fuel hostvolName className uid

/-- The operator at work: one operation after the other, whatever becomes of them, up to any moment of the last one. -/
inductive Working (fuel : Nat) : List Operation → World → World → Prop
  | start {s : World} : Working fuel [] s s
  | during {operation : Operation} {operations : List Operation} {p : ClassProg Unit} {s s' : World}
    (h : Exec (sem operation) (operation.run NAMESPACE fuel) s p s') : Working fuel (operation :: operations) s s'
  | ended {operation : Operation} {operations : List Operation} {p : ClassProg Unit} {s s' s'' : World}
    (h : Exec (sem operation) (operation.run NAMESPACE fuel) s p s') (hend : p.ended.isSome)
    (hrest : Working fuel operations s' s'') : Working fuel (operation :: operations) s s''

/-- The class is the one of the pool that the operation is for. -/
def Operation.Owns (stored : Set (String × PoolRecord)) (c : StorageClass) : Operation → Prop
  | deploy obj _ => ∃ identity, Own identity (legacyAllowed identity none) c ∧
      (identity = requestIdentity NAMESPACE obj ∨
        ∃ data, (obj.name, data) ∈ stored ∧ identity = recordIdentity NAMESPACE data)
  | deployExternal data => Own (recordIdentity NAMESPACE data) (legacyAllowed (recordIdentity NAMESPACE data) none) c
  | delete data => Own (recordIdentity NAMESPACE data) (legacyAllowed (recordIdentity NAMESPACE data) none) c
  | deleteOrphan hostvolName className uid => truthy uid = true ∧
      Own (orphanIdentity NAMESPACE hostvolName className (uid.getD "") c) false c

/-- A request leaves the class as it is, or deletes exactly this state of it for its operation, which owns the class. -/
def Spared (stored : Set (String × PoolRecord)) (moment : Moment) (c : StorageClass) : Prop :=
  c ∈ moment.after ∨ moment.request = deleteClass c.name c.uid c.resourceVersion ∧ c.uid ≠ "" ∧ c.resourceVersion ≠ "" ∧
    moment.operation.Owns NAMESPACE stored c

end

/-! ## Runs -/

section

variable [ConfigHash] {NAMESPACE : String} {operation : Operation} {stored stored' : Set (String × PoolRecord)}
  {c : StorageClass} {s₀ s s' t : World} {α β : Type}

theorem Operation.Owns.mono (hs : stored ⊆ stored') (h : operation.Owns NAMESPACE stored c) :
    operation.Owns NAMESPACE stored' c := by
  cases operation with
  | deploy obj coreClient =>
    obtain ⟨identity, hown, hid | ⟨data, hd, hid⟩⟩ := h
    · exact ⟨identity, hown, .inl hid⟩
    · exact ⟨identity, hown, .inr ⟨data, hs hd, hid⟩⟩
  | deployExternal data => exact h
  | delete data => exact h
  | deleteOrphan hostvolName className uid => exact h

theorem Spared.mono {moment : Moment} (hs : stored ⊆ stored') (h : Spared NAMESPACE stored moment c) :
    Spared NAMESPACE stored' moment c := by
  rcases h with h | ⟨hr, hu, hv, hown⟩
  · exact .inl h
  · exact .inr ⟨hr, hu, hv, hown.mono hs⟩

variable (NAMESPACE s₀) in
/-- Every request since the start has spared every class. -/
def AllSpared (s : World) : Prop :=
  ∀ m ∈ s.log, m ∈ s₀.log ∨ ∀ c ∈ m.before, Spared NAMESPACE s.stored m c

omit [ConfigHash] in
theorem sem_grown {r : ClassRequest} {a : Except OpErr r.Answer} (h : sem operation r s a s') : Grown s s' := by
  obtain ⟨t, u, ho, hd, rfl⟩ := h
  suffices h : Grown t u from ho.toGrown.trans ⟨h.seen, h.stored⟩
  cases r with
  | listClasses => exact hd.1.toGrown
  | readEntry volname => exact hd.1.toGrown
  | monotonic => exact hd.toOthers.toGrown
  | sleep => exact hd.toOthers.toGrown
  | deleteClass name uid version =>
    rcases hd with ⟨d, -, -, -, hd⟩ | ⟨-, hd⟩
    · exact hd.toGrown
    · exact hd.toGrown
  | createClass manifest =>
    rcases hd with hd | ⟨-, hd⟩
    · exact hd.toGrown
    · exact hd.toGrown

/-- **Step.** Every class is spared by a request, if a deletion is of a class that was seen and is owned. -/
theorem sem_allSpared {r : ClassRequest} {a : Except OpErr r.Answer}
    (hr : ∀ name uid version, r = deleteClass name uid version → uid ≠ "" ∧ version ≠ "" ∧
      ∃ c ∈ s.seen, c.uid = uid ∧ c.resourceVersion = version ∧ operation.Owns NAMESPACE s.stored c)
    (hs : AllSpared NAMESPACE s₀ s) (h : sem operation r s a s') : AllSpared NAMESPACE s₀ s' := by
  have hg := sem_grown h
  obtain ⟨t, u, ho, hd, rfl⟩ := h
  have hlog : u.log = s.log ∧ ∀ c ∈ t.classes, Spared NAMESPACE u.stored ⟨operation, r, t.classes, u.classes⟩ c := by
    have hsame (h : Same t u) : u.log = s.log ∧
        ∀ c ∈ t.classes, Spared NAMESPACE u.stored ⟨operation, r, t.classes, u.classes⟩ c :=
      ⟨h.log.trans ho.log, fun c hc => .inl (h.classes ▸ hc)⟩
    cases r with
    | listClasses => exact hsame hd.1
    | readEntry volname => exact hsame hd.1
    | monotonic => exact hsame hd
    | sleep => exact hsame hd
    | createClass manifest =>
      rcases hd with hd | ⟨-, hd⟩
      · refine ⟨hd.log.trans ho.log, fun c hc => .inl ?_⟩
        obtain ⟨d, -, heq⟩ := hd.classes
        exact heq ▸ List.mem_cons_of_mem d hc
      · exact hsame hd
    | deleteClass name uid version =>
      rcases hd with ⟨d, rfl, rfl, rfl, hd⟩ | ⟨-, hd⟩
      · refine ⟨hd.log.trans ho.log, fun c hc => ?_⟩
        by_cases hcd : c = d
        · obtain ⟨hu, hv, e, he, heu, hev, hown⟩ := hr _ _ _ rfl
          -- the class that is deleted is the one that was validated
          obtain rfl : d = e := t.versioned d (t.classes_seen d hd.mem) e (ho.seen he) hu hv heu.symm hev.symm
          subst hcd
          exact .inr ⟨rfl, hu, hv, hown.mono hg.stored⟩
        · exact .inl (hd.rest c hc hcd)
      · exact hsame hd
  intro m hm
  rcases List.mem_cons.mp hm with rfl | hm
  · exact .inr hlog.2
  · rcases hs m (hlog.1 ▸ hm) with h | h
    · exact .inl h
    · exact .inr fun c hc => (h c hc).mono hg.stored

variable (NAMESPACE operation s₀) in
/-- From `s` every class is spared, and a result satisfies `P`. -/
def Runs (p : ClassProg α) (s : World) (P : α → World → Prop) : Prop :=
  AllSpared NAMESPACE s₀ s →
    wp (sem operation) (AllSpared NAMESPACE s₀)
      (fun a t => AllSpared NAMESPACE s₀ t ∧ Grown s t ∧ ∀ r, a = .ok r → P r t) p s

variable {p : ClassProg α} {g : α → ClassProg β} {P P' : α → World → Prop} {Q : β → World → Prop}

theorem runs_pure {a : α} (h : P a s) : Runs NAMESPACE operation s₀ (pure a) s P :=
  fun hs => wp_pure ⟨hs, .refl s, by rintro r ⟨⟩; exact h⟩

theorem runs_throw (e : OpErr) : Runs NAMESPACE operation s₀ (throw e : ClassProg α) s P :=
  fun hs => wp_throw ⟨hs, .refl s, nofun⟩

theorem runs_ofExcept {r : Except OpErr α} (h : ∀ a, r = .ok a → P a s) :
    Runs NAMESPACE operation s₀ (Prog.ofExcept r) s P :=
  fun hs => wp_ofExcept.mpr ⟨hs, .refl s, h⟩

theorem runs_ite {c : Prop} [Decidable c] {q : ClassProg α} (hp : c → Runs NAMESPACE operation s₀ p s P)
    (hq : ¬c → Runs NAMESPACE operation s₀ q s P) : Runs NAMESPACE operation s₀ (if c then p else q) s P :=
  fun hs => wp_ite (fun h => hp h hs) fun h => hq h hs

theorem runs_bind (h : Runs NAMESPACE operation s₀ p s P)
    (hg : ∀ a t, Grown s t → P a t → Runs NAMESPACE operation s₀ (g a) t Q) :
    Runs NAMESPACE operation s₀ (p >>= g) s Q := by
  intro hs
  refine wp_bind (wp_mono (fun a t ⟨ht, hst, ha⟩ => ?_) (h hs))
  cases a with
  | ok a => exact wp_mono (fun _ u ⟨hu, htu, hb⟩ => ⟨hu, hst.trans htu, hb⟩) (hg a t hst (ha a rfl) ht)
  | error e => exact ⟨ht, hst, nofun⟩

theorem runs_tryCatch {h : OpErr → ClassProg α} (hp : Runs NAMESPACE operation s₀ p s P)
    (hh : ∀ e t, Grown s t → Runs NAMESPACE operation s₀ (h e) t P) :
    Runs NAMESPACE operation s₀ (tryCatch p h) s P := by
  intro hs
  refine wp_tryCatch (wp_mono (fun a t ⟨ht, hst, ha⟩ => ?_) (hp hs))
  cases a with
  | ok a => exact ⟨ht, hst, ha⟩
  | error e => exact wp_mono (fun _ u ⟨hu, htu, hb⟩ => ⟨hu, hst.trans htu, hb⟩) (hh e t hst ht)

/-- A request that is no deletion. -/
theorem runs_ask {r : ClassRequest} {P : r.Answer → World → Prop} (hr : ∀ name uid version, r ≠ deleteClass name uid version)
    (h : ∀ b s', sem operation r s (.ok b) s' → P b s') : Runs NAMESPACE operation s₀ (ask r) s P := by
  intro hs
  refine wp_request fun a s' hsem => ?_
  have hs' := sem_allSpared (fun name uid version heq => absurd heq (hr name uid version)) hs hsem
  refine ⟨hs', hs', sem_grown hsem, ?_⟩
  rintro b rfl
  exact h b s' hsem

/-- The deletion of a class that was seen and is owned. -/
theorem runs_deleteClass {name : String} (hu : c.uid ≠ "") (hv : c.resourceVersion ≠ "") (hc : c ∈ s.seen)
    (hown : operation.Owns NAMESPACE s.stored c) :
    Runs NAMESPACE operation s₀ (ask (deleteClass name c.uid c.resourceVersion)) s fun _ _ => True := by
  intro hs
  refine wp_request fun a s' hsem => ?_
  have hs' := sem_allSpared (by rintro _ _ _ ⟨⟩; exact ⟨hu, hv, c, hc, rfl, rfl, hown⟩) hs hsem
  exact ⟨hs', hs', sem_grown hsem, fun _ _ => trivial⟩

theorem runs_validate (c : StorageClass) (identity : Identity) (allowLegacy : Option Bool) :
    Runs NAMESPACE operation s₀ (Prog.ofExcept (validateStorageClassOwner c identity allowLegacy)) s
      fun _ _ => Own identity (legacyAllowed identity allowLegacy) c :=
  runs_ofExcept fun _ h => validateStorageClassOwner_ok.mp h

/-! ## The functions -/

theorem existingStorageClass_runs (name : String) :
    Runs NAMESPACE operation s₀ (existingStorageClass name) s fun r t => ∀ c, r = some c → c ∈ t.seen := by
  refine runs_bind (P := fun (classes : List StorageClass) t => ∀ c ∈ classes, c ∈ t.seen) (runs_ask nofun ?_) fun classes t _ hseen => runs_pure ?_
  · rintro classes s' ⟨t, u, -, ⟨hsame, hans⟩, rfl⟩ c hc
    rw [hans classes rfl] at hc
    exact hsame.seen (t.classes_seen c hc)
  · intro c hc
    exact hseen c (List.mem_of_find?_eq_some hc)

theorem ownedStorageClasses_runs (identity : Identity) :
    Runs NAMESPACE operation s₀ (ownedStorageClasses identity) s fun _ _ => True :=
  runs_bind (P := fun _ _ => True) (runs_ask nofun fun _ _ _ => trivial) fun _ _ _ _ => runs_pure trivial

theorem preflightStorageClassOwner_runs (identity : Identity) :
    Runs NAMESPACE operation s₀ (preflightStorageClassOwner identity) s fun _ _ => True := by
  refine runs_bind (ownedStorageClasses_runs identity) fun owned t _ _ => ?_
  split
  · exact runs_throw _
  refine runs_bind (P := fun _ _ => True) ?_ fun _ t _ _ => ?_
  · unfold preflightCanonicalClass
    dsimp only
    split
    · exact runs_pure trivial
    · refine runs_bind (existingStorageClass_runs _) fun canonicalClass t _ _ => ?_
      cases canonicalClass with
      | none => exact runs_pure trivial
      | some c => exact runs_bind (runs_ofExcept (P := fun _ _ => True) fun _ _ => trivial) fun _ _ _ _ => runs_throw _
  · refine runs_bind (existingStorageClass_runs _) fun installed t _ _ => ?_
    cases installed with
    | none => exact runs_pure trivial
    | some c => exact runs_ofExcept fun _ _ => trivial

theorem awaitDeletion_runs (name uid : String) (deadline : Int) (fuel : Nat) (s : World) :
    Runs NAMESPACE operation s₀ (awaitDeletion name uid deadline fuel) s fun _ _ => True := by
  induction fuel generalizing s with
  | zero => exact fun _ => trivial
  | succ fuel ih =>
    refine runs_bind (existingStorageClass_runs name) fun current t _ _ => ?_
    cases current with
    | none => exact runs_pure trivial
    | some c =>
      dsimp only
      split
      · exact runs_throw _
      split
      · exact runs_throw _
      refine runs_bind (P := fun _ _ => True) (runs_ask nofun fun _ _ _ => trivial) fun now t _ _ => ?_
      split
      · exact runs_throw _
      · exact runs_bind (P := fun _ _ => True) (runs_ask nofun fun _ _ _ => trivial) fun _ t _ _ => ih t

/-- The operator deletes a class that it has seen and owns. -/
theorem deleteStorageClassPreconditioned_runs (fuel : Nat) (name : String) (hc : c ∈ s.seen)
    (hown : operation.Owns NAMESPACE s.stored c) :
    Runs NAMESPACE operation s₀ (deleteStorageClassPreconditioned fuel c name) s fun _ _ => True := by
  unfold deleteStorageClassPreconditioned
  split
  · exact runs_throw _
  split
  · exact runs_throw _
  refine runs_bind (P := fun _ _ => True) (runs_tryCatch (runs_deleteClass ‹_› ‹_› hc hown) fun e t _ => ?_) fun _ t _ _ => ?_
  · split
    · exact runs_pure trivial
    · exact runs_throw _
  · exact runs_bind (P := fun _ _ => True) (runs_ask nofun fun _ _ _ => trivial) fun now t _ _ => awaitDeletion_runs _ _ _ _ _

/-- A class is replaced only if it is owned. -/
theorem reconcileStorageClassManifest_runs (fuel : Nat) (manifest : Manifest) (name reclaimPolicy : String) (identity : Identity)
    (hown : ∀ c, Own identity (legacyAllowed identity none) c → operation.Owns NAMESPACE s.stored c) :
    Runs NAMESPACE operation s₀ (reconcileStorageClassManifest fuel manifest name reclaimPolicy identity) s
      fun _ _ => True := by
  have hcreate (t : World) : Runs NAMESPACE operation s₀ (ask (createClass manifest)) t fun _ _ => True :=
    runs_ask nofun fun _ _ _ => trivial
  refine runs_bind (existingStorageClass_runs name) fun existing t hst hseen => ?_
  cases existing with
  | none => exact hcreate t
  | some c =>
    refine runs_bind (runs_validate _ _ _) fun _ u htu hval => runs_ite (fun _ => ?_) fun _ => ?_
    · exact runs_bind (deleteStorageClassPreconditioned_runs fuel name (htu.seen (hseen c rfl))
        ((hown c hval).mono (hst.trans htu).stored)) fun _ v _ _ => hcreate v
    · exact runs_pure trivial

theorem deployedIdentity_runs (obj : KadaluStorage) (coreClient : Bool) :
    Runs NAMESPACE operation s₀ (deployedIdentity NAMESPACE obj coreClient) s fun identity t =>
      identity = requestIdentity NAMESPACE obj ∨
        ∃ data, (obj.name, data) ∈ t.stored ∧ identity = recordIdentity NAMESPACE data := by
  unfold deployedIdentity
  split
  · exact runs_pure (.inl rfl)
  refine runs_bind (P := fun entry t => ∀ data, entry = some (.record data) → (obj.name, data) ∈ t.stored)
    (runs_ask nofun ?_) fun entry t _ hentry => ?_
  · rintro entry s' ⟨t, u, -, ⟨hsame, hans⟩, rfl⟩ data rfl
    exact hsame.stored (hans data rfl)
  · match entry with
    | none => exact runs_pure (.inl rfl)
    | some .malformed => exact runs_throw _
    | some (.record data) => exact runs_pure (.inr ⟨data, hentry data rfl, rfl⟩)

/-- **Each operation** spares the classes. -/
theorem Operation.run_runs (fuel : Nat) :
    Runs NAMESPACE operation s₀ (operation.run NAMESPACE fuel) s fun _ _ => True := by
  cases operation with
  | deploy obj coreClient =>
    refine runs_bind (deployedIdentity_runs obj coreClient) fun identity t _ hid => ?_
    refine runs_bind (preflightStorageClassOwner_runs identity) fun _ u htu _ => ?_
    refine reconcileStorageClassManifest_runs fuel _ _ _ identity fun c hc => ⟨identity, hc, ?_⟩
    rcases hid with hid | ⟨data, hd, hid⟩
    · exact .inl hid
    · exact .inr ⟨data, htu.stored hd, hid⟩
  | deployExternal data =>
    refine runs_bind (preflightStorageClassOwner_runs _) fun _ u _ _ => ?_
    exact reconcileStorageClassManifest_runs fuel _ _ _ _ fun c hc => hc
  | delete data =>
    refine runs_bind (existingStorageClass_runs _) fun installed t _ hseen => ?_
    cases installed with
    | none => exact runs_pure trivial
    | some c =>
      refine runs_bind (runs_validate _ _ _) fun _ u htu hval => ?_
      exact deleteStorageClassPreconditioned_runs fuel _ (htu.seen (hseen c rfl)) hval
  | deleteOrphan hostvolName className uid =>
    refine runs_bind (existingStorageClass_runs _) fun installed t _ hseen => ?_
    cases installed with
    | none => exact runs_pure trivial
    | some c =>
      dsimp only
      split
      · exact runs_throw _
      refine runs_bind (runs_validate _ _ _) fun _ u htu hval => ?_
      exact deleteStorageClassPreconditioned_runs fuel _ (htu.seen (hseen c rfl))
        ⟨by simpa using ‹¬(!truthy uid) = true›, hval⟩

/-- **One operation after the other.** -/
theorem Working.spares {fuel : Nat} {operations : List Operation} (h : Working NAMESPACE fuel operations s s')
    (hs : AllSpared NAMESPACE s₀ s) : AllSpared NAMESPACE s₀ s' := by
  induction h with
  | start => exact hs
  | during h => exact (wp_exec hs (Operation.run_runs fuel hs) h).1
  | ended h _ _ ih => exact ih (wp_exec hs (Operation.run_runs fuel hs) h).1

/-- **Only the own classes.** In every run of the operator, whatever others do in between, every request spares every class: it
leaves the class as it is, or is the deletion of exactly this UID and `resourceVersion` by an operation that owns it. -/
theorem only_own_classes {fuel : Nat} {operations : List Operation} (h : Working NAMESPACE fuel operations s s') :
    ∀ m ∈ s'.log, m ∈ s.log ∨ ∀ c ∈ m.before, Spared NAMESPACE s'.stored m c :=
  h.spares fun _ hm => .inl hm

end

/-! ## A class that is left over -/

/-- The digests play no part in the deletion of a class without a record. -/
abbrev noDigests : ConfigHash where
  mountDigest _ := ""
  backendDigest _ := ""

attribute [local instance] noDigests

def sampleUid : String := "1f0e2b52-6c1d-4c5e-9d5b-0c2b6a1f3c44"

/-- The class of the pool `a`. -/
def sampleClass : StorageClass where
  name := "kadalu.a"
  provisioner := "kadalu"
  parameters := nativeParameters "a" false
  annotations := fields [("kadalu.io/storage-namespace", "kadalu"), ("kadalu.io/storage-name", "a"),
    ("kadalu.io/storage-uid", sampleUid)]
  reclaimPolicy := some "Delete"
  allowVolumeExpansion := some true
  uid := "9b2d7c1e-52a6-4a5b-8f51-3f0de7a9c001"
  resourceVersion := "1042"

def sampleWorld : World where
  classes := [sampleClass]
  seen := {sampleClass}
  stored := ∅
  classes_seen := by simp
  versioned := by
    rintro c rfl d rfl - - - -
    rfl

/-- The world without a class. -/
def World.without (s : World) (c : StorageClass) : World where
  classes := s.classes.filter (· ≠ c)
  seen := s.seen
  stored := s.stored
  log := s.log
  classes_seen := fun d hd => s.classes_seen d (List.mem_of_mem_filter hd)
  versioned := s.versioned

/-- The answers of a cluster in which nobody else is at work. -/
def done : (r : ClassRequest) → World → Except OpErr r.Answer × World
  | listClasses, s => (.ok s.classes, s)
  | deleteClass name uid resourceVersion, s =>
    match s.classes.find? fun c => c.name = name && c.uid = uid && c.resourceVersion = resourceVersion with
    | some c => (.ok (), s.without c)
    | none => (.error (.api (some 409)), s)
  | createClass _, s => (.error .other, s)
  | readEntry _, s => (.ok none, s)
  | monotonic, s => (.ok (0 : Int), s)
  | sleep, s => (.ok (), s)

def answer (operation : Operation) (r : ClassRequest) (s : World) : Except OpErr r.Answer × World :=
  ((done r s).1, (done r s).2.record ⟨operation, r, s.classes, (done r s).2.classes⟩)

theorem answer_sem (operation : Operation) (r : ClassRequest) (s : World) :
    sem operation r s (answer operation r s).1 (answer operation r s).2 := by
  refine ⟨s, (done r s).2, ⟨.refl s, rfl⟩, ?_, rfl⟩
  have hsame : Same s s := ⟨⟨.refl s, rfl⟩, rfl⟩
  cases r with
  | listClasses => exact ⟨hsame, by rintro classes ⟨⟩; rfl⟩
  | createClass manifest => exact .inr ⟨⟨_, rfl⟩, hsame⟩
  | readEntry volname => exact ⟨hsame, by rintro data ⟨⟩⟩
  | monotonic => exact hsame
  | sleep => exact hsame
  | deleteClass name uid version =>
    cases hf : s.classes.find? fun c => c.name = name && c.uid = uid && c.resourceVersion = version with
    | none =>
      refine .inr ?_
      simp only [answer, done, hf]
      exact ⟨⟨_, rfl⟩, hsame⟩
    | some c =>
      have hc := List.find?_some hf
      simp only [Bool.and_eq_true, decide_eq_true_eq] at hc
      refine .inl ⟨c, hc.1.1, hc.1.2, hc.2, ?_⟩
      simp only [done, hf]
      exact ⟨⟨⟨fun _ h => h, fun _ h => h⟩, rfl⟩, List.mem_of_find?_eq_some hf,
        fun d hd hne => List.mem_filter.mpr ⟨hd, decide_eq_true hne⟩⟩

def sampleOperation : Operation := .deleteOrphan "a" "kadalu.a" (some sampleUid)

/-- A run in which the operator deletes the class. -/
def sampleRun : ClassProg Unit × World :=
  replay (answer sampleOperation) 4 (sampleOperation.run "kadalu" 1) sampleWorld

/-- The class is deleted, and it was the pool's. -/
theorem sampleRun_own : sampleRun.2.classes = [] ∧
    ∀ m ∈ sampleRun.2.log, m ∈ sampleWorld.log ∨ ∀ c ∈ m.before, Spared "kadalu" sampleRun.2.stored m c := by
  have hrun : Working "kadalu" 1 [sampleOperation] sampleWorld sampleRun.2 :=
    .during (exec_replay (answer_sem sampleOperation) 4 _ sampleWorld)
  exact ⟨by decide +kernel, only_own_classes hrun⟩

end Kadalu.StorageClasses
