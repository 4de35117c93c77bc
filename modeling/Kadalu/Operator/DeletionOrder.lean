import Kadalu.Operator.Deletion
import Kadalu.Operator.World
import Kadalu.Operator.PolicyOrder

/-!
# Deletion of a pool against racing provisioning

Nothing of a pool is destroyed before, in this order, its record was seen or written with its tombstone, its volumes were
counted as none, and its record was read again as the same one (`Confirmed`), and only under the fence (`Justified`).
`deletion_ordered`: this holds of every request of `handleDeleted`, whatever others do in between.
-/

namespace Kadalu.Operator.Deletion

open Calls Calls.Prog

/-! ## What must have happened -/

/-- The record of the pool has its tombstone. -/
def Disabled (volname : String) (entries : Entries) : Prop :=
  ∃ data, entries.lookup volname = some (.record data) ∧ data.deletion.provisioningDisabled = some true

/-- The moment is a read that shows this record of the pool. -/
def Shows (volname : String) (data : PoolRecord) (m : Moment) : Prop :=
  ∃ config : ConfigMap, m.event = ⟨.readConfigMap, .ok config⟩ ∧ m.before = config.data ∧ m.after = m.before ∧
    config.decoded volname = some data

/-- The identity of a pool apart from what its deletion adds to its record. -/
def pool (identity : DeletionIdentity) : DeletionIdentity :=
  { identity with storageUid := none, deletionCleanupOnly := none, deletionQuarantined := none }

/-- The request destroys something of a pool. -/
def Destroys (m : Moment) : Prop :=
  match m.event.1 with
  | .deleteServer _ | .deleteService _ => True
  | .patchConfigMap patch _ => patch.removed.isSome
  | _ => False

/-- The request keeps the tombstones of all pools, but for the record of this pool if that is removed. -/
def KeepsTombstones (volname : String) (m : Moment) : Prop :=
  ∀ w, Disabled w m.before → Disabled w m.after ∨ w = volname ∧ Destroys m ∧ m.after.lookup w = none

/-- The request concerns this record. -/
def ActsOn (volname : String) (m : Moment) (data : PoolRecord) : Prop :=
  match m.event.1 with
  | .deleteServer name => ∃ brick ∈ data.bricks.getD [], name = getBrickHostname volname (brick.brickIndex.getD 0).toNat
  | .deleteService name => name = volname
  | .patchConfigMap patch _ =>
    patch.removed = some volname ∧ (m.after ≠ m.before → m.before.lookup volname = some (.record data))
  | _ => True

/-- The snapshot of the record that the deletion started with: its caller's, or else the first that it read. -/
def Snapshot (volname : String) (q : DeletionRequest) (snapshot : PoolRecord) (l : List Moment) : Prop :=
  q.storageInfo = some snapshot ∨ q.storageInfo = none ∧ ∃ m ∈ l, Shows volname snapshot m

section

variable [ConfigHash]

/-- A record with this identity had its tombstone in the cluster. -/
def Tombstoned (volname : String) (identity : DeletionIdentity) (l : List Moment) : Prop :=
  ∃ m ∈ l, ∃ data, m.after.lookup volname = some (.record data) ∧ data.deletion.provisioningDisabled = some true ∧
    deletionRecordIdentity data = identity

/-- After that its volumes were counted, and there was none. -/
def CountedZero (volname : String) (identity : DeletionIdentity) (l : List Moment) : Prop :=
  ∃ m l', m :: l' <:+ l ∧ (∃ pvs, m.event = ⟨.listPersistentVolumes, .ok pvs⟩ ∧
    poolPersistentVolumes pvs volname identity.storageClassName = []) ∧ Tombstoned volname identity l'

/-- After that its record was read again, and the deleted CR owns it. -/
structure Confirmed (obj : DeletedStorage) (data : PoolRecord) (l : List Moment) : Prop where
  owned : truthy data.storageUid = true ∧ (truthy obj.uid = true → data.storageUid = obj.uid)
  shown : ∃ m l', m :: l' <:+ l ∧ Shows obj.name data m ∧ CountedZero obj.name (deletionRecordIdentity data) l'

/-- Why the request may destroy something. -/
structure Justified (obj : DeletedStorage) (q : DeletionRequest) (m : Moment) (l : List Moment) : Prop where
  fenced : m.fenced = true
  confirmed : ∃ snapshot data, Snapshot obj.name q snapshot l ∧
    pool (deletionRecordIdentity data) = pool (deletionRecordIdentity snapshot) ∧ Confirmed obj data l ∧
    ActsOn obj.name m data

/-- Every destructive request of a log was justified by what came before it, and none clears a tombstone. -/
def Ordered (obj : DeletedStorage) (q : DeletionRequest) (log : List Moment) : Prop :=
  ∀ m l, m :: l <:+ log → (Destroys m → Justified obj q m l) ∧ KeepsTombstones obj.name m

variable {obj : DeletedStorage} {q : DeletionRequest} {l l' : List Moment} {m : Moment} {data : PoolRecord}
  {volname : String} {identity : DeletionIdentity}

omit [ConfigHash] in
theorem Snapshot.mono (h : Snapshot volname q data l) (hl : l <:+ l') : Snapshot volname q data l' := by
  rcases h with h | ⟨h, m, hm, hs⟩
  · exact .inl h
  · exact .inr ⟨h, m, hl.subset hm, hs⟩

theorem Tombstoned.mono (h : Tombstoned volname identity l) (hl : l <:+ l') : Tombstoned volname identity l' := by
  obtain ⟨m, hm, h⟩ := h
  exact ⟨m, hl.subset hm, h⟩

theorem CountedZero.mono (h : CountedZero volname identity l) (hl : l <:+ l') : CountedZero volname identity l' := by
  obtain ⟨m, l₀, hsuff, h⟩ := h
  exact ⟨m, l₀, hsuff.trans hl, h⟩

theorem Confirmed.mono (h : Confirmed obj data l) (hl : l <:+ l') : Confirmed obj data l' := by
  obtain ⟨m, l₀, hsuff, h'⟩ := h.shown
  exact ⟨h.owned, m, l₀, hsuff.trans hl, h'⟩

omit [ConfigHash] in
theorem Shows.lookup (h : Shows volname data m) : m.after.lookup volname = some (.record data) := by
  obtain ⟨config, -, hb, ha, hd⟩ := h
  rw [ha, hb]
  unfold ConfigMap.decoded at hd
  cases hl : config.data.lookup volname with
  | none => rw [hl] at hd; cases hd
  | some serialized =>
    rw [hl] at hd
    cases serialized with
    | malformed => cases hd
    | record d => cases hd; rfl

theorem ordered_cons (h : Ordered obj q l) (hm : Destroys m → Justified obj q m l) (hk : KeepsTombstones obj.name m) :
    Ordered obj q (m :: l) := by
  intro m' l' hsuff
  rcases List.suffix_cons_iff.mp hsuff with heq | hsuff
  · obtain ⟨rfl, rfl⟩ := List.cons.inj heq
    exact ⟨hm, hk⟩
  · exact h m' l' hsuff

omit [ConfigHash] in
theorem keepsTombstones_same (h : m.after = m.before) : KeepsTombstones volname m := by
  intro w hw
  rw [h]
  exact .inl hw

/-! ## Parts of a run -/

/-- What a part of the handler leaves: an ordered log, the fence if there was one, everything that was logged, and what is
known of the ConfigMap. -/
structure Onward (obj : DeletedStorage) (q : DeletionRequest) (s t : World) : Prop where
  ordered : Ordered obj q t.log
  fenced : s.fenced = true → t.fenced = true
  log : s.log <:+ t.log
  read : ∀ config, World.ReadAt config s → World.ReadAt config t

/-- The program goes onward, and ends in `Q`. -/
def Leads {α : Type} (obj : DeletedStorage) (q : DeletionRequest) (Q : Except OpErr α → World → Prop) (p : PoolHandler α)
    (s : World) : Prop :=
  Ordered obj q s.log →
    wp World.sem (fun t => Ordered obj q t.log) (fun r t => Onward obj q s t ∧ Q r t) p s

variable {s t u : World} {α β : Type} {Q : Except OpErr α → World → Prop} {P : Except OpErr β → World → Prop}

theorem Onward.refl (h : Ordered obj q s.log) : Onward obj q s s :=
  ⟨h, id, List.suffix_refl _, fun _ h => h⟩

theorem Onward.trans (h : Onward obj q s t) (h' : Onward obj q t u) : Onward obj q s u :=
  ⟨h'.ordered, fun hf => h'.fenced (h.fenced hf), h.log.trans h'.log, fun c hc => h'.read c (h.read c hc)⟩

theorem leads_pure {a : α} (h : Q (.ok a) s) : Leads obj q Q (pure a) s := fun hs => ⟨.refl hs, h⟩

theorem leads_throw {e : OpErr} (h : Q (.error e) s) : Leads obj q Q (throw e) s := fun hs => ⟨.refl hs, h⟩

theorem leads_ofExcept {r : Except OpErr α} (h : Q r s) : Leads obj q Q (Prog.ofExcept r) s :=
  fun hs => wp_ofExcept.mpr ⟨.refl hs, h⟩

theorem leads_bind {p : PoolHandler β} {g : β → PoolHandler α} (hp : Leads obj q P p s)
    (hg : ∀ a t, Onward obj q s t → P (.ok a) t → Leads obj q Q (g a) t)
    (he : ∀ e t, Onward obj q s t → P (.error e) t → Q (.error e) t) : Leads obj q Q (p >>= g) s := by
  intro hs
  refine wp_bind (wp_mono ?_ (hp hs))
  rintro r t ⟨ht, hP⟩
  cases r with
  | error e => exact ⟨ht, he e t ht hP⟩
  | ok a =>
    refine wp_mono ?_ (hg a t ht hP ht.ordered)
    rintro r u ⟨hu, hQ⟩
    exact ⟨ht.trans hu, hQ⟩

theorem leads_tryCatch {p : PoolHandler α} {g : OpErr → PoolHandler α} {R : Except OpErr α → World → Prop}
    (hp : Leads obj q R p s) (ha : ∀ a t, Onward obj q s t → R (.ok a) t → Q (.ok a) t)
    (hg : ∀ e t, Onward obj q s t → R (.error e) t → Leads obj q Q (g e) t) : Leads obj q Q (tryCatch p g) s := by
  intro hs
  refine wp_tryCatch (wp_mono ?_ (hp hs))
  rintro r t ⟨ht, hR⟩
  cases r with
  | ok a => exact ⟨ht, ha a t ht hR⟩
  | error e =>
    refine wp_mono ?_ (hg e t ht hR ht.ordered)
    rintro r u ⟨hu, hQ⟩
    exact ⟨ht.trans hu, hQ⟩

theorem leads_ite {c : Prop} [Decidable c] {p p' : PoolHandler α} (hp : c → Leads obj q Q p s)
    (hp' : ¬c → Leads obj q Q p' s) : Leads obj q Q (if c then p else p') s := by
  split
  · exact hp ‹_›
  · exact hp' ‹_›

/-! ## Requests -/

/-- A request that neither writes records nor destroys nor scales. -/
def Harmless (r : Call) : Prop :=
  World.Quiet r ∧ (∀ n, r ≠ .setReplicas n) ∧ (∀ name, r ≠ .deleteServer name) ∧ ∀ name, r ≠ .deleteService name

omit [ConfigHash] in
theorem Harmless.spares {r : Call} (h : Harmless r) (he : m.event.1 = r) : ¬Destroys m := by
  unfold Destroys
  rw [he]
  cases r with
  | patchConfigMap patch version => exact h.1.elim
  | deleteServer name => exact absurd rfl (h.2.2.1 name)
  | deleteService name => exact absurd rfl (h.2.2.2 name)
  | _ => exact id

theorem leads_harmless {r : Call} {Q : Except OpErr r.Answer → World → Prop} (hr : Harmless r)
    (hQ : ∀ a t, World.sem r s a t → Q a t) : Leads obj q Q (request r) s := by
  refine fun hs => wp_request fun a t hsem => ?_
  obtain ⟨m, hm, hlog, hsame, -⟩ := World.sem_quiet hr.1 hsem
  have hord : Ordered obj q t.log := by
    rw [hlog]
    exact ordered_cons hs (fun h => absurd h (hr.spares (by rw [hm]))) (keepsTombstones_same hsame)
  refine ⟨hord, ⟨hord, World.sem_fenced hr.2.1 hsem, ?_, fun _ h => h.sem hsem⟩, hQ a t hsem⟩
  rw [hlog]
  exact List.suffix_cons _ _

/-- A read of the ConfigMap. -/
theorem leads_readConfig : Leads obj q (fun r t => ∀ config, r = .ok config → World.ReadAt config t ∧
    ∃ m, t.log = m :: s.log ∧ m.event = ⟨.readConfigMap, .ok config⟩ ∧ m.before = config.data ∧ m.after = m.before)
    Call.readConfig s := by
  refine leads_harmless ⟨trivial, nofun, nofun, nofun⟩ fun a t hsem config hc => ?_
  subst hc
  obtain ⟨m, hm, hlog, hsame, hread⟩ := World.sem_read hsem
  exact ⟨(hread config rfl).2, m, hlog, hm, (hread config rfl).1, hsame⟩

omit [ConfigHash] in
theorem deletionInfo_some {config : ConfigMap} (h : config.deletionInfo volname = .ok (some data)) :
    config.decoded volname = some data := by
  unfold ConfigMap.deletionInfo at h
  unfold ConfigMap.decoded
  cases hl : config.data.lookup volname with
  | none => rw [hl] at h; cases h
  | some serialized =>
    rw [hl] at h
    cases serialized with
    | malformed => cases h
    | record d => cases h; rfl

theorem leads_readInfo : Leads obj q (fun r t => ∀ data, r = .ok (some data) →
    ∃ m, t.log = m :: s.log ∧ Shows volname data m) (readDeletionStorageInfo volname) s := by
  refine leads_bind leads_readConfig (fun config t _ hread => leads_ofExcept fun data hd => ?_)
    fun e t _ _ _ h => nomatch h
  obtain ⟨-, m, hlog, hm, hb, ha⟩ := hread config rfl
  exact ⟨m, hlog, config, hm, hb, ha, deletionInfo_some hd⟩

/-- A count of the volumes. -/
theorem leads_getNumPvs : Leads obj q (fun r t => r = .ok 0 → ∃ m, t.log = m :: s.log ∧
    ∃ pvs, m.event = ⟨.listPersistentVolumes, .ok pvs⟩ ∧
      poolPersistentVolumes pvs (data.volname.getD "") data.className = []) (getNumPvs data) s := by
  have hlist : Leads obj q (fun r t => ∀ pvs, r = .ok pvs → ∃ m, t.log = m :: s.log ∧
      m.event = ⟨.listPersistentVolumes, .ok pvs⟩) Call.listPvs s := by
    refine leads_harmless ⟨trivial, nofun, nofun, nofun⟩ fun a t hsem pvs hp => ?_
    subst hp
    obtain ⟨m, hm, hlog⟩ := World.sem_log hsem
    exact ⟨m, hlog, hm⟩
  refine leads_bind hlist (fun pvs t _ h => leads_pure fun hz => ?_) fun e t _ _ => nofun
  obtain ⟨m, hlog, hm⟩ := h pvs rfl
  refine ⟨m, hlog, pvs, hm, List.length_eq_zero_iff.mp ?_⟩
  have := Except.ok.inj hz
  exact Int.ofNat_eq_zero.mp this

/-! ## Validated records -/

theorem storedIdentity_volname (h : validateStoredPoolIdentity volname data = .ok ()) : data.volname = some volname := by
  unfold validateStoredPoolIdentity at h
  by_contra hne
  rw [if_pos hne] at h
  cases h

theorem storedIdentity_cleanup (h : validateStoredPoolIdentity volname data = .ok ())
    (hc : storageRecordCleanupOnly data = true) : data.deletion.provisioningDisabled = some true := by
  unfold storageRecordCleanupOnly at hc
  simp only [Bool.or_eq_true, decide_eq_true_eq, Bool.and_eq_true] at hc
  rcases hc with hc | hc
  · -- the validation demands the tombstone of a cleanup-only record
    by_contra hne
    unfold validateStoredPoolIdentity at h
    simp only [hc, hne, ne_eq, not_false_eq_true, decide_true, Bool.or_true, Bool.and_true, if_true] at h
    split at h
    · cases h
    · split at h
      · cases h
      · split at h <;> cases h
  · exact hc.1

omit [ConfigHash] in
theorem owner_ok (h : validateDeletionRecordOwner obj data = .ok ()) :
    truthy data.storageUid = true ∧ (truthy obj.uid = true → data.storageUid = obj.uid) := by
  unfold validateDeletionRecordOwner at h
  split at h
  · cases h
  · next ht =>
    split at h
    · cases h
    · next hu =>
      refine ⟨by simpa using ht, fun hobj => ?_⟩
      by_contra hne
      exact hu (by simpa [hobj] using Ne.symm hne)

theorem snapshot_ok {expected : PoolRecord} (h : validateDeletionSnapshot obj expected data = .ok ()) :
    validateStoredPoolIdentity obj.name data = .ok () ∧
      (truthy data.storageUid = true ∧ (truthy obj.uid = true → data.storageUid = obj.uid)) ∧
      deletionRecordIdentity data = deletionRecordIdentity expected := by
  unfold validateDeletionSnapshot at h
  obtain ⟨u, hstored, h⟩ := Except.bind_ok.mp h
  obtain ⟨u, howner, h⟩ := Except.bind_ok.mp h
  obtain ⟨u, hid, -⟩ := Except.bind_ok.mp hstored
  refine ⟨hid, owner_ok howner, ?_⟩
  by_contra hne
  rw [if_pos hne] at h
  cases h

/-! ## The tombstone -/

omit [ConfigHash] in
theorem disabled_insert {entries : Entries} {w : String} {x : Serialized} (hx : ∃ d, x = .record d ∧
    d.deletion.provisioningDisabled = some true) {after : Entries}
    (ha : ∀ w, after.lookup w = if w = volname then some x else entries.lookup w) (h : Disabled w entries) :
    Disabled w after := by
  obtain ⟨d, rfl, hd⟩ := hx
  by_cases hw : w = volname
  · exact ⟨d, by rw [ha w, if_pos hw], hd⟩
  · obtain ⟨d', hl, hd'⟩ := h
    exact ⟨d', by rw [ha w, if_neg hw, hl], hd'⟩

/-- A write of the ConfigMap that keeps the tombstones. -/
theorem leads_patch {config : ConfigMap} {patch : Patch} (hread : World.ReadAt config s) (hr : patch.removed = none)
    (hkeep : ∀ w, Disabled w config.data → Disabled w (patch.apply config.data)) :
    Leads obj q (fun r t => r = .ok () → ∃ m, t.log = m :: s.log ∧ m.after = patch.apply config.data)
      (Call.patchConfig patch config.resourceVersion) s := by
  refine fun hs => wp_request fun a t hsem => ?_
  obtain ⟨m, hm, hlog, -, hw⟩ := World.sem_patch hread hsem
  have hord : Ordered obj q t.log := by
    rw [hlog]
    refine ordered_cons hs (fun h => ?_) ?_
    · unfold Destroys at h
      rw [hm] at h
      simp [hr] at h
    · rcases hw with ⟨hsame, -⟩ | ⟨hb, ha⟩
      · exact keepsTombstones_same hsame
      · intro w hd
        rw [hb] at hd
        rw [ha]
        exact .inl (hkeep w hd)
  refine ⟨hord, ⟨hord, World.sem_fenced (fun _ h => by cases h) hsem, hlog ▸ List.suffix_cons _ _, fun _ h => h.sem hsem⟩, fun ha => ⟨m, hlog, ?_⟩⟩
  rcases hw with ⟨-, hne⟩ | ⟨-, ha'⟩
  · exact absurd ha hne
  · exact ha'

/-- The record of a pool in its tombstone: it was there, and it is the pool of the snapshot. -/
structure Sealed (obj : DeletedStorage) (snapshot data : PoolRecord) (l : List Moment) : Prop where
  tombstoned : Tombstoned obj.name (deletionRecordIdentity data) l
  volname : data.volname = some obj.name
  pool : pool (deletionRecordIdentity data) = pool (deletionRecordIdentity snapshot)

variable {snapshot : PoolRecord}

theorem Sealed.mono (h : Sealed obj snapshot data l) (hl : l <:+ l') : Sealed obj snapshot data l' :=
  ⟨h.tombstoned.mono hl, h.volname, h.pool⟩

omit [ConfigHash] in
theorem disabled_of_flags (h : (data.deletion.provisioningDisabled = some true && data.deletion.deletionCleanupOnly =
    some true) = true) : data.deletion.provisioningDisabled = some true := by
  simp only [Bool.and_eq_true, decide_eq_true_eq] at h
  exact h.1

theorem leads_disable {expected : PoolRecord}
    (hp : pool (deletionRecordIdentity expected) = pool (deletionRecordIdentity snapshot)) :
    Leads obj q (fun r t => ∀ data, r = .ok data → Sealed obj snapshot data t.log)
      (disablePoolProvisioning obj.name expected) s := by
  refine leads_bind leads_readConfig (fun config t _ hread => ?_) fun e t _ _ _ h => nomatch h
  obtain ⟨hat, m, hlog, hm, hb, ha⟩ := hread config rfl
  cases hdec : config.decoded obj.name with
  | none => exact leads_throw fun _ h => nomatch h
  | some record =>
    refine leads_bind (P := fun r u => u.log = t.log ∧ r = validateDisabled obj.name expected record)
      (leads_ofExcept ⟨rfl, rfl⟩) (fun _ u hu hv => ?_) fun e t _ _ _ h => nomatch h
    obtain ⟨hul, hvalid⟩ := hv
    have hat := hu.read config hat
    obtain ⟨_, hid, hsame⟩ := Except.bind_ok.mp hvalid.symm
    have hident : deletionRecordIdentity record = deletionRecordIdentity expected := by
      by_contra hne
      rw [if_pos hne] at hsame
      cases hsame
    have hvol := storedIdentity_volname hid
    refine leads_ite (fun hflags => leads_pure fun d hd => ?_) fun _ => ?_
    · cases hd
      refine ⟨⟨m, ?_, record, Shows.lookup ⟨config, hm, hb, ha, hdec⟩, disabled_of_flags hflags, rfl⟩, hvol, ?_⟩
      · rw [hul, hlog]
        exact List.mem_cons_self
      · rw [hident, hp]
    · refine leads_bind (leads_patch hat rfl fun w hw => ?_) (fun _ v _ hv => leads_pure fun d hd => ?_)
        fun e t _ _ _ h => nomatch h
      · exact disabled_insert ⟨record.disabled, rfl, rfl⟩ (fun w => Patch.lookup_insert) hw
      · cases hd
        obtain ⟨m', hlog', ha'⟩ := hv rfl
        refine ⟨⟨m', ?_, record.disabled, ?_, rfl, rfl⟩, hvol, ?_⟩
        · rw [hlog']
          exact List.mem_cons_self
        · rw [ha', Patch.lookup_insert, if_pos rfl]
        · rw [← hp, ← hident]
          rfl

/-- What is found under the fence: a pool that goes on to be removed has its tombstone. -/
def Found (obj : DeletedStorage) (snapshot : PoolRecord) : FencedRecord → List Moment → Prop
  | .absent _, _ => True
  | .preserved data, _ => pool (deletionRecordIdentity data) = pool (deletionRecordIdentity snapshot)
  | .tombstoned data, l => Sealed obj snapshot data l

theorem leads_authoritative (hp : pool (deletionRecordIdentity data) = pool (deletionRecordIdentity snapshot)) :
    Leads obj q (fun r t => ∀ found, r = .ok found → Found obj snapshot found t.log) (authoritativeRecord obj q data) s := by
  refine leads_bind leads_readInfo (fun info t _ hread => ?_) fun e t _ _ _ h => nomatch h
  cases info with
  | none => exact leads_pure fun _ h => by cases h; trivial
  | some current =>
    obtain ⟨m, hlog, hshow⟩ := hread current rfl
    refine leads_bind (P := fun r u => u.log = t.log ∧ r = validateDeletionSnapshot obj data current)
      (leads_ofExcept ⟨rfl, rfl⟩) (fun _ u _ hu => ?_) fun e t _ _ _ h => nomatch h
    obtain ⟨hul, hvalid⟩ := hu
    obtain ⟨hid, -, hident⟩ := snapshot_ok hvalid.symm
    have hcurrent : pool (deletionRecordIdentity current) = pool (deletionRecordIdentity snapshot) := by
      rw [hident, hp]
    refine leads_ite (fun _ => leads_ite (fun _ => leads_throw fun _ h => nomatch h) fun _ =>
      leads_pure fun _ h => ?_) fun _ => leads_ite (fun hclean => leads_pure fun _ h => ?_) fun _ => ?_
    · cases h
      exact hcurrent
    · cases h
      refine ⟨⟨m, ?_, current, hshow.lookup, storedIdentity_cleanup hid hclean, rfl⟩, storedIdentity_volname hid,
        hcurrent⟩
      rw [hul, hlog]
      exact List.mem_cons_self
    · refine leads_bind (leads_disable hcurrent) (fun d v _ hd => leads_pure fun _ h => ?_)
        fun e t _ _ _ h => nomatch h
      cases h
      exact hd d rfl

/-! ## The removal -/

/-- The count and the last read of a sealed pool. -/
theorem Sealed.confirmed {latest : PoolRecord} {m : Moment} (h : CountedZero obj.name (deletionRecordIdentity data) l)
    (hv : validateDeletionSnapshot obj data latest = .ok ()) (hs : Shows obj.name latest m) (hm : m :: l <:+ l') :
    Confirmed obj latest l' := by
  obtain ⟨-, howned, hident⟩ := snapshot_ok hv
  refine ⟨howned, m, l, hm, hs, ?_⟩
  rw [hident]
  exact h

/-- A destructive request that is not a write of the ConfigMap. -/
theorem leads_destroy {r : Call} {Q : Except OpErr r.Answer → World → Prop} (hquiet : World.Quiet r)
    (hscale : ∀ n, r ≠ .setReplicas n) (hf : s.fenced = true) (hj : ∀ m, m.event.1 = r → m.fenced = true →
      Justified obj q m s.log) (hQ : ∀ a t, Q a t) : Leads obj q Q (request r) s := by
  refine fun hs => wp_request fun a t hsem => ?_
  obtain ⟨m, hm, hlog, hsame, hfm⟩ := World.sem_quiet hquiet hsem
  have hord : Ordered obj q t.log := by
    rw [hlog]
    exact ordered_cons hs (fun _ => hj m (by rw [hm]) (hfm hf)) (keepsTombstones_same hsame)
  exact ⟨hord, ⟨hord, World.sem_fenced hscale hsem, hlog ▸ List.suffix_cons _ _, fun _ h => h.sem hsem⟩, hQ a t⟩

/-- A removal is under way: the snapshot is known, and its record is confirmed. -/
structure Removing (obj : DeletedStorage) (q : DeletionRequest) (snapshot data : PoolRecord) (s : World) : Prop where
  fenced : s.fenced = true
  started : Snapshot obj.name q snapshot s.log
  pool : pool (deletionRecordIdentity data) = pool (deletionRecordIdentity snapshot)
  confirmed : Confirmed obj data s.log

theorem Removing.onward (h : Removing obj q snapshot data s) (ht : Onward obj q s t) : Removing obj q snapshot data t :=
  ⟨ht.fenced h.fenced, h.started.mono ht.log, h.pool, h.confirmed.mono ht.log⟩

theorem leads_deleteServerPods : ∀ {bricks : List PoolBrick} {s : World}, (∀ b ∈ bricks, b ∈ data.bricks.getD []) →
    Removing obj q snapshot data s → Leads obj q (fun _ _ => True) (deleteServerPods obj.name bricks) s
  | [], _, _, _ => leads_pure trivial
  | brick :: bricks, s, hb, h => by
    obtain ⟨hbrick, hb⟩ := List.forall_mem_cons.mp hb
    refine leads_bind (P := fun _ _ => True) (leads_destroy trivial nofun h.fenced (fun m hm hf => ?_) fun _ _ => trivial)
      (fun _ t ht _ => leads_deleteServerPods hb (h.onward ht)) fun _ _ _ _ => trivial
    refine ⟨hf, snapshot, data, h.started, h.pool, h.confirmed, ?_⟩
    unfold ActsOn
    rw [hm]
    exact ⟨brick, hbrick, rfl⟩

theorem leads_deletePoolServers {type : Option String} (h : Removing obj q snapshot data s) :
    Leads obj q (fun _ _ => True) (deletePoolServers obj.name type data) s := by
  refine leads_ite (fun _ => leads_pure trivial) fun _ => leads_bind (leads_deleteServerPods (fun _ h => h) h)
    (fun _ t ht _ => ?_) fun _ _ _ _ => trivial
  have h := h.onward ht
  refine leads_destroy trivial nofun h.fenced (fun m hm hf => ?_) fun _ _ => trivial
  refine ⟨hf, snapshot, data, h.started, h.pool, h.confirmed, ?_⟩
  unfold ActsOn
  rw [hm]

/-- The removal of the record: its patch finds the record that was confirmed. -/
theorem leads_removeRecord {config : ConfigMap} (h : Removing obj q snapshot data s) (hread : World.ReadAt config s)
    (hd : config.decoded obj.name = some data) :
    Leads obj q (fun _ _ => True) (Call.patchConfig { data := config.data, removed := some obj.name }
      config.resourceVersion) s := by
  refine fun hs => wp_request fun a t hsem => ?_
  obtain ⟨m, hm, hlog, hfm, hw⟩ := World.sem_patch hread hsem
  have hacts : ActsOn obj.name m data := by
    unfold ActsOn
    rw [hm]
    refine ⟨rfl, fun hne => ?_⟩
    rcases hw with ⟨hsame, -⟩ | ⟨hb, -⟩
    · exact absurd hsame hne
    · exact Shows.lookup (m := ⟨⟨.readConfigMap, .ok config⟩, m.before, m.before, true⟩) ⟨config, rfl, hb, rfl, hd⟩
  have hkeeps : KeepsTombstones obj.name m := by
    rcases hw with ⟨hsame, -⟩ | ⟨hb, ha⟩
    · exact keepsTombstones_same hsame
    · intro w hdis
      by_cases hwv : w = obj.name
      · refine .inr ⟨hwv, ?_, by rw [ha, Patch.lookup_removed, if_pos hwv]⟩
        unfold Destroys
        rw [hm]
        rfl
      · obtain ⟨d, hl, hd⟩ := hdis
        rw [hb] at hl
        exact .inl ⟨d, by rw [ha, Patch.lookup_removed, if_neg hwv, hl], hd⟩
  have hord : Ordered obj q t.log := by
    rw [hlog]
    exact ordered_cons hs (fun _ => ⟨hfm h.fenced, snapshot, data, h.started, h.pool, h.confirmed, hacts⟩) hkeeps
  exact ⟨hord, ⟨hord, World.sem_fenced (fun _ h => by cases h) hsem, hlog ▸ List.suffix_cons _ _, fun _ h => h.sem hsem⟩, trivial⟩

theorem leads_deleteConfigMap (h : Removing obj q snapshot data s) (hcount : CountedZero obj.name
    (deletionRecordIdentity data) s.log) : Leads obj q (fun _ _ => True) (deleteConfigMap obj data) s := by
  refine leads_bind leads_readConfig (fun config t ht hread => ?_) fun _ _ _ _ => trivial
  obtain ⟨hat, m, hlog, hm, hb, ha⟩ := hread config rfl
  cases hdec : config.decoded obj.name with
  | none => exact leads_throw trivial
  | some current =>
    refine leads_bind (P := fun r u => u.log = t.log ∧ r = validateDeletionSnapshot obj data current)
      (leads_ofExcept ⟨rfl, rfl⟩) (fun _ u hu hv => ?_) fun _ _ _ _ => trivial
    obtain ⟨hul, hvalid⟩ := hv
    have hat := hu.read config hat
    have h := (h.onward ht).onward hu
    have hremoving : Removing obj q snapshot current u := by
      refine ⟨h.fenced, h.started, ?_, ?_⟩
      · rw [(snapshot_ok hvalid.symm).2.2, h.pool]
      exact Sealed.confirmed hcount hvalid.symm ⟨config, hm, hb, ha, hdec⟩ ((hul.trans hlog) ▸ List.suffix_refl _)
    exact leads_removeRecord hremoving hat hdec

theorem leads_removePool (hf : s.fenced = true) (hs : Snapshot obj.name q snapshot s.log)
    (h : Sealed obj snapshot data s.log) : Leads obj q (fun _ _ => True) (removePool obj data) s := by
  refine leads_bind leads_getNumPvs (fun n t ht hcount => ?_) fun _ _ _ _ => trivial
  refine leads_ite (fun _ => leads_pure trivial) fun _ => leads_ite (fun _ => leads_pure trivial) fun hz => ?_
  have hzero : n = 0 := by simpa using hz
  subst hzero
  obtain ⟨m, hlog, pvs, hm, hnone⟩ := hcount rfl
  have hcounted : CountedZero obj.name (deletionRecordIdentity data) t.log := by
    refine ⟨m, s.log, hlog ▸ List.suffix_refl _, ⟨pvs, hm, ?_⟩, h.tombstoned⟩
    rw [h.volname] at hnone
    exact hnone
  refine leads_bind leads_readInfo (fun info u hu hread => ?_) fun _ _ _ _ => trivial
  cases info with
  | none => exact leads_pure trivial
  | some latest =>
    obtain ⟨m', hlog', hshow⟩ := hread latest rfl
    refine leads_bind (P := fun r v => v.log = u.log ∧ r = validateDeletionSnapshot obj data latest)
      (leads_ofExcept ⟨rfl, rfl⟩) (fun _ v hv hvalid => ?_) fun _ _ _ _ => trivial
    obtain ⟨hvl, hvalid⟩ := hvalid
    have hident := (snapshot_ok hvalid.symm).2.2
    have hafter := (ht.trans hu).trans hv
    have hremoving : Removing obj q snapshot latest v := by
      refine ⟨hafter.fenced hf, hs.mono hafter.log, by rw [hident, h.pool], ?_⟩
      exact Sealed.confirmed hcounted hvalid.symm hshow ((hvl.trans hlog') ▸ List.suffix_refl _)
    refine leads_bind (leads_deletePoolServers hremoving) (fun _ w hw _ => ?_) fun _ _ _ _ => trivial
    refine leads_bind (leads_deleteConfigMap (hremoving.onward hw) ?_) (fun _ _ _ _ => leads_pure trivial)
      fun _ _ _ _ => trivial
    rw [hident]
    exact hcounted.mono ((hu.trans hv).trans hw).log

/-- Requests that only look, in a part of the run where nothing is known. -/
theorem leads_look {r : Call} (hr : Harmless r) : Leads obj q (fun _ _ => True) (request r) s :=
  leads_harmless hr fun _ _ _ => trivial

theorem leads_retireClass : Leads obj q (fun _ _ => True) (retireClass data) s := by
  refine leads_tryCatch (R := fun _ _ => True) (leads_bind (leads_look ⟨trivial, nofun, nofun, nofun⟩)
    (fun _ _ _ _ => leads_pure trivial) fun _ _ _ _ => trivial) (fun _ _ _ _ => trivial) fun e t _ _ => ?_
  exact leads_ite (fun _ => leads_pure trivial) fun _ => leads_throw trivial

theorem leads_finishDeletion {found : FencedRecord} (hf : s.fenced = true) (hs : Snapshot obj.name q snapshot s.log)
    (h : Found obj snapshot found s.log) : Leads obj q (fun _ _ => True) (finishDeletion obj found) s := by
  cases found with
  | absent data =>
    exact leads_bind (leads_look ⟨trivial, nofun, nofun, nofun⟩) (fun _ _ _ _ => leads_pure trivial)
      fun _ _ _ _ => trivial
  | preserved data =>
    refine leads_ite (fun _ => leads_pure trivial) fun _ => ?_
    exact leads_bind (leads_disable h) (fun _ _ _ _ => leads_pure trivial) fun _ _ _ _ => trivial
  | tombstoned data =>
    refine leads_bind leads_retireClass (fun retired t ht _ => leads_ite (fun _ => ?_) fun _ => leads_pure trivial)
      fun _ _ _ _ => trivial
    exact leads_removePool (ht.fenced hf) (hs.mono ht.log) (h.mono ht.log)

/-! ## Records without an owner -/

omit [ConfigHash] in
theorem pool_sealed [ConfigHash] {uid : Option String} {owned : Bool} :
    pool (deletionRecordIdentity (data.sealed uid owned)) = pool (deletionRecordIdentity data) := by
  cases owned <;> rfl

omit [ConfigHash] in
theorem sealed_disabled {uid : Option String} {owned : Bool} :
    (data.sealed uid owned).deletion.provisioningDisabled = some true := by
  cases owned <;> rfl

/-- A replacement of one entry of the ConfigMap by a record with its tombstone. -/
theorem leads_replace {config : ConfigMap} (hread : World.ReadAt config s)
    (hd : data.deletion.provisioningDisabled = some true) :
    Leads obj q (fun _ _ => True) (Call.replaceConfig (config.data.insert volname (.record data)) config.resourceVersion)
      s := by
  refine fun hs => wp_request fun a t hsem => ?_
  obtain ⟨m, hm, hlog, hw⟩ := World.sem_replace hread hsem
  have hord : Ordered obj q t.log := by
    rw [hlog]
    refine ordered_cons hs (fun h => ?_) ?_
    · unfold Destroys at h
      rw [hm] at h
      exact h.elim
    · rcases hw with ⟨hsame, -⟩ | ⟨hb, ha⟩
      · exact keepsTombstones_same hsame
      · have hlook : ∀ w, m.after.lookup w = if w = volname then some (.record data) else config.data.lookup w := by
          intro w
          rw [ha]
          by_cases hw : w = volname
          · rw [if_pos hw, hw, AList.lookup_insert]
          · rw [if_neg hw, AList.lookup_insert_ne hw]
        intro w hdis
        rw [hb] at hdis
        exact .inl (disabled_insert ⟨data, rfl, hd⟩ hlook hdis)
  exact ⟨hord, ⟨hord, World.sem_fenced (fun _ h => by cases h) hsem, hlog ▸ List.suffix_cons _ _,
    fun _ h => h.sem hsem⟩, trivial⟩

theorem leads_writeSealed {config : ConfigMap} {current updated : PoolRecord} (hread : World.ReadAt config s)
    (hd : updated.deletion.provisioningDisabled = some true) :
    Leads obj q (fun r _ => ∀ d, r = .ok d → d = updated) (writeSealed obj config current updated) s := by
  have hwrite : Leads obj q (fun _ _ => True) (replaceSealed obj config current updated) s :=
    leads_ite (fun _ => leads_pure trivial) fun _ => leads_replace hread hd
  refine leads_bind hwrite (fun _ _ _ _ => ?_) fun _ _ _ _ _ h => nomatch h
  refine leads_bind leads_readInfo (fun info _ _ _ => ?_) fun _ _ _ _ _ h => nomatch h
  exact leads_ite (fun _ => leads_throw fun _ h => nomatch h) fun _ => leads_pure fun _ h => (Except.ok.inj h).symm

theorem leads_validateOwner {name : String} {uid volumeId : Option String} :
    Leads obj q (fun _ _ => True) (validateStorageRecordOwner name uid volumeId data) s := by
  refine leads_ite (fun _ => leads_pure trivial) fun _ => leads_ite (fun _ => ?_) fun _ => leads_ite (fun _ => ?_) fun _ => ?_
  · exact leads_ite (fun _ => leads_throw trivial) fun _ => leads_pure trivial
  · exact leads_pure trivial
  · have hpredates : Leads obj q (fun _ _ => True) (legacyCrPredates name volumeId) s :=
      leads_ite (fun _ => leads_look ⟨trivial, nofun, nofun, nofun⟩) fun _ => leads_pure trivial
    refine leads_bind hpredates (fun predates _ _ _ => ?_) fun _ _ _ _ => trivial
    exact leads_ite (fun _ => leads_pure trivial) fun _ => leads_throw trivial

theorem leads_verifyLegacy {hasStorageClient : Bool} :
    Leads obj q (fun _ _ => True) (verifyLegacyDeletionResource hasStorageClient obj data) s := by
  refine leads_ite (fun _ => leads_throw trivial) fun _ => ?_
  refine leads_bind (P := fun _ _ => True) (leads_tryCatch (R := fun _ _ => True) ?_ (fun _ _ _ _ => trivial) fun e t _ _ => ?_)
    (fun current _ _ _ => ?_) fun _ _ _ _ => trivial
  · exact leads_bind (leads_look ⟨trivial, nofun, nofun, nofun⟩) (fun _ _ _ _ => leads_pure trivial) fun _ _ _ _ => trivial
  · exact leads_ite (fun _ => leads_throw trivial) fun _ => leads_ite (fun _ => leads_throw trivial) fun _ => leads_pure trivial
  · cases current with
    | none => exact leads_pure trivial
    | some current =>
      refine leads_ite (fun _ => leads_pure trivial) fun _ => leads_ite (fun _ => leads_throw trivial) fun _ => ?_
      refine leads_ite (fun _ => leads_pure trivial) fun _ => leads_ite (fun _ => leads_throw trivial) fun _ => ?_
      exact leads_validateOwner

theorem leads_cleanupOwned {uid : Option String} {quarantine : Bool} :
    Leads obj q (fun _ _ => True) (cleanupOwned obj data uid quarantine) s := by
  refine leads_ite (fun _ => leads_pure trivial) fun _ => leads_ite (fun _ => leads_throw trivial) fun _ => ?_
  refine leads_tryCatch (R := fun _ _ => True) (leads_bind (leads_look ⟨trivial, nofun, nofun, nofun⟩)
    (fun _ _ _ _ => leads_pure trivial) fun _ _ _ _ => trivial) (fun _ _ _ _ => trivial) fun e t _ _ => ?_
  cases e with
  | runtime msg => exact leads_pure trivial
  | _ => exact leads_throw trivial

/-- The sealed record is the pool of the snapshot. -/
theorem leads_seal {hasStorageClient quarantine : Bool} {uid : Option String} :
    Leads obj q (fun r _ => ∀ d, r = .ok d → pool (deletionRecordIdentity d.1) = pool (deletionRecordIdentity data))
      (sealLegacyDeletionRecord hasStorageClient obj data uid quarantine) s := by
  refine leads_ite (fun _ => leads_throw fun _ h => nomatch h) fun _ => ?_
  refine leads_bind leads_verifyLegacy (fun _ _ _ _ => ?_) fun _ _ _ _ _ h => nomatch h
  refine leads_bind leads_readConfig (fun config t _ hread => ?_) fun _ _ _ _ _ h => nomatch h
  obtain ⟨hat, -⟩ := hread config rfl
  refine leads_ite (fun _ => leads_throw fun _ h => nomatch h) fun _ => ?_
  cases config.decoded obj.name with
  | none => exact leads_throw fun _ h => nomatch h
  | some current =>
    refine leads_bind (P := fun r _ => r = validateSealed obj.name data current) (leads_ofExcept rfl)
      (fun _ u hu hvalid => ?_) fun _ _ _ _ _ h => nomatch h
    have hsame : current = data := by
      obtain ⟨_, -, h⟩ := Except.bind_ok.mp hvalid.symm
      by_contra hne
      rw [if_pos hne] at h
      cases h
    refine leads_bind leads_getNumPvs (fun n v hv _ => ?_) fun _ _ _ _ _ h => nomatch h
    refine leads_ite (fun _ => leads_throw fun _ h => nomatch h) fun _ => ?_
    refine leads_bind leads_cleanupOwned (fun owned w hw _ => ?_) fun _ _ _ _ _ h => nomatch h
    refine leads_bind (leads_writeSealed (((hu.trans hv).trans hw).read config hat) sealed_disabled)
      (fun d _ _ hd => leads_pure fun _ h => ?_) fun _ _ _ _ _ h => nomatch h
    cases h
    rw [hd d rfl, pool_sealed, hsame]

theorem leads_legacyDeletion (hf : s.fenced = true) (hs : Snapshot obj.name q snapshot s.log)
    (hp : pool (deletionRecordIdentity data) = pool (deletionRecordIdentity snapshot)) :
    Leads obj q (fun _ _ => True) (legacyDeletion obj q data) s := by
  refine leads_bind leads_seal (fun sealedRecord t ht hsealed => ?_) fun _ _ _ _ => trivial
  obtain ⟨confirmed, owned⟩ := sealedRecord
  refine leads_ite (fun _ => leads_pure trivial) fun _ => ?_
  refine leads_bind (P := fun _ _ => True) (leads_ofExcept trivial) (fun _ u hu _ => ?_) fun _ _ _ _ => trivial
  have hpool := (hsealed _ rfl).trans hp
  refine leads_bind (leads_authoritative hpool) (fun found v hv hfound => ?_) fun _ _ _ _ => trivial
  have hafter := (ht.trans hu).trans hv
  exact leads_finishDeletion (hafter.fenced hf) (hs.mono hafter.log) (hfound found rfl)

/-! ## The fence -/

/-- The world comes after these requests. -/
structure Past (obj : DeletedStorage) (q : DeletionRequest) (l : List Moment) (s : World) : Prop where
  ordered : Ordered obj q s.log
  log : l <:+ s.log

/-- A request that is neither a write nor destructive, whatever it does to the fence. -/
theorem wp_past {r : Call} {Q : Except OpErr r.Answer → World → Prop} (hq : World.Quiet r)
    (hd : ∀ m : Moment, m.event.1 = r → ¬Destroys m) (hs : Past obj q l s)
    (hQ : ∀ a t, World.sem r s a t → Past obj q l t → Q a t) :
    wp World.sem (fun t => Ordered obj q t.log) Q (request r) s := by
  refine wp_request fun a t hsem => ?_
  obtain ⟨m, hm, hlog, hsame, -⟩ := World.sem_quiet hq hsem
  have hord : Ordered obj q t.log := by
    rw [hlog]
    exact ordered_cons hs.ordered (fun h => absurd h (hd m (by rw [hm]))) (keepsTombstones_same hsame)
  refine ⟨hord, hQ a t hsem ⟨hord, hs.log.trans ?_⟩⟩
  rw [hlog]
  exact List.suffix_cons _ _

theorem wp_past_look {r : Call} {Q : Except OpErr r.Answer → World → Prop} (hr : Harmless r) (hs : Past obj q l s)
    (hQ : ∀ a t, World.sem r s a t → Past obj q l t → Q a t) :
    wp World.sem (fun t => Ordered obj q t.log) Q (request r) s :=
  wp_past hr.1 (fun _ hm => hr.spares hm) hs hQ

/-- The wait ends under the fence. -/
theorem wp_quiesceRounds {deadline : Int} {fuel : Nat} (hs : Past obj q l s) (hr : s.replicas = 0) :
    wp World.sem (fun t => Ordered obj q t.log) (fun r t => Past obj q l t ∧ (r = .ok () → t.fenced = true))
      (quiesceRounds deadline fuel) s := by
  induction fuel generalizing s with
  | zero => trivial
  | succ fuel ih =>
    refine wp_bind (wp_past_look ⟨trivial, nofun, nofun, nofun⟩ hs fun a t hsem ht => ?_)
    have hrt : t.replicas = 0 := (World.sem_replicas (fun _ h => by cases h) hsem).trans hr
    cases a with
    | error e => exact ⟨ht, nofun⟩
    | ok pods =>
      refine wp_ite (fun hnone => ⟨ht, fun _ => World.fenced_iff.mpr ⟨hrt, ?_⟩⟩) fun _ => ?_
      · rw [World.sem_pods hsem]
        exact hnone
      · refine wp_bind (wp_past_look ⟨trivial, nofun, nofun, nofun⟩ ht fun a u hsem hu => ?_)
        have hru := (World.sem_replicas (fun _ h => by cases h) hsem).trans hrt
        cases a with
        | error e => exact ⟨hu, nofun⟩
        | ok now =>
          refine wp_ite (fun _ => ⟨hu, nofun⟩) fun _ => ?_
          refine wp_bind (wp_past_look ⟨trivial, nofun, nofun, nofun⟩ hu fun a v hsem hv => ?_)
          have hrv := (World.sem_replicas (fun _ h => by cases h) hsem).trans hru
          cases a with
          | error e => exact ⟨hv, nofun⟩
          | ok _ => exact ih hv hrv

theorem wp_quiesce {fuel : Nat} (hs : Past obj q l s) :
    wp World.sem (fun t => Ordered obj q t.log) (fun r t => Past obj q l t ∧ (r = .ok () → t.fenced = true))
      (quiesceCsiProvisioner fuel) s := by
  have hscale : wp World.sem (fun t => Ordered obj q t.log)
      (fun r t => Past obj q l t ∧ (r = .ok () → t.replicas = 0))
      (tryCatch (request (Call.setReplicas 0)) fun e => if e.notFound then pure () else throw e) s := by
    refine wp_tryCatch (wp_past trivial (fun m hm h => ?_) hs fun a t hsem ht => ?_)
    · unfold Destroys at h
      rw [hm] at h
      exact h
    · cases a with
      | ok _ => exact ⟨ht, fun _ => World.sem_scaled hsem (.inl rfl)⟩
      | error e =>
        refine wp_ite (fun hnf => ⟨ht, fun _ => World.sem_scaled hsem (.inr ?_)⟩) fun _ => ⟨ht, nofun⟩
        cases e with
        | api status =>
          rw [show status = some 404 by simpa [OpErr.notFound] using hnf]
          rfl
        | _ => cases hnf
  refine wp_bind (wp_mono ?_ hscale)
  rintro r t ⟨ht, hr⟩
  cases r with
  | error e => exact ⟨ht, nofun⟩
  | ok _ =>
    refine wp_bind (wp_past_look ⟨trivial, nofun, nofun, nofun⟩ ht fun a u hsem hu => ?_)
    cases a with
    | error e => exact ⟨hu, nofun⟩
    | ok now => exact wp_quiesceRounds hu ((World.sem_replicas (fun _ h => by cases h) hsem).trans (hr rfl))

theorem wp_fence {fuel : Nat} (hs : Past obj q l s) :
    wp World.sem (fun t => Ordered obj q t.log) (fun r t => Past obj q l t ∧ (r = .ok () → t.fenced = true))
      (fence fuel) s := by
  refine wp_bind (wp_past_look ⟨trivial, nofun, nofun, nofun⟩ hs fun a t _ ht => ?_)
  cases a with
  | error e => exact ⟨ht, nofun⟩
  | ok _ => exact wp_quiesce ht

theorem wp_provisionerRounds {deadline : Int} {fuel : Nat} (hs : Past obj q l s) :
    wp World.sem (fun t => Ordered obj q t.log) (fun _ t => Past obj q l t) (provisionerRounds deadline fuel) s := by
  induction fuel generalizing s with
  | zero => trivial
  | succ fuel ih =>
    refine wp_bind (wp_past_look ⟨trivial, nofun, nofun, nofun⟩ hs fun a t _ ht => ?_)
    cases a with
    | error e => exact ht
    | ok statefulSet =>
      refine wp_ite (fun _ => ht) fun _ => wp_bind (wp_past_look ⟨trivial, nofun, nofun, nofun⟩ ht fun a u _ hu => ?_)
      cases a with
      | error e => exact hu
      | ok now =>
        refine wp_ite (fun _ => hu) fun _ => wp_bind (wp_past_look ⟨trivial, nofun, nofun, nofun⟩ hu fun a v _ hv => ?_)
        cases a with
        | error e => exact hv
        | ok _ => exact ih hv

theorem wp_unfence {fuel : Nat} {succeeded : Bool} (hs : Past obj q l s) :
    wp World.sem (fun t => Ordered obj q t.log) (fun _ t => Past obj q l t) (unfence fuel succeeded) s := by
  have hbody : wp World.sem (fun t => Ordered obj q t.log) (fun _ t => Past obj q l t)
      (do
        resumeCsiProvisioner
        waitForCsiProvisionerRollout fuel
        if succeeded then request Call.markReady) s := by
    refine wp_bind (wp_past trivial (fun m hm h => ?_) hs fun a t _ ht => ?_)
    · unfold Destroys at h
      rw [hm] at h
      exact h
    · cases a with
      | error e => exact ht
      | ok _ =>
        have hwait : wp World.sem (fun t => Ordered obj q t.log) (fun _ t => Past obj q l t)
            (waitForCsiProvisionerRollout fuel) t := by
          refine wp_bind (wp_past_look ⟨trivial, nofun, nofun, nofun⟩ ht fun a u _ hu => ?_)
          cases a with
          | error e => exact hu
          | ok now => exact wp_provisionerRounds hu
        refine wp_bind (wp_mono ?_ hwait)
        rintro r u hu
        cases r with
        | error e => exact hu
        | ok _ =>
          exact wp_ite (fun _ => wp_past_look ⟨trivial, nofun, nofun, nofun⟩ hu fun _ _ _ h => h) fun _ => hu
  refine wp_tryCatch (wp_mono ?_ hbody)
  rintro r t ht
  cases r with
  | ok _ => exact ht
  | error e =>
    refine wp_bind (wp_mono ?_ (wp_fence ht))
    rintro r u ⟨hu, -⟩
    cases r with
    | error e => exact hu
    | ok _ => exact hu

/-- The provisioner may come back after a body that goes onward. -/
theorem wp_restoring {fuel : Nat} {ownsFence : Bool} {body : PoolHandler Bool} (hs : Past obj q l s)
    (hb : Leads obj q (fun _ _ => True) body s) :
    wp World.sem (fun t => Ordered obj q t.log) (fun _ t => Past obj q l t) (restoring fuel ownsFence body) s := by
  have hbody : wp World.sem (fun t => Ordered obj q t.log) (fun _ t => Past obj q l t) body s :=
    wp_mono (fun r t ht => ⟨ht.1.ordered, hs.log.trans ht.1.log⟩) (hb hs.ordered)
  refine wp_ite (fun _ => wp_andThen.mpr (wp_mono (fun r t ht => ?_) hbody)) fun _ => hbody
  refine wp_bind (wp_mono (fun r' u hu => ?_) (wp_unfence ht))
  cases r' with
  | error e => exact hu
  | ok _ => exact wp_ofExcept.mpr hu

/-! ## The handler -/

theorem wp_fencedDeletion {fuel : Nat} (hs : Past obj q l s) (hf : q.provisionerFenced = true → s.fenced = true)
    (hstart : Snapshot obj.name q snapshot l)
    (hp : pool (deletionRecordIdentity data) = pool (deletionRecordIdentity snapshot)) :
    wp World.sem (fun t => Ordered obj q t.log) (fun _ t => Past obj q l t) (fencedDeletion fuel obj q data) s := by
  have hfence : wp World.sem (fun t => Ordered obj q t.log) (fun r t => Past obj q l t ∧ (r = .ok () → t.fenced = true))
      (fenceOwned fuel q.ownsFence) s := by
    refine wp_ite (fun _ => wp_fence hs) fun howns => ⟨hs, fun _ => hf ?_⟩
    unfold DeletionRequest.ownsFence at howns
    simpa using howns
  refine wp_bind (wp_mono ?_ hfence)
  rintro r t ⟨ht, hft⟩
  cases r with
  | error e => exact ht
  | ok _ =>
    have hft := hft rfl
    have hst := hstart.mono ht.log
    refine wp_ite (fun _ => wp_restoring ht (leads_legacyDeletion hft hst hp)) fun _ => ?_
    refine wp_bind (wp_mono ?_ (leads_authoritative hp ht.ordered))
    rintro r u ⟨hu, hfound⟩
    have hpast : Past obj q l u := ⟨hu.ordered, ht.log.trans hu.log⟩
    cases r with
    | error e => exact hpast
    | ok found => exact wp_restoring hpast (leads_finishDeletion (hu.fenced hft) (hst.mono hu.log) (hfound found rfl))

theorem leads_preliminaryCount :
    Leads obj q (fun r _ => ∀ d, r = .ok (.ok d) → deletionRecordIdentity d = deletionRecordIdentity data)
      (preliminaryCount obj q data) s := by
  refine leads_ite (fun _ => leads_pure fun _ h => by cases h; rfl) fun _ => ?_
  refine leads_bind leads_readInfo (fun info t _ _ => ?_) fun _ _ _ _ _ h => nomatch h
  cases info with
  | none => exact leads_pure fun _ h => nomatch h
  | some current =>
    refine leads_bind (P := fun r _ => r = validateDeletionSnapshot obj data current) (leads_ofExcept rfl)
      (fun _ u _ hvalid => ?_) fun _ _ _ _ _ h => nomatch h
    refine leads_ite (fun _ => leads_pure fun _ h => nomatch h) fun _ => ?_
    refine leads_bind leads_getNumPvs (fun n v _ _ => ?_) fun _ _ _ _ _ h => nomatch h
    refine leads_ite (fun _ => leads_pure fun _ h => nomatch h) fun _ => ?_
    refine leads_ite (fun _ => leads_pure fun _ h => nomatch h) fun _ => leads_pure fun _ h => ?_
    cases h
    exact (snapshot_ok hvalid.symm).2.2

theorem leads_preserve : Leads obj q (fun _ _ => True) (preserveQuarantined obj data) s := by
  refine leads_bind leads_readInfo (fun info t _ _ => ?_) fun _ _ _ _ => trivial
  cases info with
  | none => exact leads_pure trivial
  | some current =>
    refine leads_bind (P := fun _ _ => True) (leads_ofExcept trivial) (fun _ _ _ _ => ?_) fun _ _ _ _ => trivial
    exact leads_ite (fun _ => leads_throw trivial) fun _ => leads_pure trivial

theorem wp_deleteRecorded {fuel : Nat} (hs : Past obj q l s) (hf : q.provisionerFenced = true → s.fenced = true)
    (hstart : Snapshot obj.name q data l) :
    wp World.sem (fun t => Ordered obj q t.log) (fun _ t => Past obj q l t) (deleteRecorded fuel obj q data) s := by
  unfold deleteRecorded
  cases validateDeletion obj q data with
  | error e => exact hs
  | ok _ =>
    refine wp_ite (fun _ => wp_mono (fun r t ht => ⟨ht.1.ordered, hs.log.trans ht.1.log⟩) (leads_preserve hs.ordered))
      fun _ => wp_bind (wp_mono ?_ (leads_preliminaryCount hs.ordered))
    rintro r t ⟨ht, hsame⟩
    have hpast : Past obj q l t := ⟨ht.ordered, hs.log.trans ht.log⟩
    cases r with
    | error e => exact hpast
    | ok outcome =>
      cases outcome with
      | error done => exact hpast
      | ok current =>
        refine wp_ite (fun _ => hpast) fun _ => ?_
        exact wp_fencedDeletion hpast (fun h => ht.fenced (hf h)) hstart (by rw [hsame current rfl])

theorem wp_handleDeleted {fuel : Nat} (hs : Ordered obj q s.log) (hf : q.provisionerFenced = true → s.fenced = true) :
    wp World.sem (fun t => Ordered obj q t.log) (fun _ t => Ordered obj q t.log) (handleDeleted fuel obj q) s := by
  unfold handleDeleted
  cases hq : q.storageInfo with
  | some data =>
    exact wp_mono (fun _ _ h => h.ordered) (wp_deleteRecorded ⟨hs, List.suffix_refl _⟩ hf (.inl hq))
  | none =>
    refine wp_bind (wp_mono ?_ (leads_readInfo hs))
    rintro r t ⟨ht, hread⟩
    cases r with
    | error e => exact ht.ordered
    | ok info =>
      cases info with
      | none =>
        refine wp_tryCatch (wp_bind (wp_past_look ⟨trivial, nofun, nofun, nofun⟩ ⟨ht.ordered, List.suffix_refl _⟩
          fun a u _ hu => ?_))
        cases a with
        | ok _ => exact hu.ordered
        | error e =>
          cases e with
          | runtime msg => exact hu.ordered
          | _ => exact hu.ordered
      | some data =>
        obtain ⟨m, hlog, hshow⟩ := hread data rfl
        refine wp_mono (fun _ _ h => h.ordered) (wp_deleteRecorded ⟨ht.ordered, List.suffix_refl _⟩
          (fun h => ht.fenced (hf h)) (.inr ⟨hq, m, ?_, hshow⟩))
        rw [hlog]
        exact List.mem_cons_self

/-- **Deletion of a pool.** Whatever others do between its requests and wherever it stops, `handleDeleted` destroys servers
or the record only under the fence, after the tombstone was in the record, after its volumes were then counted as none, and
after the record was then read as the same one of the deleted CR; and it clears no tombstone of a record that remains. -/
theorem deletion_ordered {fuel : Nat} {p' : PoolHandler Bool} (hlog : s.log = [])
    (hf : q.provisionerFenced = true → s.fenced = true) (hrun : Exec World.sem (handleDeleted fuel obj q) s p' t) :
    Ordered obj q t.log := by
  have hs : Ordered obj q s.log := by
    rw [hlog]
    intro m l h
    exact absurd (List.suffix_nil.mp h) (by simp)
  exact (wp_exec (C := fun t => Ordered obj q t.log) hs (wp_handleDeleted hs hf) hrun).1

end

/-! ## A deletion -/

attribute [local instance] Cluster.sampleConfigHash

/-- The CR of the pool `a`. -/
def deletedPool : DeletedStorage where
  name := "a"
  uid := some "u"
  className := "c"

/-- Its record. -/
def ownedRecord : PoolRecord := { Cluster.poolRecord "a" "delete" with storageUid := some "u" }

/-- A cluster whose provisioner is fenced. -/
def fencedWorld : World where
  entries := AList.insert "a" (.record ownedRecord) ∅
  version := 1
  pvs := ∅
  replicas := 0
  pods := []
  ready := false

/-- The deletion of the pool when its caller has fenced the provisioner. -/
def fencedRequest : DeletionRequest := { storageInfo := some ownedRecord, provisionerFenced := true }

/-- The pool `a` is deleted, in the right order. -/
theorem deletedPool_ordered :
    (replay World.answer 10 (handleDeleted 0 deletedPool fencedRequest) fencedWorld).2.entries.lookup "a" = none ∧
      Ordered deletedPool fencedRequest (replay World.answer 10 (handleDeleted 0 deletedPool fencedRequest) fencedWorld).2.log :=
  ⟨by decide +kernel, deletion_ordered rfl (fun _ => rfl) (exec_replay World.answer_sem 10 _ _)⟩

end Kadalu.Operator.Deletion
