import Kadalu.Operator.Policy
import Mathlib.Logic.Relation

/-!
# Updates protect retained data

`Cluster` is what an update of a pool changes: the records and the PersistentVolumes, of which `patched` remembers the names
that were patched. `RetainsData`: no volume that a pool with the policy `retain` may patch has the policy `Delete`. Every
step of an update keeps it (`reclaimPolicy_ordered`), except that of another pool with the same StorageClass: a volume
without a hosting volume belongs to both.
-/

namespace Kadalu.Operator

open Calls Calls.Prog

/-! ## The cluster -/

/-- The records and the PersistentVolumes. -/
structure Cluster where
  entries : Entries := ∅
  pvs : PersistentVolumes := ∅
  patched : List String := []
  deriving DecidableEq

namespace Cluster

variable {s s' s₀ t : Cluster}

/-- The cluster after a patch of one volume. -/
def setPolicy (s : Cluster) (name policy : String) : Cluster :=
  match s.pvs.lookup name with
  | none => s
  | some pv => { s with pvs := s.pvs.insert name { pv with reclaimPolicy := some policy }, patched := name :: s.patched }

/-- A write that is refused, or that happens with or without an answer. -/
def Writes {α : Type} (s written : Cluster) (ok : α) (a : Except OpErr α) (s' : Cluster) : Prop :=
  (a = .ok ok ∧ s' = written) ∨ ∃ e, a = .error e ∧ (s' = s ∨ s' = written)

/-- What the requests do to the cluster. -/
def sem : (r : Call) → Cluster → Except OpErr r.Answer → Cluster → Prop
  | .readConfigMap, s, a, s' => s' = s ∧ ∀ config, a = .ok config → config.data = s.entries
  | .patchConfigMap patch _, s, a, s' => Writes s { s with entries := patch.apply s.entries } () a s'
  | .replaceConfigMap data _, s, a, s' => Writes s { s with entries := data } () a s'
  | .listPersistentVolumes, s, a, s' => s' = s ∧ ∀ pvs, a = .ok pvs → pvs = s.pvs
  | .patchPersistentVolume name policy, s, a, s' => Writes s (s.setPolicy name policy) () a s'
  | _, s, _, s' => s' = s

/-- The volumes of a pool are not to be deleted. -/
def Retained (volname className : String) (s : Cluster) : Prop :=
  ∀ name pv, s.pvs.lookup name = some pv → pv.attributable volname className → pv.mutable volname → pv.policy ≠ "Delete"

/-- A pool whose record says `retain`. -/
def Retaining (volname : String) (data : PoolRecord) (s : Cluster) : Prop :=
  volname ≠ "" ∧ s.entries.lookup volname = some (.record data) ∧ data.pvReclaimPolicy = some "retain"

/-- Every pool that is to retain its data does. -/
def RetainsData (s : Cluster) : Prop := ∀ volname data, Retaining volname data s → Retained volname data.className s

/-- No other pool that retains its data uses the StorageClass of this one. -/
def Alone (obj : KadaluStorage) (s : Cluster) : Prop :=
  ∀ volname data, volname ≠ obj.name → Retaining volname data s → data.className ≠ obj.className

/-- Only the policies of volumes that the pool may patch have changed. -/
structure Patches (volname : String) (s₀ s : Cluster) : Prop where
  spec : ∀ name, (s.pvs.lookup name).map (fun pv => { pv with reclaimPolicy := none }) =
    (s₀.pvs.lookup name).map fun pv => { pv with reclaimPolicy := none }
  patched : ∀ name ∈ s.patched, name ∈ s₀.patched ∨ ∃ pv, s₀.pvs.lookup name = some pv ∧ pv.mutable volname

/-- The record of the pool carries its policy, and its volumes follow it. -/
def Settled (obj : KadaluStorage) (s : Cluster) : Prop :=
  ∃ data, s.entries.lookup obj.name = some (.record data) ∧ data.pvReclaimPolicy = some obj.pvReclaimPolicy ∧
    ∀ name pv, s.pvs.lookup name = some pv → pv.attributable obj.name data.className → pv.mutable obj.name →
      pv.policy = storageClassReclaimPolicy obj.pvReclaimPolicy

theorem Patches.refl (volname : String) (s : Cluster) : Patches volname s s := ⟨fun _ => rfl, fun _ h => .inl h⟩

@[simp] theorem setPolicy_entries (s : Cluster) (name policy : String) : (s.setPolicy name policy).entries = s.entries := by
  unfold setPolicy
  split <;> rfl

theorem lookup_setPolicy {name policy : String} {n : String} {pv : PersistentVolume}
    (h : (s.setPolicy name policy).pvs.lookup n = some pv) :
    s.pvs.lookup n = some pv ∧ n ≠ name ∨
      n = name ∧ ∃ pv₀, s.pvs.lookup n = some pv₀ ∧ pv = { pv₀ with reclaimPolicy := some policy } := by
  unfold setPolicy at h
  cases hl : s.pvs.lookup name with
  | none =>
    rw [hl] at h
    refine .inl ⟨h, ?_⟩
    rintro rfl
    rw [hl] at h
    cases h
  | some pv₀ =>
    rw [hl] at h
    by_cases hn : n = name
    · subst hn
      rw [AList.lookup_insert] at h
      exact .inr ⟨rfl, pv₀, hl, (Option.some.inj h).symm⟩
    · rw [AList.lookup_insert_ne hn] at h
      exact .inl ⟨h, hn⟩

@[simp] theorem attributable_policy (pv : PersistentVolume) (policy : Option String) (volname className : String) :
    ({ pv with reclaimPolicy := policy } : PersistentVolume).attributable volname className =
      pv.attributable volname className := rfl

@[simp] theorem mutable_policy (pv : PersistentVolume) (policy : Option String) (volname : String) :
    ({ pv with reclaimPolicy := policy } : PersistentVolume).mutable volname = pv.mutable volname := rfl

theorem policy_set (pv : PersistentVolume) {policy : String} (h : policy ≠ "") :
    ({ pv with reclaimPolicy := some policy } : PersistentVolume).policy = policy := by
  simp [PersistentVolume.policy, truthy, h]

/-- A patch of a volume that the pool may patch. -/
theorem Patches.setPolicy {volname name policy : String} {pv : PersistentVolume} (h : Patches volname s₀ s)
    (hpv : s.pvs.lookup name = some pv) (hm : pv.mutable volname) : Patches volname s₀ (s.setPolicy name policy) := by
  have hspec := h.spec name
  rw [hpv] at hspec
  obtain ⟨pv₀, hpv₀, heq⟩ := Option.map_eq_some_iff.mp hspec.symm
  have hm₀ : pv₀.mutable volname := by
    rw [← mutable_policy pv₀ none, heq, mutable_policy]
    exact hm
  unfold Cluster.setPolicy
  rw [hpv]
  constructor
  · intro n
    by_cases hn : n = name
    · subst hn
      rw [AList.lookup_insert, ← h.spec n, hpv]
      rfl
    · rw [AList.lookup_insert_ne hn]
      exact h.spec n
  · intro n hn
    rcases List.mem_cons.mp hn with rfl | hn
    · exact .inr ⟨pv₀, hpv₀, hm₀⟩
    · exact h.patched n hn

/-! ## One patch -/

theorem Retaining.setPolicy {volname name policy : String} {data : PoolRecord}
    (h : Retaining volname data (s.setPolicy name policy)) : Retaining volname data s := by
  unfold Retaining at *
  rwa [setPolicy_entries] at h

theorem RetainsData.retain {name : String} (h : RetainsData s) : RetainsData (s.setPolicy name "Retain") := by
  intro volname data hdata n pv hpv hattr hmut
  rcases lookup_setPolicy hpv with ⟨hpv, -⟩ | ⟨-, pv₀, -, rfl⟩
  · exact h volname data hdata.setPolicy n pv hpv hattr hmut
  · rw [policy_set pv₀ (by decide)]
    decide

/-- A volume that two pools may patch belongs to them by its StorageClass. -/
theorem shared_class {pv : PersistentVolume} {v w c d : String} (hv : v ≠ "") (hw : w ≠ "") (hne : v ≠ w)
    (hattr : pv.attributable v c) (hmut : pv.mutable v) (hattr' : pv.attributable w d) (hmut' : pv.mutable w) : c = d := by
  unfold PersistentVolume.attributable at hattr hattr'
  unfold PersistentVolume.mutable truthy at hmut hmut'
  cases hh : pv.hostvol with
  | none =>
    simp only [hh, reduceCtorEq, decide_false, Bool.and_false, Bool.false_or, decide_eq_true_eq] at hattr hattr'
    exact Option.some.inj (hattr.symm.trans hattr')
  | some host =>
    simp only [hh, Option.any_some, Option.some.injEq, Bool.and_eq_true, Bool.or_eq_true, Bool.not_eq_true',
      decide_eq_true_eq, decide_eq_false_iff_not, not_not] at hattr hattr' hmut hmut'
    rcases hmut.2 with rfl | rfl <;> rcases hmut'.2 with h | h
    · rcases hattr with hattr | hattr
      · exact absurd hattr.2.symm hv
      · rcases hattr' with hattr' | hattr'
        · exact absurd hattr'.2.symm hw
        · exact Option.some.inj (hattr.symm.trans hattr')
    · exact absurd h.symm hw
    · exact absurd h hv
    · exact absurd h hne

/-- A volume of a pool that is not retained may be deleted. -/
theorem RetainsData.release {v c name policy : String} {pv : PersistentVolume} (h : RetainsData s) (hv : v ≠ "")
    (halone : ∀ w data, Retaining w data s → w ≠ v ∧ data.className ≠ c) (hpv : s.pvs.lookup name = some pv)
    (hattr : pv.attributable v c) (hmut : pv.mutable v) : RetainsData (s.setPolicy name policy) := by
  intro w data hdata n pv' hpv' hattr' hmut'
  rcases lookup_setPolicy hpv' with ⟨hpv', -⟩ | ⟨rfl, pv₀, hpv₀, rfl⟩
  · exact h w data hdata.setPolicy n pv' hpv' hattr' hmut'
  · obtain rfl := Option.some.inj (hpv.symm.trans hpv₀)
    obtain ⟨hwv, hclass⟩ := halone w data hdata.setPolicy
    exact absurd (shared_class hdata.1 hv hwv hattr' hmut' hattr hmut) hclass

/-! ## Passes over the volumes -/

/-- A volume has this policy. -/
def AtPolicy (policy name : String) (s : Cluster) : Prop := ∀ pv, s.pvs.lookup name = some pv → pv.policy = policy

theorem AtPolicy.setPolicy {policy name n : String} (hp : policy ≠ "") (h : AtPolicy policy n s ∨ n = name) :
    AtPolicy policy n (s.setPolicy name policy) := by
  intro pv hpv
  rcases lookup_setPolicy hpv with ⟨hpv, hne⟩ | ⟨-, pv₀, -, rfl⟩
  · exact h.elim (fun h => h pv hpv) fun hn => absurd hn hne
  · exact policy_set pv₀ hp

variable {C P : Cluster → Prop}

theorem wp_patchPv {name policy : String} {Q : Except OpErr Unit → Cluster → Prop} (hC : C s)
    (hC' : C (s.setPolicy name policy)) (hok : Q (.ok ()) (s.setPolicy name policy)) (herr : ∀ e, Q (.error e) s)
    (herr' : ∀ e, Q (.error e) (s.setPolicy name policy)) : wp sem C Q (Call.patchPv name policy) s := by
  refine wp_request fun a s' hs => ?_
  rcases hs with ⟨rfl, rfl⟩ | ⟨e, rfl, rfl | rfl⟩
  · exact ⟨hC', hok⟩
  · exact ⟨hC, herr e⟩
  · exact ⟨hC', herr' e⟩

/-- The loop keeps what its patches keep, and sets the policy of every volume that the pool may patch. -/
theorem wp_patchPolicies {v policy : String} (hp : policy ≠ "") (hC : ∀ t, P t → C t) :
    ∀ {l : List (String × PersistentVolume)} {s : Cluster},
      (∀ e ∈ l, ∀ t, e.2.mutable v → P t → P (t.setPolicy e.1 policy)) → P s →
      (∀ e ∈ l, s.pvs.lookup e.1 = some e.2 ∨ AtPolicy policy e.1 s) →
      wp sem C (fun r t => P t ∧ (r = .ok () → (∀ n, AtPolicy policy n s → AtPolicy policy n t) ∧
        ∀ e ∈ l, e.2.mutable v → AtPolicy policy e.1 t)) (patchPolicies v policy l) s
  | [], s, _, hs, _ => ⟨hs, fun _ => ⟨fun _ h => h, by simp⟩⟩
  | (name, pv) :: l, s, hstep, hs, hl => by
    obtain ⟨hhead, hl⟩ := List.forall_mem_cons.mp hl
    obtain ⟨hstep₁, hstep⟩ := List.forall_mem_cons.mp hstep
    refine wp_ite (fun hc => wp_bind ?_) fun hc => ?_
    · simp only [Bool.and_eq_true, decide_eq_true_eq] at hc
      have hP := hstep₁ s hc.1 hs
      refine wp_patchPv (hC _ hs) (hC _ hP) ?_ (fun e => ⟨hs, nofun⟩) fun e => ⟨hP, nofun⟩
      refine wp_mono ?_ (wp_patchPolicies hp hC hstep hP fun e he => ?_)
      · rintro r t ⟨ht, hdone⟩
        refine ⟨ht, fun hr => ⟨fun n hn => (hdone hr).1 n (.setPolicy hp (.inl hn)), ?_⟩⟩
        rintro e he hm
        rcases List.mem_cons.mp he with rfl | he
        · exact (hdone hr).1 _ (.setPolicy hp (.inr rfl))
        · exact (hdone hr).2 e he hm
      · by_cases hn : e.1 = name
        · exact .inr (.setPolicy hp (.inr hn))
        · rcases hl e he with hpv | hat
          · refine .inl ?_
            unfold setPolicy
            split
            · exact hpv
            · rw [AList.lookup_insert_ne hn]
              exact hpv
          · exact .inr (.setPolicy hp (.inl hat))
    · refine wp_mono ?_ (wp_patchPolicies hp hC hstep hs hl)
      rintro r t ⟨ht, hdone⟩
      refine ⟨ht, fun hr => ⟨(hdone hr).1, fun e he hm => ?_⟩⟩
      rcases List.mem_cons.mp he with rfl | he
      · refine (hdone hr).1 _ ?_
        rcases hhead with hpv | hat
        · -- it had the policy when the volumes were listed
          intro pv' hpv'
          obtain rfl := Option.some.inj (hpv.symm.trans hpv')
          by_contra hne
          exact hc (by simpa using ⟨hm, hne⟩)
        · exact hat
      · exact (hdone hr).2 e he hm

theorem mem_poolPersistentVolumes {pvs : PersistentVolumes} {v c name : String} {pv : PersistentVolume} :
    (name, pv) ∈ poolPersistentVolumes pvs v c ↔ pvs.lookup name = some pv ∧ pv.attributable v c := by
  simp only [poolPersistentVolumes, List.mem_filter, List.mem_map, Prod.mk.injEq]
  refine and_congr_left fun _ => ⟨?_, fun h => ⟨⟨name, pv⟩, AList.mem_lookup_iff.mp h, rfl, rfl⟩⟩
  rintro ⟨⟨n, x⟩, he, rfl, rfl⟩
  exact AList.mem_lookup_iff.mpr he

theorem Patches.lookup {v name : String} {pv : PersistentVolume} (h : Patches v s₀ s)
    (hpv : s.pvs.lookup name = some pv) : ∃ pv₀, s₀.pvs.lookup name = some pv₀ ∧ pv = { pv₀ with reclaimPolicy := pv.reclaimPolicy } := by
  have hspec := h.spec name
  rw [hpv] at hspec
  obtain ⟨pv₀, hpv₀, heq⟩ := Option.map_eq_some_iff.mp hspec.symm
  refine ⟨pv₀, hpv₀, ?_⟩
  cases pv
  cases pv₀
  simp_all

theorem storageClassReclaimPolicy_ne (pool : String) : storageClassReclaimPolicy pool ≠ "" := by
  unfold storageClassReclaimPolicy
  split <;> decide

/-- A pass over the volumes of a pool: it keeps what its patches keep, and unless it is not its turn it sets all policies. -/
theorem wp_reconcile {v c q : String} {b : Option Bool} (hC : ∀ t, P t → C t)
    (hstep : ∀ name pv t, t.pvs.lookup name = some pv → pv.attributable v c → pv.mutable v → P t →
      P (t.setPolicy name (storageClassReclaimPolicy q))) (hs : P s) :
    wp sem C (fun r t => P t ∧ (r = .ok () →
        b.any (decide (storageClassReclaimPolicy q = "Retain") ≠ ·) = false →
        ∀ name pv, t.pvs.lookup name = some pv → pv.attributable v c → pv.mutable v →
          pv.policy = storageClassReclaimPolicy q)) (reconcilePoolPvReclaimPolicy v q b c) s := by
  refine wp_ite (fun hskip => ⟨hs, fun _ h => ?_⟩) fun _ => wp_bind (wp_request fun a s' hsem => ?_)
  · rw [hskip] at h
    cases h
  · obtain ⟨rfl, hlist⟩ := hsem
    refine ⟨hC _ hs, ?_⟩
    cases a with
    | error e => exact ⟨hs, nofun⟩
    | ok pvs =>
      obtain rfl := hlist pvs rfl
      have hloop := wp_patchPolicies (C := C) (P := fun t => P t ∧ Patches v s' t) (v := v)
        (storageClassReclaimPolicy_ne q) (fun t ht => hC t ht.1) (l := poolPersistentVolumes s'.pvs v c)
        (fun e he t hm ht => ?_) ⟨hs, .refl v s'⟩ fun e he => .inl (mem_poolPersistentVolumes.mp he).1
      · refine wp_mono ?_ hloop
        rintro r t ⟨⟨hP, hpatch⟩, hdone⟩
        refine ⟨hP, fun hr _ name pv hpv hattr hmut => ?_⟩
        obtain ⟨pv₀, hpv₀, heq⟩ := hpatch.lookup hpv
        rw [heq] at hattr hmut
        exact (hdone hr).2 (name, pv₀) (mem_poolPersistentVolumes.mpr ⟨hpv₀, hattr⟩) hmut pv hpv
      · obtain ⟨hlook, hattr⟩ := mem_poolPersistentVolumes.mp (show (e.1, e.2) ∈ _ from he)
        have hspec := ht.2.spec e.1
        rw [hlook] at hspec
        obtain ⟨pv, hpv, heq⟩ := Option.map_eq_some_iff.mp hspec
        have hm' : pv.mutable v := by rw [← mutable_policy pv none, heq]; exact hm
        have hattr' : pv.attributable v c := by rw [← attributable_policy pv none, heq]; exact hattr
        exact ⟨hstep e.1 pv t hpv hattr' hm' ht.1, ht.2.setPolicy hpv hm'⟩

/-! ## One update -/

variable {obj : KadaluStorage} {config : ConfigMap} {existing : Option PoolRecord} {data : PoolRecord}

/-- The crash condition of an update. -/
def Safe (obj : KadaluStorage) (s₀ s : Cluster) : Prop := RetainsData s ∧ Patches obj.name s₀ s

/-- The record of a request that is written for its pool. -/
structure Writable (obj : KadaluStorage) (data : PoolRecord) : Prop where
  className : data.className = obj.className
  policy : data.pvReclaimPolicy = some obj.pvReclaimPolicy

/-- The record of the pool is written. -/
def Recorded (obj : KadaluStorage) (data : PoolRecord) (s : Cluster) : Prop :=
  s.entries.lookup obj.name = some (.record data) ∧ Alone obj s

/-- The volumes of the pool have the policy of the request. -/
def Followed (obj : KadaluStorage) (s : Cluster) : Prop :=
  ∀ name pv, s.pvs.lookup name = some pv → pv.attributable obj.name obj.className → pv.mutable obj.name →
    pv.policy = storageClassReclaimPolicy obj.pvReclaimPolicy

theorem Recorded.settled (h : Recorded obj data s) (hw : Writable obj data) (hf : Followed obj s) : Settled obj s :=
  ⟨data, h.1, hw.policy, hw.className ▸ hf⟩

theorem Alone.congr (h : Alone obj s) (he : t.entries = s.entries) : Alone obj t := by
  unfold Alone Retaining at *
  rwa [he]

/-- Once its record is written, the volumes of the pool may be patched. -/
theorem Recorded.setPolicy {name : String} {pv : PersistentVolume} (h : Recorded obj data s) (hs : Safe obj s₀ s)
    (hname : obj.name ≠ "") (hw : Writable obj data) (hpv : s.pvs.lookup name = some pv)
    (hattr : pv.attributable obj.name obj.className) (hmut : pv.mutable obj.name) :
    Safe obj s₀ (s.setPolicy name (storageClassReclaimPolicy obj.pvReclaimPolicy)) ∧
      Recorded obj data (s.setPolicy name (storageClassReclaimPolicy obj.pvReclaimPolicy)) := by
  refine ⟨⟨?_, hs.2.setPolicy hpv hmut⟩, by rw [setPolicy_entries]; exact h.1, h.2.congr (setPolicy_entries _ _ _)⟩
  by_cases hret : obj.pvReclaimPolicy = "retain"
  · rw [storageClassReclaimPolicy, if_pos hret]
    exact hs.1.retain
  · refine hs.1.release hname (fun w d hd => ?_) hpv hattr hmut
    have hwv : w ≠ obj.name := by
      rintro rfl
      obtain rfl : data = d := by simpa using h.1.symm.trans hd.2.1
      exact hret (Option.some.inj (hw.policy.symm.trans hd.2.2))
    exact ⟨hwv, h.2 w d hwv hd⟩

/-- A pass over the volumes after the write. -/
theorem wp_followPass {before : Option Bool} (h : Recorded obj data s) (hs : Safe obj s₀ s) (hname : obj.name ≠ "")
    (hw : Writable obj data) :
    wp sem (Safe obj s₀) (fun r t => (Safe obj s₀ t ∧ Recorded obj data t) ∧ (r = .ok () →
        before.any (decide (storageClassReclaimPolicy obj.pvReclaimPolicy = "Retain") ≠ ·) = false → Followed obj t))
      (reconcilePoolPvReclaimPolicy obj.name obj.pvReclaimPolicy before data.className) s := by
  rw [hw.className]
  exact wp_reconcile (P := fun t => Safe obj s₀ t ∧ Recorded obj data t) (fun t ht => ht.1)
    (fun name pv t hpv hattr hmut ht => ht.2.setPolicy ht.1 hname hw hpv hattr hmut) ⟨hs, h⟩

/-- The entries after the write of the record. -/
theorem lookup_written {w : String} (he : config.data = s.entries) :
    (({ data := config.data.insert obj.name (.record data) } : Patch).apply s.entries).lookup w =
      if w = obj.name then some (.record data) else s.entries.lookup w := by
  rw [← he]
  exact Patch.lookup_insert

/-- The write of the record: the volumes of a pool that is to retain its data must follow it already. -/
theorem wp_writeRecord (hs : Safe obj s₀ s) (hw : Writable obj data) (halone : Alone obj s) (he : config.data = s.entries)
    (hex : config.existing obj.name = some existing) (hf : obj.pvReclaimPolicy = "retain" → Followed obj s) :
    wp sem (Safe obj s₀) (fun r t => Safe obj s₀ t ∧ (r = .ok () → Recorded obj data t ∧ t.pvs = s.pvs))
      (writeRecord config obj.name existing data) s := by
  refine wp_ite (fun hsame => ⟨hs, fun _ => ⟨⟨?_, halone⟩, rfl⟩⟩) fun _ => ?_
  · subst hsame
    rw [ConfigMap.existing, he] at hex
    cases hl : s.entries.lookup obj.name with
    | none => rw [hl] at hex; cases hex
    | some serialized =>
      rw [hl] at hex
      cases serialized with
      | malformed => cases hex
      | record d => cases hex; rfl
  · have hlook : ∀ w, _ := fun w => @lookup_written s obj config data w he
    have halone' : Alone obj { s with
        entries := ({ data := config.data.insert obj.name (.record data) } : Patch).apply s.entries } := by
      intro w d hne hd
      refine halone w d hne ⟨hd.1, ?_, hd.2.2⟩
      rw [← hd.2.1]
      exact ((hlook w).trans (if_neg hne)).symm
    have hsafe : Safe obj s₀ { s with
        entries := ({ data := config.data.insert obj.name (.record data) } : Patch).apply s.entries } := by
      refine ⟨fun w d hd => ?_, hs.2.spec, hs.2.patched⟩
      by_cases hne : w = obj.name
      · subst hne
        obtain rfl : data = d := by
          have := (hlook obj.name).symm.trans hd.2.1
          rw [if_pos rfl] at this
          simpa using this
        have hret := Option.some.inj (hw.policy.symm.trans hd.2.2)
        intro name pv hpv hattr hmut
        rw [hw.className] at hattr
        rw [hf hret name pv hpv hattr hmut, storageClassReclaimPolicy, if_pos hret]
        decide
      · refine hs.1 w d ⟨hd.1, ?_, hd.2.2⟩
        rw [← hd.2.1]
        exact ((hlook w).trans (if_neg hne)).symm
    refine wp_request fun a s' hsem => ?_
    rcases hsem with ⟨rfl, rfl⟩ | ⟨e, rfl, rfl | rfl⟩
    · exact ⟨hsafe, hsafe, fun _ => ⟨⟨(hlook _).trans (if_pos rfl), halone'⟩, rfl⟩⟩
    · exact ⟨hs, hs, nofun⟩
    · exact ⟨hsafe, hsafe, nofun⟩

theorem retain_policy (h : obj.pvReclaimPolicy = "retain") : storageClassReclaimPolicy obj.pvReclaimPolicy = "Retain" :=
  if_pos h

theorem other_policy (h : obj.pvReclaimPolicy ≠ "retain") : storageClassReclaimPolicy obj.pvReclaimPolicy = "Delete" :=
  if_neg h

/-- A pass whose turn it is not. -/
theorem reconcile_skipped {v pool c : String} {b : Bool} (h : decide (storageClassReclaimPolicy pool = "Retain") ≠ b) :
    reconcilePoolPvReclaimPolicy v pool (some b) c = pure () := by
  have hskip : (some b).any (fun before => decide (decide (storageClassReclaimPolicy pool = "Retain") ≠ before)) = true := by
    simpa using h
  exact if_pos hskip

/-- The passes and the write between them. -/
theorem wp_applyPolicy (hs : Safe obj s₀ s) (hw : Writable obj data) (hname : obj.name ≠ "") (halone : Alone obj s)
    (he : config.data = s.entries) (hex : config.existing obj.name = some existing) :
    wp sem (Safe obj s₀) (fun r t => Safe obj s₀ t ∧ (r = .ok () → Recorded obj data t ∧ Followed obj t))
      (applyPolicy obj config existing data) s := by
  by_cases hret : obj.pvReclaimPolicy = "retain"
  · -- the volumes come first
    have hfirst := wp_reconcile (C := Safe obj s₀) (P := fun t => Safe obj s₀ t ∧ t.entries = s.entries) (v := obj.name)
      (c := data.className) (q := obj.pvReclaimPolicy) (b := some true) (fun t ht => ht.1)
      (fun name pv t hpv _ hmut ht => ⟨⟨?_, ht.1.2.setPolicy hpv hmut⟩, (setPolicy_entries _ _ _).trans ht.2⟩) ⟨hs, rfl⟩
    · refine wp_bind (wp_mono ?_ hfirst)
      rintro r t ⟨⟨ht, hent⟩, hall⟩
      cases r with
      | error e => exact ⟨ht, nofun⟩
      | ok u =>
        have hf : Followed obj t := by
          have := hall rfl (by rw [retain_policy hret]; rfl)
          rwa [hw.className] at this
        refine wp_bind (wp_mono ?_ (wp_writeRecord ht hw (halone.congr hent) (he.trans hent.symm) hex fun _ => hf))
        rintro r t' ⟨ht', hrec⟩
        cases r with
        | error e => exact ⟨ht', nofun⟩
        | ok u =>
          obtain ⟨hrec, hpvs⟩ := hrec rfl
          rw [reconcile_skipped (by rw [retain_policy hret]; decide)]
          refine ⟨ht', fun _ => ⟨hrec, ?_⟩⟩
          unfold Followed at *
          rwa [hpvs]
    · rw [retain_policy hret]
      exact ht.1.1.retain
  · -- the record comes first
    unfold applyPolicy
    rw [reconcile_skipped (by rw [other_policy hret]; decide)]
    refine wp_bind (wp_pure (wp_bind (wp_mono ?_ (wp_writeRecord hs hw halone he hex fun h => absurd h hret))))
    rintro r t ⟨ht, hrec⟩
    cases r with
    | error e => exact ⟨ht, nofun⟩
    | ok u =>
      refine wp_mono ?_ (wp_followPass (hrec rfl).1 ht hname hw)
      rintro r t' ⟨⟨ht', hrec'⟩, hf⟩
      exact ⟨ht', fun hr => ⟨hrec', hf hr (by rw [other_policy hret]; rfl)⟩⟩

/-! ## Programs that leave the cluster alone -/

/-- Requests that only look. -/
theorem wp_request_same {r : Call} {Q : Except OpErr r.Answer → Cluster → Prop} (hC : C s)
    (hsame : ∀ a s', sem r s a s' → s' = s) (hQ : ∀ a, Q a s) : wp sem C Q (request r : PoolHandler r.Answer) s := by
  refine wp_request fun a s' hs => ?_
  rw [hsame a s' hs]
  exact ⟨hC, hQ a⟩

section

variable [ConfigHash]

theorem applyPoolMountMetadata_writable {legacyOwner recovered : Option String} {migration : Bool} {fresh : String}
    {record : PoolRecord} (hw : Writable obj record)
    (h : applyPoolMountMetadata record existing legacyOwner migration recovered fresh = some data) :
    Writable obj data := by
  obtain ⟨_, _, _, -, rfl⟩ := applyPoolMountMetadata_some h
  exact ⟨hw.className, hw.policy⟩

omit [ConfigHash] in
theorem wp_listPvs {Q : Except OpErr PersistentVolumes → Cluster → Prop} (hC : C s) (hQ : ∀ a, Q a s) :
    wp sem C Q Call.listPvs s :=
  wp_request_same hC (fun _ _ h => h.1) hQ

omit [ConfigHash] in
theorem wp_recoveredSinglePvOwner (hC : C s) :
    wp sem C (fun _ t => t = s) (recoveredSinglePvOwner data) s := by
  refine wp_ite (fun _ => rfl) fun _ => wp_bind (wp_listPvs hC fun a => ?_)
  cases a with
  | error e => rfl
  | ok pvs =>
    dsimp only
    split <;> rfl

theorem wp_applyPoolMountMetadataForWrite {record : PoolRecord} {recovered : Option String} (hC : C s)
    (hw : Writable obj record) :
    wp sem C (fun r t => t = s ∧ ∀ d, r = .ok (some d) → Writable obj d)
      (applyPoolMountMetadataForWrite record existing recovered) s := by
  have howner : wp sem C (fun _ t => t = s) (recoveredOwnerForWrite record existing) s := by
    cases existing with
    | none => exact wp_recoveredSinglePvOwner hC
    | some _ => rfl
  refine wp_bind (wp_mono ?_ howner)
  rintro r t rfl
  cases r with
  | error e => exact ⟨rfl, fun _ h => nomatch h⟩
  | ok owner =>
    cases owner with
    | none => exact ⟨rfl, fun _ h => nomatch h⟩
    | some owner =>
      refine wp_bind (wp_request_same hC (fun _ _ h => h) fun a => ?_)
      cases a with
      | error e => exact ⟨rfl, fun _ h => nomatch h⟩
      | ok fresh => exact ⟨rfl, fun d hd => applyPoolMountMetadata_writable hw (Except.ok.inj hd)⟩

omit [ConfigHash] in
theorem wp_externalEvidence {recovered : Option String} (hC : C s) :
    wp sem C (fun _ t => t = s) (externalEvidence obj existing recovered) s := by
  cases existing with
  | none =>
    refine wp_bind (wp_request_same hC (fun _ _ h => h) fun a => ?_)
    cases a with
    | error e => rfl
    | ok durable =>
      refine wp_bind (wp_listPvs hC fun a => ?_)
      cases a with
      | error e => rfl
      | ok pvs => exact wp_ite (fun _ => rfl) fun _ => wp_ite (fun _ => rfl) fun _ => wp_ite (fun _ => rfl) fun _ => rfl
  | some old =>
    refine wp_bind (wp_request_same hC (fun _ _ h => h) fun a => ?_)
    cases a with
    | error e => rfl
    | ok identity =>
      refine wp_bind (wp_request_same hC (fun _ _ h => h) fun a => ?_)
      cases a with
      | error e => rfl
      | ok _ =>
        cases identity with
        | none => rfl
        | some identity => exact wp_ite (fun _ => rfl) fun _ => rfl

/-! ## Updates -/

/-- An update of the policy of a pool. -/
def IsUpdate (obj : KadaluStorage) (p : PoolHandler Bool) : Prop :=
  ∃ recovered, p = updateConfigMap obj recovered ∨ p = handleExternalStorageAddition obj recovered

/-- What an update leaves: a result means that the volumes follow the record. -/
def Completed (obj : KadaluStorage) (s₀ : Cluster) (r : Except OpErr Bool) (s : Cluster) : Prop :=
  Safe obj s₀ s ∧ (r = .ok true → Settled obj s)

theorem wp_updateConfigMap {recovered : Option String} (hs : RetainsData s) (hname : obj.name ≠ "")
    (halone : Alone obj s) : wp sem (Safe obj s) (Completed obj s) (updateConfigMap obj recovered) s := by
  have hsafe : Safe obj s s := ⟨hs, .refl _ s⟩
  refine wp_bind (wp_request fun a s' hsem => ?_)
  obtain ⟨rfl, hconfig⟩ := hsem
  refine ⟨hsafe, ?_⟩
  cases a with
  | error e => exact ⟨hsafe, nofun⟩
  | ok config =>
    have he := hconfig config rfl
    cases hex : config.existing obj.name with
    | none =>
      simp only [hex]
      exact ⟨hsafe, nofun⟩
    | some existing =>
      simp only [hex]
      refine wp_bind (wp_mono ?_ (wp_applyPoolMountMetadataForWrite hsafe ⟨rfl, rfl⟩))
      rintro r t ⟨rfl, hw⟩
      cases r with
      | error e => exact ⟨hsafe, nofun⟩
      | ok data =>
        cases data with
        | none => exact ⟨hsafe, nofun⟩
        | some data =>
          have hw := hw data rfl
          refine wp_bind (wp_mono ?_ (wp_applyPolicy hsafe hw hname halone he hex))
          rintro r u ⟨hu, hdone⟩
          cases r with
          | error e => exact ⟨hu, nofun⟩
          | ok _ => exact ⟨hu, fun _ => (hdone rfl).1.settled hw (hdone rfl).2⟩

theorem wp_handleExternalStorageAddition {recovered : Option String} (hs : RetainsData s) (hname : obj.name ≠ "")
    (halone : Alone obj s) : wp sem (Safe obj s) (Completed obj s) (handleExternalStorageAddition obj recovered) s := by
  have hsafe : Safe obj s s := ⟨hs, .refl _ s⟩
  refine wp_bind (wp_request fun a s' hsem => ?_)
  obtain ⟨rfl, hconfig⟩ := hsem
  refine ⟨hsafe, ?_⟩
  cases a with
  | error e => exact ⟨hsafe, nofun⟩
  | ok config =>
    have he := hconfig config rfl
    cases hex : config.existing obj.name with
    | none =>
      simp only [hex]
      exact ⟨hsafe, nofun⟩
    | some existing =>
      simp only [hex]
      refine wp_bind (wp_mono ?_ (wp_externalEvidence hsafe))
      rintro r t rfl
      cases r with
      | error e => exact ⟨hsafe, nofun⟩
      | ok evidence =>
        cases evidence with
        | none => exact ⟨hsafe, nofun⟩
        | some evidence =>
          refine wp_bind (wp_mono ?_ (wp_applyPoolMountMetadataForWrite hsafe ⟨rfl, rfl⟩))
          rintro r t ⟨rfl, hw⟩
          cases r with
          | error e => exact ⟨hsafe, nofun⟩
          | ok data =>
            cases data with
            | none => exact ⟨hsafe, nofun⟩
            | some data =>
              have hw := hw data rfl
              refine wp_bind (wp_request_same hsafe (fun _ _ h => h) fun a => ?_)
              cases a with
              | error e => exact ⟨hsafe, nofun⟩
              | ok _ =>
                refine wp_bind (wp_mono ?_ (wp_applyPolicy hsafe hw hname halone he hex))
                rintro r u ⟨hu, hdone⟩
                cases r with
                | error e => exact ⟨hu, nofun⟩
                | ok _ =>
                  refine wp_bind (wp_request_same hu (fun _ _ h => h) fun a => ?_)
                  cases a with
                  | error e => exact ⟨hu, nofun⟩
                  | ok _ =>
                    refine wp_bind (wp_mono ?_ (wp_followPass (hdone rfl).1 hu hname hw))
                    rintro r v ⟨⟨hv, hrec⟩, hf⟩
                    cases r with
                    | error e => exact ⟨hv, nofun⟩
                    | ok _ => exact ⟨hv, fun _ => hrec.settled hw (hf rfl rfl)⟩

/-- Some part of an update of a pool that shares its StorageClass with no pool that retains its data. -/
def Updates (s s' : Cluster) : Prop :=
  ∃ obj p p', obj.name ≠ "" ∧ IsUpdate obj p ∧ Alone obj s ∧ Exec sem p s p' s'

/-- One update, which may stop anywhere. -/
theorem update_ordered {p p' : PoolHandler Bool} (hs : RetainsData s) (hname : obj.name ≠ "") (hp : IsUpdate obj p)
    (halone : Alone obj s) (hrun : Exec sem p s p' s') :
    RetainsData s' ∧ Patches obj.name s s' ∧ (p' = .ret true → Settled obj s') := by
  have hwp : wp sem (Safe obj s) (Completed obj s) p s := by
    obtain ⟨recovered, rfl | rfl⟩ := hp
    · exact wp_updateConfigMap hs hname halone
    · exact wp_handleExternalStorageAddition hs hname halone
  obtain ⟨hsafe, hend⟩ := wp_exec ⟨hs, .refl _ s⟩ hwp hrun
  refine ⟨hsafe.1, hsafe.2, ?_⟩
  rintro rfl
  exact hend.2 rfl

/-- **Reclaim policies.** In every run of updates that may each stop anywhere, no volume that a retaining pool may patch
gets the policy `Delete`; an update patches the volumes of its pool only, and one that completes leaves them at the policy
that the record requires. -/
theorem reclaimPolicy_ordered (h₀ : RetainsData s₀) (hrun : Relation.ReflTransGen Updates s₀ s) :
    RetainsData s ∧ ∀ obj p p' s', obj.name ≠ "" → IsUpdate obj p → Alone obj s → Exec sem p s p' s' →
      RetainsData s' ∧ Patches obj.name s s' ∧ (p' = .ret true → Settled obj s') := by
  have hs : RetainsData s := by
    induction hrun with
    | refl => exact h₀
    | tail _ hstep ih =>
      obtain ⟨obj, p, p', hname, hp, halone, hexec⟩ := hstep
      exact (update_ordered ih hname hp halone hexec).1
  exact ⟨hs, fun obj p p' s' hname hp halone hexec => update_ordered hs hname hp halone hexec⟩

end

/-! ## A shared StorageClass -/

/-- The digests of the mount configurations of the pools `a` and `b` below. -/
abbrev sampleConfigHash : ConfigHash where
  mountDigest config :=
    if config.volname = some "a" then "e13077da308019ef93a577c2b243f9687ab68ffc662bea204b21b3e64c51c9da"
    else "e8c14b28c1d5fdcceb5e71007e74b99df40d1f307748c0e097ab09344d45d793"
  backendDigest _ := ""

attribute [local instance] sampleConfigHash

/-- The answers of a native update without an error. -/
def answer : (r : Call) → Cluster → Except OpErr r.Answer × Cluster
  | .readConfigMap, s => (.ok { data := s.entries }, s)
  | .patchConfigMap patch _, s => (.ok (), { s with entries := patch.apply s.entries })
  | .replaceConfigMap data _, s => (.ok (), { s with entries := data })
  | .listPersistentVolumes, s => (.ok s.pvs, s)
  | .patchPersistentVolume name policy, s => (.ok (), s.setPolicy name policy)
  | .newUuid, s => (.ok "f47ac10b-58cc-4372-a567-0e02b2c3d479", s)
  | _, s => (.error .other, s)

theorem answer_sem (r : Call) (s : Cluster) : sem r s (answer r s).1 (answer r s).2 := by
  cases r with
  | readConfigMap => exact ⟨rfl, fun _ h => by cases h; rfl⟩
  | listPersistentVolumes => exact ⟨rfl, fun _ h => by cases h; rfl⟩
  | patchConfigMap patch version => exact .inl ⟨rfl, rfl⟩
  | replaceConfigMap data version => exact .inl ⟨rfl, rfl⟩
  | patchPersistentVolume name policy => exact .inl ⟨rfl, rfl⟩
  | newUuid => rfl
  | _ => rfl

/-- A pool of the StorageClass `c`. -/
def samplePool (name policy : String) : KadaluStorage where
  name := name
  type := some "Replica1"
  volumeId := some "6ba7b810-9dad-11d1-80b4-00c04fd430c8"
  storageClassName := some "c"
  pvReclaimPolicy := policy
  storage := [{ pvc := name }]

/-- Its record. -/
def poolRecord (name policy : String) : PoolRecord :=
  { nativeRecord (samplePool name policy) none with
    mount := ⟨some "f47ac10b-58cc-4372-a567-0e02b2c3d479",
      some (mountConfigFingerprint (nativeRecord (samplePool name policy) none)), none⟩ }

/-- A volume of the class `c` without a hosting volume. -/
def sampleVolume (policy : String) : PersistentVolume where
  driver := some CSI_DRIVER_NAME
  storageClassName := some "c"
  reclaimPolicy := some policy

/-- The pool `a` with one volume. -/
def sampleCluster (policy : String) (others : Entries) (volumePolicy : String) : Cluster where
  entries := others.insert "a" (.record (poolRecord "a" policy))
  pvs := AList.insert "pv" (sampleVolume volumePolicy) ∅

/-- A run without an error of an update of the pool `a`. -/
def updated (policy : String) (s : Cluster) : PoolHandler Bool × Cluster :=
  replay answer 6 (updateConfigMap (samplePool "a" policy) none) s

theorem sampleCluster_pv {policy volumePolicy name : String} {others : Entries} {pv : PersistentVolume}
    (h : (sampleCluster policy others volumePolicy).pvs.lookup name = some pv) : pv = sampleVolume volumePolicy := by
  by_cases hn : name = "pv"
  · subst hn
    exact (Option.some.inj ((AList.lookup_insert _).symm.trans h)).symm
  · rw [show (sampleCluster policy others volumePolicy).pvs = AList.insert "pv" (sampleVolume volumePolicy) ∅ from rfl,
      AList.lookup_insert_ne hn] at h
    cases h

theorem sampleCluster_alone {policy volname : String} {data : PoolRecord}
    (h : Retaining volname data (sampleCluster policy ∅ "Delete")) : volname = "a" ∧ data = poolRecord "a" policy := by
  have hlook := h.2.1
  by_cases hv : volname = "a"
  · subst hv
    rw [show (sampleCluster policy ∅ "Delete").entries = AList.insert "a" (.record (poolRecord "a" policy)) ∅ from rfl,
      AList.lookup_insert] at hlook
    exact ⟨rfl, (Serialized.record.inj (Option.some.inj hlook)).symm⟩
  · rw [show (sampleCluster policy ∅ "Delete").entries = AList.insert "a" (.record (poolRecord "a" policy)) ∅ from rfl,
      AList.lookup_insert_ne hv] at hlook
    cases hlook

/-- The volume of the pool `a` is retained from the moment that its record says so. -/
theorem updated_ordered : RetainsData (updated "retain" (sampleCluster "delete" ∅ "Delete")).2 ∧
    Patches "a" (sampleCluster "delete" ∅ "Delete") (updated "retain" (sampleCluster "delete" ∅ "Delete")).2 ∧
    Settled (samplePool "a" "retain") (updated "retain" (sampleCluster "delete" ∅ "Delete")).2 := by
  have hs₀ : RetainsData (sampleCluster "delete" ∅ "Delete") := by
    intro volname data hdata
    obtain ⟨-, rfl⟩ := sampleCluster_alone hdata
    exact absurd hdata.2.2 (by decide)
  have halone : Alone (samplePool "a" "retain") (sampleCluster "delete" ∅ "Delete") :=
    fun volname data hne hdata => absurd (sampleCluster_alone hdata).1 hne
  obtain ⟨hret, hpatch, hset⟩ := (reclaimPolicy_ordered hs₀ .refl).2 (samplePool "a" "retain") _ _ _ (by decide)
    ⟨none, .inl rfl⟩ halone (exec_replay answer_sem 6 _ _)
  exact ⟨hret, hpatch, hset (Prog.eq_ret (by decide +kernel))⟩

/-- **A shared StorageClass.** The pools `a` and `b` use one class and are to retain its volume, until an update of `a`
has it deleted. -/
theorem sharedClass_released : ∃ s s', RetainsData s ∧
    Exec sem (updateConfigMap (samplePool "a" "delete") none) s (.ret true) s' ∧ ¬RetainsData s' := by
  have hend : (updated "delete" (sampleCluster "retain" (AList.insert "b" (.record (poolRecord "b" "retain")) ∅) "Retain")).1 =
      .ret true := Prog.eq_ret (by decide +kernel)
  have hrun := exec_replay answer_sem 6 (updateConfigMap (samplePool "a" "delete") none)
    (sampleCluster "retain" (AList.insert "b" (.record (poolRecord "b" "retain")) ∅) "Retain")
  rw [show (replay answer 6 (updateConfigMap (samplePool "a" "delete") none) _).1 = .ret true from hend] at hrun
  refine ⟨_, _, ?_, hrun, fun h => ?_⟩
  · intro volname data _ name pv hpv _ _
    rw [sampleCluster_pv hpv]
    decide
  · exact h "b" (poolRecord "b" "retain") ⟨by decide, by decide +kernel, rfl⟩ "pv" (sampleVolume "Delete")
      (by decide +kernel) (by decide +kernel) (by decide +kernel) (by decide +kernel)

end Cluster

end Kadalu.Operator
