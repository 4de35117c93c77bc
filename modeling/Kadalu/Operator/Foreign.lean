import Kadalu.Operator.Lifetimes

/-!
# The pools of others

A custom resource may have the name of a pool that belongs to another one. As long as every read of the ConfigMap shows such an
owner (`foreign`), its addition is refused, and neither its addition nor its deletion changes anything of the pool
(`foreign_spared`): what is asked for up to the refusal are reads and at most a fence of the provisioner.
-/

namespace Kadalu.Runtime

open Calls Calls.Prog Operator Fingerprint Snapshot WatchCall

/-! ## Reads that show another owner -/

/-- The record of the pool belongs to another UID. -/
def ForeignRecord (uid : Option String) (data : PoolRecord) : Prop :=
  truthy data.storageUid = true ∧ data.storageUid ≠ uid

/-- A read of the ConfigMap that shows such a record. -/
def ShowsForeign (volname : String) (uid : Option String) : (r : WatchCall) → Except OpErr r.Answer → Prop
  | .pool .readConfigMap, .ok config => ∃ data, config.data.lookup volname = some (.record data) ∧ ForeignRecord uid data
  | _, _ => True

/-- Any answer is possible but one that shows no other owner, and everything is remembered. -/
def foreign (volname : String) (uid : Option String) (r : WatchCall) (h : History WatchCall WatchCall.Answer OpErr)
    (a : Except OpErr r.Answer) (h' : History WatchCall WatchCall.Answer OpErr) : Prop :=
  h' = ⟨r, a⟩ :: h ∧ ShowsForeign volname uid r a

/-- The same of the requests of the pool handlers. -/
def poolForeign (volname : String) (uid : Option String) (c : Call) (h : History WatchCall WatchCall.Answer OpErr)
    (a : Except OpErr c.Answer) (h' : History WatchCall WatchCall.Answer OpErr) : Prop := foreign volname uid (pool c) h a h'

/-- The request changes nothing of a pool. -/
def SparesPool : WatchCall → Prop
  | .pool c => Spares c
  | .deployServers _ | .deployClass _ | .deployCsiPods _ _ | .rollOut _ | .migrateClaims => False
  | _ => True

/-- Nothing of a pool was changed so far. -/
def Spared (h : History WatchCall WatchCall.Answer OpErr) : Prop := ∀ e ∈ h, SparesPool e.1

/-! ## Programs that spare the pools -/

section

variable {α β : Type} {volname : String} {uid : Option String} {F : Except OpErr α → Prop} {G : Except OpErr β → Prop}

/-- The program changes nothing, and ends in `F`. -/
def Leaves (volname : String) (uid : Option String) (F : Except OpErr α → Prop) (p : PoolHandler α) : Prop :=
  ∀ h, Spared h → wp (poolForeign volname uid) Spared (fun r h' => Spared h' ∧ F r) p h

theorem spared_cons {r : WatchCall} {a : Except OpErr r.Answer} {h : History WatchCall WatchCall.Answer OpErr}
    (hr : SparesPool r) (hh : Spared h) : Spared (⟨r, a⟩ :: h) := by
  intro e he
  rcases List.mem_cons.mp he with rfl | he
  · exact hr
  · exact hh e he

theorem leaves_pure {a : α} (hF : F (.ok a)) : Leaves volname uid F (pure a) := fun _ hh => wp_pure ⟨hh, hF⟩

theorem leaves_throw {e : OpErr} (hF : F (.error e)) : Leaves volname uid F (throw e : PoolHandler α) :=
  fun _ hh => wp_throw ⟨hh, hF⟩

theorem leaves_andThen {p : PoolHandler α} {g : Except OpErr α → PoolHandler β} (hp : Leaves volname uid F p)
    (hg : ∀ r, F r → Leaves volname uid G (g r)) : Leaves volname uid G (p.andThen g) := by
  refine fun h hh => wp_andThen.mpr (wp_mono ?_ (hp h hh))
  rintro r h' ⟨hh', hr⟩
  exact hg r hr h' hh'

theorem leaves_bind {p : PoolHandler α} {g : α → PoolHandler β} (hp : Leaves volname uid F p)
    (hg : ∀ a, F (.ok a) → Leaves volname uid G (g a)) (he : ∀ e, F (.error e) → G (.error e)) :
    Leaves volname uid G (p >>= g) := by
  refine leaves_andThen hp fun r hr => ?_
  cases r with
  | ok a => exact hg a hr
  | error e => exact leaves_throw (he e hr)

theorem leaves_ite {c : Prop} {_ : Decidable c} {p q : PoolHandler α} (hp : c → Leaves volname uid F p)
    (hq : ¬c → Leaves volname uid F q) : Leaves volname uid F (if c then p else q) := by
  split
  · exact hp ‹_›
  · exact hq ‹_›

/-- A program that asks for nothing else leaves the pools. -/
theorem leaves_of_asks {p : PoolHandler α} (hp : Asks Spares F p) : Leaves volname uid F p := by
  refine fun h hh => hp.wp (fun c hc s a s' hs hsem => ?_) hh
  obtain ⟨rfl, -⟩ := hsem
  exact ⟨spared_cons hc hs, spared_cons hc hs⟩

/-- A read shows the other owner. -/
theorem leaves_readConfig {g : ConfigMap → PoolHandler β} (he : ∀ e, G (.error e))
    (hg : ∀ config data, config.data.lookup volname = some (.record data) → ForeignRecord uid data →
      Leaves volname uid G (g config)) : Leaves volname uid G (Call.readConfig >>= g) := by
  refine fun h hh => wp_bind (wp_request ?_)
  rintro a h' ⟨rfl, hshown⟩
  have hspared : Spared (⟨pool .readConfigMap, a⟩ :: h) := spared_cons trivial hh
  refine ⟨hspared, ?_⟩
  cases a with
  | error e => exact ⟨hspared, he e⟩
  | ok config =>
    obtain ⟨data, hlookup, hforeign⟩ := hshown
    exact hg config data hlookup hforeign _ hspared

/-- So does the record that a deletion reads. -/
theorem leaves_readDeletionStorageInfo {g : Option PoolRecord → PoolHandler β} (he : ∀ e, G (.error e))
    (hg : ∀ data, ForeignRecord uid data → Leaves volname uid G (g (some data))) :
    Leaves volname uid G (readDeletionStorageInfo volname >>= g) := by
  refine leaves_bind (F := fun r => ∀ info, r = .ok info → ∃ data, info = some data ∧ ForeignRecord uid data)
    (leaves_readConfig (fun e info hinfo => ?_) fun config data hlookup hforeign => ?_) (fun info hinfo => ?_) fun e _ => he e
  · cases hinfo
  · have hinfo : config.deletionInfo volname = .ok (some data) := by
      unfold ConfigMap.deletionInfo
      rw [hlookup]
      rfl
    rw [hinfo]
    refine leaves_pure ?_
    rintro info ⟨⟩
    exact ⟨data, rfl, hforeign⟩
  · obtain ⟨data, rfl, hforeign⟩ := hinfo info rfl
    exact hg data hforeign

end

/-! ## Deletions -/

section

variable [ConfigHash] {obj : DeletedStorage} {q : DeletionRequest} {data : PoolRecord} {fuel : Nat}

omit [ConfigHash] in
/-- Another owner's record is not deleted. -/
theorem not_owner (huid : truthy obj.uid = true) (hdata : ForeignRecord obj.uid data) :
    ¬(truthy data.storageUid = true ∧ (truthy obj.uid = true → data.storageUid = obj.uid)) :=
  fun h => hdata.2 (h.2 huid)

theorem leaves_authoritativeRecord (huid : truthy obj.uid = true) :
    Leaves obj.name obj.uid (fun r => ∀ found, r ≠ .ok found) (authoritativeRecord obj q data) := by
  have herror : ∀ e found, (.error e : Except OpErr FencedRecord) ≠ .ok found := by rintro e found ⟨⟩
  refine leaves_readDeletionStorageInfo herror fun authoritative hforeign => ?_
  dsimp only
  cases hvalid : validateDeletionSnapshot obj data authoritative with
  | error e => exact leaves_throw (herror e)
  | ok u => exact absurd (Deletion.snapshot_ok hvalid).2.1 (not_owner huid hforeign)

theorem leaves_sealLegacyDeletionRecord {hasStorageClient quarantine : Bool} {legacyStorageUid : Option String} :
    Leaves obj.name obj.uid (fun r => ∀ found, r ≠ .ok found)
      (sealLegacyDeletionRecord hasStorageClient obj data legacyStorageUid quarantine) := by
  have herror : ∀ e found, (.error e : Except OpErr (PoolRecord × Bool)) ≠ .ok found := by rintro e found ⟨⟩
  refine leaves_ite (fun _ => leaves_throw (herror _)) fun hexpected => ?_
  refine leaves_bind (leaves_of_asks only_verifyLegacyDeletionResource) (fun _ _ => ?_) fun e _ => herror e
  refine leaves_readConfig herror fun config record hlookup hforeign => leaves_ite (fun _ => leaves_throw (herror _)) fun _ => ?_
  have hdecoded : config.decoded obj.name = some record := by
    unfold ConfigMap.decoded
    rw [hlookup]
    rfl
  rw [hdecoded]
  dsimp only
  cases hvalid : validateSealed obj.name data record with
  | error e => exact leaves_throw (herror e)
  | ok u =>
    unfold validateSealed at hvalid
    obtain ⟨-, -, hsame⟩ := Except.bind_ok.mp hvalid
    have hrecord : record = data := not_not.mp (Except.ite_error_ok.mp hsame).1
    exact absurd (hrecord ▸ hforeign.1) hexpected

theorem leaves_fencedDeletion (huid : truthy obj.uid = true) :
    Leaves obj.name obj.uid (fun _ => True) (fencedDeletion fuel obj q data) := by
  have hfence : Asks Spares (fun _ => True) (fenceOwned fuel q.ownsFence) :=
    asks_ite (fun _ => only_fence) fun _ => only_pure _
  refine leaves_bind (leaves_of_asks hfence) (fun _ _ => leaves_ite (fun _ => ?_) fun _ => ?_) fun _ _ => trivial
  · have hbody : Leaves obj.name obj.uid (fun _ => True) (legacyDeletion obj q data) := by
      refine leaves_bind leaves_sealLegacyDeletionRecord (fun sealed hsealed => ?_) fun _ _ => trivial
      exact absurd rfl (hsealed sealed)
    refine leaves_ite (fun _ => leaves_andThen hbody fun r _ => ?_) fun _ => hbody
    exact leaves_of_asks (only_bind only_unfence fun _ => only_ofExcept r)
  · refine leaves_bind (leaves_authoritativeRecord huid) (fun found hfound => ?_) fun _ _ => trivial
    exact absurd rfl (hfound found)

theorem leaves_deleteRecorded (huid : truthy obj.uid = true) :
    Leaves obj.name obj.uid (fun _ => True) (deleteRecorded fuel obj q data) := by
  unfold deleteRecorded
  split
  · exact leaves_pure trivial
  · refine leaves_ite (fun _ => leaves_of_asks only_preserveQuarantined) fun _ => ?_
    refine leaves_bind (leaves_of_asks only_preliminaryCount) (fun counted _ => ?_) fun _ _ => trivial
    cases counted with
    | error done => exact leaves_pure trivial
    | ok data => exact leaves_ite (fun _ => leaves_pure trivial) fun _ => leaves_fencedDeletion huid

theorem leaves_handleDeleted (huid : truthy obj.uid = true) :
    Leaves obj.name obj.uid (fun _ => True) (handleDeleted fuel obj q) := by
  unfold handleDeleted
  split
  · exact leaves_deleteRecorded huid
  · exact leaves_readDeletionStorageInfo (fun _ => trivial) fun data _ => leaves_deleteRecorded huid

end

/-! ## Additions -/

section

variable [ConfigHash] {α : Type} {volname : String} {uid : Option String}
  {h : History WatchCall WatchCall.Answer OpErr}

omit [ConfigHash] in
theorem wp_onPool_foreign {F : Except OpErr α → Prop} {p : PoolHandler α} (hp : Leaves volname uid F p) (hh : Spared h) :
    wp (foreign volname uid) Spared (fun r h' => Spared h' ∧ F r) (onPool p) h :=
  wp_expand_of (f := fun c => ask (pool c)) (fun _ _ hC => wp_request fun a s' hs => ⟨hC a s' hs, hs⟩) (hp h hh)

variable [RequestChecks] [ObjectForm] {obj : Dict}

/-- **Refused.** -/
theorem wp_addStorage_foreign {transition : Dict → KadaluStorage → PoolRecord → WatchProg (Option Bool)}
    (huid : truthy (ObjectForm.storage obj).uid = true) (hh : Spared h) :
    wp (foreign (ObjectForm.storage obj).name (ObjectForm.storage obj).uid) Spared
      (fun r h' => Spared h' ∧ ∀ result, r = .ok result → result.1 = false) (addStorage transition obj) h := by
  have herror : ∀ e result, (.error e : Except OpErr (Bool × Dict)) = .ok result → result.1 = false := by rintro e result ⟨⟩
  have hrefused : ∀ result, (.ok (false, obj) : Except OpErr (Bool × Dict)) = .ok result → result.1 = false := by
    rintro result ⟨⟩
    rfl
  refine wp_ite (fun _ => wp_pure ⟨hh, hrefused⟩) fun _ => ?_
  refine wp_bind (wp_mono ?_ (wp_onPool_foreign (leaves_of_asks (only_request (r := Call.listPods) trivial)) hh))
  rintro r h₁ ⟨hh₁, -⟩
  cases r with
  | error e => exact ⟨hh₁, herror e⟩
  | ok pods =>
    refine wp_bind (wp_mono ?_ (wp_onPool_foreign (F := fun r => ∀ config, r = .ok config → ∃ data,
      config.data.lookup (ObjectForm.storage obj).name = some (.record data) ∧
        ForeignRecord (ObjectForm.storage obj).uid data) ?_ hh₁))
    · rintro r h₂ ⟨hh₂, hr⟩
      cases r with
      | error e => exact ⟨hh₂, herror e⟩
      | ok config =>
        obtain ⟨data, hlookup, hforeign⟩ := hr config rfl
        have hexisting : config.existing (ObjectForm.storage obj).name = some (some data) := by
          unfold ConfigMap.existing
          rw [hlookup]
          rfl
        dsimp only
        rw [hexisting]
        refine wp_bind (wp_bind (wp_mono ?_ (wp_onPool_foreign (leaves_of_asks asks_acceptsRecord) hh₂)))
        rintro r h₃ ⟨hh₃, hr⟩
        cases r with
        | error e => exact ⟨hh₃, herror e⟩
        | ok accepted =>
          cases accepted with
          | false => exact wp_pure ⟨hh₃, hrefused⟩
          | true => exact absurd ((hr rfl).1 hforeign.1 huid) hforeign.2
    · intro h₂ hh₂
      refine wp_request ?_
      rintro a h₃ ⟨rfl, hshown⟩
      have hspared : Spared (⟨pool .readConfigMap, a⟩ :: h₂) := spared_cons trivial hh₂
      refine ⟨hspared, hspared, ?_⟩
      rintro config rfl
      exact hshown

/-- **The pools of others.** While every read shows another owner, an addition is refused, and neither an addition nor a deletion
changes anything of the pool. -/
theorem foreign_spared (huid : truthy uid = true) :
    (∀ fuel obj fenced p, (ObjectForm.storage obj).name = volname → (ObjectForm.storage obj).uid = uid →
      Exec (foreign volname uid) (handleAdded fuel obj fenced) [] p h → Spared h ∧ ∀ result, p = ret result → result.1 = false) ∧
    ∀ fuel (obj : DeletedStorage) q p, obj.name = volname → obj.uid = uid →
      Exec (foreign volname uid) (onPool (handleDeleted fuel obj q)) [] p h → Spared h := by
  have hnil : Spared [] := by simp [Spared]
  constructor
  · rintro fuel obj fenced p rfl rfl hrun
    have hadded : wp (foreign (ObjectForm.storage obj).name (ObjectForm.storage obj).uid) Spared
        (fun r h' => Spared h' ∧ ∀ result, r = .ok result → result.1 = false) (handleAdded fuel obj fenced) [] :=
      wp_ite (fun _ => wp_addStorage_foreign huid hnil) fun _ => wp_addStorage_foreign huid hnil
    obtain ⟨hspared, hrest⟩ := wp_exec hnil hadded hrun
    refine ⟨hspared, ?_⟩
    rintro result rfl
    exact hrest.2 result rfl
  · rintro fuel obj q p rfl rfl hrun
    exact (wp_exec hnil (wp_onPool_foreign (leaves_handleDeleted huid) hnil) hrun).1

end

/-! ## A pool that was created again -/

section

/-- The custom resource of the sample, created again. -/
abbrev laterForm : ObjectForm where
  storage _ := { extPool with uid := some "later" }
  deleted _ := { name := "ext", uid := some "later", className := "kadalu.ext" }
  record _ := { volname := none, type := none, volumeId := none }
  identified obj _ := obj

attribute [local instance] sampleJson extHash extChecks laterForm

/-- The record is still that of the earlier one. -/
def earlierRecord : PoolRecord := { externalRecord extPool none with storageUid := some "earlier" }

/-- Whatever the handlers ask for before they refuse succeeds. -/
def earlierAnswer (r : WatchCall) (h : History WatchCall WatchCall.Answer OpErr) :
    Except OpErr r.Answer × History WatchCall WatchCall.Answer OpErr :=
  let answer : Except OpErr r.Answer := match r with
    | .pool .readConfigMap => .ok { data := AList.insert "ext" (.record earlierRecord) ∅ }
    | .pool .listPods => .ok []
    | .pool .clearReady | .pool (.setReplicas _) => .ok ()
    | .pool .monotonic => .ok (0 : Int)
    | _ => .error .other
  (answer, ⟨r, answer⟩ :: h)

theorem earlierAnswer_foreign (r : WatchCall) (h : History WatchCall WatchCall.Answer OpErr) :
    foreign "ext" (some "later") r h (earlierAnswer r h).1 (earlierAnswer r h).2 := by
  refine ⟨rfl, ?_⟩
  cases r with
  | pool c =>
    cases c with
    | readConfigMap => exact ⟨earlierRecord, AList.lookup_insert _, by decide, by decide⟩
    | _ => trivial
  | _ => trivial

/-- An addition of the later one. -/
def laterAdded : WatchProg (Bool × Dict) × History WatchCall WatchCall.Answer OpErr :=
  replay earlierAnswer 2 (handleAdded 3 [] false) []

def laterPool : DeletedStorage := { name := "ext", uid := some "later", className := "kadalu.ext" }

/-- It was read that the pool is its own. -/
def laterRequest : DeletionRequest := { storageInfo := some { earlierRecord with storageUid := some "later" } }

/-- A deletion of it. -/
def laterDeleted : WatchProg Bool × History WatchCall WatchCall.Answer OpErr :=
  replay earlierAnswer 5 (onPool (handleDeleted 3 laterPool laterRequest)) []

theorem foreign_spared_ext : laterAdded.1.ended.isSome = true ∧ Spared laterAdded.2 ∧
    (∀ result, laterAdded.1 = ret result → result.1 = false) ∧ laterDeleted.2.length = 5 ∧ Spared laterDeleted.2 := by
  have huid : truthy (some "later") = true := by decide
  have hadded := (foreign_spared huid).1 3 [] false _ rfl rfl (exec_replay earlierAnswer_foreign 2 _ [])
  have hdeleted := (foreign_spared huid).2 3 laterPool laterRequest _ rfl rfl (exec_replay earlierAnswer_foreign 5 _ [])
  exact ⟨by decide +kernel, hadded.1, hadded.2, by decide +kernel, hdeleted⟩

end

end Kadalu.Runtime
