import Kadalu.Operator.Snapshot
import Mathlib.Data.List.AList

/-!
# No change of a custom resource is lost

`World` is what the loops see: the changes of the custom resources with their revisions, which others make at any time, the
DaemonSet of the nodeplugin, the pools that have a record, and which handlers have succeeded.

* `Listed`: a plan shows the custom resources as they were at its `resourceVersion`; later changes do not alter that.
* `Handled`: the handlers of a part of a plan have succeeded, one after the other.
* `Contained`: a handler was given the custom resource as it is, or the record of its pool if it is gone.
* `Settled`: what holds when a loop returns, and `no_change_lost` that it does.
-/

namespace Kadalu.Snapshot

open Calls Calls.Prog Operator Fingerprint

/-! ## The cluster -/

/-- A change of a custom resource: created or replaced, or deleted. -/
inductive Edit where
  | put (name : String) (obj : Dict) (named : nameOf obj = some name)
  | delete (name : String)

/-- The name of the custom resource. -/
def Edit.name : Edit → String
  | put name _ _ | delete name => name

abbrev Objects : Type := AList fun _ : String => Dict

def Edit.apply (objects : Objects) : Edit → Objects
  | put name obj _ => objects.insert name obj
  | delete name => objects.erase name

/-- A handler that has succeeded. -/
inductive Work where
  | deployed (obj : Dict)
  | added (obj : Dict) (fenced : Bool)
  | deleted (orphan : Orphan) (fenced : Bool)

/-- The pool of which a handler may make the record. -/
def Work.adds (pool : String) : Work → Prop
  | added obj _ => nameOf obj = some pool
  | _ => False

/-- `pools` have a record, `template` are the tolerations in the DaemonSet, `rolledOut` those of its last complete rollout. -/
structure World where
  revision : Nat := 0
  edits : List (Nat × Edit) := []
  pools : List String := []
  template : List Toleration := []
  rolledOut : Option (List Toleration) := none
  handled : List Work := []

namespace World

/-- The changes up to a revision. -/
def upTo (s : World) (version : Nat) : List (Nat × Edit) := s.edits.filter fun e => e.1 ≤ version

/-- The changes that a watch from a revision delivers. -/
def watchFrom (s : World) (version : Nat) : List (Nat × Edit) := s.edits.filter fun e => version < e.1

/-- The custom resources at a revision. -/
def state (s : World) (version : Nat) : Objects := (s.upTo version).foldl (fun (objects : Objects) e => e.2.apply objects) ∅

/-- The list of them. -/
def objectsAt (s : World) (version : Nat) : List Dict := (s.state version).entries.map Sigma.snd

/-- Time passes, and others may change custom resources. -/
structure Later (s s' : World) : Prop where
  revision : s.revision ≤ s'.revision
  edits : ∃ more, s'.edits = s.edits ++ more ∧ ∀ e ∈ more, s.revision < e.1

variable {s s' s'' : World}

theorem Later.refl (s : World) : Later s s := ⟨Nat.le_refl _, [], by simp, by simp⟩

theorem Later.trans (h : Later s s') (h' : Later s' s'') : Later s s'' := by
  obtain ⟨more, he, hm⟩ := h.edits
  obtain ⟨more', he', hm'⟩ := h'.edits
  refine ⟨h.revision.trans h'.revision, more ++ more', by rw [he', he, List.append_assoc], fun e hmem => ?_⟩
  rcases List.mem_append.mp hmem with hmem | hmem
  · exact hm e hmem
  · exact Nat.lt_of_le_of_lt h.revision (hm' e hmem)

/-- What happened up to a past revision is settled. -/
theorem Later.upTo {version : Nat} (h : Later s s') (hv : version ≤ s.revision) : s'.upTo version = s.upTo version := by
  obtain ⟨more, he, hm⟩ := h.edits
  unfold World.upTo
  rw [he, List.filter_append]
  have hnone : more.filter (fun e => decide (e.1 ≤ version)) = [] := by
    refine List.filter_eq_nil_iff.mpr fun e hmem => ?_
    have := hm e hmem
    simp only [decide_eq_true_eq]
    omega
  rw [hnone, List.append_nil]

theorem Later.state {version : Nat} (h : Later s s') (hv : version ≤ s.revision) : s'.state version = s.state version := by
  unfold World.state
  rw [h.upTo hv]

/-- Objects are listed under their names. -/
theorem state_named {version : Nat} {name : String} {obj : Dict} (h : (s.state version).lookup name = some obj) :
    nameOf obj = some name := by
  unfold World.state at h
  generalize s.upTo version = edits at h
  induction edits using List.reverseRecOn with
  | nil => cases h
  | append_singleton edits e ih =>
    rw [List.foldl_append, List.foldl_cons, List.foldl_nil] at h
    obtain ⟨v, edit⟩ := e
    cases edit with
    | put name' obj' named =>
      simp only [Edit.apply] at h
      by_cases hname : name = name'
      · subst hname
        rw [AList.lookup_insert] at h
        cases h
        exact named
      · rw [AList.lookup_insert_ne hname] at h
        exact ih h
    | delete name' =>
      simp only [Edit.apply] at h
      by_cases hname : name = name'
      · subst hname
        rw [AList.lookup_erase] at h
        cases h
      · rw [AList.lookup_erase_ne hname] at h
        exact ih h

/-- What is listed, by name. -/
theorem mem_objectsAt {version : Nat} {obj : Dict} :
    obj ∈ s.objectsAt version ↔ ∃ name, (s.state version).lookup name = some obj := by
  unfold objectsAt
  constructor
  · intro h
    obtain ⟨⟨name, obj'⟩, hmem, rfl⟩ := List.mem_map.mp h
    exact ⟨name, AList.mem_lookup_iff.mpr hmem⟩
  · rintro ⟨name, h⟩
    exact List.mem_map.mpr ⟨⟨name, obj⟩, AList.mem_lookup_iff.mp h, rfl⟩

end World

open World

section

variable {s s' s'' : World}

/-- Nothing but the custom resources changes. -/
structure Aside (s s' : World) : Prop where
  later : Later s s'
  pools : s'.pools = s.pools
  template : s'.template = s.template
  rolledOut : s'.rolledOut = s.rolledOut
  handled : s'.handled = s.handled

/-- A handler, which is remembered when it has succeeded. Only the handler of an object makes a record, that of its pool. -/
structure Handler (s s' : World) (succeeded : Prop) (work : Work) : Prop where
  later : Later s s'
  pools : ∀ pool ∈ s'.pools, pool ∈ s.pools ∨ work.adds pool
  template : s'.template = s.template
  rolledOut : s'.rolledOut = s.rolledOut
  handled : succeeded → s'.handled = work :: s.handled

/-- Handlers have succeeded, one after the other. -/
structure Handled (work : List Work) (s s' : World) : Prop where
  later : Later s s'
  pools : ∀ pool ∈ s'.pools, pool ∈ s.pools ∨ ∃ done ∈ work, done.adds pool
  rolledOut : s'.rolledOut = s.rolledOut
  handled : s'.handled = work.reverse ++ s.handled

theorem Handled.nil (s : World) : Handled [] s s := ⟨.refl s, fun _ => .inl, rfl, rfl⟩

theorem Handled.append {work work' : List Work} (h : Handled work s s') (h' : Handled work' s' s'') :
    Handled (work ++ work') s s'' where
  later := h.later.trans h'.later
  pools pool hpool := by
    rcases h'.pools pool hpool with hpool | ⟨done, hdone, hadds⟩
    · exact (h.pools pool hpool).imp_right fun ⟨done, hdone, hadds⟩ => ⟨done, List.mem_append_left _ hdone, hadds⟩
    · exact .inr ⟨done, List.mem_append_right _ hdone, hadds⟩
  rolledOut := h'.rolledOut.trans h.rolledOut
  handled := by rw [h'.handled, h.handled, List.reverse_append, List.append_assoc]

theorem Handler.toHandled {succeeded : Prop} {work : Work} (h : Handler s s' succeeded work) (hs : succeeded) :
    Handled [work] s s' :=
  ⟨h.later, fun pool hpool => (h.pools pool hpool).imp_right fun hadds => ⟨work, List.mem_singleton_self _, hadds⟩, h.rolledOut,
    h.handled hs⟩

end

/-- What `validate_volume_request` leaves of an object that is listed. -/
class RequestForm where
  normalized : Dict → Dict
  nameOf_normalized : ∀ obj, nameOf (normalized obj) = nameOf obj

section

variable [RequestForm] {s s' t : World} {plan c r : Plan}

/-- The plan shows the objects as they were at its `resourceVersion`. It reconciles all of them but the ones that are being
deleted or that it has put aside as invalid. -/
structure Listed (s : World) (plan : Plan) : Prop where
  version : plan.resourceVersion ≤ s.revision
  items : plan.items = (s.objectsAt plan.resourceVersion).map RequestForm.normalized
  active : plan.reconcileItems =
    plan.items.filter fun obj => !isDeleting obj && !plan.invalidItems.any fun invalid => nameOf invalid = nameOf obj
  invalid : ∀ obj ∈ plan.invalidItems, obj ∈ plan.items

/-- Each record is that of an object that is reconciled or is invalid, or its pool is an orphan. -/
def Covers (s : World) (plan : Plan) : Prop :=
  ∀ pool ∈ s.pools, (∃ obj ∈ plan.reconcileItems ++ plan.invalidItems, nameOf obj = some pool) ∨
    ∃ orphan ∈ plan.deletionOrphans, nameOf orphan.object = some pool

theorem Listed.later (h : Listed s plan) (hl : Later s s') : Listed s' plan := by
  refine ⟨h.version.trans hl.revision, ?_, h.active, h.invalid⟩
  rw [h.items, objectsAt, objectsAt, hl.state h.version]

/-- What the requests do to the cluster, with whatever others do to the custom resources meanwhile. -/
def sem : (r : PlanRequest) → World → Except OpErr r.Answer → World → Prop
  | .prepare, s, a, s' => Aside s s' ∧ ∀ plan, a = .ok plan → Listed s' plan ∧ Covers s' plan
  | .rollOut tolerations, s, a, s' =>
    Later s s' ∧ s'.handled = s.handled ∧ s'.pools = s.pools ∧
      (s'.template = tolerations ∧ s'.rolledOut = none ∨
        (∃ e, a = .error e) ∧ s'.template = s.template ∧ s'.rolledOut = s.rolledOut)
  | .awaitRollout tolerations, s, a, s' =>
    Later s s' ∧ s'.handled = s.handled ∧ s'.pools = s.pools ∧ s'.template = s.template ∧
      (a = .ok () ∧ s.template = tolerations ∧ s'.rolledOut = some tolerations ∨
        (∃ e, a = .error e) ∧ s'.rolledOut = s.rolledOut)
  | .currentTolerations, s, a, s' =>
    Later s s' ∧ s'.handled = s.handled ∧ s'.pools = s.pools ∧ s'.template = s.template ∧
      (a = .ok (some s.template) ∧ s'.rolledOut = some s.template ∨
        (∀ tolerations, a ≠ .ok (some tolerations)) ∧ s'.rolledOut = s.rolledOut)
  | .deployServers obj, s, a, s' => Handler s s' (a = .ok ()) (.deployed obj)
  | .handleAdded obj fenced, s, a, s' => Handler s s' (∃ after, a = .ok (true, after)) (.added obj fenced)
  | .handleDeleted orphan fenced _, s, a, s' => Handler s s' (a = .ok true) (.deleted orphan fenced)
  | _, s, _, s' => Aside s s'

/-- If the program returns, its result and the cluster satisfy `P`. -/
def Ensures {α : Type} (p : PlanProg α) (s : World) (P : α → World → Prop) : Prop :=
  wp sem (fun _ => True) (fun a t => ∀ r, a = .ok r → P r t) p s

variable {α β : Type} {p : PlanProg α} {g : α → PlanProg β} {P P' : α → World → Prop} {Q : β → World → Prop}

theorem ensures_pure {a : α} (h : P a s) : Ensures (pure a) s P := by
  rintro r ⟨⟩
  exact h

theorem ensures_throw (e : OpErr) : Ensures (throw e : PlanProg α) s P := nofun

theorem ensures_mono (h : Ensures p s P) (hP : ∀ r t, P r t → P' r t) : Ensures p s P' :=
  wp_mono (fun _ t ha r hr => hP r t (ha r hr)) h

theorem ensures_bind (h : Ensures p s P) (hg : ∀ a t, P a t → Ensures (g a) t Q) : Ensures (p >>= g) s Q := by
  refine wp_bind (wp_mono (fun a t ha => ?_) h)
  cases a with
  | ok a => exact hg a t (ha a rfl)
  | error e => rintro r ⟨⟩

theorem ensures_ask {r : PlanRequest} {P : r.Answer → World → Prop} (h : ∀ b s', sem r s (.ok b) s' → P b s') :
    Ensures (PlanRequest.ask r) s P := by
  refine wp_request fun a s' hs => ⟨trivial, ?_⟩
  rintro b rfl
  exact h b s' hs

/-- A handler of exceptions that raises again. -/
theorem ensures_tryCatch {h : OpErr → PlanProg α} (hp : Ensures p s P)
    (hh : ∀ e t, Ensures (h e) t fun _ _ => False) : Ensures (tryCatch p h) s P := by
  refine wp_tryCatch (wp_mono (fun a t ha => ?_) hp)
  cases a with
  | ok a => exact ha
  | error e => exact ensures_mono (hh e t) fun _ _ h => h.elim

theorem ensures_exec (h : Ensures p s P) {a : α} (hr : Exec sem p s (ret a) t) : P a t :=
  (wp_exec trivial h hr).2 a rfl

/-! ## Handlers -/

/-- What the plan gives to the handlers; under the fence also to the servers. -/
def Plan.work (plan : Plan) (fenced : Bool) : List Work :=
  (if fenced then plan.upgradeObjects.map .deployed else []) ++
    (plan.reconcileItems.filter fun obj => !isDeleting obj).map (.added · fenced) ++
    plan.deletionOrphans.map (.deleted · fenced)

theorem upgradeStoragePods_handled (objs : List Dict) (s : World) :
    Ensures (upgradeStoragePods objs) s fun _ t => Handled (objs.map .deployed) s t := by
  induction objs generalizing s with
  | nil => exact ensures_pure (Handled.nil s)
  | cons obj rest ih =>
    refine ensures_bind (P := fun _ t => Handled [.deployed obj] s t)
      (ensures_ask fun a s' hs => Handler.toHandled hs rfl) fun _ t ht => ?_
    exact ensures_mono (ih t) fun _ u hu => ht.append hu

theorem reconcileDeletionOrphans_handled [JsonText] (fenced storageClient : Bool) (orphans : List Orphan) (s : World) :
    Ensures (reconcileDeletionOrphans fenced storageClient orphans) s fun _ t =>
      Handled (orphans.map (.deleted · fenced)) s t := by
  induction orphans generalizing s with
  | nil => exact ensures_pure (Handled.nil s)
  | cons orphan rest ih =>
    refine ensures_bind (P := fun (deleted : Bool) t => deleted = true → Handled [.deleted orphan fenced] s t)
      (ensures_ask fun a s' hs => fun ha => Handler.toHandled hs (by rw [ha])) fun deleted t ht => ?_
    cases deleted with
    | false => exact ensures_throw _
    | true => exact ensures_mono (ih t) fun _ u hu => (ht rfl).append hu

theorem reconcileInitialStorage_handled [JsonText] (fenced : Bool) (items : List Dict) (s : World) :
    Ensures (reconcileInitialStorage fenced items) s fun _ t =>
      Handled ((items.filter fun obj => !isDeleting obj).map (.added · fenced)) s t := by
  induction items generalizing s with
  | nil => exact ensures_pure (Handled.nil s)
  | cons item rest ih =>
    unfold reconcileInitialStorage
    dsimp only
    split
    · exact ensures_throw _
    split
    · next hdeleting =>
      rw [List.filter_cons_of_neg (by simp [hdeleting])]
      exact ensures_bind (ih s) fun _ t ht => ensures_pure ht
    · next hactive =>
      rw [List.filter_cons_of_pos (by simpa using hactive)]
      refine ensures_bind (P := fun (answer : Bool × Dict) t => answer.1 = true → Handled [.added item fenced] s t)
        (ensures_ask fun a s' hs => fun ha => Handler.toHandled hs ⟨a.2, congrArg _ (Prod.ext ha rfl)⟩) fun answer t ht => ?_
      split
      · exact ensures_throw _
      · next hok =>
        refine ensures_bind (ih t) fun _ u hu => ensures_pure ?_
        exact (ht (by simpa using hok)).append hu

theorem reconcileStoragePlan_handled [JsonText] (plan : Plan) (s : World) :
    Ensures (reconcileStoragePlan plan) s fun _ t => Handled (plan.work true) s t := by
  refine ensures_bind (upgradeStoragePods_handled _ s) fun _ t ht => ?_
  refine ensures_bind (reconcileInitialStorage_handled true _ t) fun _ u hu => ?_
  exact ensures_mono (reconcileDeletionOrphans_handled true _ _ u) fun _ v hv => (ht.append hu).append hv

/-! ## The gate -/

/-- A list has been taken, and the plan of it needs no other nodeplugins than the ones there are. -/
structure Gated (s t : World) (r : Plan) : Prop where
  later : Later s t
  listed : Listed t r
  covers : Covers t r
  rolledOut : t.rolledOut = some r.nodepluginTolerations
  handled : t.handled = s.handled

theorem advanceNodeplugin_ensures {gated : Option (List Toleration)} {desired : List Toleration}
    (hg : ∀ g, gated = some g → s.rolledOut = some g) :
    Ensures (advanceNodeplugin gated desired) s fun g t =>
      Later s t ∧ t.rolledOut = some g ∧ t.handled = s.handled ∧ g = desired := by
  unfold advanceNodeplugin
  split
  · next heq => exact ensures_pure ⟨.refl s, hg desired heq, rfl, rfl⟩
  refine ensures_bind (P := fun _ t => Later s t ∧ t.handled = s.handled)
    (ensures_ask fun a s' hs => ⟨hs.1, hs.2.1⟩) fun _ t ht => ?_
  refine ensures_bind (P := fun _ u => Later s u ∧ u.handled = s.handled ∧ u.rolledOut = some desired)
    (ensures_ask fun a u hs => ?_) fun _ u hu => ensures_pure ⟨hu.1, hu.2.2, hu.2.1, rfl⟩
  obtain ⟨hlater, hhandled, -, -, ⟨-, -, hrolled⟩ | ⟨⟨e, he⟩, -⟩⟩ := hs
  · exact ⟨ht.1.trans hlater, hhandled.trans ht.2, hrolled⟩
  · cases he

theorem prepare_ensures (s : World) :
    Ensures (PlanRequest.ask .prepare) s fun r t => Aside s t ∧ Listed t r ∧ Covers t r :=
  ensures_ask fun a _ hs => ⟨hs.1, hs.2 a rfl⟩

theorem gateNodepluginUntilCurrent_gated {fuel : Nat} {gated : Option (List Toleration)} {candidate : Plan}
    (hg : ∀ g, gated = some g → s.rolledOut = some g) :
    Ensures (gateNodepluginUntilCurrent fuel gated candidate) s fun r t => Gated s t r := by
  induction fuel generalizing gated candidate s with
  | zero => exact trivial
  | succ fuel ih =>
    refine ensures_bind (advanceNodeplugin_ensures hg) fun g t ht => ?_
    obtain ⟨hlater, hrolled, hhandled, -⟩ := ht
    refine ensures_bind (prepare_ensures t) fun fresh u hu => ?_
    obtain ⟨haside, hlisted, hcovers⟩ := hu
    dsimp only
    split
    · next heq =>
      refine ensures_pure ⟨hlater.trans haside.later, hlisted, hcovers, ?_, haside.handled.trans hhandled⟩
      rw [haside.rolledOut, hrolled, heq]
    · refine ensures_mono (ih ?_) fun r v hv =>
        ⟨(hlater.trans haside.later).trans hv.later, hv.listed, hv.covers, hv.rolledOut,
          hv.handled.trans (haside.handled.trans hhandled)⟩
      rintro g' ⟨⟩
      exact haside.rolledOut.trans hrolled

/-! ## What is reconciled -/

/-- A custom resource is contained in the work of the handlers, as it is now: one was given the object, or it is invalid, or
none was given an object of this name, but one the record of its pool, if there is a record. -/
inductive Contained (work : List Work) (pools : List String) (invalid : List Dict) (objects : Objects) (name : String) : Prop
  | reconciled (obj done : Dict) (fenced : Bool) (hobj : objects.lookup name = some obj) (hdone : .added done fenced ∈ work)
    (hsame : view done = view (RequestForm.normalized obj))
  | quarantined (obj : Dict) (hobj : objects.lookup name = some obj) (hinvalid : RequestForm.normalized obj ∈ invalid)
  | removed (hgone : ∀ obj, objects.lookup name = some obj → isDeleting (RequestForm.normalized obj) = true)
    (hnone : ∀ done fenced, .added done fenced ∈ work → nameOf done ≠ some name)
    (hdeleted : name ∈ pools → ∃ orphan fenced, .deleted orphan fenced ∈ work ∧ nameOf orphan.object = some name)

/-- Two plans ask for the same, as far as handlers read it. -/
structure Agrees (r c : Plan) : Prop where
  items : (r.items.map view).Perm (c.items.map view)
  invalid : (r.invalidItems.map view).Perm (c.invalidItems.map view)
  orphans : ∀ orphan ∈ r.deletionOrphans, ∃ orphan' ∈ c.deletionOrphans, view orphan'.object = view orphan.object

omit [RequestForm] in
theorem Agrees.refl (c : Plan) : Agrees c c := ⟨.refl _, .refl _, fun orphan h => ⟨orphan, h, rfl⟩⟩

omit [RequestForm] in
theorem Agrees.of_planFingerprint [JsonText] (h : planFingerprint r = planFingerprint c) : Agrees r c :=
  ⟨items_of_planFingerprint h, invalidItems_of_planFingerprint h, orphans_of_planFingerprint h⟩

omit [RequestForm] in
/-- What has one view is in both of two lists. -/
theorem exists_of_view {as bs : List Dict} (h : (as.map view).Perm (bs.map view)) {a : Dict} (ha : a ∈ as) :
    ∃ b ∈ bs, view b = view a :=
  List.mem_map.mp (h.subset (List.mem_map_of_mem ha))

/-- An object of a plan is the custom resource of its name. -/
theorem Listed.named {obj : Dict} {name : String} (h : Listed t r) (hobj : obj ∈ r.items) (hname : nameOf obj = some name) :
    ∃ o, (t.state r.resourceVersion).lookup name = some o ∧ RequestForm.normalized o = obj := by
  rw [h.items] at hobj
  obtain ⟨o, ho, rfl⟩ := List.mem_map.mp hobj
  obtain ⟨name', hlookup⟩ := mem_objectsAt.mp ho
  rw [RequestForm.nameOf_normalized, state_named hlookup] at hname
  cases hname
  exact ⟨o, hlookup, rfl⟩

theorem Listed.mem_reconcileItems {obj : Dict} (h : Listed t r) : obj ∈ r.reconcileItems ↔
    obj ∈ r.items ∧ isDeleting obj = false ∧ ∀ invalid ∈ r.invalidItems, nameOf invalid ≠ nameOf obj := by
  rw [h.active, List.mem_filter]
  simp

omit [RequestForm] in
theorem mem_work_added {done : Dict} {fenced fenced' : Bool} :
    Work.added done fenced' ∈ c.work fenced ↔ fenced' = fenced ∧ done ∈ c.reconcileItems ∧ isDeleting done = false := by
  unfold Plan.work
  constructor
  · intro h
    rcases List.mem_append.mp h with h | h
    · rcases List.mem_append.mp h with h | h
      · split at h
        · obtain ⟨o, -, ho⟩ := List.mem_map.mp h
          cases ho
        · cases h
      · obtain ⟨o, ho, heq⟩ := List.mem_map.mp h
        cases heq
        exact ⟨rfl, by simpa using ho⟩
    · obtain ⟨o, -, ho⟩ := List.mem_map.mp h
      cases ho
  · rintro ⟨rfl, hmem, hactive⟩
    exact List.mem_append_left _ (List.mem_append_right _ (List.mem_map.mpr ⟨done, List.mem_filter.mpr ⟨hmem, by simp [hactive]⟩, rfl⟩))

/-- **A removed custom resource.** The orphan of its pool is handled. -/
theorem contained_removed {fenced : Bool} {name : String} (hr : Listed t r) (hcovers : Covers t r) (hc : Listed t c)
    (h : Agrees r c) (hvalid : ∀ invalid ∈ r.invalidItems, nameOf invalid ≠ some name)
    (hgone : ∀ obj, (t.state r.resourceVersion).lookup name = some obj → isDeleting (RequestForm.normalized obj) = true) :
    Contained (c.work fenced) t.pools r.invalidItems (t.state r.resourceVersion) name := by
  have habsent : ∀ obj ∈ r.items, isDeleting obj = false → nameOf obj ≠ some name := by
    intro obj hobj hactive hname
    obtain ⟨o, hlookup, rfl⟩ := hr.named hobj hname
    rw [hgone o hlookup] at hactive
    cases hactive
  refine .removed hgone (fun done fenced' hdone hname => ?_) fun hpool => ?_
  · obtain ⟨-, hdone, hactive⟩ := mem_work_added.mp hdone
    obtain ⟨obj, hobj, hsame⟩ := exists_of_view h.items.symm (hc.mem_reconcileItems.mp hdone).1
    exact habsent obj hobj (isDeleting_of_view hsame ▸ hactive) (nameOf_of_view hsame ▸ hname)
  · rcases hcovers name hpool with ⟨obj, hobj, hname⟩ | ⟨orphan, horphan, hname⟩
    · rcases List.mem_append.mp hobj with hobj | hobj
      · obtain ⟨hmem, hactive, -⟩ := hr.mem_reconcileItems.mp hobj
        exact absurd hname (habsent obj hmem hactive)
      · exact absurd hname (hvalid obj hobj)
    · obtain ⟨orphan', horphan', hsame⟩ := h.orphans orphan horphan
      exact ⟨orphan', fenced, List.mem_append_right _ (List.mem_map_of_mem horphan'), nameOf_of_view hsame ▸ hname⟩

/-- **Every custom resource** is contained in the work of a plan that agrees with a list of them. -/
theorem contained_of_agrees (fenced : Bool) (hr : Listed t r) (hcovers : Covers t r) (hc : Listed t c) (h : Agrees r c)
    (name : String) : Contained (c.work fenced) t.pools r.invalidItems (t.state r.resourceVersion) name := by
  by_cases hvalid : ∀ invalid ∈ r.invalidItems, nameOf invalid ≠ some name
  · by_cases hgone : ∀ obj, (t.state r.resourceVersion).lookup name = some obj →
      isDeleting (RequestForm.normalized obj) = true
    · exact contained_removed hr hcovers hc h hvalid hgone
    · obtain ⟨obj, hobj, hactive⟩ : ∃ obj, (t.state r.resourceVersion).lookup name = some obj ∧
          isDeleting (RequestForm.normalized obj) = false := by
        push Not at hgone
        simpa using hgone
      have hmem : RequestForm.normalized obj ∈ r.items := by
        rw [hr.items]
        exact List.mem_map_of_mem (mem_objectsAt.mpr ⟨name, hobj⟩)
      have hname : nameOf (RequestForm.normalized obj) = some name := by
        rw [RequestForm.nameOf_normalized, state_named hobj]
      obtain ⟨done, hdone, hsame⟩ := exists_of_view h.items hmem
      have hactive' : isDeleting done = false := (isDeleting_of_view hsame).trans hactive
      refine .reconciled obj done fenced hobj (mem_work_added.mpr ⟨rfl, hc.mem_reconcileItems.mpr
        ⟨hdone, hactive', fun invalid hinvalid heq => ?_⟩, hactive'⟩) hsame
      obtain ⟨invalid', hinvalid', hsame'⟩ := exists_of_view h.invalid.symm hinvalid
      refine hvalid invalid' hinvalid' ?_
      rw [nameOf_of_view hsame', heq, nameOf_of_view hsame, hname]
  · obtain ⟨invalid, hinvalid, hname⟩ : ∃ invalid ∈ r.invalidItems, nameOf invalid = some name := by
      push Not at hvalid
      exact hvalid
    obtain ⟨obj, hobj, rfl⟩ := hr.named (hr.invalid invalid hinvalid) hname
    exact .quarantined obj hobj hinvalid

/-! ## The loops -/

variable [JsonText]

/-- The plan `c` of a list is what the handlers were given last, and the result `r` asks for the same: it has the fingerprint of
`c`, or it is `c` as its handlers have left it. -/
structure Reconciled (t : World) (c r : Plan) (fenced : Bool) : Prop where
  listed : Listed t c
  last : ∃ earlier, t.handled = (c.work fenced).reverse ++ earlier
  fingerprint : planFingerprint r = planFingerprint c ∨ ∃ after, r = c.afterHandlers after

/-- What holds when a loop returns `r`. Every change of a custom resource, of the past or of the future, is delivered by the watch
from the version of `r`, or the custom resource is contained in what the handlers were given last. -/
structure Settled (t : World) (r : Plan) : Prop where
  rolledOut : t.rolledOut = some r.nodepluginTolerations
  reconciled : ∃ c fenced, Reconciled t c r fenced ∧ ∀ t', Later t t' → ∀ e ∈ t'.edits,
    e ∈ t'.watchFrom r.resourceVersion ∨
      Contained (c.work fenced) t.pools r.invalidItems (t'.state r.resourceVersion) e.2.name

omit [RequestForm] [JsonText] in
/-- A change is in the watch from a revision, or not later. -/
theorem watched_or {version : Nat} {P : String → Prop} {t' : World} (h : ∀ name, P name) :
    ∀ e ∈ t'.edits, e ∈ t'.watchFrom version ∨ P e.2.name := by
  intro e he
  by_cases hv : version < e.1
  · exact .inl (List.mem_filter.mpr ⟨he, decide_eq_true hv⟩)
  · exact .inr (h e.2.name)

/-- A fresh plan with the fingerprint of the plan that was reconciled. -/
theorem settled_fresh {fenced : Bool} {earlier : List Work} (hlisted : Listed t r) (hcovers : Covers t r) (hc : Listed t c)
    (hrolled : t.rolledOut = some r.nodepluginTolerations) (hlast : t.handled = (c.work fenced).reverse ++ earlier)
    (hsame : planFingerprint r = planFingerprint c) : Settled t r := by
  refine ⟨hrolled, c, fenced, ⟨hc, ⟨earlier, hlast⟩, .inl hsame⟩, fun t' hl => watched_or ?_⟩
  rw [hl.state hlisted.version]
  exact contained_of_agrees _ hlisted hcovers hc (.of_planFingerprint hsame)

/-- The plan that was reconciled itself, as its handlers have left it. -/
theorem settled_candidate {fenced : Bool} {earlier : List Work} {after : List Dict} (hlisted : Listed t c)
    (hcovers : Covers t c) (hrolled : t.rolledOut = some c.nodepluginTolerations)
    (hlast : t.handled = (c.work fenced).reverse ++ earlier) : Settled t (c.afterHandlers after) := by
  refine ⟨hrolled, c, fenced, ⟨hlisted, ⟨earlier, hlast⟩, .inr ⟨after, rfl⟩⟩, fun t' hl => watched_or ?_⟩
  have hcontained := contained_of_agrees fenced hlisted hcovers hlisted (.refl c)
  rwa [← hl.state hlisted.version] at hcontained

theorem Settled.aside {u : World} (h : Settled t r) (ha : Aside t u) : Settled u r := by
  obtain ⟨hrolled, c, fenced, ⟨hlisted, ⟨earlier, hlast⟩, hsame⟩, hcontained⟩ := h
  refine ⟨ha.rolledOut.trans hrolled, c, fenced,
    ⟨hlisted.later ha.later, ⟨earlier, ha.handled.trans hlast⟩, hsame⟩, fun t' hl => ?_⟩
  rw [ha.pools]
  exact hcontained t' (ha.later.trans hl)

omit [RequestForm] [JsonText] in
/-- After its handlers a plan still covers the pools. -/
theorem Covers.handled {fenced : Bool} (h : Covers s plan) (hw : Handled (plan.work fenced) s t) : Covers t plan := by
  intro pool hpool
  rcases hw.pools pool hpool with hpool | ⟨done, hdone, hadds⟩
  · exact h pool hpool
  · cases done with
    | added obj fenced' => exact .inl ⟨obj, List.mem_append_left _ (mem_work_added.mp hdone).2.1, hadds⟩
    | deployed obj => exact hadds.elim
    | deleted orphan fenced' => exact hadds.elim

theorem stableRounds_settled {fuel : Nat} {gated : List Toleration} {candidate : Plan} (hg : s.rolledOut = some gated)
    (hlisted : Listed s candidate) : Ensures (stableRounds fuel gated candidate) s fun r t => Settled t r := by
  induction fuel generalizing gated candidate s with
  | zero => exact trivial
  | succ fuel ih =>
    refine ensures_bind (reconcileStoragePlan_handled candidate s) fun _ t ht => ?_
    refine ensures_bind (prepare_ensures t) fun fresh u hu => ?_
    refine ensures_bind (gateNodepluginUntilCurrent_gated (s := u) ?_) fun r v hv => ?_
    · rintro g ⟨⟩
      rw [hu.1.rolledOut, ht.rolledOut, hg]
    · have hlater := (ht.later.trans hu.1.later).trans hv.later
      split
      · next hsame =>
        exact ensures_pure (settled_fresh hv.listed hv.covers (hlisted.later hlater) hv.rolledOut
          (hv.handled.trans (hu.1.handled.trans ht.handled)) hsame)
      · exact ih hv.rolledOut hv.listed

/-- The loop under the fence, for a plan whose tolerations are rolled out. -/
theorem reconcileStorageUntilStable_settled (fuel : Nat) (hrolled : s.rolledOut = some plan.nodepluginTolerations)
    (hlisted : Listed s plan) : Ensures (reconcileStorageUntilStable fuel plan) s fun r t => Settled t r :=
  stableRounds_settled hrolled hlisted

theorem reconcileFencedWatchStorage_settled (fuel : Nat) {current : Option (List Toleration)}
    (hcurrent : ∀ g, current = some g → s.rolledOut = some g) :
    Ensures (reconcileFencedWatchStorage fuel plan current) s fun r t => Settled t r := by
  refine ensures_bind (P := fun _ t => Aside s t) (ensures_ask fun _ _ hs => hs) fun _ t ht => ?_
  refine ensures_bind (P := fun _ u => Aside t u) (ensures_ask fun _ _ hs => hs) fun _ u hu => ?_
  have hcurrent' : ∀ g, current = some g → u.rolledOut = some g := fun g hg => by
    rw [hu.rolledOut, ht.rolledOut, hcurrent g hg]
  refine ensures_bind (P := fun r v => Settled v r) (ensures_tryCatch ?_ fun e v => ?_) fun r v hv => ?_
  · exact ensures_bind (gateNodepluginUntilCurrent_gated hcurrent') fun r v hv =>
      reconcileStorageUntilStable_settled fuel hv.rolledOut hv.listed
  · exact ensures_bind (P := fun _ _ => True) (ensures_ask fun _ _ _ => trivial) fun _ _ _ => ensures_throw e
  refine ensures_tryCatch ?_ fun e v => ?_
  · refine ensures_bind (P := fun _ w => Settled w r) (ensures_ask fun _ _ hs => hv.aside hs) fun _ w hw => ?_
    refine ensures_bind (P := fun _ x => Settled x r) (ensures_ask fun _ _ hs => hw.aside hs) fun _ x hx => ?_
    exact ensures_bind (P := fun _ y => Settled y r) (ensures_ask fun _ _ hs => hx.aside hs) fun _ _ hy => ensures_pure hy
  · refine ensures_bind (P := fun _ _ => True) (ensures_ask fun _ _ _ => trivial) fun _ _ _ => ?_
    exact ensures_bind (P := fun _ _ => True) (ensures_ask fun _ _ _ => trivial) fun _ _ _ => ensures_throw e

theorem watchRounds_settled {fuel : Nat} {current : Option (List Toleration)} {candidate : Plan}
    (hcurrent : ∀ g, current = some g → s.rolledOut = some g) (hlisted : Listed s candidate) (hcovers : Covers s candidate) :
    Ensures (watchRounds fuel current candidate) s fun r t => Settled t r := by
  induction fuel generalizing candidate s with
  | zero => exact trivial
  | succ fuel ih =>
    unfold watchRounds
    split
    · exact reconcileFencedWatchStorage_settled fuel hcurrent
    next htolerations =>
    have hrolled := hcurrent _ (not_not.mp htolerations)
    refine ensures_bind (reconcileInitialStorage_handled false _ s) fun after t ht => ?_
    refine ensures_bind (reconcileDeletionOrphans_handled false _ _ t) fun _ u hu => ?_
    -- without the fence no servers are touched
    have hwork : Handled (candidate.work false) s u := by
      have happend := ht.append hu
      simpa [Plan.work] using happend
    split
    · exact ensures_pure (settled_candidate (hlisted.later hwork.later) (hcovers.handled hwork)
        (hwork.rolledOut.trans hrolled) hwork.handled)
    refine ensures_bind (prepare_ensures u) fun fresh v hv => ?_
    dsimp only
    split
    · next hsame =>
      refine ensures_pure (settled_fresh hv.2.1 hv.2.2 (hlisted.later (hwork.later.trans hv.1.later)) ?_
        (hv.1.handled.trans hwork.handled) hsame)
      rw [tolerations_of_planFingerprint hsame, hv.1.rolledOut, hwork.rolledOut, hrolled]
    · refine ih (fun g hg => ?_) hv.2.1 hv.2.2
      rw [hv.1.rolledOut, hwork.rolledOut, hcurrent g hg]

/-- The loop of the watch. -/
theorem reconcileWatchStorageUntilStable_settled (fuel : Nat) (hlisted : Listed s plan) (hcovers : Covers s plan) :
    Ensures (reconcileWatchStorageUntilStable fuel plan) s fun r t => Settled t r := by
  refine ensures_bind (P := fun (current : Option (List Toleration)) t =>
    Later s t ∧ t.pools = s.pools ∧ ∀ g, current = some g → t.rolledOut = some g)
    (ensures_ask fun current t hs => ?_) fun current t ht => ?_
  · obtain ⟨hlater, -, hpools, -, ⟨hanswer, hrolled⟩ | ⟨hnone, -⟩⟩ := hs
    · cases hanswer
      refine ⟨hlater, hpools, ?_⟩
      rintro g ⟨⟩
      exact hrolled
    · refine ⟨hlater, hpools, ?_⟩
      rintro g rfl
      exact absurd rfl (hnone g)
  · refine watchRounds_settled ht.2.2 (hlisted.later ht.1) ?_
    unfold Covers
    rw [ht.2.1]
    exact hcovers

/-- **No change is lost.** In every run of a loop over a plan of a list that returns, the result is settled. The loop under the
fence is entered when the tolerations of its plan are rolled out, which is what the gate before it has seen. -/
theorem no_change_lost {fuel : Nat} (hlisted : Listed s plan) (hcovers : Covers s plan) :
    (∀ r t, Exec sem (reconcileWatchStorageUntilStable fuel plan) s (ret r) t → Settled t r) ∧
      (∀ gated r t, Exec sem (gateNodepluginUntilCurrent fuel gated plan >>= reconcileStorageUntilStable fuel) s (ret r) t →
        (∀ g, gated = some g → s.rolledOut = some g) → Settled t r) ∧
      (s.rolledOut = some plan.nodepluginTolerations →
        ∀ r t, Exec sem (reconcileStorageUntilStable fuel plan) s (ret r) t → Settled t r) := by
  refine ⟨fun r t hr => ?_, fun gated r t hr hg => ?_, fun hrolled r t hr => ?_⟩
  · exact ensures_exec (reconcileWatchStorageUntilStable_settled fuel hlisted hcovers) hr
  · have hgate : Ensures (gateNodepluginUntilCurrent fuel gated plan >>= reconcileStorageUntilStable fuel) s
        fun r t => Settled t r :=
      ensures_bind (gateNodepluginUntilCurrent_gated hg) fun _ _ hu =>
        reconcileStorageUntilStable_settled fuel hu.rolledOut hu.listed
    exact ensures_exec hgate hr
  · exact ensures_exec (reconcileStorageUntilStable_settled fuel hrolled hlisted) hr

end

/-! ## A run with a change -/

abbrev sampleJson : JsonText := ⟨fun _ => "", fun _ => ""⟩

abbrev sampleForm : RequestForm := ⟨id, fun _ => rfl⟩

attribute [local instance] sampleJson sampleForm

/-- A pool with a policy. -/
def sampleObject (policy : String) : Dict :=
  [("metadata", .obj [("name", .str "pool"), ("uid", .str "u")]), ("spec", .obj [("pvReclaimPolicy", .str policy)])]

/-- The orphan of a pool without an object. -/
def sampleOrphan (pool : String) : Orphan where
  object := [("metadata", .obj [("name", .str pool)])]
  record := []
  legacyStorageUid := none
  legacyQuarantine := false
  cleanupQuarantine := false

/-- The plan of a list of the cluster as it is; no object is invalid. -/
def samplePlan (s : World) : Plan :=
  let items := s.objectsAt s.revision
  let active := items.filter fun obj => !isDeleting obj
  { items, reconcileItems := active, invalidItems := [], resourceVersion := s.revision, upgradeObjects := [],
    deletionOrphans := (s.pools.filter fun pool => !active.any fun obj => nameOf obj = some pool).map sampleOrphan,
    nodepluginTolerations := [] }

/-- A pool, and its nodeplugins. -/
def sampleWorld : World :=
  { revision := 1, edits := [(1, .put "pool" (sampleObject "delete") rfl)], rolledOut := some [] }

/-- While the first handler is at work the policy of the pool is changed. -/
def sampleChange (s : World) : World :=
  if s.revision = 1 then { s with revision := 2, edits := s.edits ++ [(2, .put "pool" (sampleObject "retain") rfl)] } else s

def sampleAnswer : (r : PlanRequest) → World → Except OpErr r.Answer × World
  | .prepare, s => (.ok (samplePlan s), s)
  | .handleAdded obj fenced, s =>
    (.ok (true, obj),
      { sampleChange s with pools := (nameOf obj).toList ++ s.pools, handled := .added obj fenced :: s.handled })
  | .rollOut _, s | .awaitRollout _, s | .currentTolerations, s | .deployServers _, s | .handleDeleted _ _ _, s
  | .clearOperatorReady, s | .quiesceCsiProvisioner, s | .resumeCsiProvisioner, s | .waitForCsiProvisionerRollout, s
  | .markOperatorReady, s => (.error .other, s)

theorem samplePlan_listed (s : World) : Listed s (samplePlan s) where
  version := Nat.le_refl _
  items := (List.map_id _).symm
  active := by simp [samplePlan]
  invalid _ h := absurd h List.not_mem_nil

theorem samplePlan_covers (s : World) : Covers s (samplePlan s) := by
  intro pool hpool
  by_cases hactive : ∃ obj ∈ (samplePlan s).reconcileItems, nameOf obj = some pool
  · obtain ⟨obj, hobj, hname⟩ := hactive
    exact .inl ⟨obj, List.mem_append_left _ hobj, hname⟩
  · refine .inr ⟨sampleOrphan pool, List.mem_map_of_mem (List.mem_filter.mpr ⟨hpool, ?_⟩), rfl⟩
    simpa [samplePlan] using hactive

theorem sampleChange_later (s : World) : World.Later s (sampleChange s) := by
  unfold sampleChange
  split
  · next h => exact ⟨by simp [h], _, rfl, by simp [h]⟩
  · exact .refl s

theorem sampleAnswer_sem (r : PlanRequest) (s : World) : sem r s (sampleAnswer r s).1 (sampleAnswer r s).2 := by
  have haside : Aside s s := ⟨.refl s, rfl, rfl, rfl, rfl⟩
  have hhandler : ∀ {P : Prop} (work : Work), ¬P → Handler s s P work := fun work hP =>
    ⟨.refl s, fun _ => .inl, rfl, rfl, fun h => absurd h hP⟩
  cases r with
  | prepare =>
    refine ⟨haside, ?_⟩
    rintro plan ⟨⟩
    exact ⟨samplePlan_listed s, samplePlan_covers s⟩
  | handleAdded obj fenced =>
    have hlater := sampleChange_later s
    refine ⟨⟨hlater.revision, hlater.edits⟩, fun pool hpool => ?_, ?_, ?_, fun _ => rfl⟩
    · rcases List.mem_append.mp hpool with hpool | hpool
      · exact .inr (Option.mem_toList.mp hpool)
      · exact .inl hpool
    · simp only [sampleAnswer, sampleChange]
      split <;> rfl
    · simp only [sampleAnswer, sampleChange]
      split <;> rfl
  | rollOut _ => exact ⟨.refl s, rfl, rfl, .inr ⟨⟨_, rfl⟩, rfl, rfl⟩⟩
  | awaitRollout _ => exact ⟨.refl s, rfl, rfl, rfl, .inr ⟨⟨_, rfl⟩, rfl⟩⟩
  | currentTolerations => exact ⟨.refl s, rfl, rfl, rfl, .inr ⟨nofun, rfl⟩⟩
  | deployServers _ => exact hhandler _ nofun
  | handleDeleted _ _ _ => exact hhandler _ nofun
  | clearOperatorReady => exact haside
  | quiesceCsiProvisioner => exact haside
  | resumeCsiProvisioner => exact haside
  | waitForCsiProvisionerRollout => exact haside
  | markOperatorReady => exact haside

/-- The loop, in which the first plan is given to its handlers, and then the changed one. -/
def sampleRun : PlanProg Plan × World := replay sampleAnswer 9 (reconcileStorageUntilStable 4 (samplePlan sampleWorld)) sampleWorld

theorem sample_settled : Settled sampleRun.2 (samplePlan sampleRun.2) ∧ sampleRun.2.handled.length = 2 := by
  have hended : sampleRun.1 = ret (samplePlan sampleRun.2) := rfl
  have hrun : Exec sem (reconcileStorageUntilStable 4 (samplePlan sampleWorld)) sampleWorld
      (ret (samplePlan sampleRun.2)) sampleRun.2 := hended ▸ exec_replay sampleAnswer_sem 9 _ _
  exact ⟨(no_change_lost (samplePlan_listed _) (samplePlan_covers _)).2.2 rfl _ _ hrun, rfl⟩

end Kadalu.Snapshot
