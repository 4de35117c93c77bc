import Kadalu.Operator.Api
import Kadalu.Operator.Fingerprint

/-!
# Storage plans

The operator lists the custom resources, makes a plan of the list, and hands the objects of the plan to their handlers. It
does so until a list that it takes after the handlers asks for the same as the plan that they were given.

* `planFingerprint`: what a plan asks for.
* `gateNodepluginUntilCurrent`, `reconcileStorageUntilStable`, `reconcileWatchStorageUntilStable`: the loops.
-/

namespace Kadalu.Snapshot

open Calls Operator Fingerprint

/-! ## Plans -/

/-- A toleration as `_normalized_toleration` leaves it; an empty field is left out. -/
structure Toleration where
  operator : String
  key : String
  effect : String
  value : String
  tolerationSeconds : Option Int
  deriving DecidableEq, Repr

def optionalField (name : String) (value : Option Json) : Dict := (value.map (name, ·)).toList

/-- A text that is left out when it is empty. -/
def textValue (value : String) : Option Json := if value = "" then none else some (.str value)

/-- The dictionary of a toleration. -/
def Toleration.dict (t : Toleration) : Dict :=
  [("operator", .str t.operator)] ++ optionalField "key" (textValue t.key) ++
    optionalField "effect" (textValue t.effect) ++ optionalField "value" (textValue t.value) ++
    optionalField "tolerationSeconds" (t.tolerationSeconds.map .num)

/-- A pool whose deletion is to be repeated. -/
structure Orphan where
  object : Dict
  record : Dict
  legacyStorageUid : Option String
  legacyQuarantine : Bool
  cleanupQuarantine : Bool

/-- What `prepare_storage_upgrade` makes of one list. -/
structure Plan where
  items : List Dict
  reconcileItems : List Dict
  invalidItems : List Dict
  resourceVersion : Nat
  upgradeObjects : List Dict
  deletionOrphans : List Orphan
  nodepluginTolerations : List Toleration

/-! ## Fingerprints -/

/-- `bool(value)` -/
def isTruthy : Json → Bool
  | .null => false
  | .bool value => value
  | .num value => value ≠ 0
  | .str value => value ≠ ""
  | .arr values => !values.isEmpty
  | .obj fields => !fields.isEmpty

/-- `obj.get("metadata") or {}` -/
def metadata (obj : Dict) : Dict :=
  match obj.getD "metadata" .null with
  | .obj fields => fields
  | _ => []

def textOf : Json → Option String
  | .str text => some text
  | _ => none

/-- The name of an object. -/
def nameOf (obj : Dict) : Option String := textOf (Dict.getD (metadata obj) "name" .null)

def isDeleting (obj : Dict) : Bool := isTruthy (Dict.getD (metadata obj) "deletionTimestamp" .null)

def isNull : Json → Bool
  | .null => true
  | _ => false

/-- `_storage_object_fingerprint` -/
def objectFingerprint (obj : Dict) : Dict :=
  let deletion := Dict.getD (metadata obj) "deletionTimestamp" .null
  let desired : Dict :=
    [("name", Dict.getD (metadata obj) "name" .null), ("uid", Dict.getD (metadata obj) "uid" .null)]
  [("metadata", .obj (if isNull deletion then desired else desired ++ [("deletionTimestamp", deletion)])),
    ("spec", obj.getD "spec" .null)]

/-- The key of `sorted` is a pair of texts. -/
def keyedLe (a b : (String × String) × Json) : Prop := a.1.1 < b.1.1 ∨ a.1.1 = b.1.1 ∧ a.1.2 ≤ b.1.2

instance : DecidableRel keyedLe := fun a b => inferInstanceAs (Decidable (a.1.1 < b.1.1 ∨ a.1.1 = b.1.1 ∧ a.1.2 ≤ b.1.2))

/-- `sorted` -/
def sortedBy (values : List ((String × String) × Json)) : List Json := (values.insertionSort keyedLe).map Prod.snd

section

variable [JsonText]

/-- The key by which objects are sorted. -/
def objectKey (obj : Dict) : String × String :=
  (pyStr (Dict.getD (metadata obj) "name" (.str "")), pyStr (Dict.getD (metadata obj) "uid" (.str "")))

/-- The fingerprints of objects with their keys; a fingerprint has both fields, so the default of its key is not used. -/
def keyedObject (obj : Dict) : (String × String) × Json :=
  (objectKey [("metadata", .obj [("name", Dict.getD (metadata obj) "name" .null),
    ("uid", Dict.getD (metadata obj) "uid" .null)])], .obj (objectFingerprint obj))

def keyedOrphan (orphan : Orphan) : (String × String) × Json :=
  ((keyedObject orphan.object).1,
    .obj [("object", .obj (objectFingerprint orphan.object)), ("record", .obj orphan.record),
      ("legacy_storage_uid", match orphan.legacyStorageUid with
        | some uid => .str uid
        | none => .null),
      ("legacy_quarantine", .bool orphan.legacyQuarantine), ("cleanup_quarantine", .bool orphan.cleanupQuarantine)])

/-- Servers are sorted by their name alone. -/
def keyedServer (obj : Dict) : (String × String) × Json := ((pyStr (Dict.getD (metadata obj) "name" (.str "")), ""), .obj obj)

/-- The dictionary that `_storage_plan_fingerprint` serialises. -/
def planDict (plan : Plan) : Dict :=
  [("items", .arr (sortedBy (plan.items.map keyedObject))),
    ("invalid_items", .arr (sortedBy (plan.invalidItems.map keyedObject))),
    ("upgrade_objects", .arr (sortedBy (plan.upgradeObjects.map keyedServer))),
    ("deletion_orphans", .arr (sortedBy (plan.deletionOrphans.map keyedOrphan))),
    ("nodeplugin_tolerations", .arr (plan.nodepluginTolerations.map fun t => .obj t.dict))]

/-- `_storage_plan_fingerprint`: two values have one text with `sort_keys` if and only if they are the same with their keys in
order. -/
def planFingerprint (plan : Plan) : Json := (Json.obj (planDict plan)).sortKeys

end

/-! ## What one fingerprint says -/

theorem lookup_optionalField (k name : String) (value : Option Json) :
    (optionalField name value).lookup k = if k = name then value else none := by
  cases value with
  | none =>
    rw [ite_self]
    rfl
  | some v => exact Dict.lookup_field k name v []

theorem keys_optionalField (name : String) (value : Option Json) : ((optionalField name value).map Prod.fst).Sublist [name] := by
  cases value with
  | none => exact List.nil_sublist _
  | some v => exact List.Sublist.refl _

theorem sortKeys_textValue (value : String) : (textValue value).map Json.sortKeys = textValue value := by
  unfold textValue
  split <;> simp [Json.sortKeys]

theorem textValue_injective : Function.Injective textValue := by
  intro a b h
  unfold textValue at h
  by_cases ha : a = "" <;> by_cases hb : b = "" <;> simp_all

namespace Toleration

theorem dict_nodup (t : Toleration) : (t.dict.map Prod.fst).Nodup := by
  have hkeys : (t.dict.map Prod.fst).Sublist (["operator"] ++ ["key"] ++ ["effect"] ++ ["value"] ++ ["tolerationSeconds"]) := by
    simp only [dict, List.map_append]
    exact ((((List.Sublist.refl _).append (keys_optionalField _ _)).append (keys_optionalField _ _)).append
      (keys_optionalField _ _)).append (keys_optionalField _ _)
  exact hkeys.nodup (by decide)

/-- What a toleration has under a key. -/
theorem lookup_dict (t : Toleration) (k : String) :
    t.dict.lookup k =
      if k = "operator" then some (.str t.operator)
      else if k = "key" then textValue t.key
      else if k = "effect" then textValue t.effect
      else if k = "value" then textValue t.value
      else if k = "tolerationSeconds" then t.tolerationSeconds.map .num
      else none := by
  have hnil : List.lookup k ([] : Dict) = none := rfl
  simp only [dict, List.lookup_append, lookup_optionalField, Dict.lookup_field, hnil]
  by_cases hop : k = "operator"
  · subst hop
    simp
  by_cases hkey : k = "key"
  · subst hkey
    simp
  by_cases heffect : k = "effect"
  · subst heffect
    simp
  by_cases hvalue : k = "value"
  · subst hvalue
    simp
  simp [hop, hkey, heffect, hvalue]

/-- Two tolerations with one text are the same. -/
theorem dict_injective : Function.Injective fun t : Toleration => (Json.obj t.dict).sortKeys := by
  intro t u h
  have hlookup := Json.lookup_of_sortKeys_eq h t.dict_nodup u.dict_nodup
  have hop := hlookup "operator"
  have hkey := hlookup "key"
  have heffect := hlookup "effect"
  have hvalue := hlookup "value"
  have hseconds := hlookup "tolerationSeconds"
  simp only [lookup_dict, String.reduceEq, if_true, if_false, sortKeys_textValue, textValue_injective.eq_iff,
    Option.map_some, Option.map_map, Option.some.injEq, Json.sortKeys, Json.str.injEq] at hop hkey heffect hvalue hseconds
  have hnum : Function.Injective (Json.sortKeys ∘ Json.num) := fun a b h => by simpa [Json.sortKeys] using h
  obtain ⟨operator, key, effect, value, seconds⟩ := t
  obtain ⟨operator', key', effect', value', seconds'⟩ := u
  obtain rfl := hop
  obtain rfl := hkey
  obtain rfl := heffect
  obtain rfl := hvalue
  obtain rfl := Option.map_injective hnum hseconds
  rfl

end Toleration

/-- What reconciliation reads of an object. -/
def view (obj : Dict) : Json := (Json.obj (objectFingerprint obj)).sortKeys

theorem isTruthy_sortKeys (value : Json) : isTruthy value.sortKeys = isTruthy value := by
  cases value with
  | arr values => cases values <;> rfl
  | obj fields =>
    have hempty : (Json.sortFields fields).isEmpty = fields.isEmpty := by
      rcases fields with _ | ⟨⟨k, v⟩, rest⟩ <;> rfl
    simp only [Json.sortKeys, isTruthy, (List.perm_insertionSort Json.keyLe _).isEmpty_eq, hempty]
  | _ => rfl

theorem textOf_sortKeys (value : Json) : textOf value.sortKeys = textOf value := by
  cases value <;> rfl

/-- The fields of `metadata` in a fingerprint. -/
def viewedMetadata (obj : Dict) : Dict :=
  let desired : Dict := [("name", Dict.getD (metadata obj) "name" .null), ("uid", Dict.getD (metadata obj) "uid" .null)]
  if isNull (Dict.getD (metadata obj) "deletionTimestamp" .null) then desired
  else desired ++ [("deletionTimestamp", Dict.getD (metadata obj) "deletionTimestamp" .null)]

theorem viewedMetadata_nodup (obj : Dict) : ((viewedMetadata obj).map Prod.fst).Nodup := by
  unfold viewedMetadata
  dsimp only
  split
  · show (["name", "uid"] : List String).Nodup
    decide
  · show (["name", "uid", "deletionTimestamp"] : List String).Nodup
    decide

/-- What two objects with one fingerprint have in their metadata. -/
theorem lookup_of_view {a b : Dict} (h : view a = view b) (k : String) :
    ((viewedMetadata a).lookup k).map Json.sortKeys = ((viewedMetadata b).lookup k).map Json.sortKeys := by
  have hkeys : ∀ obj : Dict, ((objectFingerprint obj).map Prod.fst).Nodup := fun obj => by
    show (["metadata", "spec"] : List String).Nodup
    decide
  have hmetadata : (Json.obj (viewedMetadata a)).sortKeys = (Json.obj (viewedMetadata b)).sortKeys :=
    Option.some.inj (Json.lookup_of_sortKeys_eq h (hkeys a) (hkeys b) "metadata")
  exact Json.lookup_of_sortKeys_eq hmetadata (viewedMetadata_nodup a) (viewedMetadata_nodup b) k

theorem nameOf_of_view {a b : Dict} (h : view a = view b) : nameOf a = nameOf b := by
  have hlookup : ∀ obj : Dict, (viewedMetadata obj).lookup "name" = some (Dict.getD (metadata obj) "name" .null) := fun obj => by
    unfold viewedMetadata
    dsimp only
    split <;> rfl
  have hname := lookup_of_view h "name"
  rw [hlookup, hlookup] at hname
  have hname := Option.some.inj hname
  unfold nameOf
  rw [← textOf_sortKeys, hname, textOf_sortKeys]

theorem isDeleting_of_view {a b : Dict} (h : view a = view b) : isDeleting a = isDeleting b := by
  have hlookup : ∀ obj : Dict, isDeleting obj =
      (((viewedMetadata obj).lookup "deletionTimestamp").map Json.sortKeys).any isTruthy := fun obj => by
    unfold viewedMetadata isDeleting
    dsimp only
    generalize Dict.getD (metadata obj) "deletionTimestamp" .null = deletion
    cases deletion with
    | null => rfl
    | _ => exact (isTruthy_sortKeys _).symm
  rw [hlookup, hlookup, lookup_of_view h]

theorem sortedBy_perm (values : List ((String × String) × Json)) : (sortedBy values).Perm (values.map Prod.snd) :=
  (List.perm_insertionSort keyedLe values).map Prod.snd

section

variable [JsonText] {r c : Plan}

theorem planDict_nodup (plan : Plan) : ((planDict plan).map Prod.fst).Nodup := by
  show (["items", "invalid_items", "upgrade_objects", "deletion_orphans", "nodeplugin_tolerations"] : List String).Nodup
  decide

theorem lookup_planFingerprint (h : planFingerprint r = planFingerprint c) (k : String) :
    ((planDict r).lookup k).map Json.sortKeys = ((planDict c).lookup k).map Json.sortKeys :=
  Json.lookup_of_sortKeys_eq h (planDict_nodup r) (planDict_nodup c) k

/-- A list that a plan has under a key of its fingerprint. -/
theorem list_of_planFingerprint (h : planFingerprint r = planFingerprint c) {k : String}
    (values : Plan → List ((String × String) × Json))
    (hk : ∀ plan, (planDict plan).lookup k = some (.arr (sortedBy (values plan)))) :
    ((values r).map fun value => value.2.sortKeys).Perm ((values c).map fun value => value.2.sortKeys) := by
  have hlookup := lookup_planFingerprint h k
  rw [hk, hk] at hlookup
  simp only [Option.map_some, Option.some.injEq, Json.sortKeys, Json.arr.injEq, Json.sortValues_eq_map] at hlookup
  have hperm : ∀ plan : Plan, ((sortedBy (values plan)).map Json.sortKeys).Perm
      ((values plan).map fun value => value.2.sortKeys) := fun plan => by
    have hsorted := (sortedBy_perm (values plan)).map Json.sortKeys
    rwa [List.map_map] at hsorted
  exact (hperm r).symm.trans (hlookup ▸ hperm c)

/-- **The objects.** Plans with one fingerprint have the same objects, as far as reconciliation reads them. -/
theorem items_of_planFingerprint (h : planFingerprint r = planFingerprint c) :
    (r.items.map view).Perm (c.items.map view) := by
  have hitems := list_of_planFingerprint h (k := "items") (fun plan => plan.items.map keyedObject) fun _ => rfl
  rwa [List.map_map, List.map_map] at hitems

/-- So are the ones that they do not reconcile. -/
theorem invalidItems_of_planFingerprint (h : planFingerprint r = planFingerprint c) :
    (r.invalidItems.map view).Perm (c.invalidItems.map view) := by
  have hitems := list_of_planFingerprint h (k := "invalid_items") (fun plan => plan.invalidItems.map keyedObject) fun _ => rfl
  rwa [List.map_map, List.map_map] at hitems

/-- **The orphans**, with their objects. -/
theorem orphans_of_planFingerprint (h : planFingerprint r = planFingerprint c) :
    ∀ orphan ∈ r.deletionOrphans, ∃ orphan' ∈ c.deletionOrphans, view orphan'.object = view orphan.object := by
  intro orphan hmem
  have horphans := list_of_planFingerprint h (k := "deletion_orphans") (fun plan => plan.deletionOrphans.map keyedOrphan)
    fun _ => rfl
  rw [List.map_map, List.map_map] at horphans
  obtain ⟨orphan', hmem', heq⟩ := List.mem_map.mp (horphans.subset (List.mem_map_of_mem hmem))
  have hkeys : ∀ o : Orphan, (([("object", .obj (objectFingerprint o.object)), ("record", .obj o.record),
      ("legacy_storage_uid", match o.legacyStorageUid with
        | some uid => .str uid
        | none => .null),
      ("legacy_quarantine", .bool o.legacyQuarantine), ("cleanup_quarantine", .bool o.cleanupQuarantine)] : Dict).map
        Prod.fst).Nodup := fun o => by
    show (["object", "record", "legacy_storage_uid", "legacy_quarantine", "cleanup_quarantine"] : List String).Nodup
    decide
  exact ⟨orphan', hmem', Option.some.inj (Json.lookup_of_sortKeys_eq heq (hkeys orphan') (hkeys orphan) "object")⟩

/-- **The tolerations.** Plans with one fingerprint need the same nodeplugins. -/
theorem tolerations_of_planFingerprint (h : planFingerprint r = planFingerprint c) :
    r.nodepluginTolerations = c.nodepluginTolerations := by
  have htolerations := lookup_planFingerprint h "nodeplugin_tolerations"
  have hlookup : ∀ plan : Plan, (planDict plan).lookup "nodeplugin_tolerations" =
      some (.arr (plan.nodepluginTolerations.map fun t => .obj t.dict)) := fun _ => rfl
  rw [hlookup, hlookup] at htolerations
  simp only [Option.map_some, Option.some.injEq, Json.sortKeys, Json.arr.injEq, Json.sortValues_eq_map,
    List.map_map] at htolerations
  exact List.map_injective_iff.mpr Toleration.dict_injective htolerations

end

/-! ## Requests -/

/-- What the loops ask: of the API server, of the handlers of one object, and of the serving fence. -/
inductive PlanRequest where
  /-- `prepare_storage_upgrade` of `list_storage_resources` -/
  | prepare
  /-- `reconcile_nodeplugin_tolerations` -/
  | rollOut (tolerations : List Toleration)
  /-- `wait_for_csi_nodeplugin_rollout` -/
  | awaitRollout (tolerations : List Toleration)
  /-- `current_csi_nodeplugin_tolerations` -/
  | currentTolerations
  /-- `deploy_server_pods` -/
  | deployServers (obj : Dict)
  /-- `handle_added` -/
  | handleAdded (obj : Dict) (fenced : Bool)
  /-- `handle_deleted`, with a client for the custom resources or without -/
  | handleDeleted (orphan : Orphan) (fenced storageClient : Bool)
  | clearOperatorReady
  | quiesceCsiProvisioner
  | resumeCsiProvisioner
  | waitForCsiProvisionerRollout
  | markOperatorReady

/-- The answers; a handler says whether it succeeded, and `handle_added` leaves the object changed. -/
def PlanRequest.Answer : PlanRequest → Type
  | prepare => Plan
  | currentTolerations => Option (List Toleration)
  | handleAdded _ _ => Bool × Dict
  | handleDeleted _ _ _ => Bool
  | _ => Unit

abbrev PlanProg (α : Type) : Type := Prog PlanRequest PlanRequest.Answer OpErr α

namespace PlanRequest

def ask (r : PlanRequest) : PlanProg r.Answer := Prog.request r

end PlanRequest

open PlanRequest

/-! ## Handlers -/

/-- `upgrade_storage_pods` -/
def upgradeStoragePods : List Dict → PlanProg Unit
  | [] => pure ()
  | obj :: rest => do
    let (_ : Unit) ← ask (deployServers obj)
    upgradeStoragePods rest

variable [JsonText]

/-- `reconcile_initial_storage`; the result are the objects after their handlers. -/
def reconcileInitialStorage (fenced : Bool) : List Dict → PlanProg (List Dict)
  | [] => pure []
  | item :: rest =>
    let name := Dict.getD (metadata item) "name" .null
    if !isTruthy name then throw (.runtime "Unnamed Kadalustorage in initial snapshot")
    else if isDeleting item then do
      let after ← reconcileInitialStorage fenced rest
      pure (item :: after)
    else do
      let (answer : Bool × Dict) ← ask (handleAdded item fenced)
      if !answer.1 then throw (.runtime ("Initial reconciliation failed for Kadalustorage " ++ pyStr name))
      else
        let after ← reconcileInitialStorage fenced rest
        pure (answer.2 :: after)

/-- `reconcile_deletion_orphans` -/
def reconcileDeletionOrphans (fenced storageClient : Bool) : List Orphan → PlanProg Unit
  | [] => pure ()
  | orphan :: rest => do
    let (deleted : Bool) ← ask (handleDeleted orphan fenced storageClient)
    if !deleted then
      throw (.runtime ("Deletion reconciliation failed for Kadalustorage " ++
        pyStr (Dict.getD (metadata orphan.object) "name" (.str "<unknown>"))))
    else reconcileDeletionOrphans fenced storageClient rest

/-- `reconcile_planned_deletion_orphans` -/
def reconcilePlannedDeletionOrphans (fenced : Bool) (plan : Plan) : PlanProg Unit :=
  reconcileDeletionOrphans fenced
    (plan.deletionOrphans.any fun orphan => orphan.legacyStorageUid.isSome || orphan.legacyQuarantine) plan.deletionOrphans

/-- `reconcile_storage_plan` -/
def reconcileStoragePlan (plan : Plan) : PlanProg Unit := do
  upgradeStoragePods plan.upgradeObjects
  let _ ← reconcileInitialStorage true plan.reconcileItems
  reconcilePlannedDeletionOrphans true plan

/-- The plan after its handlers: the objects in `reconcile_items` are also in `items`. -/
def Plan.afterHandlers (plan : Plan) (after : List Dict) : Plan :=
  { plan with
    items := plan.items.map fun item => (after.find? fun obj => nameOf obj = nameOf item).getD item
    reconcileItems := after }

/-! ## Loops -/

/-- The first part of a round of `gate_nodeplugin_until_current`. -/
def advanceNodeplugin (gated : Option (List Toleration)) (desired : List Toleration) : PlanProg (List Toleration) :=
  if gated = some desired then pure desired
  else do
    let (_ : Unit) ← ask (rollOut desired)
    let (_ : Unit) ← ask (awaitRollout desired)
    pure desired

/-- `gate_nodeplugin_until_current` -/
def gateNodepluginUntilCurrent : Nat → Option (List Toleration) → Plan → PlanProg Plan
  | 0, _, _ => .cut
  | fuel + 1, gated, candidate => do
    let gated ← advanceNodeplugin gated candidate.nodepluginTolerations
    let (fresh : Plan) ← ask prepare
    if fresh.nodepluginTolerations = gated then pure fresh
    else gateNodepluginUntilCurrent fuel (some gated) fresh

/-- The loop of `reconcile_storage_until_stable` -/
def stableRounds : Nat → List Toleration → Plan → PlanProg Plan
  | 0, _, _ => .cut
  | fuel + 1, gated, candidate => do
    reconcileStoragePlan candidate
    let (fresh : Plan) ← ask prepare
    let fresh ← gateNodepluginUntilCurrent fuel (some gated) fresh
    if planFingerprint fresh = planFingerprint candidate then pure fresh
    else stableRounds fuel fresh.nodepluginTolerations fresh

/-- `reconcile_storage_until_stable` -/
def reconcileStorageUntilStable (fuel : Nat) (plan : Plan) : PlanProg Plan :=
  stableRounds fuel plan.nodepluginTolerations plan

/-- `reconcile_fenced_watch_storage` -/
def reconcileFencedWatchStorage (fuel : Nat) (plan : Plan) (current : Option (List Toleration)) : PlanProg Plan := do
  let (_ : Unit) ← ask clearOperatorReady
  let (_ : Unit) ← ask quiesceCsiProvisioner
  let plan ← tryCatch
    (do
      let plan ← gateNodepluginUntilCurrent fuel current plan
      reconcileStorageUntilStable fuel plan)
    fun e => do
      let (_ : Unit) ← ask clearOperatorReady
      throw e
  tryCatch
    (do
      let (_ : Unit) ← ask resumeCsiProvisioner
      let (_ : Unit) ← ask waitForCsiProvisionerRollout
      let (_ : Unit) ← ask markOperatorReady
      pure plan)
    fun e => do
      let (_ : Unit) ← ask clearOperatorReady
      let (_ : Unit) ← ask quiesceCsiProvisioner
      throw e

/-- The loop of `reconcile_watch_storage_until_stable` -/
def watchRounds : Nat → Option (List Toleration) → Plan → PlanProg Plan
  | 0, _, _ => .cut
  | fuel + 1, current, candidate =>
    if current ≠ some candidate.nodepluginTolerations then reconcileFencedWatchStorage fuel candidate current
    else do
      let after ← reconcileInitialStorage false candidate.reconcileItems
      reconcilePlannedDeletionOrphans false candidate
      if candidate.deletionOrphans.isEmpty then pure (candidate.afterHandlers after)
      else
        let (fresh : Plan) ← ask prepare
        if planFingerprint fresh = planFingerprint candidate then pure fresh
        else watchRounds fuel current fresh

/-- `reconcile_watch_storage_until_stable` -/
def reconcileWatchStorageUntilStable (fuel : Nat) (plan : Plan) : PlanProg Plan := do
  let (current : Option (List Toleration)) ← ask currentTolerations
  watchRounds fuel current plan

end Kadalu.Snapshot
