import Kadalu.Operator.Heal

/-!
# Rolling server upgrades

`deployServerPods` applies the servers of a pool one by one. Of a heal-gated pool it applies the recovery members first,
those that were missing or not serving when it started, and touches a serving member only behind a clean heal result.

* `ApplyAllowed`: what the history of a run must hold before an apply.
* `Ordered`: every apply of a history was allowed.
-/

namespace Kadalu.Operator

open Calls

/-! ## Pools -/

def HEAL_GATED_VOLUME_TYPES : List String := ["Replica2", "Replica3", "Disperse", "Arbiter"]

/-- An entry of `spec.storage`, as far as a deployment reads it by subscript. -/
structure Brick where
  nodeId : Option String
  deriving DecidableEq, Repr

/-- A `KadaluStorage` object, as far as its servers depend on it. -/
structure StorageObject where
  name : String
  type : String
  storage : List Brick
  deriving DecidableEq, Repr

def StorageObject.shdRequired (obj : StorageObject) : Bool := HEAL_GATED_VOLUME_TYPES.contains obj.type

/-- `_dns_friendly_volname` of an ASCII name -/
def dnsFriendlyVolname (volname : String) : String :=
  String.ofList ((volname.toList.filter fun c => c.isAlphanum || c = '-' || c = '_').map fun c =>
    if c = '_' then '-' else c)

/-- `get_brick_hostname` without its suffix -/
def getBrickHostname (volname : String) (idx : Nat) : String :=
  "server-" ++ dnsFriendlyVolname volname ++ "-" ++ idx.repr

/-- `statefulset_names` -/
def StorageObject.statefulsetNames (obj : StorageObject) : List String :=
  (List.range obj.storage.length).map (getBrickHostname obj.name)

/-- `server_pod_names` -/
def StorageObject.serverPodNames (obj : StorageObject) : List String := obj.statefulsetNames.map (· ++ "-0")

/-! ## StatefulSets -/

/-- `server_statefulset_rollout_complete` -/
def serverStatefulsetRolloutComplete : Option StatefulSet → Bool
  | some ⟨some metadata, some spec, some status⟩ =>
    match metadata.generation, status.observedGeneration with
    | some generation, some observed =>
      generation ≤ observed && spec.replicas = some 1 &&
        status.currentRevision.any (· ≠ "") && status.currentRevision = status.updateRevision &&
        [status.replicas, status.currentReplicas, status.updatedReplicas, status.readyReplicas,
          status.availableReplicas].all (· = spec.replicas)
    | _, _ => false
  | _ => false

/-- The default of `SERVER_ROLLOUT_TIMEOUT_SECONDS` -/
def SERVER_ROLLOUT_TIMEOUT_SECONDS : Int := 900

/-- The loop of `wait_for_server_statefulset_rollout` -/
def rolloutRounds (deadline : Int) (name : String) : Nat → OpProg Unit
  | 0 => .cut
  | fuel + 1 => do
    let statefulSet ← Request.read .rollout name
    if serverStatefulsetRolloutComplete statefulSet then pure ()
    else
      let now ← Request.now
      if deadline ≤ now then throw .timeout
      else
        Request.pause
        rolloutRounds deadline name fuel

/-- `wait_for_server_statefulset_rollout` -/
def waitForServerStatefulsetRollout (fuel : Nat) (name : String) : OpProg Unit := do
  let now ← Request.now
  rolloutRounds (now + SERVER_ROLLOUT_TIMEOUT_SECONDS) name fuel

/-- `existing_server_statefulset_names` -/
def existingServerStatefulsetNames : List String → OpProg (List String)
  | [] => pure []
  | name :: names => do
    let exists' ← tryCatch (do let _ ← Request.read .existing name; pure true) fun e =>
      if e = .api (some 404) then pure false else throw e
    let existing ← existingServerStatefulsetNames names
    pure (if exists' then name :: existing else existing)

/-- `unavailable_server_statefulset_names` -/
def unavailableServerStatefulsetNames : List String → OpProg (List String)
  | [] => pure []
  | name :: names => do
    let statefulSet ← Request.read .serving name
    let unavailable ← unavailableServerStatefulsetNames names
    pure (if serverStatefulsetRolloutComplete statefulSet then unavailable else name :: unavailable)

/-! ## Deployment -/

/-- The loop of `deploy_server_pods` over the members. -/
def applyMembers (fuel : Nat) (obj : StorageObject) (appsClient healGated : Bool) (recoveryNames recovery : List String) :
    List String → OpProg Unit
  | [] => pure ()
  | name :: names => do
    Request.applyServerManifest name
    if appsClient then waitForServerStatefulsetRollout fuel name
    -- missing and unavailable members are recovery, up to the last of them
    if healGated && (!recoveryNames.contains name || recovery.getLast? = some name) then
      waitForStorageHeal fuel obj.serverPodNames
    applyMembers fuel obj appsClient healGated recoveryNames recovery names

/-- `deploy_server_pods` -/
def deployServerPods (fuel : Nat) (obj : StorageObject) (appsClient : Bool) : OpProg Unit :=
  if obj.shdRequired && !appsClient then
    throw (.runtime "heal-gated server reconciliation requires the Kubernetes Apps client")
  else do
    Request.applyServiceManifest obj.name
    if obj.storage.any (·.nodeId.isNone) then throw (.key "node_id")
    else
      let names := obj.statefulsetNames
      if !(appsClient && obj.shdRequired) then applyMembers fuel obj appsClient false [] names names
      else
        let existing ← existingServerStatefulsetNames names
        let missing := names.filter fun name => !existing.contains name
        let unavailable ← unavailableServerStatefulsetNames (existing.mergeSort fun a b => decide (a ≤ b))
        let recoveryNames := missing ++ unavailable
        let recovery := names.filter fun name => recoveryNames.contains name
        let healthy := names.filter fun name => !recoveryNames.contains name
        if recovery.isEmpty then waitForStorageHeal fuel obj.serverPodNames
        applyMembers fuel obj appsClient true recoveryNames recovery (recovery ++ healthy)

/-! ## Histories -/

abbrev OpEvent : Type := Event Request Request.Answer OpErr

/-- The apply of a server. -/
def IsApply (e : OpEvent) : Prop := ∃ name, e.1 = .applyServer name

instance (e : OpEvent) : Decidable (IsApply e) :=
  match e with
  | ⟨.applyServer name, _⟩ => isTrue ⟨name, rfl⟩
  | ⟨.readStatefulSet _ _, _⟩ => isFalse fun ⟨_, h⟩ => by cases h
  | ⟨.applyService _, _⟩ => isFalse fun ⟨_, h⟩ => by cases h
  | ⟨.monotonic, _⟩ => isFalse fun ⟨_, h⟩ => by cases h
  | ⟨.sleep, _⟩ => isFalse fun ⟨_, h⟩ => by cases h
  | ⟨.queryHeal _, _⟩ => isFalse fun ⟨_, h⟩ => by cases h

/-- The events since the last apply. -/
def sinceApply (h : OpHistory) : OpHistory := h.takeWhile fun e => !decide (IsApply e)

/-- The member was missing or not serving when the run started. -/
def Recovery (h : OpHistory) (name : String) : Prop :=
  ⟨.readStatefulSet .existing name, .error (.api (some 404))⟩ ∈ h ∨
    ∃ s, ⟨.readStatefulSet .serving name, .ok s⟩ ∈ h ∧ serverStatefulsetRolloutComplete s = false

/-- The member was serving when the run started. -/
def Healthy (h : OpHistory) (name : String) : Prop :=
  ∃ s, ⟨.readStatefulSet .serving name, .ok s⟩ ∈ h ∧ serverStatefulsetRolloutComplete s = true

def Applied (h : OpHistory) (name : String) : Prop := ∃ r, ⟨.applyServer name, r⟩ ∈ h

/-- The rollout of the member is complete. -/
def RolledOut (name : String) (e : OpEvent) : Prop :=
  ∃ s, e = ⟨.readStatefulSet .rollout name, .ok s⟩ ∧ serverStatefulsetRolloutComplete s = true

/-- A clean heal result of the whole pool. -/
def CleanHeal (obj : StorageObject) (e : OpEvent) : Prop :=
  ∃ server summary, e = ⟨.queryHeal server, .ok summary⟩ ∧
    storageHealSummaryIsClean summary obj.storage.length = true

/-- What must have happened before an event: the apply of a server comes after the rollout of the server applied before
it, and that of a serving member after all recovery members and a clean heal result. -/
structure ApplyAllowed (obj : StorageObject) (h : OpHistory) (name : String) : Prop where
  member : Recovery h name ∨ Healthy h name
  rollout : ∀ last r rest, h = sinceApply h ++ ⟨.applyServer last, r⟩ :: rest → ∃ e ∈ sinceApply h, RolledOut last e
  recovery : ¬Recovery h name → ∀ other ∈ obj.statefulsetNames, Recovery h other → Applied h other
  heal : ¬Recovery h name → ∃ e ∈ sinceApply h, CleanHeal obj e

/-- Every apply of the run so far was allowed. -/
def Ordered (obj : StorageObject) : OpHistory → Prop
  | [] => True
  | e :: h => (∀ name, e.1 = .applyServer name → ApplyAllowed obj h name) ∧ Ordered obj h

end Kadalu.Operator
