import Kadalu.Data.InStep
import Kadalu.Data.Result
import Kadalu.Operator.Metadata

/-!
# Live servers

A native pool has a StatefulSet with one Pod for each brick. A server says in its environment which pool, which brick and which
hosting volume it serves, and the operator takes the ID of the hosting volume from a complete set of servers only, each of which
is in every detail the server that the pool asks for.

* `validateServerWorkloadSet_ok`: the IDs that a set proves are those that its members carry.
-/

namespace Kadalu.LiveServers

open Operator InStep

/-! ## Pods -/

/-- An environment variable; a value that is missing or `None` is none. -/
structure EnvVar where
  name : String
  value : Option String
  /-- `valueFrom` is given -/
  indirect : Bool := false
  deriving DecidableEq, Repr

structure HostPath where
  path : Option String
  type : Option String
  deriving DecidableEq, Repr

structure PodVolume where
  name : String
  hostPath : Option HostPath := none
  /-- the `claimName` of a `persistentVolumeClaim` -/
  persistentVolumeClaim : Option (Option String) := none
  emptyDir : Bool := false
  deriving DecidableEq, Repr

structure VolumeMount where
  name : String
  mountPath : Option String
  deriving DecidableEq, Repr

structure Container where
  name : String
  env : List EnvVar
  volumeMounts : List VolumeMount
  deriving DecidableEq, Repr

structure MatchExpression where
  key : Option String
  operator : Option String
  values : List String
  deriving DecidableEq, Repr

/-- `spec` of a Pod; of its affinity the terms of the required node affinity. -/
structure PodSpec where
  containers : List Container
  volumes : List PodVolume
  requiredTerms : Option (List (List MatchExpression))
  deriving DecidableEq, Repr

/-- `spec` of a StatefulSet with the Pod of its template; a Pod has the latter only. `replicas` that are left out are 1. -/
structure ServerSpec where
  serviceName : Option String := none
  replicas : Option Int := some 1
  pod : Option PodSpec
  deriving DecidableEq, Repr

/-- A Pod or a StatefulSet. -/
structure Workload where
  name : String
  spec : Option ServerSpec
  deriving DecidableEq, Repr

/-! ## One server -/

/-- The variables of a server, in a dictionary. -/
def environmentOf (context : String) (environment : List (String × Option String)) :
    List EnvVar → Except OpErr (List (String × Option String))
  | [] => .ok environment
  | v :: env =>
    if (environment.lookup v.name).isSome then .error (.value s!"{context} has duplicate {v.name} environment")
    else if v.indirect then .error (.value s!"{context} has indirect {v.name} environment")
    else environmentOf context (environment ++ [(v.name, v.value)]) env

/-- `_server_container_and_environment` -/
def serverContainerAndEnvironment (podSpec : PodSpec) (context : String) :
    Except OpErr (Container × List (String × Option String)) :=
  match podSpec.containers.filter fun c => c.name = "server" with
  | [server] => do
    let environment ← environmentOf context [] server.env
    return (server, environment)
  | _ => .error (.value s!"{context} has no unique server container")

/-- `_required_hostname` -/
def requiredHostname (podSpec : PodSpec) (context : String) : Except OpErr (Option String) :=
  match podSpec.requiredTerms with
  | none => .ok none
  | some [[expression]] =>
    match expression.values with
    | [value] =>
      if expression.key ≠ some "kubernetes.io/hostname" ∨ expression.operator ≠ some "In" ∨ value = "" then
        .error (.value s!"{context} has invalid hostname affinity")
      else .ok (some value)
    | _ => .error (.value s!"{context} has invalid hostname affinity")
  | some _ => .error (.value s!"{context} has ambiguous hostname affinity")

/-- The source of the brick is the one that the pool asks for. -/
def validateBacking (volume : PodVolume) (storage : StorageBrick) (context : String) : Except OpErr Unit :=
  if volume.hostPath.isSome.toNat + volume.persistentVolumeClaim.isSome.toNat + volume.emptyDir.toNat ≠ 1 then
    .error (.value s!"{context} has ambiguous brick backing")
  else if storage.pvc ≠ "" then
    if volume.persistentVolumeClaim ≠ some (some storage.pvc) then .error (.value s!"{context} has a different brick PVC")
    else .ok ()
  else if storage.path ≠ "" then
    if volume.hostPath ≠ some ⟨some storage.path, some "Directory"⟩ then .error (.value s!"{context} has a different brick path")
    else .ok ()
  else if !volume.emptyDir then .error (.value s!"{context} has a different brick device backing")
  else .ok ()

/-- The directory of a device that is a file is mounted, and no other is. -/
def validateDeviceDir (volumes : List PodVolume) (mounts : List VolumeMount) (storage : StorageBrick) (context : String) :
    Except OpErr Unit :=
  let expectedDeviceDir := getBrickDeviceDir storage
  let deviceDirVolumes := volumes.filter fun v => v.name = "brick-device-dir"
  let deviceDirMounts := mounts.filter fun m => m.name = "brick-device-dir"
  if expectedDeviceDir ≠ "" then
    match deviceDirVolumes, deviceDirMounts with
    | [volume], [mount] =>
      if volume.hostPath ≠ some ⟨some expectedDeviceDir, some "Directory"⟩ ∨ mount.mountPath ≠ some "/brickdev" then
        .error (.value s!"{context} has a different device directory")
      else .ok ()
    | _, _ => .error (.value s!"{context} has no unique device directory")
  else if deviceDirVolumes ≠ [] ∨ deviceDirMounts ≠ [] then .error (.value s!"{context} has an unexpected device directory")
  else .ok ()

/-- `_validate_server_volume_mounts` -/
def validateServerVolumeMounts (podSpec : PodSpec) (server : Container) (storage : StorageBrick) (volname context : String) :
    Except OpErr Unit :=
  match podSpec.volumes.filter fun v => v.name = "glusterfsd-mountdir" with
  | [mountdir] => do
    validateBacking mountdir storage context
    if (server.volumeMounts.filter fun m => m.name = "glusterfsd-mountdir").map VolumeMount.mountPath ≠ [some ("/bricks/" ++ volname)] then
      .error (.value s!"{context} has an invalid brick mount")
    else validateDeviceDir podSpec.volumes server.volumeMounts storage context
  | _ => .error (.value s!"{context} has no unique brick volume")

def kind (statefulSet : Bool) : String := if statefulSet then "StatefulSet" else "Pod"

/-- The name of the workload of a brick. -/
def serverName (volname : String) (index : Nat) (statefulSet : Bool) : String :=
  getBrickHostname volname index ++ if statefulSet then "" else "-0"

/-- The template of the Pod, checked to be that of a server of the pool. -/
def serverPodSpec (resource : Workload) (volname : String) (statefulSet : Bool) (context : String) : Except OpErr PodSpec :=
  match resource.spec with
  | none => .error (.value s!"{context} has no spec")
  | some spec =>
    if statefulSet && spec.serviceName ≠ some volname then .error (.value s!"{context} has a different service")
    else if statefulSet && spec.replicas ≠ some 1 then .error (.value s!"{context} has an unsafe replica count")
    else
      match spec.pod with
      | none => .error (.value s!"{context} has no Pod template")
      | some podSpec => .ok podSpec

def expectedEnvironment (obj : KadaluStorage) (index : Nat) (storage : StorageBrick) : List (String × Option String) :=
  [("VOLUME", some obj.name), ("VOLUME_TYPE", obj.type), ("BRICK_PATH", some ("/bricks/" ++ obj.name ++ "/data/brick")),
    ("NODEID", some ("node-" ++ index.repr)), ("BRICK_INDEX", some index.repr), ("BRICK_DEVICE", some storage.device)]

/-- The node of the server is the one that the pool asks for. -/
def validateNode (podSpec : PodSpec) (environment : List (String × Option String)) (storage : StorageBrick) (context : String) :
    Except OpErr Unit := do
  let hostname ← requiredHostname podSpec context
  if hostname ≠ (some storage.node).filter (· ≠ "") then .error (.value s!"{context} has a different storage node")
  else if storage.node ≠ "" ∧ environment.lookup "HOSTNAME" ≠ some (some storage.node) then
    .error (.value s!"{context} has a different HOSTNAME")
  else if storage.node = "" ∧ (environment.lookup "HOSTNAME").isSome then
    .error (.value s!"{context} has an unexpected HOSTNAME")
  else .ok ()

/-- The checks of `_validate_live_server` on its Pod. -/
def validateServerPod (podSpec : PodSpec) (obj : KadaluStorage) (index : Nat) (storage : StorageBrick) (context : String) :
    Except OpErr String := do
  let (server, environment) ← serverContainerAndEnvironment podSpec context
  match (expectedEnvironment obj index storage).find? fun e => environment.lookup e.1 ≠ some e.2 with
  | some e => .error (.value s!"{context} has a different {e.1}")
  | none =>
    match (environment.lookup "VOLUME_ID").join.filter isCanonicalUuid with
    | none => .error (.value s!"{context} has an invalid VOLUME_ID")
    | some volumeId => do
      validateNode podSpec environment storage context
      validateServerVolumeMounts podSpec server storage obj.name context
      return volumeId

/-- `_validate_live_server` -/
def validateLiveServer (resource : Workload) (obj : KadaluStorage) (index : Nat) (storage : StorageBrick) (statefulSet : Bool) :
    Except OpErr String :=
  let expectedName := serverName obj.name index statefulSet
  let context := "Server " ++ kind statefulSet ++ " " ++ expectedName
  if resource.name ≠ expectedName then .error (.value s!"{context} has an inconsistent name")
  else do
    let podSpec ← serverPodSpec resource obj.name statefulSet context
    validateServerPod podSpec obj index storage context

/-! ## All servers of a pool -/

/-- `[0-9]+` -/
def isNumber (text : List Char) : Bool := text ≠ [] && text.all Char.isDigit

/-- The pattern of `_matching_server_workloads` -/
def isServerName (volname : String) (statefulSet : Bool) (name : String) : Bool :=
  let lead := ("server-" ++ dnsFriendlyVolname volname ++ "-").toList
  let rest := name.toList.drop lead.length
  lead.isPrefixOf name.toList &&
    if statefulSet then isNumber rest
    else
      match splitChars '-' rest with
      | [a, b] => isNumber a && isNumber b
      | _ => false

/-- `_matching_server_workloads` -/
def matchingServerWorkloads (resources : List Workload) (volname : String) (statefulSet : Bool) : List Workload :=
  resources.filter fun w => isServerName volname statefulSet w.name

/-- The names that the workloads of a pool must have. -/
def expectedNames (obj : KadaluStorage) (statefulSet : Bool) : List String :=
  (List.range obj.storage.length).map fun index => serverName obj.name index statefulSet

/-- The server of a brick, among workloads with names of their own. -/
def validateBrickServer (workloads : List Workload) (obj : KadaluStorage) (statefulSet : Bool) (brick : StorageBrick × Nat) :
    Except OpErr String :=
  let name := serverName obj.name brick.2 statefulSet
  match workloads.find? fun w => w.name = name with
  | none => .error (.key name)
  | some w => validateLiveServer w obj brick.2 brick.1 statefulSet

/-- `_validate_server_workload_set` -/
def validateServerWorkloadSet (resources : List Workload) (obj : KadaluStorage) (statefulSet : Bool) :
    Except OpErr (List String) :=
  let workloads := matchingServerWorkloads resources obj.name statefulSet
  let names := workloads.map Workload.name
  if workloads = [] then .ok []
  else if ¬names.Nodup ∨ ¬(names ⊆ expectedNames obj statefulSet ∧ expectedNames obj statefulSet ⊆ names) then
    .error (.value s!"Existing server {kind statefulSet} evidence is incomplete or ambiguous")
  else obj.storage.zipIdx.mapM (validateBrickServer workloads obj statefulSet)

/-- The one ID of a set. -/
def uniqueVolumeId (recovered : List String) : Except OpErr (Option String) :=
  match recovered.dedup with
  | [] => .ok none
  | [volumeId] => .ok (some volumeId)
  | _ => .error (.value "Existing server workloads disagree on VOLUME_ID")

/-- The IDs that the StatefulSets prove; without a client there are none to be seen. -/
def statefulSetVolumeIds (statefulSets : Option (List Workload)) (obj : KadaluStorage) : Except OpErr (List String) :=
  match statefulSets with
  | none => .ok []
  | some resources => validateServerWorkloadSet resources obj true

/-- `recover_native_pool_volume_id` -/
def recoverNativePoolVolumeId (obj : KadaluStorage) (pods : List Workload) (statefulSets : Option (List Workload)) :
    Except OpErr (Option String) := do
  let fromPods ← validateServerWorkloadSet pods obj false
  let fromSets ← statefulSetVolumeIds statefulSets obj
  uniqueVolumeId (fromPods ++ fromSets)

/-! ## What a server carries -/

/-- The hosting volume that a workload says it serves. -/
def Workload.volumeId (w : Workload) : Option String :=
  match w.spec.bind ServerSpec.pod with
  | none => none
  | some podSpec =>
    match podSpec.containers.filter fun c => c.name = "server" with
    | [server] => (server.env.find? fun v => v.name = "VOLUME_ID").bind EnvVar.value
    | _ => none

theorem environmentOf_ok {context : String} {env : List EnvVar} {acc environment : List (String × Option String)}
    (h : environmentOf context acc env = .ok environment) : environment = acc ++ env.map fun v => (v.name, v.value) := by
  induction env generalizing acc with
  | nil =>
    obtain rfl := Except.ok.inj h
    simp
  | cons v env ih =>
    unfold environmentOf at h
    obtain ⟨-, h⟩ := Except.ite_error_ok.mp h
    obtain ⟨-, h⟩ := Except.ite_error_ok.mp h
    rw [ih h, List.append_assoc]
    rfl

theorem lookup_env (name : String) (env : List EnvVar) :
    (env.map fun v => (v.name, v.value)).lookup name = (env.find? fun v => v.name = name).map EnvVar.value := by
  induction env with
  | nil => rfl
  | cons v env ih =>
    rw [List.map_cons, List.lookup_cons, List.find?_cons]
    by_cases hv : v.name = name
    · simp [hv]
    · rw [beq_eq_false_iff_ne.mpr (Ne.symm hv), decide_eq_false hv]
      exact ih

theorem serverContainerAndEnvironment_ok {podSpec : PodSpec} {context : String} {server : Container}
    {environment : List (String × Option String)}
    (h : serverContainerAndEnvironment podSpec context = .ok (server, environment)) :
    (podSpec.containers.filter fun c => c.name = "server") = [server] ∧ environment = server.env.map fun v => (v.name, v.value) := by
  unfold serverContainerAndEnvironment at h
  split at h
  · next hcontainers =>
    obtain ⟨environment', henvironment, hpair⟩ := Except.bind_ok.mp h
    obtain ⟨rfl, rfl⟩ := Prod.mk.inj (Except.ok.inj hpair)
    exact ⟨hcontainers, environmentOf_ok henvironment⟩
  · cases h

/-- A server that is accepted carries the ID that it is accepted with. -/
theorem validateServerPod_ok {podSpec : PodSpec} {obj : KadaluStorage} {index : Nat} {storage : StorageBrick}
    {context volumeId : String} (h : validateServerPod podSpec obj index storage context = .ok volumeId) :
    isCanonicalUuid volumeId = true ∧ ∃ server, (podSpec.containers.filter fun c => c.name = "server") = [server] ∧
      (server.env.find? fun v => v.name = "VOLUME_ID").bind EnvVar.value = some volumeId := by
  unfold validateServerPod at h
  obtain ⟨⟨server, environment⟩, hserver, h⟩ := Except.bind_ok.mp h
  obtain ⟨hcontainers, rfl⟩ := serverContainerAndEnvironment_ok hserver
  dsimp only at h
  split at h
  · cases h
  split at h
  · cases h
  next found hfound =>
    obtain ⟨_, -, h⟩ := Except.bind_ok.mp h
    obtain ⟨_, -, h⟩ := Except.bind_ok.mp h
    obtain rfl := Except.ok.inj h
    obtain ⟨hjoin, hcanonical⟩ := Option.filter_eq_some_iff.mp hfound
    refine ⟨hcanonical, server, hcontainers, ?_⟩
    rw [lookup_env] at hjoin
    revert hjoin
    cases server.env.find? fun v => v.name = "VOLUME_ID" <;> exact id

theorem validateLiveServer_ok {w : Workload} {obj : KadaluStorage} {index : Nat} {storage : StorageBrick} {statefulSet : Bool}
    {volumeId : String} (h : validateLiveServer w obj index storage statefulSet = .ok volumeId) :
    isCanonicalUuid volumeId = true ∧ w.volumeId = some volumeId := by
  unfold validateLiveServer at h
  obtain ⟨-, h⟩ := Except.ite_error_ok.mp h
  obtain ⟨podSpec, hpod, h⟩ := Except.bind_ok.mp h
  obtain ⟨hcanonical, server, hserver, hvolumeId⟩ := validateServerPod_ok h
  have hspec : w.spec.bind ServerSpec.pod = some podSpec := by
    unfold serverPodSpec at hpod
    split at hpod
    · cases hpod
    next spec hspec =>
      obtain ⟨-, hpod⟩ := Except.ite_error_ok.mp hpod
      obtain ⟨-, hpod⟩ := Except.ite_error_ok.mp hpod
      split at hpod
      · cases hpod
      next pod hpodSpec =>
        obtain rfl := Except.ok.inj hpod
        rw [hspec, Option.bind_some, hpodSpec]
  unfold Workload.volumeId
  rw [hspec]
  dsimp only
  rw [hserver]
  exact ⟨hcanonical, hvolumeId⟩

/-! ## What a set of servers proves -/

/-- The IDs of a set that is accepted are those that its members carry. -/
theorem validateServerWorkloadSet_ok {resources : List Workload} {obj : KadaluStorage} {statefulSet : Bool} {ids : List String}
    (h : validateServerWorkloadSet resources obj statefulSet = .ok ids) :
    (∀ w ∈ matchingServerWorkloads resources obj.name statefulSet, ∃ id ∈ ids, w.volumeId = some id) ∧
      ∀ id ∈ ids, isCanonicalUuid id = true ∧ ∃ w ∈ matchingServerWorkloads resources obj.name statefulSet, w.volumeId = some id := by
  unfold validateServerWorkloadSet at h
  dsimp only at h
  split at h
  · next hempty =>
    obtain rfl := Except.ok.inj h
    rw [hempty]
    exact ⟨nofun, nofun⟩
  obtain ⟨hnames, h⟩ := Except.ite_error_ok.mp h
  obtain ⟨hnodup, hsubset, -⟩ := not_or.mp hnames |>.imp not_not.mp not_not.mp
  have hservers := Except.mapM_ok.mp h
  have hfound : ∀ {brick id}, validateBrickServer (matchingServerWorkloads resources obj.name statefulSet) obj statefulSet brick =
      .ok id → ∃ w ∈ matchingServerWorkloads resources obj.name statefulSet,
        w.name = serverName obj.name brick.2 statefulSet ∧ isCanonicalUuid id = true ∧ w.volumeId = some id := by
    intro brick id hbrick
    unfold validateBrickServer at hbrick
    dsimp only at hbrick
    split at hbrick
    · cases hbrick
    next w hw => exact ⟨w, List.mem_of_find?_eq_some hw, of_decide_eq_true (List.find?_some hw :), validateLiveServer_ok hbrick⟩
  constructor
  · intro w hw
    obtain ⟨index, hindex, hname⟩ := List.mem_map.mp (hsubset (List.mem_map_of_mem hw))
    have hlt := List.mem_range.mp hindex
    have hbrick : (obj.storage[index], index) ∈ obj.storage.zipIdx := List.mk_mem_zipIdx_iff_getElem?.mpr (List.getElem?_eq_getElem hlt)
    obtain ⟨id, hid, hvalid⟩ := forall₂_left hservers _ hbrick
    obtain ⟨w', hw', hname', -, hvolumeId⟩ := hfound hvalid
    obtain rfl := List.inj_on_of_nodup_map hnodup hw' hw (hname'.trans hname)
    exact ⟨id, hid, hvolumeId⟩
  · intro id hid
    obtain ⟨brick, -, hvalid⟩ := forall₂_right hservers id hid
    obtain ⟨w, hw, -, hcanonical, hvolumeId⟩ := hfound hvalid
    exact ⟨hcanonical, w, hw, hvolumeId⟩

/-- The workloads that are named like servers of a pool; without a client StatefulSets are not seen. -/
def liveServers (volname : String) (pods : List Workload) (statefulSets : Option (List Workload)) : List Workload :=
  matchingServerWorkloads pods volname false ++ matchingServerWorkloads (statefulSets.getD []) volname true

theorem uniqueVolumeId_ok {recovered : List String} {r : Option String} (h : uniqueVolumeId recovered = .ok r) :
    ∀ id, id ∈ recovered ↔ r = some id := by
  intro id
  unfold uniqueVolumeId at h
  rw [← List.mem_dedup]
  split at h
  · next hnil =>
    obtain rfl := Except.ok.inj h
    simp [hnil]
  · next volumeId hone =>
    obtain rfl := Except.ok.inj h
    simp [hone, eq_comm]
  · cases h

theorem statefulSetVolumeIds_ok {statefulSets : Option (List Workload)} {obj : KadaluStorage} {ids : List String}
    (h : statefulSetVolumeIds statefulSets obj = .ok ids) :
    (∀ w ∈ matchingServerWorkloads (statefulSets.getD []) obj.name true, ∃ id ∈ ids, w.volumeId = some id) ∧
      ∀ id ∈ ids, isCanonicalUuid id = true ∧
        ∃ w ∈ matchingServerWorkloads (statefulSets.getD []) obj.name true, w.volumeId = some id := by
  cases statefulSets with
  | none =>
    obtain rfl := Except.ok.inj h
    exact ⟨nofun, nofun⟩
  | some resources => exact validateServerWorkloadSet_ok h

/-- **Live servers.** All of them carry the ID that is recovered from them, and none is recovered when there are none. -/
theorem recoverNativePoolVolumeId_ok {obj : KadaluStorage} {pods : List Workload} {statefulSets : Option (List Workload)}
    {r : Option String} (h : recoverNativePoolVolumeId obj pods statefulSets = .ok r) :
    (∀ w ∈ liveServers obj.name pods statefulSets, r.isSome ∧ w.volumeId = r) ∧
      ∀ id, r = some id → isCanonicalUuid id = true ∧ ∃ w ∈ liveServers obj.name pods statefulSets, w.volumeId = some id := by
  unfold recoverNativePoolVolumeId at h
  obtain ⟨fromPods, hpods, h⟩ := Except.bind_ok.mp h
  obtain ⟨fromSets, hsets, h⟩ := Except.bind_ok.mp h
  have hunique := uniqueVolumeId_ok h
  obtain ⟨hpodIds, hpodServers⟩ := validateServerWorkloadSet_ok hpods
  obtain ⟨hsetIds, hsetServers⟩ := statefulSetVolumeIds_ok hsets
  constructor
  · intro w hw
    obtain ⟨id, hid, hvolumeId⟩ : ∃ id ∈ fromPods ++ fromSets, w.volumeId = some id := by
      rcases List.mem_append.mp hw with hw | hw
      · obtain ⟨id, hid, hvolumeId⟩ := hpodIds w hw
        exact ⟨id, List.mem_append_left _ hid, hvolumeId⟩
      · obtain ⟨id, hid, hvolumeId⟩ := hsetIds w hw
        exact ⟨id, List.mem_append_right _ hid, hvolumeId⟩
    obtain rfl := (hunique id).mp hid
    exact ⟨rfl, hvolumeId⟩
  · rintro id rfl
    rcases List.mem_append.mp ((hunique id).mpr rfl) with hid | hid
    · obtain ⟨hcanonical, w, hw, hvolumeId⟩ := hpodServers id hid
      exact ⟨hcanonical, w, List.mem_append_left _ hw, hvolumeId⟩
    · obtain ⟨hcanonical, w, hw, hvolumeId⟩ := hsetServers id hid
      exact ⟨hcanonical, w, List.mem_append_right _ hw, hvolumeId⟩

end Kadalu.LiveServers
