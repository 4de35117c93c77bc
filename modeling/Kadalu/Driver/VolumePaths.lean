import Kadalu.Driver.CreateVolume
import Kadalu.Durable.Returns
import Kadalu.Node.VolumePath
import Kadalu.Volume.SearchSpec

/-!
# The paths of created volumes

The controller answers `CreateVolume` with a path of the volume that it is asked for, whatever it finds on its pools
(`createVolume_answers`), and the node derives the same paths. Volumes of different IDs or types have their payloads and their
files below `info` apart from each other (`volumePaths_isolated`).
-/

namespace Kadalu

open Durable Durable.Prog Except

section

variable [VolnameHash] {v : String} {host : HostVol} {s : Pool} {t : PvType}

/-! ## Searching -/

/-- What is found for an ID: a volume with this ID, at a path of the ID if it is committed on a shared pool. -/
structure FoundFor (v : String) (vol : Volume) : Prop where
  volname : vol.volname = v
  path : vol.state = none → vol.singlePvPerPool = false → vol.volpath ∈ volumePaths vol.voltype v

/-- What a search may return. -/
def FoundIn (v : String) (o : Option Volume) : Prop := ∀ vol, o = some vol → FoundFor v vol

theorem FoundOn.foundFor {vol : Volume} (h : FoundOn host s v vol) : FoundFor v vol :=
  ⟨h.volname, fun hstate hshared => (h.committed hstate hshared).1⟩

/-- The search finds the volume of the ID. -/
theorem returns_foundIn {hosts : List HostVol} : (searchVolume hosts v).Returns (FoundIn v) :=
  returns_searchVolume fun _ _ _ h => (searchPool_found h).foundFor

/-! ## Creating -/

theorem returns_canonicalPath : (Prog.ofExcept (canonicalPath t v) : PoolProg Path).Returns (· ∈ volumePaths t v) :=
  returns_ofExcept fun _ h => (canonicalPath_ok.mp h).2 ▸ canon_mem

omit [VolnameHash] in
/-- A guard that raises. -/
theorem returns_guard {c : Prop} {_ : Decidable c} {e : Err} {g : PUnit → PoolProg Path} {P : Path → Prop}
    (h : (g ⟨⟩).Returns P) : (if c then (throw e : PoolProg PUnit) >>= g else g ⟨⟩).Returns P :=
  returns_ite (fun _ => returns_bind (P := fun _ => False) (returns_throw e) fun _ h => h.elim) fun _ => h

theorem returns_createBlockVolume {size : Int} {uuid : String} :
    (createBlockVolume t v size uuid).Returns (· ∈ volumePaths t v) := by
  unfold createBlockVolume
  refine returns_guard (returns_guard ?_)
  refine returns_bind returns_canonicalPath fun path hpath => ?_
  refine returns_bind (returns_any _) fun metadata _ => ?_
  refine returns_bind (returns_any _) fun intent _ => ?_
  cases metadata with
  | some metadata => exact returns_bind (returns_any _) fun _ _ => returns_pure hpath
  | none =>
    refine returns_bind (returns_any _) fun _ _ => ?_
    refine returns_bind (returns_any _) fun _ _ => ?_
    refine returns_bind (returns_any _) fun _ _ => ?_
    refine returns_ite (fun _ => returns_bind (returns_any _) fun _ _ => ?_) fun _ => ?_
    · exact returns_bind (returns_any _) fun _ _ => returns_pure hpath
    · exact returns_bind (returns_any _) fun _ _ => returns_pure hpath

theorem returns_createSubdirVolume {size : Int} {useGlusterQuota saveMetadata : Bool} {uuid : String} :
    (createSubdirVolume v size useGlusterQuota saveMetadata uuid).Returns (· ∈ volumePaths .subvol v) := by
  unfold createSubdirVolume
  refine returns_guard ?_
  refine returns_bind returns_canonicalPath fun path hpath => ?_
  refine returns_bind (returns_any _) fun metadata _ => ?_
  refine returns_bind (returns_any _) fun intent _ => ?_
  cases metadata with
  | some metadata => exact returns_bind (returns_any _) fun _ _ => returns_pure hpath
  | none =>
    refine returns_bind (returns_any _) fun _ _ => ?_
    refine returns_bind (returns_any _) fun _ _ => ?_
    refine returns_ite (fun _ => returns_bind (returns_any _) fun _ _ => ?_) fun _ => returns_pure hpath
    refine returns_ite (fun _ => ?_) fun _ => returns_pure hpath
    exact returns_bind (returns_any _) fun _ _ => returns_pure hpath

variable {env : CreateEnv} {hosts candidates : List HostVol} {request : CreateRequest} {pvsize : Int}

theorem returns_createNative : (createNative env request pvsize).Returns (· ∈ volumePaths request.pvtype request.name) := by
  unfold createNative
  refine returns_ite (fun htype => ?_) fun _ => ?_
  · refine returns_bind (htype ▸ returns_createSubdirVolume) fun path hpath => ?_
    exact returns_bind (returns_any _) fun _ _ => returns_pure hpath
  · refine returns_bind returns_createBlockVolume fun path hpath => ?_
    exact returns_bind (returns_any _) fun _ _ => returns_pure hpath

theorem returns_createExternal : (createExternal env request pvsize).Returns (· ∈ volumePaths request.pvtype request.name) := by
  unfold createExternal
  refine returns_ite (fun _ => ?_) fun htype => ?_
  · refine returns_bind returns_createBlockVolume fun path hpath => ?_
    exact returns_bind (returns_any _) fun _ _ => returns_pure hpath
  · rw [not_not.mp htype]
    refine returns_bind returns_createSubdirVolume fun path hpath => ?_
    refine returns_ite (fun _ => ?_) fun _ => ?_
    · refine returns_bind (returns_any _) fun _ _ => ?_
      refine returns_bind (returns_any _) fun intent _ => ?_
      cases intent with
      | none => exact returns_bind (P := fun _ => False) (returns_throw _) fun _ h => h.elim
      | some intent =>
        refine returns_bind (returns_any _) fun _ _ => returns_bind (returns_pure hpath) fun path hpath => ?_
        exact returns_bind (returns_any _) fun _ _ => returns_pure hpath
    · refine returns_bind (returns_pure hpath) fun path hpath => ?_
      exact returns_bind (returns_any _) fun _ _ => returns_pure hpath

/-! ## Responses -/

/-- A response for a request: the volume that was asked for, and a path of this volume. -/
structure AnswersFor (request : CreateRequest) (response : CreateResponse) : Prop where
  valid : isValidCsiIdentifier request.name = true
  volumeId : response.volumeId = request.name
  path : ∀ p, response.volumeContext.path = some p → p ∈ volumePaths response.volumeContext.pvtype request.name

/-- What `CreateVolume` may return. -/
def Answers (request : CreateRequest) : Reply CreateResponse → Prop
  | .ok response => AnswersFor request response
  | .status _ => True

theorem returns_claiming {p : WorldProg (Reply CreateResponse)} (h : p.Returns (Answers request)) :
    (claiming p).Returns (Answers request) := by
  refine returns_tryCatch h fun e => ?_
  split
  · exact returns_pure trivial
  · exact returns_throw _

/-- A volume that is created under its lock. -/
theorem returns_lifecycle {hostvol : String} {size : Int} {create : PoolProg Path}
    (h : create.Returns (· ∈ volumePaths request.pvtype request.name)) :
    (volumeOperationLock hostvol request.name do
      verifyCreationReservation hosts hostvol request.name request.pvtype size
      onPool hostvol create).Returns (· ∈ volumePaths request.pvtype request.name) :=
  returns_withLock (returns_bind (returns_any _) fun _ _ => returns_focus h)

section

variable (hvalid : isValidCsiIdentifier request.name = true)

include hvalid

theorem returns_claimExternal {hostvoltype : Option String} {ext : HostVol} :
    (claimExternal request pvsize hostvoltype ext).Returns (Answers request) := by
  have hclaim : (claimExternalPool request pvsize hostvoltype ext).Returns (Answers request) := by
    refine returns_claiming (returns_bind (returns_any _) fun claimed _ => ?_)
    exact returns_bind (returns_any _) fun _ _ => returns_pure ⟨hvalid, rfl, nofun⟩
  refine returns_andThen hclaim (fun reply hreply => ?_) fun e => ?_
  · exact returns_bind (returns_any _) fun _ _ => returns_pure hreply
  · exact returns_bind (returns_any _) fun _ _ => returns_throw e

theorem returns_claimNative {hostvoltype : Option String} {hostvol : String} :
    (claimNative request pvsize hostvoltype hostvol).Returns (Answers request) := by
  refine returns_claiming ?_
  exact returns_bind (returns_any _) fun _ _ => returns_pure ⟨hvalid, rfl, nofun⟩

theorem returns_createOnExternal {pending : Option Volume} {hostvoltype : Option String} :
    (createOnExternal env hosts candidates request pvsize pending hostvoltype).Returns (Answers request) := by
  unfold createOnExternal
  refine returns_bind (returns_any _) fun ext _ => ?_
  cases ext with
  | none => exact returns_pure trivial
  | some ext =>
    refine returns_ite (fun _ => returns_pure trivial) fun _ => ?_
    refine returns_ite (fun _ => returns_claimExternal hvalid) fun _ => ?_
    -- with a pending create there is nothing to admit
    refine returns_ite (fun _ => returns_bind (returns_any _) fun free _ => ?_)
      fun _ => returns_bind (returns_any _) fun free _ => ?_
    all_goals
      refine returns_ite (fun _ => returns_pure trivial) fun _ => ?_
      refine returns_bind (returns_lifecycle returns_createExternal) fun path hpath => returns_pure ⟨hvalid, rfl, fun p hp => ?_⟩
      exact Option.some.inj hp ▸ hpath

theorem returns_createOnNative {hostvoltype : Option String} {hostvol : String} :
    (createOnNative env hosts request pvsize hostvoltype hostvol).Returns (Answers request) := by
  unfold createOnNative
  refine returns_ite (fun _ => returns_claimNative hvalid) fun _ => ?_
  refine returns_bind (returns_lifecycle returns_createNative) fun path hpath => returns_pure ⟨hvalid, rfl, fun p hp => ?_⟩
  exact Option.some.inj hp ▸ hpath

theorem returns_createSelected {pending : Option Volume} :
    (createSelected env hosts request pvsize pending).Returns (Answers request) := by
  unfold createSelected
  dsimp only
  refine returns_ite (fun _ => returns_pure trivial) fun _ => ?_
  split
  · refine returns_ite (fun _ => returns_createOnExternal hvalid) fun _ => ?_
    split
    · exact returns_createOnNative hvalid
    · refine returns_bind (returns_any _) fun hostvol _ => ?_
      cases hostvol with
      | none => exact returns_pure trivial
      | some hostvol => exact returns_createOnNative hvalid
  · refine returns_bind (returns_any _) fun selected _ => ?_
    split
    · exact returns_pure trivial
    · exact returns_pure trivial
    · split
      · exact returns_throw _
      · exact returns_ite (fun _ => returns_createOnExternal hvalid) fun _ => returns_createOnNative hvalid

/-- A committed volume is answered with its own path. -/
theorem answers_existing {volume : Volume} (hfound : FoundFor request.name volume) (hstate : volume.state = none) :
    AnswersFor request (existingVolumeResponse volume) where
  valid := hvalid
  volumeId := hfound.volname
  path := by
    intro p hp
    have hpath : (if volume.singlePvPerPool = true then none else some volume.volpath) = some p := hp
    split at hpath
    · cases hpath
    · rename_i hshared
      exact Option.some.inj hpath ▸ hfound.path hstate (Bool.eq_false_iff.mpr hshared)

theorem returns_createFound {found : Option Volume} (hfound : FoundIn request.name found) :
    (createFound env hosts request pvsize found).Returns (Answers request) := by
  cases found with
  | none =>
    rw [createFound]
    exact returns_createSelected hvalid
  | some volume =>
    rw [createFound]
    refine returns_ite (fun _ => returns_ite (fun _ => returns_pure trivial) fun _ => returns_createSelected hvalid) fun _ => ?_
    refine returns_ite (fun _ => returns_pure trivial) fun hstate => ?_
    refine returns_ite (fun _ => returns_pure trivial) fun _ => ?_
    refine returns_ite (fun _ => ?_) fun _ => returns_pure trivial
    have hanswer : Answers request (.ok (existingVolumeResponse volume)) :=
      answers_existing hvalid (hfound volume rfl) (by simpa using hstate)
    refine returns_ite (fun _ => returns_bind (returns_any _) fun _ _ => ?_) fun _ => ?_
    · exact returns_pure hanswer
    · exact returns_pure hanswer

end

/-- What the search of `CreateVolume` may come to. -/
def Searching (request : CreateRequest) : Except Status (Option Volume) → Prop
  | .ok found => FoundIn request.name found
  | .error _ => True

theorem returns_searched : (tryCatch (do pure (Except.ok (← searchVolume hosts request.name))) fun e =>
    if isStorageError e then pure (Except.error (storageError e)) else throw e :
      WorldProg (Except Status (Option Volume))).Returns (Searching request) := by
  refine returns_tryCatch ?_ fun e => ?_
  · exact returns_bind returns_foundIn fun found hfound => returns_pure (P := Searching request) hfound
  · exact returns_ite (fun _ => returns_pure trivial) fun _ => returns_throw e

theorem returns_createVolumeBody : (createVolumeBody env hosts request).Returns (Answers request) := by
  unfold createVolumeBody
  refine returns_ite (fun _ => returns_pure trivial) fun hname => ?_
  have hvalid : isValidCsiIdentifier request.name = true := by simpa using hname
  refine returns_ite (fun _ => returns_pure trivial) fun _ => ?_
  split
  · exact returns_pure trivial
  · refine returns_ite (fun _ => returns_pure trivial) fun _ => ?_
    refine returns_ite (fun _ => returns_pure trivial) fun _ => ?_
    refine returns_bind returns_searched fun volume hvolume => ?_
    cases volume with
    | error code => exact returns_pure trivial
    | ok volume => exact returns_createFound hvalid hvolume

theorem returns_abortOnConflict {method : WorldProg (Reply CreateResponse)} (h : method.Returns (Answers request)) :
    (abortOnConflict method).Returns (Answers request) := by
  refine returns_tryCatch h fun e => ?_
  split
  · exact returns_pure trivial
  · exact returns_pure trivial
  · exact returns_throw _

theorem returns_serializedExisting {method : WorldProg (Reply CreateResponse)} (h : method.Returns (Answers request))
    {ready missingIsConflict : Bool} :
    (serializedExistingVolumeOperation hosts v ready missingIsConflict method).Returns (Answers request) := by
  unfold serializedExistingVolumeOperation
  refine returns_ite (fun _ => h) fun _ => ?_
  refine returns_bind (returns_any _) fun volume _ => ?_
  cases volume with
  | none => exact h
  | some volume =>
    refine returns_bind (returns_any _) fun observed _ => returns_abortOnConflict (returns_withLock ?_)
    unfold refoundVolumeOperation
    refine returns_bind (returns_any _) fun locked _ => ?_
    cases locked with
    | none => exact returns_ite (fun _ => returns_throw _) fun _ => h
    | some locked =>
      refine returns_ite (fun _ => returns_throw _) fun _ => ?_
      refine returns_bind (returns_any _) fun incarnation _ => ?_
      exact returns_ite (fun _ => returns_throw _) fun _ => h

/-- **The answers of `CreateVolume`**, next to other calls. -/
theorem createVolume_answers {response : CreateResponse}
    (h : Among (createVolume env hosts request) (ret (.ok response))) : AnswersFor request response := by
  have hreturns : (createVolume env hosts request).Returns (Answers request) := by
    unfold createVolume translateStorageErrors
    refine returns_tryCatch ?_ fun e => returns_ite (fun _ => returns_pure trivial) fun _ => returns_throw e
    unfold serializedVolumeCreationIdentity
    refine returns_ite (fun _ => returns_serializedExisting returns_createVolumeBody) fun _ => ?_
    exact returns_abortOnConflict (returns_withLock (returns_serializedExisting returns_createVolumeBody))
  exact returns_among hreturns h

/-! ## Volumes apart -/

/-- **Volumes are apart, and both sides agree on where they are.** A path of one volume is none of another, nor below one, nor in
`info` or `archive`, and has files of its own below `info`. What `CreateVolume` answers with is accepted by a node for the same
volume, and for no other. -/
theorem volumePaths_isolated (hhash : ∀ v, HexDigest (getVolnameHash v)) :
    (∀ t u v w ps qs p q, canonicalVolumePaths v t = .ok ps → canonicalVolumePaths w u = .ok qs → p ∈ ps → q ∈ qs →
      ((t, v) ≠ (u, w) → p.text ≠ q.text ∧ ¬IsBelow p.text q.text) ∧
      (∀ f g : InfoFile, f.text p = g.text q → f = g ∧ (t, v) = (u, w)) ∧
      ∀ dir ∈ ["info", "archive"], p.text ≠ dir ∧ ¬IsBelow p.text dir ∧ ¬IsBelow dir p.text) ∧
    ∀ env hosts request response p, Among (createVolume env hosts request) (ret (.ok response)) →
      response.volumeContext.path = some p → ∀ (mounts : Node.PoolMounts) hostvol,
      (isSafePathComponent hostvol = true → mounts.InPlace hostvol → ∃ paths,
        Node.validateVolumePaths mounts request.name hostvol p.text response.volumeContext.pvtype false = .ok paths) ∧
      ∀ other ≠ request.name, ∀ t paths, Node.validateVolumePaths mounts other hostvol p.text t false ≠ .ok paths := by
  constructor
  · intro t u v w ps qs p q hps hqs hp hq
    obtain ⟨-, rfl⟩ := canonicalVolumePaths_ok.mp hps
    obtain ⟨-, rfl⟩ := canonicalVolumePaths_ok.mp hqs
    refine ⟨fun hne => text_apart hhash hp hq hne, fun f g h => ?_, fun dir hdir => ?_⟩
    · obtain ⟨hfg, rfl, rfl⟩ := infoFile_injective hhash hp hq h
      exact ⟨hfg, rfl⟩
    · refine text_apart_dir hhash hp ?_ fun t => ?_
      · rcases List.mem_cons.mp hdir with rfl | hdir
        · exact ⟨by decide, by decide, by decide, by decide⟩
        · obtain rfl := List.mem_singleton.mp hdir
          exact ⟨by decide, by decide, by decide, by decide⟩
      · rcases List.mem_cons.mp hdir with rfl | hdir
        · cases t <;> decide
        · obtain rfl := List.mem_singleton.mp hdir
          cases t <;> decide
  · intro env hosts request response p h hpath mounts hostvol
    have hanswer := createVolume_answers h
    have hp := hanswer.path p hpath
    refine ⟨fun hhost hmount => ?_, fun other hother t paths => ?_⟩
    · exact ⟨_, Node.validateVolumePaths_own hhash hanswer.valid hhost hmount hp⟩
    · exact Node.validateVolumePaths_foreign hhash hother hp

end

section Sample

attribute [local instance] sampleHash

theorem hexDigest_of_test {digest : String}
    (h : (decide (digest.length = 16) && digest.toList.all fun c => decide (c ∈ "0123456789abcdef".toList)) = true) :
    HexDigest digest := by
  simp only [Bool.and_eq_true, decide_eq_true_eq, List.all_eq_true] at h
  exact h

theorem sampleHash_hex (v : String) : HexDigest (getVolnameHash v) := by
  unfold HexDigest getVolnameHash sampleHash
  dsimp only
  split <;> exact hexDigest_of_test (by decide +kernel)

/-- The volume `pvc-1` is created, and a node without mounts accepts its path. -/
theorem sampleVolume_isolated : (rawPath .subvol ".kadalu~x").text ≠ (canon .subvol "pvc-1").text ∧
    ∃ response p, Among (createVolume sampleEnv [samplePool] sampleRequest) (ret (.ok response)) ∧
      response.volumeContext.path = some p ∧ ∃ paths,
      Node.validateVolumePaths ⟨fun _ => false, id⟩ "pvc-1" "pool" p.text response.volumeContext.pvtype false = .ok paths := by
  have hisolated := volumePaths_isolated sampleHash_hex
  have hodd : isValidCsiIdentifier ".kadalu~x" = true := by decide +kernel
  have hone : isValidCsiIdentifier "pvc-1" = true := by decide +kernel
  refine ⟨?_, ?_⟩
  · refine ((hisolated.1 .subvol .subvol ".kadalu~x" "pvc-1" _ _ _ _ (canonicalVolumePaths_eq hodd)
      (canonicalVolumePaths_eq hone) ?_ canon_mem).1 (by decide)).1
    exact mem_volumePaths.mpr (.inr ⟨by decide +kernel, rfl⟩)
  · have hrun := run_reaches (createVolume sampleEnv [samplePool] sampleRequest) (emptyWorld 1500)
    obtain ⟨reply, hreply, hpath⟩ : ∃ reply,
        ((createVolume sampleEnv [samplePool] sampleRequest).run (emptyWorld 1500)).1 = .ok reply ∧ (match reply with
          | .ok response => response.volumeContext.path.isSome
          | .status _ => false) = true := Except.ok_of_test (by decide +kernel)
    rw [hreply] at hrun
    cases reply with
    | status code => cases hpath
    | ok response =>
      obtain ⟨p, hp⟩ := Option.isSome_iff_exists.mp hpath
      have hamong := among_of_reaches hrun
      exact ⟨response, p, hamong, hp, (hisolated.2 _ _ _ _ _ hamong hp _ "pool").1 (by decide +kernel) (.inr (by decide +kernel))⟩

end Sample

end Kadalu
