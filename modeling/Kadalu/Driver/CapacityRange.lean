import Kadalu.Driver.CreateVolume
import Kadalu.Driver.Expand
import Kadalu.Volume.Committed
import Kadalu.Volume.SearchSpec

/-!
# The capacity of a response

`CreateVolume` and `ControllerExpandVolume` answer with a capacity within the range of the request, and it is the size that the
pool has for the volume: the size in its metadata, or in the claim of a dedicated pool.
-/

namespace Kadalu

open Durable Durable.Prog Except

section

variable [VolnameHash] {v : String} {t : PvType} {n : Int} {s : Pool} {p : Path} {uuid : String}

/-! ## Creating -/

variable {env : CreateEnv} {request : CreateRequest}

theorem ends_createNative : (createNative env request n).ends (fun path => CommittedAt path n) s := by
  unfold createNative
  refine ends_ite (fun _ => ?_) fun _ => ?_
  · refine ends_bind (ends_mono (fun path s h => ?_) ends_createSubdirVolume)
    exact ends_bind (ends_mono (fun _ _ h => ends_pure h) (ends_updateFreeSizeStep h))
  · refine ends_bind (ends_mono (fun path s h => ?_) ends_createBlockVolume)
    exact ends_bind (ends_mono (fun _ _ h => ends_pure h) (ends_updateFreeSizeStep h))

theorem ends_createExternal : (createExternal env request n).ends (fun path => CommittedAt path n) s := by
  unfold createExternal
  refine ends_ite (fun _ => ?_) fun _ => ?_
  · refine ends_bind (ends_mono (fun path s h => ?_) ends_createBlockVolume)
    exact ends_bind (ends_mono (fun _ _ h => ends_pure h) (ends_updateFreeSizeStep h))
  · cases hssh : env.sshQuota with
    | false =>
      refine ends_bind (ends_mono (fun path s h => ?_) ends_createSubdirVolume)
      refine ends_bind (ends_pure ?_)
      exact ends_bind (ends_mono (fun _ _ h => ends_pure h) (ends_updateFreeSizeStep h))
    | true =>
      -- the volume is committed after the quota of the external cluster is set
      refine ends_bind (ends_mono (fun path s _ => ?_) (ends_any _ _))
      refine ends_bind (ends_mono (fun _ s _ => ?_) (ends_any _ _))
      refine ends_bind (ends_read fun intent _ => ?_)
      cases intent with
      | none => exact ends_bind (ends_throw _)
      | some intent =>
        refine ends_bind (ends_mono (fun _ s h => ?_) ends_commitCreation)
        refine ends_bind (ends_pure ?_)
        exact ends_bind (ends_mono (fun _ _ h => ends_pure h) (ends_updateFreeSizeStep h))

/-! ## Searching -/

variable {host : HostVol} {hosts : List HostVol} {w : World}

/-- The size that a pool has for a volume: the size in the metadata at its path, or in the claim of the whole pool. The owner of
a pool from before there were claims has its capacity. -/
def RecordedSize (hosts : List HostVol) (w : World) (hostvol v : String) : Option Path → Int → Prop
  | some p, n => CommittedAt p n (w hostvol)
  | none, n => ClaimedAt v n (w hostvol) ∨
      ((∃ host ∈ hosts, host.name = hostvol ∧ host.legacySinglePvVolumeId = some v) ∧ (w hostvol).claim = none ∧
        (w hostvol).capacity = n)

/-- What is found for `v` on some pool: the size of a committed volume is the one that the pool has for it. -/
structure Held (hosts : List HostVol) (w : World) (v : String) (vol : Volume) : Prop where
  hosted : vol.host ∈ hosts
  volname : vol.volname = v
  path : vol.state = none → vol.singlePvPerPool = false → vol.volpath ∈ volumePaths vol.voltype v
  shared : vol.state.isSome → vol.singlePvPerPool = false
  recorded : vol.state = none →
    RecordedSize hosts w vol.hostvol v (if vol.singlePvPerPool then none else some vol.volpath) vol.size

theorem FoundOn.held {vol : Volume} (hhost : host ∈ hosts) (h : FoundOn host (w host.name) v vol) : Held hosts w v vol where
  hosted := h.hosted ▸ hhost
  volname := h.volname
  path := fun hstate hshared => (h.committed hstate hshared).1
  shared := h.shared
  recorded := by
    intro hstate
    rw [Volume.hostvol, h.hosted]
    cases hsingle : vol.singlePvPerPool with
    | false => exact (h.committed hstate hsingle).2
    | true =>
      rcases h.owned hsingle with ⟨claim, hclaim, hid, hsize⟩ | ⟨hclaim, hlegacy, hcapacity⟩
      · exact .inl ⟨claim, readSinglePvClaim_some hclaim, hid, hsize⟩
      · exact .inr ⟨⟨host, hhost, rfl, hlegacy⟩, readSinglePvClaim_none hclaim, hcapacity⟩

/-- What a search comes to: the volume, or dedicated pools that are not claimed for it. -/
def SearchResult (hosts : List HostVol) (w : World) (v : String) : Option Volume → Prop
  | some vol => Held hosts w v vol
  | none => ∀ host ∈ hosts, host.singlePvPerPool = true → Unclaimed v (w host.name)

theorem ends_searchVolume : (searchVolume hosts v).ends (fun o w' => w' = w ∧ SearchResult hosts w v o) w := by
  refine inv_searchVolume trivial fun o ho => ⟨rfl, ?_⟩
  obtain ⟨-, ⟨rfl, hnone⟩ | ⟨host, vol, rfl, before, after, rfl, hvol, -, -⟩⟩ := findVolume_ok.mp ho
  · exact fun host hhost hdedicated claim hclaim => unclaimed_of_unreported hdedicated (hnone host hhost) hclaim
  · exact (searchPool_found hvol).held (List.mem_append_right _ List.mem_cons_self)

/-! ## Ranges -/

/-- A capacity that a range allows. -/
structure InRange (required limit capacity : Int) : Prop where
  required : required ≤ capacity
  limit : limit = 0 ∨ capacity ≤ limit

omit [VolnameHash] in
theorem requestedCapacity_inRange {range : CapacityRange} (h : requestedCapacity (some range) = some n) :
    InRange range.requiredBytes range.limitBytes n := by
  unfold requestedCapacity at h
  dsimp only at h
  split at h
  · cases h
  · split at h
    · cases h
    · split at h
      · cases h
      · rename_i hsign horder hzero
        cases h
        split
        · exact ⟨by omega, by omega⟩
        · exact ⟨by omega, by omega⟩

omit [VolnameHash] in
theorem CreateRequest.inRange (h : requestedCapacity request.capacityRange = some n) :
    InRange request.requiredBytes request.limitBytes n := by
  unfold CreateRequest.requiredBytes CreateRequest.limitBytes
  cases hrange : request.capacityRange with
  | none =>
    rw [hrange] at h
    cases h
    exact ⟨by decide, .inl rfl⟩
  | some range =>
    rw [hrange] at h
    exact requestedCapacity_inRange h

omit [VolnameHash] in
theorem existingVolumeIsCompatible_inRange {vol : Volume} (h : existingVolumeIsCompatible vol request t = true) :
    InRange request.requiredBytes request.limitBytes vol.size ∧ request.singlePvPerPool = vol.singlePvPerPool := by
  unfold existingVolumeIsCompatible at h
  simp only [Bool.and_eq_true, Bool.or_eq_true, decide_eq_true_eq] at h
  obtain ⟨⟨⟨⟨⟨⟨⟨hrequired, hlimit⟩, -⟩, -⟩, -⟩, -⟩, -⟩, hsingle⟩ := h
  exact ⟨⟨hrequired, hlimit⟩, hsingle⟩

/-! ## Responses -/

/-- A response whose capacity is in the range of the request and recorded on the pool. -/
structure Honoured (hosts : List HostVol) (request : CreateRequest) (w : World) (response : CreateResponse) : Prop where
  range : InRange request.requiredBytes request.limitBytes response.capacityBytes
  recorded : RecordedSize hosts w response.volumeContext.hostvol request.name response.volumeContext.path response.capacityBytes

/-- What `CreateVolume` may end with. -/
def Honours (hosts : List HostVol) (request : CreateRequest) : Reply CreateResponse → World → Prop
  | .ok response, w => Honoured hosts request w response
  | .status _, _ => True

section

variable {candidates : List HostVol} {pending : Option Volume}

omit [VolnameHash] in
theorem ends_claiming {α : Type} {q : WorldProg (Reply α)} {Q : Reply α → World → Prop} (hstatus : ∀ code w, Q (.status code) w)
    (h : q.ends Q w) : (claiming q).ends Q w := by
  refine ends_tryCatch h fun e w' => ?_
  split
  · exact ends_pure (hstatus _ _)
  · exact ends_throw _

omit [VolnameHash] in
/-- The only dedicated pool is one of the given ones, and its capacity is in the range. -/
theorem ends_mountSinglePv (hrange : InRange request.requiredBytes request.limitBytes n) :
    (mountSinglePvHostingVolume candidates n request.limitBytes).ends (fun r w' => w' = w ∧
      (∃ host ∈ candidates, host.name = r.1) ∧ InRange request.requiredBytes request.limitBytes r.2) w := by
  unfold mountSinglePvHostingVolume
  dsimp only
  refine ends_ite (fun _ => ends_throw _) fun _ => ?_
  split
  · rename_i volume hvolume
    refine ends_bind (ends_read fun capacity _ => ?_)
    refine ends_ite (fun _ => ends_throw _) fun hin => ends_pure ⟨rfl, ⟨volume, ?_, rfl⟩, ?_, ?_⟩
    · have hmem : volume ∈ [volume] := List.mem_singleton_self volume
      rw [← hvolume] at hmem
      exact List.mem_of_mem_filter (List.mem_of_mem_filter hmem)
    · have := hrange.required
      omega
    · omega
  · exact ends_throw _

omit [VolnameHash] in
theorem ends_claimNative {hostvoltype : Option String} {hostvol : String} (hclaim : Unclaimed request.name (w hostvol))
    (hrange : InRange request.requiredBytes request.limitBytes n) :
    (claimNative request n hostvoltype hostvol).ends (Honours hosts request) w := by
  refine ends_claiming (fun _ _ => trivial) (ends_bind (ends_focus ?_))
  refine ends_mono (fun _ s h => ends_pure ⟨hrange, .inl ?_⟩) (ends_claimSinglePvVolume hclaim)
  rwa [Function.update_self]

omit [VolnameHash] in
theorem ends_claimExternal {hostvoltype : Option String} {ext : HostVol} (hclaim : Unclaimed request.name (w ext.name))
    (hrange : InRange request.requiredBytes request.limitBytes n) :
    (claimExternal request n hostvoltype ext).ends (Honours hosts request) w := by
  have hpool : (claimExternalPool request n hostvoltype ext).ends (Honours hosts request) w := by
    refine ends_claiming (fun _ _ => trivial) (ends_bind (ends_mono (fun mounted w' h => ?_) (ends_mountSinglePv hrange)))
    obtain ⟨rfl, -, hcapacity⟩ := h
    refine ends_bind (ends_focus (ends_mono (fun _ s h => ends_pure ⟨hcapacity, .inl ?_⟩) (ends_claimSinglePvVolume hclaim)))
    rwa [Function.update_self]
  refine ends_andThen hpool (fun reply w' h => ends_bind (ends_read fun _ _ => ends_pure h)) fun e w' => ?_
  exact ends_bind (ends_read fun _ _ => ends_throw e)

omit [VolnameHash] in
theorem findExternalVolume_mem {ext : HostVol} : ∀ {candidates : List HostVol},
    findExternalVolume request candidates = .ok (some ext) → ext ∈ candidates
  | [], h => nomatch h
  | vol :: candidates, h => by
    rw [findExternalVolume] at h
    split at h
    · exact List.mem_cons_of_mem _ (findExternalVolume_mem h)
    · split at h
      · exact List.mem_cons_of_mem _ (findExternalVolume_mem h)
      · obtain ⟨_, -, h⟩ := bind_ok.mp h
        split at h
        · exact List.mem_cons_of_mem _ (findExternalVolume_mem h)
        · obtain ⟨_, -, h⟩ := bind_ok.mp h
          split at h
          · exact List.mem_cons_of_mem _ (findExternalVolume_mem h)
          · cases h
            exact List.mem_cons_self

omit [VolnameHash] in
theorem ends_checkExternalVolume :
    (checkExternalVolume request candidates).ends (fun o w' => w' = w ∧ ∀ ext, o = some ext → ext ∈ candidates) w := by
  unfold checkExternalVolume
  refine ends_bind (ends_ofExcept fun found hfound => ?_)
  cases found with
  | none => exact ends_pure ⟨rfl, fun _ h => nomatch h⟩
  | some vol =>
    refine ends_bind (ends_read fun _ _ => ends_pure ⟨rfl, fun ext h => ?_⟩)
    cases h
    exact findExternalVolume_mem hfound

/-- A volume that is created under its lock. -/
theorem ends_lifecycle {hostvol : String} {create : PoolProg Path} (h : ∀ s, create.ends (fun path => CommittedAt path n) s) :
    (volumeOperationLock hostvol request.name do
      verifyCreationReservation hosts hostvol request.name request.pvtype n
      onPool hostvol create).ends (fun path w' => CommittedAt path n (w' hostvol)) w := by
  refine ends_withLock (ends_bind (ends_mono (fun _ w' _ => ends_focus (ends_mono (fun path s hs => ?_) (h _))) (ends_any _ _)))
  rwa [Function.update_self]

section

variable (hrange : InRange request.requiredBytes request.limitBytes n)

include hrange

theorem ends_createOnNative {hostvoltype : Option String} {hostvol : String}
    (hclaim : request.singlePvPerPool = true → Unclaimed request.name (w hostvol)) :
    (createOnNative env hosts request n hostvoltype hostvol).ends (Honours hosts request) w := by
  unfold createOnNative
  refine ends_ite (fun hsingle => ends_claimNative (hclaim hsingle) hrange) fun _ => ?_
  exact ends_bind (ends_mono (fun path w' h => ends_pure ⟨hrange, h⟩) (ends_lifecycle fun _ => ends_createNative))

theorem ends_createOnExternal {hostvoltype : Option String} (hcandidates : ∀ host ∈ candidates, host ∈ hosts)
    (hclaim : request.singlePvPerPool = true → ∀ host ∈ hosts, Unclaimed request.name (w host.name)) :
    (createOnExternal env hosts candidates request n pending hostvoltype).ends (Honours hosts request) w := by
  unfold createOnExternal
  dsimp only
  refine ends_bind (ends_mono (fun found w' h => ?_) ends_checkExternalVolume)
  obtain ⟨rfl, hfound⟩ := h
  cases found with
  | none => exact ends_pure trivial
  | some ext =>
    have hext : ext ∈ hosts := by
      refine hcandidates ext ?_
      have := hfound ext rfl
      cases pending with
      | none => exact this
      | some volume => exact List.mem_of_mem_filter this
    refine ends_ite (fun _ => ends_pure trivial) fun _ => ?_
    refine ends_ite (fun hsingle => ends_claimExternal (hclaim hsingle ext hext) hrange) fun _ => ?_
    -- with a pending create there is nothing to admit
    refine ends_ite (fun _ => ends_bind (ends_mono (fun free w' _ => ?_) (ends_any _ _)))
      fun _ => ends_bind (ends_mono (fun free w' _ => ?_) (ends_any _ _))
    all_goals
      refine ends_ite (fun _ => ends_pure trivial) fun _ => ?_
      exact ends_bind (ends_mono (fun path w' h => ends_pure ⟨hrange, h⟩) (ends_lifecycle fun _ => ends_createExternal))

end

/-! ## Selecting -/

/-- The claims are as they were. -/
def SameClaims (w w' : World) : Prop := ∀ hostvol, (w' hostvol).claim = (w hostvol).claim

/-- Admission claims no pool. -/
theorem inv_admitStep {c : Option Claim} (h : s.claim = c) :
    (admitStep v t n uuid).inv (fun s' => s'.claim = c) (fun _ s' => s'.claim = c) s := by
  refine inv_bind (inv_read h fun _ _ => inv_transaction h fun b s' hs' => ?_)
  obtain ⟨p, rows, -, -, hadmitted⟩ := admit_cases hs'
  cases hadmitted with
  | resumed => exact ⟨h, h, h⟩
  | refused => exact ⟨h, h, h⟩
  | granted => exact ⟨h, h, h⟩

omit [VolnameHash] in
theorem inv_check {α : Type} {stage : SelectionStage} {q : WorldProg α} {C : World → Prop} {w : World}
    (h : q.inv C (fun _ => C) w) : (stage.check q).inv C (fun _ => C) w := by
  refine inv_tryCatch (inv_bind (inv_mono (fun _ _ h => inv_ret h) h)) fun e w' hC => ?_
  exact inv_ite (fun _ => inv_ret hC) fun _ => inv_raise hC

theorem inv_mountAndSelect {w₀ : World} : ∀ {candidates : List HostVol} {failures : List Err} {w : World}, SameClaims w₀ w →
    (mountAndSelectHostingVolume n v t uuid candidates failures).inv (SameClaims w₀)
      (fun o w' => SameClaims w₀ w' ∧ ∀ hostvol, o = some hostvol → ∃ host ∈ candidates, host.name = hostvol) w := by
  intro candidates
  induction candidates with
  | nil =>
    intro failures w h
    rw [mountAndSelectHostingVolume]
    refine inv_ite (fun _ => inv_ret ⟨h, fun _ h => nomatch h⟩) fun _ => inv_raise h
  | cons volume candidates ih =>
    intro failures w h
    have hnext : ∀ {failures : List Err} {w : World}, SameClaims w₀ w →
        (mountAndSelectHostingVolume n v t uuid candidates failures).inv (SameClaims w₀)
          (fun o w' => SameClaims w₀ w' ∧ ∀ hostvol, o = some hostvol → ∃ host ∈ volume :: candidates, host.name = hostvol) w := by
      intro failures w h
      refine inv_mono (fun o w' h => ⟨h.1, fun hostvol ho => ?_⟩) (ih h)
      obtain ⟨host, hhost, hname⟩ := h.2 hostvol ho
      exact ⟨host, List.mem_cons_of_mem _ hhost, hname⟩
    rw [mountAndSelectHostingVolume]
    refine inv_ite (fun _ => hnext h) fun _ => ?_
    refine inv_bind (inv_mono (fun mounted w₁ h₁ => ?_) (inv_check (inv_read h fun _ _ => h)))
    cases mounted with
    | error e => exact hnext h₁
    | ok _ =>
      refine inv_bind (inv_mono (fun stat w₂ h₂ => ?_) (inv_check (inv_read h₁ fun _ _ => h₁)))
      cases stat with
      | error e => exact hnext h₂
      | ok _ =>
        refine inv_bind (inv_mono (fun admitted w₃ h₃ => ?_) (inv_check (inv_focus ?_)))
        · cases admitted with
          | error e => exact hnext h₃
          | ok free =>
            cases free with
            | false => exact hnext h₃
            | true => exact inv_ret ⟨h₃, fun hostvol ho => ⟨volume, List.mem_cons_self, Option.some.inj ho⟩⟩
        · have hsame : ∀ s' : Pool, s'.claim = (w₂ volume.name).claim → SameClaims w₀ (Function.update w₂ volume.name s') := by
            intro s' hs' hostvol
            by_cases hname : hostvol = volume.name
            · rw [hname, Function.update_self, hs', h₂]
            · rw [Function.update_of_ne hname, h₂]
          exact inv_imp hsame (fun _ => hsame) (inv_admitStep rfl)

/-- What the selection of a pool comes to: a size in the range, and for a whole pool one that is still not claimed. -/
def Selected (hosts : List HostVol) (request : CreateRequest) : Reply (Option String × Int) → World → Prop
  | .ok (some hostvol, size), w => InRange request.requiredBytes request.limitBytes size ∧
      (request.singlePvPerPool = true → ∀ host ∈ hosts, Unclaimed request.name (w host.name)) ∧
      ∃ host ∈ hosts, host.name = hostvol
  | _, _ => True

/-- The order of the pools that is drawn is an order of the given pools. -/
def Shuffles (env : CreateEnv) : Prop := ∀ hosts, (env.shuffle hosts).Perm hosts

section

variable (hshuffle : Shuffles env) (hcandidates : ∀ host ∈ candidates, host ∈ hosts)
  (hrange : InRange request.requiredBytes request.limitBytes n)
  (hclaim : request.singlePvPerPool = true → ∀ host ∈ hosts, Unclaimed request.name (w host.name))

include hshuffle hcandidates hrange hclaim

theorem ends_selectGeneric : (selectGeneric env candidates request n).ends (Selected hosts request) w := by
  unfold selectGeneric
  refine ends_tryCatch (ends_ite (fun _ => ?_) fun hshared => ?_) fun e w' => ?_
  · refine ends_bind (ends_mono (fun mounted w' h => ?_) (ends_mountSinglePv hrange))
    obtain ⟨rfl, ⟨host, hhost, hname⟩, hcapacity⟩ := h
    exact ends_pure ⟨hcapacity, hclaim, host, hcandidates host ((hshuffle candidates).mem_iff.mp hhost), hname⟩
  · refine ends_bind (ends_mono (fun hostvol w' h => ?_) (ends_of_inv (inv_mountAndSelect fun _ => rfl)))
    cases hostvol with
    | none => exact ends_pure trivial
    | some hostvol =>
      obtain ⟨host, hhost, hname⟩ := h.2 hostvol rfl
      exact ends_pure ⟨hrange, fun hsingle => absurd hsingle hshared, host,
        hcandidates host ((hshuffle candidates).mem_iff.mp hhost), hname⟩
  · split
    · exact ends_pure trivial
    · exact ends_pure trivial
    · exact ends_ite (fun _ => ends_pure trivial) fun _ => ends_throw _

end

omit [VolnameHash] in
theorem unclaimed_same {w' : World} {hostvol : String} (h : Unclaimed v (w hostvol)) (hsame : SameClaims w w') :
    Unclaimed v (w' hostvol) := by
  have hread : readSinglePvClaim (w' hostvol) = readSinglePvClaim (w hostvol) := by
    rw [readSinglePvClaim, readSinglePvClaim, hsame hostvol]
  intro claim hclaim
  exact h claim (hread ▸ hclaim)

theorem ends_createSelected (hshuffle : Shuffles env) (hrange : InRange request.requiredBytes request.limitBytes n)
    (hpending : ∀ volume, pending = some volume → request.singlePvPerPool = false)
    (hclaim : request.singlePvPerPool = true → ∀ host ∈ hosts, Unclaimed request.name (w host.name)) :
    (createSelected env hosts request n pending).ends (Honours hosts request) w := by
  unfold createSelected
  dsimp only
  have hcandidates : ∀ host ∈ (if pending.isNone = true then newVolumeHostingCandidates (getPvHostingVolumes hosts request)
      else getPvHostingVolumes hosts request), host ∈ hosts := by
    intro host hhost
    split at hhost
    · exact List.mem_of_mem_filter (List.mem_of_mem_filter hhost)
    · exact List.mem_of_mem_filter hhost
  refine ends_ite (fun _ => ends_pure trivial) fun _ => ?_
  split
  · refine ends_ite (fun _ => ends_createOnExternal hrange hcandidates hclaim) fun _ => ?_
    cases pending with
    | some volume =>
      refine ends_createOnNative hrange fun hsingle => ?_
      exact nomatch hsingle.symm.trans (hpending volume rfl)
    | none =>
      refine ends_bind (ends_mono (fun hostvol w' h => ?_) (ends_of_inv (inv_mountAndSelect fun _ => rfl)))
      obtain ⟨hsame, hmem⟩ := h
      cases hostvol with
      | none => exact ends_pure trivial
      | some hostvol =>
        obtain ⟨host, hhost, rfl⟩ := hmem hostvol rfl
        refine ends_createOnNative hrange fun hsingle => ?_
        exact unclaimed_same (hclaim hsingle host (hcandidates host ((hshuffle _).mem_iff.mp hhost))) hsame
  · refine ends_bind (ends_mono (fun selected w' h => ?_) (ends_selectGeneric hshuffle hcandidates hrange hclaim))
    split
    · exact ends_pure trivial
    · exact ends_pure trivial
    · obtain ⟨hsize, hstill, host, hhost, rfl⟩ := h
      split
      · exact ends_throw _
      · refine ends_ite (fun _ => ends_createOnExternal hsize hcandidates hstill) fun _ => ?_
        exact ends_createOnNative hsize fun hsingle => hstill hsingle host hhost

/-! ## Volumes that exist -/

/-- Only the pools that are given to one volume as a whole are claimed. -/
def ClaimsDedicated (hosts : List HostVol) (w : World) : Prop :=
  ∀ host ∈ hosts, host.singlePvPerPool = false → (w host.name).claim = none

theorem ends_createFound {found : Option Volume} (hshuffle : Shuffles env)
    (hrange : InRange request.requiredBytes request.limitBytes n) (hdedicated : ClaimsDedicated hosts w)
    (hfound : SearchResult hosts w request.name found) :
    (createFound env hosts request n found).ends (Honours hosts request) w := by
  cases found with
  | none =>
    rw [createFound]
    refine ends_createSelected hshuffle hrange (fun _ h => nomatch h) fun _ host hhost => ?_
    by_cases hwhole : host.singlePvPerPool = true
    · exact hfound host hhost hwhole
    · exact unclaimed_of_none (hdedicated host hhost (Bool.eq_false_iff.mpr hwhole))
  | some volume =>
    rw [createFound]
    refine ends_ite (fun hcreating => ?_) fun _ => ?_
    · refine ends_ite (fun _ => ends_pure trivial) fun hcompatible => ?_
      obtain ⟨hsize, hsingle⟩ := existingVolumeIsCompatible_inRange (by simpa using hcompatible)
      have hshared : request.singlePvPerPool = false := hsingle.trans (hfound.shared (by rw [hcreating]; rfl))
      exact ends_createSelected hshuffle hsize (fun _ _ => hshared) fun hwhole => nomatch hshared.symm.trans hwhole
    · refine ends_ite (fun _ => ends_pure trivial) fun hstate => ?_
      refine ends_ite (fun _ => ends_pure trivial) fun _ => ?_
      refine ends_ite (fun hcompatible => ?_) fun _ => ends_pure trivial
      obtain ⟨hsize, -⟩ := existingVolumeIsCompatible_inRange hcompatible
      have hrecorded := hfound.recorded (by simpa using hstate)
      refine ends_ite (fun hshared => ends_bind (ends_focus ?_)) fun hwhole => ?_
      · have hpath : (if volume.singlePvPerPool = true then none else some volume.volpath) = some volume.volpath := by
          rw [if_neg (by simpa using hshared)]
        rw [hpath] at hrecorded
        refine ends_bind (ends_mono (fun _ s h => ?_) (ends_finishCommitted hrecorded))
        refine ends_mono (fun _ s' h' => ends_pure ⟨hsize, ?_⟩) (ends_reconcileCommitted h)
        show RecordedSize hosts _ volume.hostvol request.name (if volume.singlePvPerPool = true then none else some volume.volpath) _
        rw [hpath, RecordedSize, Function.update_self]
        exact h'
      · exact ends_pure ⟨hsize, hrecorded⟩

/-- What the search of `CreateVolume` comes to. -/
def SearchedIn (hosts : List HostVol) (w : World) (v : String) : Except Status (Option Volume) → World → Prop
  | .ok found, w' => w' = w ∧ SearchResult hosts w v found
  | .error _, _ => True

theorem ends_searched : (tryCatch (do pure (Except.ok (← searchVolume hosts v))) fun e =>
    if isStorageError e then pure (Except.error (storageError e)) else throw e :
      WorldProg (Except Status (Option Volume))).ends (SearchedIn hosts w v) w := by
  refine ends_tryCatch (ends_bind (ends_mono (fun found w' h => ?_) ends_searchVolume)) fun e w' => ?_
  · exact ends_pure (Q := SearchedIn hosts w v) h
  · exact ends_ite (fun _ => ends_pure trivial) fun _ => ends_throw e

theorem ends_createVolumeBody (hshuffle : Shuffles env) (hdedicated : ClaimsDedicated hosts w) :
    (createVolumeBody env hosts request).ends (Honours hosts request) w := by
  unfold createVolumeBody
  refine ends_ite (fun _ => ends_pure trivial) fun _ => ?_
  refine ends_ite (fun _ => ends_pure trivial) fun _ => ?_
  split
  · exact ends_pure trivial
  · rename_i size hsize
    refine ends_ite (fun _ => ends_pure trivial) fun _ => ?_
    refine ends_ite (fun _ => ends_pure trivial) fun _ => ?_
    refine ends_bind (ends_mono (fun found w' h => ?_) ends_searched)
    cases found with
    | error code => exact ends_pure trivial
    | ok found =>
      obtain ⟨rfl, hfound⟩ := h
      exact ends_createFound hshuffle (CreateRequest.inRange hsize) hdedicated hfound

/-! ## Around the calls -/

omit [VolnameHash] in
theorem ends_abortOnConflict {α : Type} {q : WorldProg (Reply α)} {Q : Reply α → World → Prop}
    (hstatus : ∀ code w, Q (.status code) w) (h : q.ends Q w) : (abortOnConflict q).ends Q w := by
  refine ends_tryCatch h fun e w' => ?_
  split
  · exact ends_pure (hstatus _ _)
  · exact ends_pure (hstatus _ _)
  · exact ends_throw _

/-- A call under the lock of its volume begins with the pools as they were. -/
theorem ends_serializedExisting {α : Type} {q : WorldProg (Reply α)} {Q : Reply α → World → Prop} {ready missingIsConflict : Bool}
    (hstatus : ∀ code w, Q (.status code) w) (h : q.ends Q w) :
    (serializedExistingVolumeOperation hosts v ready missingIsConflict q).ends Q w := by
  unfold serializedExistingVolumeOperation
  refine ends_ite (fun _ => h) fun _ => ?_
  refine ends_bind (ends_mono (fun found w' hw' => ?_) ends_searchVolume)
  obtain ⟨rfl, -⟩ := hw'
  cases found with
  | none => exact h
  | some volume =>
    refine ends_bind (ends_read fun observed _ => ?_)
    refine ends_abortOnConflict hstatus (ends_withLock ?_)
    unfold refoundVolumeOperation
    refine ends_bind (ends_mono (fun locked w'' hw'' => ?_) ends_searchVolume)
    obtain ⟨rfl, -⟩ := hw''
    cases locked with
    | none => exact ends_ite (fun _ => ends_throw _) fun _ => h
    | some locked =>
      refine ends_ite (fun _ => ends_throw _) fun _ => ?_
      refine ends_bind (ends_read fun incarnation _ => ?_)
      exact ends_ite (fun _ => ends_throw _) fun _ => h

omit [VolnameHash] in
theorem ends_translate {α : Type} {q : WorldProg (Reply α)} {Q : Reply α → World → Prop} (hstatus : ∀ code w, Q (.status code) w)
    (h : q.ends Q w) : (translateStorageErrors q).ends Q w :=
  ends_tryCatch h fun e _ => ends_ite (fun _ => ends_pure (hstatus _ _)) fun _ => ends_throw e

/-- **The capacity of a new volume.** -/
theorem ends_createVolume (hshuffle : Shuffles env) (hdedicated : ClaimsDedicated hosts w) :
    (createVolume env hosts request).ends (Honours hosts request) w := by
  have hbody : (serializedExistingVolumeOperation hosts request.name request.validShape true
      (createVolumeBody env hosts request)).ends (Honours hosts request) w :=
    ends_serializedExisting (fun _ _ => trivial) (ends_createVolumeBody hshuffle hdedicated)
  refine ends_translate (fun _ _ => trivial) (ends_ite (fun _ => hbody) fun _ => ?_)
  exact ends_abortOnConflict (fun _ _ => trivial) (ends_withLock hbody)

end

/-! ## Expanding -/

section

variable {volume : Volume} {sshQuota : Bool} {requested : Int}

omit [VolnameHash] in
theorem ends_quotaCommand {k : Int} : (tryCatch (do executeGlusterQuotaCommand p k; pure none) fun e =>
    if e.isCommand then pure (some (storageError e)) else throw e : PoolProg (Option Status)).ends
      (fun failed s' => failed = none → s'.metadata = s.metadata) s := by
  refine ends_tryCatch (ends_bind (ends_step fun _ _ => ends_pure fun _ => ?_)) fun e s' => ?_
  · split <;> rfl
  · exact ends_ite (fun _ => ends_pure fun h => nomatch h) fun _ => ends_throw e

/-- The quota of a committed volume is set again. -/
theorem ends_applySubdirQuota_keeps {k : Int} (h : CommittedAt p n s) :
    (applySubdirQuota volume k false sshQuota).ends (fun failed s' => failed = none → CommittedAt p n s') s := by
  unfold applySubdirQuota
  refine ends_ite (fun _ => ?_) fun _ => ?_
  · refine ends_bind (ends_mono (fun _ s' h' => ends_pure fun _ => h') ?_)
    refine ends_bind (ends_read fun q _ => ends_bind (ends_mono (fun _ s₁ h₁ => ?_) (ends_makeSubdir h)))
    exact ends_bind (ends_mono (fun _ s₂ h₂ => ends_pure h₂) (ends_setSimpleQuota h₁))
  · refine ends_bind (ends_mono (fun failed s' h' => ?_) ends_quotaCommand)
    refine ends_ite (fun hfailed => ends_pure fun hnone => ?_) fun hfailed => ?_
    · rw [hnone] at hfailed
      cases hfailed
    · refine ends_ite (fun hupdate => nomatch hupdate) fun _ => ends_pure fun _ => ?_
      rwa [CommittedAt, h' (by simpa using hfailed)]

/-- A grown volume is committed with its new size. -/
theorem ends_applySubdirQuota_grows (hpath : volume.volpath ∈ volumePaths volume.voltype volume.volname) :
    (applySubdirQuota volume n true sshQuota).ends
      (fun failed s' => failed = none → ∃ t, ∃ p ∈ volumePaths t volume.volname, CommittedAt p n s') s := by
  unfold applySubdirQuota
  refine ends_ite (fun _ => ?_) fun _ => ?_
  · refine ends_bind (ends_mono (fun _ s' h' => ends_pure fun _ => h') ?_)
    refine ends_bind (ends_read fun q hq => ends_bind (ends_mono (fun _ s₁ _ => ?_) (ends_any _ _)))
    refine ends_bind (ends_mono (fun _ s₂ _ => ?_) (ends_any _ _))
    exact ends_mono (fun _ s₃ h => ⟨_, q, existingOrCanonical_mem hq, h⟩) ends_updatePvMetadata
  · refine ends_bind (ends_mono (fun failed s' _ => ?_) ends_quotaCommand)
    refine ends_ite (fun hfailed => ends_pure fun hnone => ?_) fun hfailed => ?_
    · rw [hnone] at hfailed
      cases hfailed
    · refine ends_ite (fun _ => ?_) fun hupdate => absurd rfl hupdate
      exact ends_bind (ends_mono (fun _ s' h => ends_pure fun _ => ⟨_, _, hpath, h⟩) ends_updatePvMetadata)

theorem ends_growVolume {fromSize : Int} (hpath : volume.volpath ∈ volumePaths volume.voltype volume.volname) :
    (growVolume volume fromSize n sshQuota).ends (fun reply s' => ∀ c, reply = .ok c →
      c = n ∧ ∃ t, ∃ p ∈ volumePaths t volume.volname, CommittedAt p n s') s := by
  unfold growVolume
  refine ends_bind (ends_mono (fun reserved s₁ _ => ?_) (ends_any _ _))
  cases reserved with
  | none => exact ends_pure fun _ h => nomatch h
  | some intent =>
    refine ends_bind (ends_mono (fun failed s₂ h₂ => ?_) (ends_applySubdirQuota_grows hpath))
    cases failed with
    | some code => exact ends_pure fun _ h => nomatch h
    | none =>
      obtain ⟨t, p, hp, hcommitted⟩ := h₂ rfl
      refine ends_bind (ends_update fun s₃ h₃ => ends_pure fun c hc => ⟨(Reply.ok.inj hc).symm, t, p, hp, ?_⟩)
      rw [CommittedAt, finishVolumeExpansion_metadata h₃]
      exact hcommitted

/-- A whole pool is left as it is. -/
theorem ends_expandWhole (hwhole : volume.singlePvPerPool = true) (hrequested : requested ≤ volume.size) :
    (expandExisting volume requested sshQuota).ends (fun reply s' => s' = s ∧ ∀ c, reply = .ok c → c = volume.size) s := by
  unfold expandExisting
  rw [hwhole]
  refine ends_ite (fun h => absurd h Bool.false_ne_true) fun _ => ends_bind (ends_pure ?_)
  refine ends_ite (fun h => absurd h Bool.false_ne_true) fun _ => ?_
  refine ends_ite (fun h => absurd h Bool.false_ne_true) fun _ => ?_
  refine ends_ite (fun h => absurd h Bool.false_ne_true) fun _ => ?_
  refine ends_ite (fun _ => ?_) fun h => absurd hrequested h
  refine ends_ite (fun h => absurd h Bool.false_ne_true) fun _ => ends_bind (ends_pure ?_)
  exact ends_pure ⟨rfl, fun c hc => (Reply.ok.inj hc).symm⟩

/-- A shared volume has its old size or the requested one. -/
theorem ends_expandShared (hshared : volume.singlePvPerPool = false) (hpath : volume.volpath ∈ volumePaths volume.voltype volume.volname)
    (h : CommittedAt volume.volpath volume.size s) :
    (expandExisting volume requested sshQuota).ends (fun reply s' => ∀ c, reply = .ok c →
      (c = volume.size ∧ requested ≤ volume.size ∧ CommittedAt volume.volpath volume.size s') ∨
        (c = requested ∧ ∃ t, ∃ p ∈ volumePaths t volume.volname, CommittedAt p requested s')) s := by
  unfold expandExisting
  rw [hshared]
  refine ends_ite (fun _ => ends_bind (ends_read fun pending _ => ?_)) fun _ => ends_bind (ends_pure ?_)
  on_goal 1 =>
    rcases pending with _ | intent
    on_goal 2 =>
      refine ends_ite (fun _ => ends_pure fun _ h => nomatch h) fun hto => ?_
      refine ends_ite (fun _ => ends_throw _) fun _ => ?_
      have hto : requested = intent.toSize := by simpa using hto
      refine ends_bind (ends_mono (fun _ s₁ _ => ?_) (ends_any _ _))
      refine ends_mono (fun reply s' hreply c hc => ?_) (ends_growVolume hpath)
      rw [hto]
      exact .inr (hreply c hc)
  -- where no expansion is pending
  all_goals
    refine ends_ite (fun h => absurd h Bool.false_ne_true) fun _ => ?_
    refine ends_ite (fun h => absurd h Bool.false_ne_true) fun _ => ?_
    refine ends_bind (ends_mono (fun _ s₁ h₁ => ?_) (ends_reconcileCommitted h))
    refine ends_ite (fun hle => ?_) fun _ => ?_
    · refine ends_ite (fun _ => ends_bind (ends_mono (fun failed s₂ h₂ => ?_) (ends_applySubdirQuota_keeps h₁)))
        fun _ => ends_bind (ends_pure ?_)
      · cases failed with
        | some code => exact ends_pure fun _ h => nomatch h
        | none => exact ends_pure fun c hc => .inl ⟨(Reply.ok.inj hc).symm, hle, h₂ rfl⟩
      · exact ends_pure fun c hc => .inl ⟨(Reply.ok.inj hc).symm, hle, h₁⟩
    · exact ends_mono (fun reply s' hreply c hc => .inr (hreply c hc)) (ends_growVolume hpath)

/-- An answer of `ControllerExpandVolume` whose capacity is in the range and recorded on a pool. -/
def ExpandHonours (hosts : List HostVol) (v : String) (range : Option CapacityRange) : Reply Int → World → Prop
  | .ok c, w => ∃ r, range = some r ∧ InRange r.requiredBytes r.limitBytes c ∧ ∃ host ∈ hosts, ∃ path,
      (∀ p, path = some p → ∃ t, p ∈ volumePaths t v) ∧ RecordedSize hosts w host.name v path c
  | .status _, _ => True

theorem ends_expandVolume {range : Option CapacityRange} :
    (expandVolume hosts v range sshQuota).ends (ExpandHonours hosts v range) w := by
  unfold expandVolume
  split
  · exact ends_pure trivial
  · exact ends_pure trivial
  · rename_i range requested hrequested
    refine ends_ite (fun _ => ends_pure trivial) fun _ => ?_
    refine ends_bind (ends_mono (fun found w' h => ?_) ends_searchVolume)
    obtain ⟨rfl, hheld⟩ := h
    cases found with
    | none => exact ends_pure trivial
    | some volume =>
      have hin := requestedCapacity_inRange hrequested
      refine ends_ite (fun _ => ends_pure trivial) fun hstate => ?_
      refine ends_ite (fun _ => ends_pure trivial) fun _ => ?_
      refine ends_ite (fun _ => ends_pure trivial) fun _ => ?_
      refine ends_ite (fun _ => ends_pure trivial) fun hlimit => ?_
      refine ends_ite (fun _ => ends_pure trivial) fun hwhole => ?_
      refine ends_ite (fun _ => ends_pure trivial) fun _ => ends_focus ?_
      have hrecorded := hheld.recorded (by simpa using hstate)
      have hkept : requested ≤ volume.size → InRange range.requiredBytes range.limitBytes volume.size := fun hle =>
        ⟨hin.required.trans hle, by omega⟩
      cases hsingle : volume.singlePvPerPool with
      | true =>
        have hle : requested ≤ volume.size := by
          by_contra hlt
          exact hwhole ⟨by omega, hsingle⟩
        refine ends_mono (fun reply s' h => ?_) (ends_expandWhole hsingle hle)
        obtain ⟨rfl, hreply⟩ := h
        cases reply with
        | status code => trivial
        | ok c =>
          obtain rfl := hreply c rfl
          rw [hsingle] at hrecorded
          rw [Function.update_eq_self]
          exact ⟨range, rfl, hkept hle, volume.host, hheld.hosted, none, fun _ h => (nomatch h), hrecorded⟩
      | false =>
        have hpath := hheld.path (by simpa using hstate) hsingle
        rw [hsingle] at hrecorded
        refine ends_mono (fun reply s' h => ?_) (ends_expandShared hsingle (hheld.volname ▸ hpath) hrecorded)
        cases reply with
        | status code => trivial
        | ok c =>
          rcases h c rfl with ⟨rfl, hle, hcommitted⟩ | ⟨rfl, t, p, hp, hcommitted⟩
          · refine ⟨range, rfl, hkept hle, volume.host, hheld.hosted, some volume.volpath, ?_, ?_⟩
            · exact fun p h => ⟨_, Option.some.inj h ▸ hpath⟩
            · show CommittedAt _ _ (Function.update w' volume.hostvol s' volume.hostvol)
              rwa [Function.update_self]
          · refine ⟨range, rfl, hin, volume.host, hheld.hosted, some p, ?_, ?_⟩
            · exact fun q h => ⟨t, Option.some.inj h ▸ (hheld.volname ▸ hp)⟩
            · show CommittedAt _ _ (Function.update w' volume.hostvol s' volume.hostvol)
              rwa [Function.update_self]

/-- **The capacity of an expanded volume.** -/
theorem ends_controllerExpandVolume {range : Option CapacityRange} :
    (controllerExpandVolume hosts v range sshQuota).ends (ExpandHonours hosts v range) w :=
  ends_translate (fun _ _ => trivial) (ends_serializedExisting (fun _ _ => trivial) ends_expandVolume)

end

/-- **Capacities are in the range and recorded.** Every run of `CreateVolume` and of `ControllerExpandVolume` that answers with a
capacity, whatever fails on its way. -/
theorem capacities_honoured (hshuffle : Shuffles env) (hdedicated : ClaimsDedicated hosts w) :
    (∀ request response w', (createVolume env hosts request).Reaches w (ret (.ok response)) w' →
      Honoured hosts request w' response) ∧
    ∀ v range sshQuota c w', (controllerExpandVolume hosts v range sshQuota).Reaches w (ret (.ok c)) w' →
      ExpandHonours hosts v range (.ok c) w' := by
  constructor
  · intro request response w' h
    have hend : Honours hosts request (.ok response) w' := ends_reaches (ends_createVolume hshuffle hdedicated) h
    exact hend
  · intro v range sshQuota c w' h
    exact ends_reaches ends_controllerExpandVolume h

end

section Sample

attribute [local instance] sampleHash

/-- A new volume of 1000 bytes has metadata with this size. -/
theorem sampleVolume_honoured : ∃ response w', Honoured [samplePool] sampleRequest w' response := by
  have hrun := run_reaches (createVolume sampleEnv [samplePool] sampleRequest) (emptyWorld 1500)
  obtain ⟨reply, hreply, hok⟩ : ∃ reply,
      ((createVolume sampleEnv [samplePool] sampleRequest).run (emptyWorld 1500)).1 = .ok reply ∧ (match reply with
        | .ok _ => true
        | .status _ => false) = true := ok_of_test (by decide +kernel)
  rw [hreply] at hrun
  cases reply with
  | status code => cases hok
  | ok response =>
    exact ⟨response, _, (capacities_honoured (fun _ => .refl _) fun _ _ _ => rfl).1 _ _ _ hrun⟩

/-- A dedicated pool from before there were claims, and the request of its owner. -/
def legacyPool : HostVol :=
  { name := "pool", type := "Replica3", singlePvPerPool := true, legacySinglePvVolumeId := some "pvc-1" }

def wholeRequest : CreateRequest :=
  { sampleRequest with parameters := [("hostvol_type", "Replica3"), ("single_pv_per_pool", "true")] }

/-- A shared pool that is marked as claimed. -/
def markedWorld : World := fun _ =>
  { capacity := 5000, claim := some { volumeId := "pvc-1", size := 3000, state := .active, version := SINGLE_PV_CLAIM_VERSION } }

/-- The pool has neither metadata nor a claim of this size. -/
def unrecorded (s : Pool) (n : Int) : Bool := s.metadata.entries.isEmpty && s.claim.all fun claim => claim.size ≠ n

/-- A volume that is answered for with this capacity, which its pool does not have. -/
def answersUnrecorded (host : HostVol) (w : World) (n : Int) : Bool :=
  match (createVolume sampleEnv [host] wholeRequest).run w with
  | (.ok (.ok response), w') => response.capacityBytes = n && unrecorded (w' host.name) n
  | _ => false

/-- The owner of a legacy pool is answered with the capacity of the pool, and a shared pool with a claim is answered for with the
requested size. -/
theorem unrecorded_capacity :
    answersUnrecorded legacyPool (emptyWorld 5000) 5000 = true ∧ answersUnrecorded samplePool markedWorld 1000 = true := by
  constructor
  · decide +kernel
  · decide +kernel

end Sample

end Kadalu
