import Kadalu.Data.Result
import Kadalu.Durable.RelyGuarantee
import Kadalu.Driver.CreateVolume
import Kadalu.Driver.Publish

/-!
# The ownership of a dedicated pool

The life of the ownership marker, over every interleaving of claims, adoptions, deletes and publishes on one dedicated
pool. The lock of the mount root guards it: next to its holder, only the workload writes (`WorkloadStep`), and every step
of the driver keeps to `OwnershipStep`.

* `safe_claim`, `safe_ensure`, `safe_delete`, `safe_publish`: each program keeps its steps under the lock.
* `singlePv_ownership`: the owner never changes, the states follow their order, and a pool is mounted for its active owner
  only and purged for nobody else.
-/

namespace Kadalu

open Durable Durable.Prog Except

/-! ## Steps -/

/-- A step that removes nothing from the pool. -/
structure KeepsData (s s' : Pool) : Prop where
  data : s.data ⊆ s'.data
  metadata : s'.metadata = s.metadata
  creations : s'.creations = s.creations
  expansions : s'.expansions = s.expansions
  payloads : s'.payloads = s.payloads

/-- What becomes of the ownership marker in one step: it is created by a claim of an empty pool or by the operator's
legacy volume, and then moves from active over deleting to retired. -/
inductive ClaimMove (legacy : Option String) (s : Pool) : Option Claim → Prop
  | same : ClaimMove legacy s s.claim
  | claim (c : Claim) : s.claim = none → c.state = .active →
      (poolHasUnclaimedData s = true → legacy = some c.volumeId) → ClaimMove legacy s (some c)
  | delete (c : Claim) : s.claim = some c → c.state = .active → ClaimMove legacy s (some { c with state := .deleting })
  | retire (c : Claim) : s.claim = some c → c.state = .deleting → ClaimMove legacy s (some { c with state := .retired })

/-- The pool is claimed by `v` and not being deleted. -/
def ActiveOwner (s : Pool) (v : String) : Prop := ∃ c, s.claim = some c ∧ c.state = .active ∧ c.volumeId = v

/-- The deletion of the pool is durable. -/
def DeleteBegun (s : Pool) : Prop := ∃ c, s.claim = some c ∧ c.state ≠ .active

/-- A step of the driver or of the workload on a dedicated pool. -/
structure OwnershipStep (legacy : Option String) (s s' : Pool) : Prop where
  claim : ClaimMove legacy s s'.claim
  published : s'.published = s.published ∨ ∃ v p, s'.published = (v, p) :: s.published ∧ ActiveOwner s v
  purged : KeepsData s s' ∨ DeleteBegun s

/-- What happens next to the holder of the lock: the workload of a claimed pool writes. -/
def WorkloadStep (s s' : Pool) : Prop :=
  s' = s ∨ s.claim.isSome = true ∧ ∃ entry, s' = { s with data := entry :: s.data }

variable {legacy : Option String} {s t : Pool} {held : List PoolLock} {v : String}

theorem KeepsData.refl (s : Pool) : KeepsData s s := ⟨List.Subset.refl _, rfl, rfl, rfl, rfl⟩

theorem OwnershipStep.refl (s : Pool) : OwnershipStep legacy s s := ⟨.same, .inl rfl, .inl (.refl s)⟩

theorem WorkloadStep.refl (s : Pool) : WorkloadStep s s := .inl rfl

theorem WorkloadStep.ownershipStep {s s' : Pool} (h : WorkloadStep s s') : OwnershipStep legacy s s' := by
  rcases h with rfl | ⟨-, entry, rfl⟩
  · exact .refl _
  · exact ⟨.same, .inl rfl, .inl ⟨List.subset_cons_self _ _, rfl, rfl, rfl, rfl⟩⟩

/-- A step that only sets the marker. -/
theorem OwnershipStep.of_claim {c : Option Claim} (h : ClaimMove legacy s c) : OwnershipStep legacy s { s with claim := c } :=
  ⟨h, .inl rfl, .inl ⟨List.Subset.refl _, rfl, rfl, rfl, rfl⟩⟩

/-- Any process is part of the workload, and the holder of the lock may do what the driver does. -/
def OwnershipRule (legacy : Option String) (held : List PoolLock) : Pool → Pool → Prop :=
  if .singlePv ∈ held then OwnershipStep legacy else WorkloadStep

theorem OwnershipRule.refl (held : List PoolLock) (s : Pool) : OwnershipRule legacy held s s := by
  unfold OwnershipRule
  split
  · exact .refl s
  · exact .refl s

theorem OwnershipRule.ownershipStep {held : List PoolLock} {s' : Pool} (h : OwnershipRule legacy held s s') :
    OwnershipStep legacy s s' := by
  unfold OwnershipRule at h
  split at h
  · exact h
  · exact h.ownershipStep

/-- The workload leaves the marker alone, and an unclaimed pool as a whole. -/
theorem rely_claim (hl : .singlePv ∈ held) (h : Rely (OwnershipRule legacy) held s t) :
    t.claim = s.claim ∧ (s.claim = none → t = s) := by
  refine h.invariant (P := fun t => t.claim = s.claim ∧ (s.claim = none → t = s)) (fun others u w hne hG hu => ?_)
    ⟨rfl, fun _ => rfl⟩
  rw [OwnershipRule, if_neg fun ho => hne _ ho hl] at hG
  obtain ⟨hc, hs⟩ := hu
  rcases hG with rfl | ⟨hsome, entry, rfl⟩
  · exact ⟨hc, hs⟩
  · refine ⟨hc, fun hn => ?_⟩
    rw [hc, hn] at hsome
    cases hsome

/-! ## Rules -/

section Rules

variable {α : Type} {Q : α → Pool → Prop}

/-- The contract of a program on a dedicated pool. -/
abbrev Safe (legacy : Option String) (Q : α → Pool → Prop) (held : List PoolLock) (p : PoolProg α) (s : Pool) : Prop :=
  p.safe (OwnershipRule legacy) Q held s

/-- Reading never needs the lock. -/
theorem safe_anyRead {errs : Err → Bool} {g : Pool → Except Err α} :
    Safe legacy (fun _ _ => True) held (Prog.read errs g) s :=
  safe_read (.refl _ _) fun _ _ _ _ => trivial

/-- What the holder of the lock reads of the marker stays true. -/
theorem safe_lockedRead (hl : .singlePv ∈ held) {g : Pool → Except Err α}
    (h : ∀ a, g s = .ok a → ∀ t, t.claim = s.claim → (s.claim = none → t = s) → Q a t) :
    Safe legacy Q held (readPool g) s :=
  safe_read (.refl _ _) fun a ha t ht => h a ha t (rely_claim hl ht).1 (rely_claim hl ht).2

/-- A step of the holder of the lock. -/
theorem safe_lockedStep (hl : .singlePv ∈ held) {f : Pool → Except Err α × Pool} {mid : Pool → List Pool}
    {errs : Err → Bool} (h : ∀ t ∈ (f s).2 :: mid s, OwnershipStep legacy s t)
    (hQ : ∀ a, (f s).1 = .ok a → ∀ t, t.claim = (f s).2.claim → Q a t) :
    Safe legacy Q held (Prog.step f mid errs) s := by
  refine safe_step (fun t ht => ?_) fun a ha t ht => hQ a ha t (rely_claim hl ht).1
  rw [OwnershipRule, if_pos hl]
  rcases List.mem_cons.mp ht with rfl | ht
  · exact .refl _
  · exact h t ht

/-- A file operation of the holder of the lock. -/
theorem safe_lockedFile (hl : .singlePv ∈ held) {f : Pool → Except Err (α × Pool)}
    (h : ∀ a s', f s = .ok (a, s') → OwnershipStep legacy s s' ∧ ∀ t, t.claim = s'.claim → Q a t) :
    Safe legacy Q held (fileStep f) s := by
  cases hf : f s with
  | ok x =>
    obtain ⟨hstep, hQ⟩ := h x.1 x.2 hf
    refine safe_lockedStep hl (fun t ht => ?_) fun a ha t ht => ?_
    · simp only [hf, List.mem_cons, List.not_mem_nil, or_false] at ht
      exact ht ▸ hstep
    · simp only [hf, Except.ok.injEq] at ha ht
      exact ha ▸ hQ t ht
  | error e =>
    refine safe_lockedStep hl (fun t ht => ?_) fun a ha t ht => ?_
    · simp only [hf, List.mem_cons, List.not_mem_nil, or_false] at ht
      rw [ht]
      exact .refl s
    · simp only [hf] at ha
      cases ha

theorem safe_replaceClaim (hl : .singlePv ∈ held) {c c' : Claim} {Q : Unit → Pool → Prop} (hc : s.claim = some c)
    (h : ClaimMove legacy s (some c')) (hQ : ∀ t, t.claim = some c' → Q () t) :
    Safe legacy Q held (replaceClaim c') s :=
  safe_lockedFile hl fun a s' hs' => by
    simp only [hc, Option.isNone_some, Bool.false_eq_true, if_false, pure_eq_ok, ok_bind, Except.ok.injEq,
      Prod.mk.injEq, true_and] at hs'
    subst hs'
    exact ⟨.of_claim h, hQ⟩

end Rules

/-! ## Claims -/

theorem readSinglePvClaim_ok {o : Option Claim} (h : readSinglePvClaim s = .ok o) : s.claim = o := by
  unfold readSinglePvClaim at h
  split at h
  · cases h
    assumption
  · split at h
    · cases h
      assumption
    · cases h

/-- Under the lock, an unclaimed pool is claimed when it is empty, or for the operator's legacy volume. -/
theorem safe_claimLocked (hl : .singlePv ∈ held) {size : Int} {allow : Bool} (hallow : allow = true → legacy = some v) :
    Safe legacy (fun _ _ => True) held (claimSinglePvVolumeLocked v size allow) s := by
  refine safe_bind (safe_lockedRead hl fun existing hex t htc hts => ?_)
  have hex := readSinglePvClaim_ok hex
  cases existing with
  | some existing => exact safe_ofExcept fun _ _ => trivial
  | none =>
    obtain rfl := hts hex
    refine safe_bind (safe_mono (Q := fun unclaimed u => u.claim = none ∧
      (unclaimed = false → poolHasUnclaimedData u = true → legacy = some v)) (fun unclaimed u ⟨hu, hun⟩ => ?_) ?_)
    · refine safe_ite (fun _ => safe_throw) fun hfalse => safe_bind (safe_lockedFile hl fun b w hw => ?_)
      rw [if_neg (by simp [hu])] at hw
      cases hw
      refine ⟨.of_claim (.claim _ hu rfl (hun (by simpa using hfalse))), fun w _ => ?_⟩
      refine safe_ite (fun _ => safe_pure trivial) fun _ => safe_bind (safe_mono (fun existing x _ => ?_) safe_anyRead)
      cases existing with
      | some existing => exact safe_ofExcept fun _ _ => trivial
      | none => exact safe_throw
    · refine safe_ite (fun ha => safe_pure ⟨hex, fun _ _ => hallow ha⟩) fun _ => safe_lockedRead hl fun unclaimed hun u huc hus => ?_
      obtain rfl := hus hex
      refine ⟨hex, fun hf ht => ?_⟩
      cases hun
      rw [hf] at ht
      cases ht

theorem safe_claim {size : Int} : Safe legacy (fun _ _ => True) held (claimSinglePvVolume v size) s :=
  safe_withLock fun _ _ => safe_mono (fun _ _ _ _ _ => trivial)
    (safe_claimLocked List.mem_cons_self fun h => by cases h)

theorem safe_ensure : Safe legacy (fun _ _ => True) held (ensureSinglePvClaim v legacy) s := by
  refine safe_withLock fun t _ => safe_mono (fun _ _ _ _ _ => trivial) (Q := fun _ _ => True) ?_
  refine safe_bind (safe_mono (fun claim u _ => ?_) safe_anyRead)
  cases claim with
  | some claim => exact safe_pure trivial
  | none =>
    refine safe_ite (fun _ => safe_pure trivial) fun hlegacy => safe_bind (safe_mono (fun capacity w _ => ?_) safe_anyRead)
    rw [not_not] at hlegacy
    refine safe_tryCatch (safe_bind (safe_mono (fun _ _ _ => safe_pure trivial)
      (safe_claimLocked List.mem_cons_self fun _ => hlegacy))) fun e x => ?_
    split
    · exact safe_pure trivial
    · exact safe_pure trivial
    · exact safe_throw

theorem safe_claimMatches (hl : .singlePv ∈ held) :
    Safe legacy (fun ok t => ok = true → ActiveOwner t v) held (singlePvClaimMatches v) s := by
  refine safe_bind (safe_lockedRead hl fun claim hc t htc _ => safe_pure fun hok => ?_)
  cases claim with
  | none => cases hok
  | some c =>
    simp only [Option.any_some, Bool.and_eq_true, decide_eq_true_eq] at hok
    exact ⟨c, htc.trans (readSinglePvClaim_ok hc), hok⟩

/-! ## Deletes -/

theorem safe_begin (hl : .singlePv ∈ held) : Safe legacy (fun _ t => DeleteBegun t) held (beginSinglePvDelete v) s := by
  refine safe_bind (safe_lockedRead hl fun claim hc t htc _ => ?_)
  have hc := htc.trans (readSinglePvClaim_ok hc)
  cases claim with
  | none => exact safe_throw
  | some c =>
    refine safe_ite (fun _ => safe_throw) fun _ => ?_
    cases hstate : c.state with
    | active => exact safe_replaceClaim hl hc (.delete c hc hstate) fun u hu => ⟨_, hu, by simp⟩
    | deleting => exact safe_pure ⟨c, hc, by simp [hstate]⟩
    | retired => exact safe_pure ⟨c, hc, by simp [hstate]⟩

theorem safe_purge (hl : .singlePv ∈ held) (h : DeleteBegun s) : Safe legacy (fun _ t => DeleteBegun t) held purgeSinglePvPool s := by
  have hbegun : ∀ {t : Pool}, t.claim = s.claim → DeleteBegun t := fun ht => by
    obtain ⟨c, hc, hstate⟩ := h
    exact ⟨c, ht.trans hc, hstate⟩
  refine safe_bind (safe_lockedStep hl (fun t ht => ?_) fun _ _ t ht => ?_)
  · have hfields : t.claim = s.claim ∧ t.published = s.published := by
      rcases List.mem_cons.mp ht with rfl | ht
      · exact ⟨rfl, rfl⟩
      · obtain ⟨rest, -, rfl⟩ := List.mem_map.mp ht
        exact ⟨rfl, rfl⟩
    exact ⟨hfields.1 ▸ .same, .inl hfields.2, .inr h⟩
  · refine safe_bind (safe_lockedRead hl fun leftover _ u hu _ => safe_ite (fun _ => safe_throw) fun _ => safe_pure ?_)
    exact hbegun (hu.trans ht)

theorem safe_retire (hl : .singlePv ∈ held) : Safe legacy (fun _ _ => True) held (retireSinglePvClaim v) s := by
  refine safe_bind (safe_lockedRead hl fun claim hc t htc _ => ?_)
  have hc := htc.trans (readSinglePvClaim_ok hc)
  cases claim with
  | none => exact safe_pure trivial
  | some c =>
    refine safe_ite (fun _ => safe_throw) fun _ => safe_ite (fun _ => safe_throw) fun hstate => ?_
    refine safe_replaceClaim hl hc ?_ fun _ _ => trivial
    cases hs : c.state with
    | active => exact absurd hs hstate
    | deleting => exact .retire c hc hs
    | retired =>
      -- retiring once more writes the same marker
      have he : t.claim = some { c with state := .retired } := by rw [hc, ← hs]
      exact he ▸ .same

theorem safe_delete : Safe legacy (fun _ _ => True) held (deleteSinglePvVolume v legacy) s := by
  refine safe_withLock fun t _ => safe_mono (fun _ _ _ _ _ => trivial) (Q := fun _ _ => True) ?_
  have hrest : ∀ u : Pool, Safe legacy (fun _ _ => True) (.singlePv :: held) (do
      beginSinglePvDelete v
      purgeSinglePvPool
      retireSinglePvClaim v) u := fun u =>
    safe_bind (safe_mono (fun _ w hw => safe_bind (safe_mono (fun _ _ _ => safe_retire List.mem_cons_self)
      (safe_purge List.mem_cons_self hw))) (safe_begin List.mem_cons_self))
  refine safe_bind (safe_mono (fun claim u _ => ?_) safe_anyRead)
  cases claim with
  | none =>
    refine safe_bind (safe_mono (fun ok w _ => ?_) safe_ensure)
    exact safe_ite (fun _ => hrest w) fun _ => safe_bind safe_throw
  | some claim => exact safe_ite (fun _ => safe_bind safe_throw) fun _ => hrest u

/-! ## Publishes -/

section Publish

variable [VolnameHash] {host : HostVol} {request : PublishRequest}

omit [VolnameHash] in
theorem safe_publishing {α : Type} {command os value : Status} {p : PoolProg α}
    (h : Safe legacy (fun _ _ => True) held p s) : Safe legacy (fun _ _ => True) held (publishing command os value p) s :=
  safe_tryCatch (safe_bind (safe_mono (fun _ _ _ => safe_pure trivial) h)) fun _ _ =>
    safe_ite (fun _ => safe_pure trivial) fun _ => safe_ite (fun _ => safe_pure trivial) fun _ =>
    safe_ite (fun _ => safe_pure trivial) fun _ => safe_throw

omit [VolnameHash] in
/-- The second check of the claim holds at the mount. -/
theorem safe_publishSource (hl : .singlePv ∈ held) (hpath : request.path = []) :
    Safe legacy (fun _ _ => True) held (publishSource request) s := by
  have howns : ownsSource request = singlePvClaimMatches request.volumeId := if_pos hpath
  rw [publishSource, howns]
  refine safe_bind (safe_mono (fun first t _ => ?_) (safe_claimMatches hl))
  refine safe_ite (fun _ => safe_pure trivial) fun _ => safe_bind (safe_mono (fun found u _ => ?_) safe_anyRead)
  refine safe_ite (fun _ => safe_pure trivial) fun _ => safe_bind (safe_mono (fun second w hw => ?_) (safe_claimMatches hl))
  refine safe_ite (fun _ => safe_pure trivial) fun hsecond => safe_bind (safe_lockedStep hl (fun x hx => ?_) fun _ _ _ _ =>
    safe_pure trivial)
  simp only [List.mem_cons, List.not_mem_nil, or_false] at hx
  subst hx
  exact ⟨.same, .inr ⟨_, _, rfl, hw (by simpa using hsecond)⟩, .inl ⟨List.Subset.refl _, rfl, rfl, rfl, rfl⟩⟩

theorem safe_publish (hhost : host.singlePvPerPool = true) :
    Safe host.legacySinglePvVolumeId (fun _ _ => True) held (nodePublishVolume host request) s := by
  unfold nodePublishVolume
  split
  · exact safe_pure trivial
  · rename_i hvalid
    have hpath : request.path = [] := by
      by_contra hne
      simp only [validateVolumePaths, hne, hhost, throw_eq_error, ite_error_ok, ne_eq, not_false_eq_true, and_self,
        not_true_eq_false, false_and, and_false] at hvalid
    refine safe_ite (fun _ => safe_pure trivial) fun _ =>
      safe_bind (safe_mono (fun mounted t _ => ?_) (safe_publishing safe_anyRead))
    split
    · exact safe_pure trivial
    · have hensure : ownershipEnsured host request = ensureSinglePvClaim request.volumeId host.legacySinglePvVolumeId :=
        if_pos hpath
      rw [hensure]
      refine safe_bind (safe_mono (fun ensured u _ => ?_) (safe_publishing safe_ensure))
      split
      · exact safe_pure trivial
      · exact safe_pure trivial
      · have hguard : claimGuard request (publishSource request) = singlePvOperationLock (publishSource request) :=
          if_pos hpath
        rw [hguard]
        refine safe_bind (safe_mono (fun reply w _ => ?_) (safe_publishing
          (safe_withLock fun _ _ => safe_mono (fun _ _ _ _ _ => trivial) (safe_publishSource List.mem_cons_self hpath))))
        split
        · exact safe_pure trivial
        · exact safe_pure trivial

end Publish

/-! ## Runs -/

/-- A write of the workload, which needs a mounted and so a claimed pool. -/
def workloadWrite (entry : String) : PoolProg Unit := update fun s =>
  if s.claim.isSome then pure { s with data := entry :: s.data } else throw .os

/-- The operations on a dedicated pool, each with its result dropped: those of the driver's clients, for any volume ID, and
the writes of the workload. -/
inductive OwnershipOp [VolnameHash] (host : HostVol) : PoolProg Unit → Prop
  | claim (v : String) (size : Int) : OwnershipOp host (claimSinglePvVolume v size >>= fun _ => pure ())
  | ensure (v : String) : OwnershipOp host (ensureSinglePvClaim v host.legacySinglePvVolumeId >>= fun _ => pure ())
  | delete (v : String) : OwnershipOp host (deleteSinglePvVolume v host.legacySinglePvVolumeId)
  | publish (request : PublishRequest) : OwnershipOp host (nodePublishVolume host request >>= fun _ => pure ())
  | write (entry : String) : OwnershipOp host (workloadWrite entry)

theorem safe_workloadWrite {entry : String} : Safe legacy (fun _ _ => True) [] (workloadWrite entry) s := by
  refine safe_step (fun t ht => ?_) fun _ _ _ _ => trivial
  show WorkloadStep s t
  simp only [List.mem_cons, List.not_mem_nil, or_false] at ht
  rcases ht with rfl | rfl
  · exact .refl _
  · cases hc : s.claim with
    | none => exact .inl rfl
    | some c =>
      refine .inr ⟨by rw [hc]; rfl, entry, ?_⟩
      rw [hc]
      rfl

theorem safe_ownershipOp [VolnameHash] {host : HostVol} (hhost : host.singlePvPerPool = true) {p : PoolProg Unit}
    (h : OwnershipOp host p) : Safe host.legacySinglePvVolumeId (fun _ _ => True) [] p s := by
  cases h with
  | claim v size => exact safe_bind (safe_mono (fun _ _ _ => safe_pure trivial) safe_claim)
  | ensure v => exact safe_bind (safe_mono (fun _ _ _ => safe_pure trivial) safe_ensure)
  | delete v => exact safe_delete
  | publish request => exact safe_bind (safe_mono (fun _ _ _ => safe_pure trivial) (safe_publish hhost))
  | write entry => exact safe_workloadWrite

/-- A claim of a pool that is being deleted, or is retired, never succeeds. -/
theorem claim_refused {c c' : Claim} {size : Int} {s' : Pool} (hc : s.claim = some c) (hstate : c.state ≠ .active) :
    ¬(claimSinglePvVolume v size).Reaches s (.ret c') s' := by
  have hwpc : (claimSinglePvVolume v size).inv (fun t => t.claim = some c) (fun _ _ => False) s := by
    refine inv_withLock hc (inv_bind (inv_read hc fun existing hex => ?_))
    have hex := readSinglePvClaim_ok hex
    rw [hc] at hex
    subst hex
    refine inv_ofExcept hc fun a ha => ?_
    rw [checkExistingClaim, if_pos hstate] at ha
    cases ha
  exact fun hr => inv_result hwpc hr hc

/-- **Ownership of a dedicated pool.** In every interleaving of claims, adoptions, deletes and publishes of any volumes,
with crashes anywhere, every step moves the marker from none over active and deleting to retired under one owner; only
the operator's legacy volume adopts a pool with data, only the active owner's publish mounts, data goes only once the
deletion is durable, and a pool that is not active is never claimed again. -/
theorem singlePv_ownership [VolnameHash] (host : HostVol) (hhost : host.singlePvPerPool = true) :
    (∀ s₀ a b, Run (OwnershipOp host) Anywhere s₀ a → a.Step (OwnershipOp host) b →
      OwnershipStep host.legacySinglePvVolumeId a.store b.store) ∧
    ∀ s c v size c' s', s.claim = some c → c.state ≠ .active → ¬(claimSinglePvVolume v size).Reaches s (.ret c') s' := by
  refine ⟨fun s₀ a b h hstep => ?_, fun s c v size c' s' hc hstate => claim_refused hc hstate⟩
  obtain ⟨held, hG⟩ := h.guaranteed OwnershipRule.refl
    (fun p hp s => wpr_mono (fun _ _ _ _ => trivial) (safe_ownershipOp hhost hp)) hstep
  exact hG.ownershipStep

/-! ## A claim -/

attribute [local instance] sampleHash

/-- A dedicated pool without a legacy volume. -/
def dedicatedPool : HostVol := { samplePool with singlePvPerPool := true, singlePvClaimVersion := some 1 }

/-- Claiming an empty pool is one such step, and a retired pool refuses it. -/
theorem singlePv_claimed :
    OwnershipStep none {} { claim := some ⟨"pvc-1", 1000, .active, 1⟩ } ∧
      ¬(claimSinglePvVolume "pvc-1" 1000).Reaches { claim := some ⟨"pvc-2", 1000, .retired, 1⟩ }
        (.ret ⟨"pvc-1", 1000, .active, 1⟩) { claim := some ⟨"pvc-1", 1000, .active, 1⟩ } := by
  have hown := singlePv_ownership dedicatedPool rfl
  refine ⟨?_, hown.2 _ _ _ _ _ _ rfl (by decide)⟩
  -- the lock, the marker, the data, and then the marker is set
  have h₀ : Run (OwnershipOp dedicatedPool) Anywhere ({} : Pool) ⟨{}, []⟩ := .nil
  have h₁ := h₀.cons (.start _ (.claim "pvc-1" 1000)) trivial
  have h₂ := h₁.cons (.step [] [] .ok rfl) trivial
  have h₃ := h₂.cons (.step [] [] .ok rfl) trivial
  have h₄ := h₃.cons (.step [] [] .ok rfl) trivial
  exact hown.1 _ _ _ h₄ (.step [] [] .ok rfl)

end Kadalu
