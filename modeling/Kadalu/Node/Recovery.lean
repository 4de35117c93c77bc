import Kadalu.Durable.Beside
import Kadalu.Node.Mount
import Mathlib.Logic.Relation

/-!
# Recovery of a publish target

`mount_volume` replaces what is mounted at its target when that is a stale mount of the same PV. For a bind mount it can
see that from the mount itself; for a loop device it trusts the publish record. So a record must describe the loop device
it stands beside (`Sound`). An unpublish may crash between its unmount and the removal of the record, which is then the
record of a free target; a block volume that is published there and crashes before its own record leaves a mount beside
the record of another volume. It may also crash behind `losetup -d`, and then others may attach their own file under the
number of a device whose node is still mounted.
-/

namespace Kadalu.Node

open Durable Durable.Prog

section

variable [VolnameHash] {K : Kernel} {q : MountRequest} {s t : Target} {e : MountEntry} {r : PublishState}

/-! ## Requests -/

/-- The PV of a request. -/
def MountRequest.pv (q : MountRequest) : Pv := ⟨q.volumeId, q.pvtype, q.volumePath, q.hostVolumeName, q.generation⟩

/-- The PV of a publish record. -/
def PublishState.pv (r : PublishState) : Pv :=
  ⟨r.volumeId, r.pvtype, r.volumePath, r.hostVolumeName, r.hostMountIdentity.generation⟩

/-- What `NodePublishVolume` has checked, and the source that it holds open. -/
structure MountRequest.Valid (K : Kernel) (q : MountRequest) : Prop where
  pv : q.pv.Valid K
  identity : ∀ i, q.hostMountIdentity = some i → i.generation = q.generation
  client : K.Serves q.file.device q.pv
  file : q.pvtype ≠ .subvol → K.path q.file = q.volumePath

omit [VolnameHash] in
/-- A record that authorizes a recovery is one of the same PV. -/
theorem PublishState.authorizes_pv {actual expected : PublishState} {b : Bool}
    (h : actual.authorizes expected b = true) : actual.pv = expected.pv := by
  simp only [authorizes, Bool.or_eq_true, Bool.and_eq_true, decide_eq_true_eq, sameMountIdentityGeneration] at h
  rcases h with rfl | ⟨⟨-, hgen⟩, heq⟩
  · rfl
  · rw [← heq]
    simp only [pv, ← hgen]

theorem publishState_pv (hq : q.Valid K) (h : publishState q = some r) : r.pv = q.pv := by
  obtain ⟨i, hi, rfl⟩ := Option.map_eq_some_iff.mp h
  simp only [PublishState.pv, MountRequest.pv, hq.identity i hi]

/-! ## What holds at a target -/

/-- There is one mount at most, and a record beside a loop device describes it. -/
structure Sound (K : Kernel) (s : Target) : Prop where
  single : s.mounts.length ≤ 1
  shown : ∀ e ∈ s.mounts, ∀ r, e.loopDevice.isSome → s.record = some r → Shows K e r.pv

/-- The legacy fallback of a request accepts a client without an identity that serves another pool generation. -/
def MisledFallback (K : Kernel) (q : MountRequest) (e : MountEntry) : Prop :=
  q.allowLegacyHostMount ∧ ∃ device root, e.fs = .gluster device root ∧
    (K.client device).source = .kadalu q.hostVolumeName none ∧ (K.client device).generation ≠ q.generation

/-- A block volume was mounted at a free target, and the record of another PV is still there. -/
def Interrupted (q : MountRequest) (s t : Target) : Prop :=
  s.mount = none ∧ q.pvtype ≠ .subvol ∧ t.mount.isSome ∧ ∃ r, s.record = some r ∧ t.record = some r ∧ r.pv ≠ q.pv

omit [VolnameHash] in
theorem sound_free (h : s.mounts = []) : Sound K s :=
  ⟨by simp [h], fun e he => absurd (h ▸ he) List.not_mem_nil⟩

omit [VolnameHash] in
theorem sound_unrecorded (hl : s.mounts.length ≤ 1) (h : s.record = none) : Sound K s :=
  ⟨hl, fun _ _ r _ hr => by rw [h] at hr; cases hr⟩

omit [VolnameHash] in
theorem shows_loop {loop : LoopDevice} {p : Pv} (h : e.loop = some loop)
    (hp : K.path loop.file = p.path ∧ K.Serves loop.file.device p) : Shows K e p := by
  obtain ⟨options, fs⟩ := e
  cases fs with
  | loop loop' busy =>
    cases h
    exact hp
  | gluster device root => cases h
  | other fstype => cases h

/-! ## The checks of an occupied target -/

omit [VolnameHash] in
theorem inv_targetMountEntry {C : Target → Prop} {Q : Option MountEntry → Target → Prop} {doubled : Bool}
    (hd : doubled = false) (hC : C s) (hQ : Q s.mount s) : (targetMountEntry doubled).inv C Q s :=
  inv_read hC fun _ h => by subst hd; cases h; exact hQ

omit [VolnameHash] in
theorem inv_losetupShow {C : Target → Prop} {Q : Option LoopDevice → Target → Prop} {number : Nat} (hC : C s)
    (hQ : Q (s.backing number) s) : (losetupShow number).inv C Q s :=
  inv_read hC fun _ h => by cases h; exact hQ

omit [VolnameHash] in
theorem inv_touch {C : Target → Prop} {Q : Unit → Target → Prop} (hC : C s) (hQ : Q () s) : touch.inv C Q s :=
  inv_read hC fun _ _ => hQ

omit [VolnameHash] in
theorem inv_statSource {C : Target → Prop} {Q : FileNode → Target → Prop} (hC : C s) (hQ : Q q.file s) :
    (statSource q).inv C Q s :=
  inv_read hC fun _ h => by cases h; exact hQ

/-- A check of the target leaves it as it is; its answer `true` means `P`. -/
def Checks (P : Prop) (s : Target) (p : NodeProg Bool) : Prop := p.inv (· = s) (fun b t => t = s ∧ (b = true → P)) s

omit [VolnameHash] in
theorem checks_pure {P : Prop} {b : Bool} (h : b = true → P) : Checks P s (pure b) := inv_ret ⟨rfl, h⟩

omit [VolnameHash] in
/-- The answer `true` of `_publish_state_matches` comes from a record of the PV that is expected. -/
theorem checks_publishStateMatches {expected : Option PublishState} {b : Bool} :
    Checks (∃ r x, s.record = some r ∧ expected = some x ∧ r.pv = x.pv) s (publishStateMatches expected b) := by
  cases expected with
  | none => exact checks_pure nofun
  | some x =>
    refine inv_tryCatch (inv_bind (inv_read rfl fun r hr => ?_)) fun _ t ht => inv_ret ⟨ht, nofun⟩
    refine inv_ret ⟨rfl, fun h => ⟨r, x, ?_, rfl, PublishState.authorizes_pv h⟩⟩
    cases hs : s.record with
    | none => rw [hs] at hr; cases hr
    | some r' => rw [hs] at hr; cases hr; rfl

/-- A mount with the exact backing of a request shows its PV. -/
theorem checks_mountedVolumeSourceMatches (hq : q.Valid K) (hd : q.doubled = false) :
    Checks (∃ e, s.mount = some e ∧ Shows K e q.pv) s (mountedVolumeSourceMatches q) := by
  refine inv_bind (inv_targetMountEntry hd rfl ?_)
  cases hm : s.mount with
  | none => exact checks_pure nofun
  | some e =>
    refine inv_ite (fun hsub => ?_) fun hblock => ?_
    · refine inv_bind (inv_statSource rfl (checks_pure fun h => ⟨e, rfl, ?_⟩))
      rw [Shows, of_decide_eq_true h]
      exact ⟨rfl, hq.client⟩
    cases hloop : e.loop with
    | none =>
      rw [MountEntry.loopDevice, hloop]
      exact checks_pure nofun
    | some loop =>
      rw [MountEntry.loopDevice, hloop]
      refine inv_tryCatch (inv_bind (inv_bind (inv_losetupShow rfl ?_))) fun err t ht => ?_
      · -- the device is the one that is mounted
        rw [backing_of_mount hm hloop]
        refine inv_bind (inv_statSource rfl (inv_ret ⟨rfl, fun h => ⟨e, rfl, ?_⟩⟩))
        have hfile : loop.file = q.file := Option.some.inj (of_decide_eq_true h)
        exact shows_loop hloop ⟨hfile ▸ hq.file hblock, hfile ▸ hq.client⟩
      · exact inv_ite (fun _ => inv_ret ⟨ht, nofun⟩) fun _ => inv_raise ht

theorem checks_mountedVolumeMatches (hq : q.Valid K) (hd : q.doubled = false) :
    Checks (∃ e, s.mount = some e ∧ Shows K e q.pv) s (mountedVolumeMatches q) := by
  refine inv_bind (inv_mono ?_ (checks_mountedVolumeSourceMatches hq hd))
  rintro b t ⟨rfl, hb⟩
  refine inv_ite (fun _ => checks_pure nofun) fun hnot => inv_bind (inv_targetMountEntry hd rfl ?_)
  have hshows := hb (by simpa using hnot)
  cases hm : t.mount with
  | none => exact checks_pure nofun
  | some e => exact inv_ret ⟨rfl, fun _ => hm ▸ hshows⟩

/-- **The decision.** An identity-bearing request takes only a stale mount of its own PV for one, unless the legacy fallback
misleads it. -/
theorem checks_sameLogicalStaleSource (hq : q.Valid K) (hd : q.doubled = false) (hid : q.hostMountIdentity.isSome)
    (hs : Sound K s) (he : s.mount = some e) (hleg : ¬MisledFallback K q e) :
    Checks (Shows K e q.pv) s (sameLogicalStaleSource K q) := by
  obtain ⟨i, hi⟩ := Option.isSome_iff_exists.mp hid
  refine inv_bind (inv_targetMountEntry hd rfl ?_)
  rw [he]
  refine inv_ite (fun _ => ?_) fun _ => ?_
  · cases hfs : e.fs with
    | loop loop busy => exact checks_pure nofun
    | other fstype => exact checks_pure nofun
    | gluster device root =>
      refine inv_ite (fun _ => checks_pure nofun) fun hroot => inv_ite (fun _ => checks_pure nofun) fun hname => ?_
      have hnamed : (K.client device).hostVolumeName = q.hostVolumeName := by
        have := (K.client device).named
        rw [not_not.mp hname] at this
        exact (Option.some.inj this).symm
      have hshows : (K.client device).generation = q.generation → Shows K e q.pv := fun hgen => by
        rw [Shows, hfs]
        exact ⟨not_not.mp hroot, hnamed, hgen⟩
      unfold sameHostMount
      rw [hi]
      cases hsource : (K.client device).source.glusterMountIdentity with
      | none =>
        refine checks_pure fun h => hshows (by_contra fun hgen => hleg ?_)
        simp only [Bool.and_eq_true, decide_eq_true_eq] at h
        exact ⟨h.1, device, root, hfs, h.2, hgen⟩
      | some identity =>
        have hserved := (K.client device).identified identity hsource
        refine inv_ite (fun h => checks_pure fun _ => hshows ?_) fun _ =>
          inv_ite (fun h => ?_) fun _ => checks_pure nofun
        · rw [← hserved, h, hq.identity i hi]
        · have hgen : identity.generation = i.generation := by simpa [sameMountIdentityGeneration] using h
          refine inv_mono ?_ checks_publishStateMatches
          rintro b t ⟨rfl, -⟩
          exact ⟨rfl, fun _ => hshows (by rw [← hserved, hgen, hq.identity i hi])⟩
  · cases hloop : e.loopDevice with
    | none => exact checks_pure nofun
    | some number =>
      refine inv_ite (fun _ => inv_mono ?_ checks_publishStateMatches) fun hnone => ?_
      · -- the record describes the loop device, and the PV of the request
        rintro b t ⟨rfl, hb⟩
        refine ⟨rfl, fun h => ?_⟩
        obtain ⟨r, x, hr, hx, hpv⟩ := hb h
        rw [← publishState_pv hq hx, ← hpv]
        exact hs.shown e (mem_of_mount he) r (by rw [hloop]; rfl) hr
      · simp [publishState, hi] at hnone

/-! ## Other volumes are spared -/

/-- **One request.** At a target with a mount of another PV an identity-bearing request changes nothing and raises. -/
theorem inv_mountVolume_spares (hq : q.Valid K) (hd : q.doubled = false) (hid : q.hostMountIdentity.isSome) (hs : Sound K s)
    (he : s.mount = some e) (hleg : ¬MisledFallback K q e) (hne : ¬Shows K e q.pv) :
    (mountVolume K q).inv (· = s) (fun _ _ => False) s := by
  refine inv_bind (inv_ofExcept rfl fun _ _ => inv_bind (inv_targetMountEntry hd rfl ?_))
  rw [he]
  refine inv_ite (fun _ => inv_bind ?_) (fun h => absurd rfl h)
  have hother : ¬∃ e, s.mount = some e ∧ Shows K e q.pv := fun ⟨e', he', hshows⟩ => by
    rw [he] at he'
    cases he'
    exact hne hshows
  have hrecognise : (recogniseMount q).inv (· = s) (fun x t => t = s ∧ x.1 = false) s := by
    refine inv_tryCatch (inv_bind (inv_mono ?_ (checks_mountedVolumeMatches hq hd))) fun err t ht => ?_
    · rintro b t ⟨rfl, hb⟩
      refine inv_ite (fun h => absurd (hb h) hother) fun _ =>
        inv_bind (inv_mono ?_ (checks_mountedVolumeSourceMatches hq hd))
      rintro b' t ⟨rfl, hb'⟩
      exact inv_ite (fun h => absurd (hb' h) hother) fun _ => inv_ret ⟨rfl, rfl⟩
    · exact inv_ite (fun _ => inv_ret ⟨ht, rfl⟩) fun _ => inv_raise ht
  refine inv_mono ?_ hrecognise
  rintro ⟨b, sourceError⟩ t ⟨rfl, hb⟩
  cases hb
  refine inv_ite nofun fun _ => inv_bind (inv_mono ?_ (checks_sameLogicalStaleSource hq hd hid hs he hleg))
  rintro b t ⟨rfl, hb⟩
  refine inv_ite (fun _ => ?_) fun h => absurd (hb (by simpa using h)) hne
  cases sourceError with
  | some err => exact inv_raise rfl
  | none => exact inv_raise rfl

/-! ## Records stay sound -/

/-- A mount that a request makes at its target. -/
def Mounted (K : Kernel) (q : MountRequest) (e : MountEntry) : Prop :=
  (e.loopDevice.isSome → q.pvtype ≠ .subvol) ∧ Shows K e q.pv

/-- A target at which `q` establishes its mount, beside the record that was there. -/
structure Mounting (K : Kernel) (q : MountRequest) (s t : Target) : Prop where
  record : t.record = s.record
  single : t.mounts.length ≤ 1
  mounted : ∀ e ∈ t.mounts, Mounted K q e

/-- The record of `q` beside its mount. -/
structure Recorded (K : Kernel) (q : MountRequest) (t : Target) : Prop where
  record : t.record = publishState q
  single : t.mounts.length ≤ 1
  mounted : ∀ e ∈ t.mounts, Mounted K q e

omit [VolnameHash] in
theorem Mounting.sound_or (h : Mounting K q s t) (hs : s.mount = none) : Sound K t ∨ Interrupted q s t := by
  by_cases hstale : ∃ r, s.record = some r ∧ r.pv ≠ q.pv
  · obtain ⟨r, hr, hne⟩ := hstale
    cases ht : t.mount with
    | none => exact .inl (sound_free (mount_eq_none.mp ht))
    | some e =>
      by_cases hsub : q.pvtype = .subvol
      · exact .inl ⟨h.single, fun e' he' _ hloop => absurd hsub ((h.mounted e' he').1 hloop)⟩
      · exact .inr ⟨hs, hsub, by rw [ht]; rfl, r, hr, h.record.trans hr, hne⟩
  · refine .inl ⟨h.single, fun e he r _ hr => ?_⟩
    have hpv : r.pv = q.pv := by
      by_contra hne
      exact hstale ⟨r, h.record.symm.trans hr, hne⟩
    rw [hpv]
    exact (h.mounted e he).2

theorem Recorded.sound (hq : q.Valid K) (h : Recorded K q t) : Sound K t := by
  refine ⟨h.single, fun e he r _ hr => ?_⟩
  rw [publishState_pv hq (h.record.symm.trans hr)]
  exact (h.mounted e he).2

omit [VolnameHash] in
theorem Mounting.remount (h : Mounting K q s t) : Mounting K q s (t.remount q) := by
  unfold Target.remount
  split
  · exact h
  · rename_i entry below hmounts
    refine ⟨h.record, by simpa [hmounts] using h.single, fun e he => ?_⟩
    rcases List.mem_cons.mp he with rfl | he
    · exact h.mounted entry (hmounts ▸ List.mem_cons_self)
    · exact h.mounted e (hmounts ▸ List.mem_cons_of_mem _ he)

omit [VolnameHash] in
theorem Mounting.unmount (h : Mounting K q s t) : Mounting K q s { t with mounts := t.mounts.tail } :=
  ⟨h.record, by have := h.single; simp only [List.length_tail]; omega, fun e he => h.mounted e (List.mem_of_mem_tail he)⟩

omit [VolnameHash] in
/-- The devices that are detached say nothing of what is mounted. -/
theorem Mounting.detach {detached : List Nat} (h : Mounting K q s t) : Mounting K q s { t with detached } :=
  ⟨h.record, h.single, h.mounted⟩

omit [VolnameHash] in
theorem Mounting.mount {detached : List Nat} (h : Mounting K q s t) (hfree : t.mounts = []) (he : Mounted K q e) :
    Mounting K q s { t with mounts := e :: t.mounts, detached } := by
  refine ⟨h.record, by simp [hfree], fun e' he' => ?_⟩
  rcases List.mem_cons.mp he' with rfl | he'
  · exact he
  · exact h.mounted e' he'

omit [VolnameHash] in
theorem inv_mount (h : Mounting K q s t) (hfree : t.mounts = []) (he : Mounted K q e) :
    (mount e).inv (Mounting K q s) (fun _ t => Mounting K q s t) t :=
  inv_step (by simp [h, h.mount hfree he]) fun _ _ => h.mount hfree he

omit [VolnameHash] in
theorem inv_losetupDetach {number : Nat} (h : Mounting K q s t) :
    (losetupDetach number).inv (Mounting K q s) (fun _ t => Mounting K q s t) t :=
  inv_step (by simp [h, h.detach]) fun _ _ => h.detach

omit [VolnameHash] in
/-- At a free target nothing shows the device. -/
theorem inv_losetupAttach {loop : LoopDevice} (h : Mounting K q s t) (hfree : t.mounts = []) :
    (losetupAttach loop).inv (Mounting K q s) (fun _ t => Mounting K q s t ∧ t.mounts = []) t := by
  have hattach : Mounting K q s (t.attach loop) := ⟨h.record, by simp [Target.attach, hfree], by simp [Target.attach, hfree]⟩
  exact inv_step (by simp [h, hattach]) fun _ _ => ⟨hattach, by simp [Target.attach, hfree]⟩

omit [VolnameHash] in
theorem inv_remountBind (h : Mounting K q s t) :
    (remountBind q).inv (Mounting K q s) (fun _ t => Mounting K q s t) t :=
  inv_ite (fun _ => inv_step (by simp [h, h.remount]) fun _ _ => h.remount) fun _ => inv_ret h

omit [VolnameHash] in
theorem inv_rollBack (h : Mounting K q s t) : rollBack.inv (Mounting K q s) (fun _ t => Mounting K q s t) t := by
  refine inv_tryCatch (inv_step (by simp [h, h.unmount]) fun _ _ => h.unmount) fun e t ht => ?_
  exact inv_ite (fun _ => inv_ret ht) fun _ => inv_raise ht

omit [VolnameHash] in
theorem inv_mountBind {fs : Fs} {cleanup : NodeProg Unit} (h : Mounting K q s t) (hfree : t.mounts = [])
    (he : Mounted K q ⟨["rw"], fs⟩)
    (hc : ∀ t, Mounting K q s t → cleanup.inv (Mounting K q s) (fun _ t => Mounting K q s t) t) :
    (mountBind q fs cleanup).inv (Mounting K q s) (fun _ t => Mounting K q s t) t := by
  refine inv_bind (inv_tryCatch (inv_mono (fun _ t ht => ?_) (inv_mount h hfree he)) fun e t ht =>
    inv_bind (inv_mono (fun _ t ht => inv_raise ht) (hc t ht)))
  refine inv_tryCatch (inv_remountBind ht) fun e t ht => inv_bind (inv_mono (fun _ t ht => ?_) (inv_rollBack ht))
  exact inv_bind (inv_mono (fun _ t ht => inv_raise ht) (hc t ht))

/-- What a request does at a free target. -/
def Establishing (K : Kernel) (q : MountRequest) (s t : Target) : Prop := Mounting K q s t ∨ Recorded K q t

omit [VolnameHash] in
theorem inv_recordPublishState (h : Mounting K q s t) :
    (recordPublishState (publishState q)).inv (Establishing K q s) (fun _ t => Establishing K q s t) t := by
  cases hr : publishState q with
  | none => exact inv_ret (.inl h)
  | some r =>
    have hrec : Recorded K q { t with record := some r } := ⟨hr.symm, h.single, h.mounted⟩
    exact inv_step (by simp [Establishing, h, hrec]) fun _ _ => .inr hrec

theorem inv_establish (hq : q.Valid K) (h : Mounting K q s t) (hfree : t.mounts = []) :
    (establish q).inv (Establishing K q s) (fun _ t => Establishing K q s t) t := by
  have hblock : q.pvtype ≠ .subvol → ∀ options busy, Mounted K q ⟨options, .loop q.loop busy⟩ :=
    fun hne _ _ => ⟨fun _ => hne, hq.file hne, hq.client⟩
  have hsub : ∀ options, Mounted K q ⟨options, .gluster q.file.device q.volumePath⟩ := fun _ => ⟨nofun, rfl, hq.client⟩
  -- the parts before the record keep the stronger condition
  have hweak : ∀ {p : NodeProg Unit} {t}, p.inv (Mounting K q s) (fun _ t => Mounting K q s t) t →
      p.inv (Establishing K q s) (fun _ t => Mounting K q s t) t := fun h => inv_imp (fun _ => .inl) (fun _ _ => id) h
  have hrecord : ∀ t, Mounting K q s t → (do recordPublishState (publishState q); pure true : NodeProg Bool).inv
      (Establishing K q s) (fun _ t => Establishing K q s t) t := fun t ht =>
    inv_bind (inv_mono (fun _ t ht => inv_ret ht) (inv_recordPublishState ht))
  refine inv_ite (fun hraw => ?_) fun hraw => ?_
  · refine inv_bind (inv_mono (fun _ t ht => hrecord t ht) (hweak ?_))
    have hp : q.pvtype ≠ .subvol := by rw [hraw]; decide
    refine inv_bind (inv_mono (fun _ u hu => ?_) (inv_losetupAttach h hfree))
    exact inv_bind (inv_touch hu.1 (inv_mountBind hu.1 hu.2 (hblock hp _ _) fun t ht => inv_losetupDetach ht))
  · have hfs : (mountFs q).inv (Mounting K q s) (fun _ t => Mounting K q s t) t :=
      inv_ite (fun hv => inv_mount h hfree (hblock (by rw [hv]; decide) _ _)) fun _ =>
        inv_mountBind h hfree (hsub _) fun t ht => inv_ret ht
    refine inv_bind (inv_touch (.inl h) (inv_bind (inv_mono (fun _ t ht => inv_bind ?_) (hweak hfs))))
    exact inv_ite (fun _ => inv_ret (hrecord t ht)) fun _ => inv_touch (.inl ht) (hrecord t ht)

theorem inv_mountSource (hq : q.Valid K) (h : Mounting K q s t) (hfree : t.mounts = []) :
    (mountSource q).inv (Establishing K q s) (fun _ t => Establishing K q s t) t := by
  refine inv_bind (inv_imp (fun _ h => .inl h.1) (fun x u hu => ?_) (inv_tryCatch
    (C := fun u => Mounting K q s u ∧ u.mounts = []) (Q := fun _ u => Mounting K q s u ∧ u.mounts = [])
    (inv_bind (inv_statSource ⟨h, hfree⟩ (inv_ret ⟨h, hfree⟩))) fun e u hu =>
      inv_ite (fun _ => inv_ret hu) fun _ => inv_raise hu))
  cases x with
  | none => exact inv_ret (.inl hu.1)
  | some file => exact inv_establish hq hu.1 hu.2

omit [VolnameHash] in
theorem Sound.detach {detached : List Nat} (h : Sound K s) : Sound K { s with detached } := ⟨h.single, h.shown⟩

omit [VolnameHash] in
theorem inv_detachLoopDevice {number : Nat} (hs : Sound K s) :
    (detachLoopDevice number).inv (Sound K) (fun _ t => Sound K t) s := by
  refine inv_tryCatch (inv_step (by simp [hs, hs.detach]) fun _ _ => hs.detach) fun e t ht => ?_
  exact inv_ite (fun _ => inv_read ht fun _ _ => ht) fun _ => inv_raise ht

omit [VolnameHash] in
theorem inv_unmountVolume (hs : Sound K s) :
    (unmountVolume false).inv (Sound K) (fun _ t => t.mounts = [] ∧ t.record = none) s := by
  have humount : ∀ t, Sound K t → umount.inv (Sound K) (fun _ u => u.mounts = []) t := fun t ht => by
    have htail : t.mounts.tail = [] := by
      have := ht.single
      exact List.eq_nil_of_length_eq_zero (by simp only [List.length_tail]; omega)
    exact inv_step (by simp [ht, sound_free, htail]) fun _ _ => htail
  have hunmount : (unmountTarget false).inv (Sound K) (fun _ t => t.mounts = []) s := by
    refine inv_bind (inv_targetMountEntry rfl hs ?_)
    cases hm : s.mount with
    | none => exact inv_ret (mount_eq_none.mp hm)
    | some e =>
      cases hloop : e.loopDevice with
      | none => simpa only [hloop] using humount s hs
      | some number =>
        simp only [hloop]
        exact inv_bind (inv_mono (fun _ => humount) (inv_detachLoopDevice hs))
  refine inv_bind (inv_mono (fun _ t ht => inv_bind (inv_read (sound_free ht) fun _ _ => ?_)) hunmount)
  have hremoved : Sound K { t with record := none } := sound_free ht
  exact inv_step (by simp [sound_free ht, hremoved]) fun _ _ => ⟨ht, rfl⟩

omit [VolnameHash] in
/-- The check for a stale mount only reads. -/
theorem inv_sameLogicalStaleSource {C : Target → Prop} {Q : Bool → Target → Prop} (hd : q.doubled = false) (hC : C s)
    (hQ : ∀ b, Q b s) :
    (sameLogicalStaleSource K q).inv C Q s := by
  have hmatches : ∀ b, (publishStateMatches (publishState q) b).inv C Q s := fun b =>
    inv_imp (fun t (h : t = s) => h ▸ hC) (fun b' t (h : t = s ∧ _) => h.1 ▸ hQ b') checks_publishStateMatches
  refine inv_bind (inv_targetMountEntry hd hC ?_)
  cases s.mount with
  | none => exact inv_ret (hQ _)
  | some e =>
    refine inv_ite (fun _ => ?_) fun _ => ?_
    · cases e.fs with
      | loop loop busy => exact inv_ret (hQ _)
      | other fstype => exact inv_ret (hQ _)
      | gluster device root =>
        refine inv_ite (fun _ => inv_ret (hQ _)) fun _ => inv_ite (fun _ => inv_ret (hQ _)) fun _ => ?_
        unfold sameHostMount
        cases q.hostMountIdentity with
        | none => exact inv_ret (hQ _)
        | some i =>
          cases (K.client device).source.glusterMountIdentity with
          | none => exact inv_ret (hQ _)
          | some identity =>
            exact inv_ite (fun _ => inv_ret (hQ _)) fun _ => inv_ite (fun _ => hmatches _) fun _ => inv_ret (hQ _)
    · cases e.loopDevice with
      | none => exact inv_ret (hQ _)
      | some number =>
        exact inv_ite (fun _ => hmatches _) fun _ => inv_bind (inv_bind (inv_losetupShow hC (inv_ret (hQ _))))

theorem inv_recogniseMount (hq : q.Valid K) (hd : q.doubled = false) (hs : Sound K s) :
    (recogniseMount q).inv (Sound K) (fun _ t => Sound K t) s := by
  refine inv_tryCatch (inv_bind (inv_imp ?_ ?_ (checks_mountedVolumeMatches hq hd))) fun e t ht => ?_
  · rintro t rfl
    exact hs
  · rintro b t ⟨rfl, hb⟩
    refine inv_ite (fun h => ?_) fun _ => inv_bind (inv_imp ?_ ?_ (checks_mountedVolumeSourceMatches hq hd))
    · obtain ⟨e, he, hshows⟩ := hb h
      cases hr : publishState q with
      | none => exact inv_ret hs
      | some r =>
        -- the only mount is the one that was recognised
        have hrec : Sound K { t with record := some r } := by
          refine ⟨hs.single, fun e' he' r' _ hr' => ?_⟩
          cases hr'
          obtain ⟨below, hmounts⟩ := List.head?_eq_some_iff.mp he
          have hsingle := hs.single
          rw [hmounts, List.length_cons] at hsingle
          obtain rfl : below = [] := List.eq_nil_of_length_eq_zero (by omega)
          obtain rfl : e' = e := by simpa [hmounts] using he'
          exact publishState_pv hq hr ▸ hshows
        exact inv_bind (inv_step (by simp [hs, hrec]) fun _ _ => inv_ret hrec)
    · rintro t rfl
      exact hs
    · rintro b' t ⟨rfl, -⟩
      exact inv_ite (fun _ => inv_raise hs) fun _ => inv_ret hs
  · exact inv_ite (fun _ => inv_ret ht) fun _ => inv_raise ht

/-- **One request.** The record of a target stays sound, unless the request is interrupted beside the record of another
volume. -/
theorem inv_mountVolume (hq : q.Valid K) (hd : q.doubled = false) (hs : Sound K s) :
    (mountVolume K q).inv (fun t => Sound K t ∨ Interrupted q s t) (fun _ t => Sound K t ∨ Interrupted q s t) s := by
  have hestablish : ∀ t, Establishing K q s t → s.mount = none → Sound K t ∨ Interrupted q s t := fun t ht hm =>
    ht.elim (·.sound_or hm) fun h => .inl (h.sound hq)
  refine inv_bind (inv_ofExcept (.inl hs) fun _ _ => inv_bind (inv_targetMountEntry hd (.inl hs) ?_))
  refine inv_ite (fun hm => inv_bind ?_) fun hm => ?_
  · refine inv_imp (fun _ => .inl) ?_ (inv_recogniseMount hq hd hs)
    rintro ⟨recognised, sourceError⟩ t ht
    refine inv_ite (fun _ => inv_ret (.inl ht)) fun _ => inv_bind (inv_sameLogicalStaleSource hd (.inl ht) fun b => ?_)
    refine inv_ite (fun _ => ?_) fun _ => inv_bind ?_
    · cases sourceError with
      | some err => exact inv_raise (.inl ht)
      | none => exact inv_raise (.inl ht)
    · rw [hd]
      refine inv_imp (fun _ => .inl) ?_ (inv_unmountVolume ht)
      rintro - u ⟨hfree, hrecord⟩
      -- the record is gone with the mount
      have hsound : ∀ v, Establishing K q u v → Sound K v := fun v hv => hv.elim
        (fun h => sound_unrecorded h.single (h.record.trans hrecord)) (·.sound hq)
      exact inv_imp (fun v hv => .inl (hsound v hv)) (fun _ v hv => .inl (hsound v hv))
        (inv_mountSource hq ⟨rfl, by simp [hfree], by simp [hfree]⟩ hfree)
  · have hm : s.mount = none := by simpa using hm
    have hfree := mount_eq_none.mp hm
    exact inv_imp (fun v hv => hestablish v hv hm) (fun _ v hv => hestablish v hv hm)
      (inv_mountSource hq ⟨rfl, by simp [hfree], by simp [hfree]⟩ hfree)

/-! ## What a request does not see -/

/-- The mounts and the record are the same. -/
def Alike (s t : Target) : Prop := s.mounts = t.mounts ∧ s.record = t.record

section

omit [VolnameHash]

theorem Alike.mount (h : Alike s t) : s.mount = t.mount := congrArg List.head? h.1

theorem Alike.sound (h : Alike s t) (hs : Sound K s) : Sound K t :=
  ⟨h.1 ▸ hs.single, fun e he r hloop hr => hs.shown e (h.1 ▸ he) r hloop (h.2.trans hr)⟩

theorem Alike.interrupted {u : Target} (h : Alike t u) (hi : Interrupted q s t) : Interrupted q s u := by
  obtain ⟨hfree, hblock, hmount, r, hr, ht, hne⟩ := hi
  exact ⟨hfree, hblock, h.mount ▸ hmount, r, hr, h.2.symm.trans ht, hne⟩

theorem blind_targetMountEntry {doubled : Bool} : (targetMountEntry doubled).Blind Alike :=
  blind_read fun _ _ h => by rw [h.mount]

theorem blind_losetupShow {number : Nat} : (losetupShow number).Blind Alike :=
  blind_read fun _ _ h => by rw [Target.backing, h.1, Target.backing]

theorem blind_touch : touch.Blind Alike := blind_read fun _ _ _ => rfl

theorem blind_statSource : (statSource q).Blind Alike := blind_read fun _ _ _ => rfl

theorem blind_umount : umount.Blind Alike := blind_step fun _ _ h => ⟨rfl, congrArg List.tail h.1, h.2⟩

theorem blind_mount : (mount e).Blind Alike := blind_step fun _ _ h => ⟨rfl, congrArg (e :: ·) h.1, h.2⟩

theorem blind_losetupAttach {loop : LoopDevice} : (losetupAttach loop).Blind Alike :=
  blind_step fun _ _ h => ⟨rfl, congrArg (List.map _) h.1, h.2⟩

theorem blind_losetupDetach {number : Nat} : (losetupDetach number).Blind Alike := blind_step fun _ _ h => ⟨rfl, h⟩

theorem blind_unmountVolume {doubled : Bool} : (unmountVolume doubled).Blind Alike := by
  refine blind_bind (blind_bind blind_targetMountEntry fun entry => ?_) fun _ => blind_bind ?_ fun _ => ?_
  · cases entry with
    | none => exact blind_pure ()
    | some entry =>
      cases hloop : entry.loopDevice with
      | none => simpa only [hloop] using blind_umount
      | some number =>
        simp only [hloop]
        refine blind_bind (blind_tryCatch blind_losetupDetach fun e => ?_) fun _ => blind_umount
        exact blind_ite (blind_read fun _ _ _ => rfl) (blind_throw e)
  · exact blind_read fun _ _ h => by rw [h.1]
  · exact blind_step fun _ _ h => ⟨rfl, h.1, rfl⟩

theorem blind_publishStateMatches {expected : Option PublishState} {b : Bool} :
    (publishStateMatches expected b).Blind Alike := by
  cases expected with
  | none => exact blind_pure false
  | some r =>
    refine blind_tryCatch (blind_bind (blind_read fun _ _ h => by rw [h.2]) fun _ => blind_pure _) fun _ => blind_pure _

theorem blind_recordPublishState {state : Option PublishState} : (recordPublishState state).Blind Alike := by
  cases state with
  | none => exact blind_pure ()
  | some r => exact blind_step fun _ _ h => ⟨rfl, h.1, rfl⟩

theorem blind_mountedVolumeSourceMatches : (mountedVolumeSourceMatches q).Blind Alike := by
  refine blind_bind blind_targetMountEntry fun entry => ?_
  cases entry with
  | none => exact blind_pure false
  | some entry =>
    refine blind_ite (blind_bind blind_statSource fun _ => blind_pure _) ?_
    cases entry.loopDevice with
    | none => exact blind_pure false
    | some number =>
      refine blind_tryCatch (blind_bind (blind_bind blind_losetupShow fun _ => blind_pure _) fun _ =>
        blind_bind blind_statSource fun _ => blind_pure _) fun e => ?_
      exact blind_ite (blind_pure false) (blind_throw e)

theorem blind_mountedVolumeMatches : (mountedVolumeMatches q).Blind Alike := by
  refine blind_bind blind_mountedVolumeSourceMatches fun b => blind_ite (blind_pure false) ?_
  refine blind_bind blind_targetMountEntry fun entry => ?_
  cases entry with
  | none => exact blind_pure false
  | some entry => exact blind_pure _

theorem blind_sameLogicalStaleSource : (sameLogicalStaleSource K q).Blind Alike := by
  refine blind_bind blind_targetMountEntry fun entry => ?_
  cases entry with
  | none => exact blind_pure false
  | some entry =>
    refine blind_ite ?_ ?_
    · cases entry.fs with
      | loop loop busy => exact blind_pure false
      | other fstype => exact blind_pure false
      | gluster device root =>
        refine blind_ite (blind_pure false) (blind_ite (blind_pure false) ?_)
        unfold sameHostMount
        cases q.hostMountIdentity with
        | none => exact blind_pure true
        | some i =>
          cases (K.client device).source.glusterMountIdentity with
          | none => exact blind_pure _
          | some identity =>
            exact blind_ite (blind_pure true) (blind_ite blind_publishStateMatches (blind_pure false))
    · cases entry.loopDevice with
      | none => exact blind_pure false
      | some number =>
        exact blind_ite blind_publishStateMatches
          (blind_bind (blind_bind blind_losetupShow fun _ => blind_pure _) fun _ => blind_pure _)

theorem Alike.remount (h : Alike s t) : Alike (s.remount q) (t.remount q) := by
  unfold Target.remount
  rw [h.1]
  cases t.mounts with
  | nil => exact h
  | cons entry below => exact ⟨rfl, h.2⟩

theorem blind_mountBind {fs : Fs} {cleanup : NodeProg Unit} (hc : cleanup.Blind Alike) :
    (mountBind q fs cleanup).Blind Alike := by
  have hrollBack : rollBack.Blind Alike :=
    blind_tryCatch blind_umount fun e => blind_ite (blind_pure ()) (blind_throw e)
  refine blind_bind (blind_tryCatch blind_mount fun e => blind_bind hc fun _ => blind_throw e) fun _ => ?_
  refine blind_tryCatch (blind_ite (blind_step fun _ _ h => ⟨rfl, h.remount⟩) (blind_pure ())) fun e => ?_
  exact blind_bind hrollBack fun _ => blind_bind hc fun _ => blind_throw e

theorem blind_establish : (establish q).Blind Alike := by
  have hrecord : (do recordPublishState (publishState q); pure true : NodeProg Bool).Blind Alike :=
    blind_bind blind_recordPublishState fun _ => blind_pure true
  refine blind_ite ?_ ?_
  · refine blind_bind ?_ fun _ => hrecord
    exact blind_bind blind_losetupAttach fun _ => blind_bind blind_touch fun _ => blind_mountBind blind_losetupDetach
  · refine blind_bind blind_touch fun _ => blind_bind ?_ fun _ => ?_
    · exact blind_ite blind_mount (blind_mountBind (blind_pure ()))
    · exact blind_bind (blind_ite (blind_pure ()) blind_touch) fun _ => hrecord

theorem blind_mountSource : (mountSource q).Blind Alike := by
  refine blind_bind (blind_tryCatch (blind_bind blind_statSource fun _ => blind_pure _) fun e => ?_) fun source => ?_
  · exact blind_ite (blind_pure none) (blind_throw e)
  · cases source with
    | none => exact blind_pure false
    | some file => exact blind_establish

/-- A request sees of the loop devices only what is mounted. -/
theorem blind_mountVolume : (mountVolume K q).Blind Alike := by
  refine blind_bind (blind_ofExcept _) fun _ => blind_bind blind_targetMountEntry fun entry => ?_
  refine blind_ite (blind_bind ?_ fun x => ?_) blind_mountSource
  · refine blind_tryCatch (blind_bind blind_mountedVolumeMatches fun _ => blind_ite ?_ ?_) fun e => ?_
    · exact blind_bind blind_recordPublishState fun _ => blind_pure _
    · exact blind_bind blind_mountedVolumeSourceMatches fun _ => blind_ite (blind_throw _) (blind_pure _)
    · exact blind_ite (blind_pure _) (blind_throw e)
  · obtain ⟨recognised, sourceError⟩ := x
    refine blind_ite (blind_pure true) (blind_bind blind_sameLogicalStaleSource fun _ => blind_ite ?_ ?_)
    · cases sourceError with
      | some err => exact blind_throw err
      | none => exact blind_throw _
    · exact blind_bind blind_unmountVolume fun _ => blind_mountSource

end

/-! ## Runs -/

/-- A file was attached anew under the number of a device whose node is mounted at the target: it shows another file. -/
def AttachedAnew (s t : Target) : Prop := t.mounts ≠ s.mounts

/-- The steps that are allowed in a run: those of others, and the requests with what they start from and what they leave. -/
structure Steps where
  others : Target → Target → Prop
  publish : MountRequest → Target → Target → Prop
  unpublish : Bool → Prop

def anySteps : Steps := ⟨Others, fun _ _ _ => True, fun _ => True⟩

/-- The steps that keep records sound. -/
def orderlySteps : Steps where
  others s t := Others s t ∧ ¬AttachedAnew s t
  publish q s t := q.doubled = false ∧ ¬Interrupted q s t
  unpublish doubled := doubled = false

/-- A step at one target of a node: a request, which may crash anywhere and next to which others go on, or others alone. -/
inductive Serves (K : Kernel) (S : Steps) (s : Target) : Target → Prop
  | publish {p : NodeProg Bool} {t : Target} (q : MountRequest) (hq : q.Valid K)
    (hv : (mountVolume K q).Beside S.others s p t) (hok : S.publish q s t) : Serves K S s t
  | unpublish {p : NodeProg Unit} {t : Target} (doubled : Bool) (hv : (unmountVolume doubled).Beside S.others s p t)
    (hok : S.unpublish doubled) : Serves K S s t
  | others {t : Target} (h : S.others s t) : Serves K S s t

/-- A publish leaves a mount of another PV alone in all of its steps, and never ends with a result. -/
def Spares (K : Kernel) (S : Steps) (q : MountRequest) (s : Target) : Prop :=
  ∀ e, s.mount = some e → ¬Belongs K e q.pv →
    (∀ p t, (mountVolume K q).Beside S.others s p t → t.mount = some e ∧ ∀ b, p ≠ .ret b) ∧
      ∃ err, ((mountVolume K q).run s).1 = .error err

omit [VolnameHash] in
theorem alike_of_others (h : orderlySteps.others s t) : Alike s t := by
  obtain ⟨hothers, hanew⟩ := h
  refine ⟨(not_not.mp hanew).symm, ?_⟩
  cases hothers with
  | detach number => rfl
  | attach loop _ _ => rfl

omit [VolnameHash] in
theorem reaches_of_beside {α : Type} {p p' : NodeProg α} (hp : p.Blind Alike) (h : p.Beside orderlySteps.others s p' t) :
    ∃ u, p.Reaches s p' u ∧ Alike u t :=
  h.reaches (fun _ => ⟨rfl, rfl⟩) (fun h h' => ⟨h.1.trans h'.1, h.2.trans h'.2⟩) (fun _ _ => alike_of_others) hp

/-- **One step.** An orderly step keeps the record of the target sound. -/
theorem sound_serves (hs : Sound K s) (h : Serves K orderlySteps s t) : Sound K t := by
  cases h with
  | publish q hq hv hok =>
    obtain ⟨u, hreach, halike⟩ := reaches_of_beside blind_mountVolume hv
    refine halike.sound ((inv_visits (.inl hs) (inv_mountVolume hq hok.1 hs) ⟨_, hreach⟩).resolve_right fun hi => ?_)
    exact hok.2 (halike.interrupted hi)
  | unpublish doubled hv hok =>
    obtain ⟨u, hreach, halike⟩ := reaches_of_beside blind_unmountVolume hv
    obtain rfl : doubled = false := hok
    exact halike.sound (inv_visits hs (inv_unmountVolume hs) ⟨_, hreach⟩)
  | others h => exact (alike_of_others h).sound hs

theorem sound_run (hrun : Relation.ReflTransGen (Serves K orderlySteps) {} s) : Sound K s := by
  induction hrun with
  | refl => exact sound_free rfl
  | tail _ hstep ih => exact sound_serves ih hstep

end

/-! ## A stale record -/

attribute [local instance] sampleHash

/-- A node with one client, whose files 1 and 2 are the payloads of two block volumes. -/
def sampleKernel : Kernel where
  client _ := ⟨.kadalu "pool" (some ⟨"g", "f"⟩), "pool", "g", rfl, fun _ h => by cases h; rfl⟩
  path file := canon .rawblock (if file.inode = 1 then "pvc-1" else "pvc-2")
  owner _ := "pvc-1"

/-- The publish of a block volume. -/
def blockRequest (volumeId : String) (inode : Nat) : MountRequest where
  volumeId := volumeId
  pvtype := .rawblock
  volumePath := canon .rawblock volumeId
  logicalSourcePath := "/".intercalate ("/mnt/pool" :: canon .rawblock volumeId)
  hostVolumeName := "pool"
  hostMountIdentity := some ⟨"g", "f"⟩
  generation := "g"
  file := ⟨1, inode⟩
  number := 0

/-- The same at a target that is named with two leading slashes. -/
def doubledRequest (volumeId : String) (inode : Nat) : MountRequest :=
  { blockRequest volumeId inode with number := 1, doubled := true }

theorem blockRequest_valid {volumeId : String} {inode : Nat}
    (h : sampleKernel.path ⟨1, inode⟩ = canon .rawblock volumeId) : (blockRequest volumeId inode).Valid sampleKernel where
  pv := .inl ⟨by show canon _ _ ≠ []; unfold canon; split <;> simp, canon_mem⟩
  identity _ h := by cases h; rfl
  client := ⟨rfl, rfl⟩
  file _ := h

theorem doubledRequest_valid {volumeId : String} {inode : Nat}
    (h : sampleKernel.path ⟨1, inode⟩ = canon .rawblock volumeId) : (doubledRequest volumeId inode).Valid sampleKernel :=
  have hblock := blockRequest_valid h
  ⟨hblock.pv, hblock.identity, hblock.client, hblock.file⟩

/-- The target after a publish of the first volume. -/
def publishedTarget : Target := ((mountVolume sampleKernel (blockRequest "pvc-1" 1)).run {}).2

/-- The same after an unpublish that crashed before it removed the record. -/
def staleTarget : Target := (unmountVolume false).after 4 publishedTarget

/-- The same after a publish of the second volume that crashed before it wrote its record. -/
def interruptedTarget : Target := (mountVolume sampleKernel (blockRequest "pvc-2" 2)).after 5 staleTarget

/-- The first volume after an unpublish that crashed behind `losetup -d`. -/
def detachedTarget : Target := (unmountVolume false).after 2 publishedTarget

/-- The same after others have attached the second volume under the number of its device. -/
def reusedTarget : Target := detachedTarget.attach (blockRequest "pvc-2" 2).loop

/-- The first volume below the second one, whose publish crashed before it wrote its record. -/
def stackedTarget : Target := (mountVolume sampleKernel (doubledRequest "pvc-2" 2)).after 5 publishedTarget

/-- An identity-bearing request without the fallback is never misled. -/
theorem blockRequest_led {volumeId : String} {inode : Nat} {e : MountEntry} :
    ¬MisledFallback sampleKernel (blockRequest volumeId inode) e := fun h => Bool.false_ne_true h.1

section

variable {S : Steps}

/-- The first volume is published at an unused target. -/
theorem serves_published (hok : S.publish (blockRequest "pvc-1" 1) {} publishedTarget) :
    Serves sampleKernel S {} publishedTarget := by
  obtain ⟨p, hreach⟩ := run_visits (mountVolume sampleKernel (blockRequest "pvc-1" 1)) {}
  exact .publish _ (blockRequest_valid rfl) hreach.beside hok

theorem serves_unpublish {s : Target} (n : Nat) (hok : S.unpublish false) :
    Serves sampleKernel S s ((unmountVolume false).after n s) := by
  obtain ⟨p, hreach⟩ := after_visits n (unmountVolume false) s
  exact .unpublish false hreach.beside hok

theorem serves_publish {q : MountRequest} {s : Target} (n : Nat) (hq : q.Valid sampleKernel)
    (hok : S.publish q s ((mountVolume sampleKernel q).after n s)) :
    Serves sampleKernel S s ((mountVolume sampleKernel q).after n s) := by
  obtain ⟨p, hreach⟩ := after_visits n (mountVolume sampleKernel q) s
  exact .publish q hq hreach.beside hok

end

/-- A run reaches this target, and an identity-bearing publish of the first volume does not spare the other one there. -/
structure Detaches (s : Target) : Prop where
  run : Relation.ReflTransGen (Serves sampleKernel anySteps) {} s
  valid : (blockRequest "pvc-1" 1).Valid sampleKernel
  identified : (blockRequest "pvc-1" 1).hostMountIdentity.isSome
  unspared : ¬Spares sampleKernel anySteps (blockRequest "pvc-1" 1) s

theorem detaches_of_gone {s : Target} {l : LoopDevice} (hrun : Relation.ReflTransGen (Serves sampleKernel anySteps) {} s)
    (hmount : s.mount = some ⟨["rw"], .loop l false⟩) (hother : sampleKernel.path l.file ≠ canon .rawblock "pvc-1")
    (hgone : ((mountVolume sampleKernel (blockRequest "pvc-1" 1)).after 12 s).mount ≠ s.mount) : Detaches s where
  run := hrun
  valid := blockRequest_valid rfl
  identified := rfl
  unspared h := by
    obtain ⟨p, hreach⟩ := after_visits 12 (mountVolume sampleKernel (blockRequest "pvc-1" 1)) s
    exact hgone (((h _ hmount fun hb => hother hb.1.1).1 p _ hreach.beside).1.trans hmount.symm)

end Kadalu.Node
