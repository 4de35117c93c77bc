import Kadalu.Node.GlusterMount

/-!
# One client for a mount point

Any number of threads mount and unmount pools, while clients die, files change and mounts go away (`Disturbs`). Only the holder of
`mount_lock` does more (`LockStep`), and only for its own `Errand`: it starts the client that it was asked for at a mount point that
has none, or it detaches the mount of its volume when no established client of its generation is there. `mounts_exclusive` says so
of every step of every run, and that no mount point ever has two mounts.
-/

namespace Kadalu.Node.Gluster

open Durable Durable.Prog TargetLock Fingerprint

/-! ## Steps -/

/-- The client and its mount are both there. -/
def Host.Established (s : Host) (volname target : List Char) (mountIdentity : Option (List Char)) : Prop :=
  s.procs.any (isGlusterProcess · volname target mountIdentity) = true ∧
    s.mounts.any (GlusterEntry.matches volname target mountIdentity) = true

/-- Nothing is mounted there. -/
def Host.Free (s : Host) (target : List Char) : Prop := ∀ entry ∈ s.mounts, entry.target ≠ target

/-- The mounts there are all of the volume. -/
def Host.Only (s : Host) (volname target : List Char) : Prop :=
  ∀ entry ∈ s.mounts, entry.target = target → glusterVolumeName entry.source = some volname

/-- No mount point has two mounts. -/
def Host.Apart (s : Host) : Prop := (s.mounts.map (·.target)).Nodup

/-- What a thread takes the lock for: a volume of one generation at a mount point, and the commands that may start its client. -/
structure Errand where
  volname : List Char
  mountpoint : List Char
  mountIdentity : Option (List Char)
  commands : List (List (List Char))

def Errand.target (errand : Errand) : List Char := normpath errand.mountpoint

/-- The client with these arguments. -/
def Errand.client (errand : Errand) (args : List (List Char)) : Client :=
  clientOf args errand.volname errand.mountpoint errand.mountIdentity

/-- The errand of `handle_external_volume`; the options are left out when the client complains about them. -/
def HostVolume.externalErrand (volume : HostVolume) (mountpoint : List Char) (token : Option String) : Errand :=
  { volname := volume.gVolname, mountpoint, mountIdentity := token.map String.toList,
    commands := [optionArgs volume.gOptions, []].map
      (externalCommand volume.gVolname mountpoint volume.gHost (token.map String.toList)) }

/-- The errand of `mount_glusterfs` for a native pool, whose file it has read. -/
def HostVolume.nativeErrand (volume : HostVolume) (mountpoint : List Char) (isClient : Bool) (info : PoolInfo)
    (token : Option String) : Errand :=
  { volname := volume.name, mountpoint, mountIdentity := token.map String.toList,
    commands := [nativeCommand volume.name mountpoint (token.map String.toList) isClient info.nodes] }

/-- What the holder of the lock does on its errand, if it has one. -/
inductive LockStep (s : Host) : Option Errand → Host → Prop
  | same {errand} : LockStep s errand s
  /-- the client that it was asked for is started where nothing is mounted -/
  | start {errand : Errand} {args : List (List Char)} (requested : args ∈ errand.commands)
    (free : s.Free errand.target) : LockStep s (some errand) (s.mounted (errand.client args))
  /-- the stale mount of its own volume is detached -/
  | detach {errand : Errand} (only : s.Only errand.volname errand.target)
    (stale : ¬s.Established errand.volname errand.target errand.mountIdentity) :
    LockStep s (some errand) { s with mounts := detach errand.target s.mounts }

/-- The threads, and whatever else happens on the host. -/
inductive Thread where
  | mount (volume : HostVolume) (mountpoint : List Char) (isClient : Bool)
  | unmount (mountpoint volname : List Char)
  | world (f : Host → Host)

def Thread.prog [JsonText] : Thread → GlusterProg Unit
  | mount volume mountpoint isClient => do let _ ← mountGlusterfs volume mountpoint isClient; pure ()
  | unmount mountpoint volname => unmountGlusterfs mountpoint volname
  | world f => Prog.step (fun s => (.ok (), f s)) (fun _ => []) fun _ => false

variable (Filed : List Char → PoolInfo → Prop)

/-- The files of the native pools are among those that they ever have. -/
def Host.Configured (s : Host) : Prop := ∀ volname info, s.info volname = some info → Filed volname info

/-- What happens without the lock: nothing is mounted, and no Gluster client is started. -/
structure Disturbs (s s' : Host) : Prop where
  mounts : s'.mounts.Sublist s.mounts
  procs : ∀ args ∈ s'.procs, args ∈ s.procs ∨ args.head?.any (basename · = "glusterfs".toList) = false
  configured : s.Configured Filed → s'.Configured Filed

/-- What a thread on its errand does to the host while it holds the locks. -/
def Own (errand : Option Errand) (held : List Unit) (s s' : Host) : Prop :=
  if () ∈ held then LockStep s errand s' else Disturbs Filed s s'

/-- What some thread does. -/
def Guarantee (held : List Unit) (s s' : Host) : Prop := ∃ errand, Own Filed errand held s s'

/-- What a thread does before it knows its errand. -/
def Waits (held : List Unit) (s s' : Host) : Prop := () ∉ held ∧ s' = s

/-- The errand of a thread; that of a native pool is made of a file that the pool has had. -/
inductive Thread.Errand [JsonText] : Thread → Gluster.Errand → Prop
  | external {volume mountpoint isClient token} (hexternal : volume.external = true)
    (htoken : mountIdentity volume.data = .ok token) :
    Errand (.mount volume mountpoint isClient) (volume.externalErrand mountpoint token)
  | native {volume mountpoint isClient info token} (hnative : volume.external = false) (hfiled : Filed volume.name info)
    (htoken : mountIdentity info.data = .ok token) :
    Errand (.mount volume mountpoint isClient) (volume.nativeErrand mountpoint isClient info token)

/-- Whatever else happens only disturbs the host. -/
def Thread.Fair : Thread → Prop
  | world f => ∀ s, Disturbs Filed s (f s)
  | _ => True

def Allowed [JsonText] (p : GlusterProg Unit) : Prop := ∃ thread : Thread, thread.Fair Filed ∧ p = thread.prog

/-- What a process of a thread does next. -/
structure Behaves [JsonText] (thread : Thread) (q : Proc Host Unit GlusterErr) (s : Host) : Prop where
  /-- without the lock it mounts nothing and starts no client -/
  outside : () ∉ q.held → ∀ others i q' s', q.next others i s = some (q', s') → Disturbs Filed s s'
  /-- with the lock it is on one errand of its thread, now and whatever it does from here on -/
  inside : () ∈ q.held → ∃ errand : Option Gluster.Errand, (∀ e, errand = some e → thread.Errand Filed e) ∧
    q.Safe (Guarantee Filed) (Own Filed errand) s ∧
    ∀ others i q' s', q.next others i s = some (q', s') → LockStep s errand s'

variable {Filed}

/-! ## What the steps keep -/

section

variable {s s' t : Host} {volname target mountpoint : List Char} {mountIdentity : Option (List Char)} {mounts : List GlusterEntry}
  {errand : Option Errand} {held : List Unit}

theorem detach_sublist (target : List Char) (mounts : List GlusterEntry) : (detach target mounts).Sublist mounts := by
  have h := (List.eraseP_sublist (p := fun entry : GlusterEntry => decide (entry.target = target)) (l := mounts.reverse)).reverse
  rwa [List.reverse_reverse] at h

/-- Where only one is mounted, nothing is left. -/
theorem not_mem_detach (h : (mounts.map (·.target)).Nodup) : ∀ entry ∈ detach target mounts, entry.target ≠ target := by
  have hreverse : (mounts.reverse.map (·.target)).Nodup := by
    rw [List.map_reverse]
    exact List.nodup_reverse.mpr h
  intro entry hentry
  unfold detach at hentry
  rw [List.mem_reverse] at hentry
  generalize mounts.reverse = reversed at hreverse hentry
  induction reversed with
  | nil => cases hentry
  | cons first rest ih =>
    rw [List.map_cons, List.nodup_cons] at hreverse
    by_cases hfirst : first.target = target
    · rw [List.eraseP_cons_of_pos (by simpa using hfirst)] at hentry
      rintro rfl
      exact hreverse.1 (hfirst ▸ List.mem_map_of_mem hentry)
    · rw [List.eraseP_cons_of_neg (by simpa using hfirst)] at hentry
      rcases List.mem_cons.mp hentry with rfl | hentry
      · exact hfirst
      · exact ih hreverse.2 hentry

theorem Disturbs.refl (s : Host) : Disturbs Filed s s := ⟨List.Sublist.refl _, fun _ h => .inl h, id⟩

theorem own_refl (errand : Option Errand) (held : List Unit) (s : Host) : Own Filed errand held s s := by
  unfold Own
  split
  · exact .same
  · exact .refl s

/-- No mount point gets a second mount, and the files stay what they may be. -/
def Host.Sound (Filed : List Char → PoolInfo → Prop) (s : Host) : Prop := s.Apart ∧ s.Configured Filed

theorem Host.Sound.own (h : s.Sound Filed) (hO : Own Filed errand held s s') : s'.Sound Filed := by
  unfold Own at hO
  split at hO
  · cases hO with
    | same => exact h
    | start requested free =>
      refine ⟨?_, h.2⟩
      show ((s.mounts ++ [_]).map GlusterEntry.target).Nodup
      rw [List.map_append, List.map_singleton, List.nodup_append]
      refine ⟨h.1, List.nodup_singleton _, fun a ha b hb => ?_⟩
      obtain ⟨entry, hentry, rfl⟩ := List.mem_map.mp ha
      rw [List.mem_singleton.mp hb]
      exact free entry hentry
    | detach only stale => exact ⟨h.1.sublist ((detach_sublist _ _).map _), h.2⟩
  · exact ⟨h.1.sublist (hO.mounts.map _), hO.configured h.2⟩

theorem Host.Sound.step (h : s.Sound Filed) (hG : Guarantee Filed held s s') : s'.Sound Filed := by
  obtain ⟨errand, hO⟩ := hG
  exact h.own hO

theorem Host.Sound.rely (h : s.Sound Filed) (ht : Rely (Guarantee Filed) held s t) : t.Sound Filed :=
  Rely.invariant (fun _ _ _ _ hG hs => hs.step hG) ht h

/-- Next to the holder of the lock, hosts are only disturbed. -/
theorem rely_locked {P : Host → Prop} (hP : ∀ s s', Disturbs Filed s s' → P s → P s')
    (ht : Rely (Guarantee Filed) [()] s t) (hs : P s) : P t := by
  refine Rely.invariant (fun others s s' hothers hG hs => ?_) ht hs
  have hnot : () ∉ others := fun hmem => hothers () hmem (List.mem_singleton.mpr rfl)
  obtain ⟨errand, hO⟩ := hG
  rw [Own, if_neg hnot] at hO
  exact hP s s' hO hs

theorem Disturbs.only (h : Disturbs Filed s s') (hs : s.Only volname target) : s'.Only volname target :=
  fun entry hentry => hs entry (h.mounts.subset hentry)

theorem Disturbs.free (h : Disturbs Filed s s') (hs : s.Free target) : s'.Free target :=
  fun entry hentry => hs entry (h.mounts.subset hentry)

theorem Disturbs.stale (h : Disturbs Filed s s') (hs : ¬s.Established volname target mountIdentity) :
    ¬s'.Established volname target mountIdentity := by
  rintro ⟨hprocs, hmounts⟩
  refine hs ⟨?_, ?_⟩
  · obtain ⟨args, hargs, hclient⟩ := List.any_eq_true.mp hprocs
    rcases h.procs args hargs with hold | hother
    · exact List.any_eq_true.mpr ⟨args, hold, hclient⟩
    · unfold isGlusterProcess at hclient
      rw [hother] at hclient
      cases hclient
  · obtain ⟨entry, hentry, hmatches⟩ := List.any_eq_true.mp hmounts
    exact List.any_eq_true.mpr ⟨entry, h.mounts.subset hentry, hmatches⟩

end

/-! ## What is there -/

section

variable {s t : Host} {volname mountpoint : List Char} {mountIdentity : Option (List Char)} {held : List Unit}
  {P : Host → Prop} {errand : Option Errand}

theorem normpath_normpath (path : List Char) : normpath (normpath path) = normpath path := by
  obtain ⟨double, cs, hcs, hpath⟩ := normpath_eq path
  rw [hpath, normpath_slashes hcs]

/-- What the others do next to these locks leaves `P`. -/
def Stable (Filed : List Char → PoolInfo → Prop) (held : List Unit) (P : Host → Prop) : Prop :=
  ∀ s t, Rely (Guarantee Filed) held s t → P s → P t

/-- What a check says: that the mount was not established, or nothing. -/
structure Checked (Filed : List Char → PoolInfo → Prop) (held : List Unit) (volname target : List Char)
    (mountIdentity : Option (List Char)) (P : Host → Prop) (r : Except GlusterErr Bool) (t : Host) : Prop where
  keeps : P t
  stale : r = .ok false → ∃ s, Rely (Guarantee Filed) held s t ∧ ¬s.Established volname target mountIdentity
  errors : ∀ e, r = .error e → e.isOs = true

theorem checked_os {target : List Char} {e : GlusterErr} (h : P t) (he : e.isOs = true) :
    Checked Filed held volname target mountIdentity P (.error e) t := by
  refine ⟨h, by rintro ⟨⟩, ?_⟩
  rintro e ⟨⟩
  exact he

theorem ensures_current (hP : Stable Filed held P) (hs : P s) :
    (glusterMountIsCurrent volname mountpoint mountIdentity).ensures (Guarantee Filed) (Own Filed errand)
      (Checked Filed held volname (normpath mountpoint) mountIdentity P) held s := by
  refine ensures_bind (ensures_read (own_refl _ _ _) (fun t ht => ⟨?_, ?_⟩) fun e he t ht => ⟨?_, ?_⟩)
  · rintro running ⟨⟩
    refine ensures_ite (fun _ => ?_) fun hrunning => ensures_pure
      ⟨hP s t ht hs, fun _ => ⟨s, ht, fun h => hrunning h.1⟩, by rintro e ⟨⟩⟩
    refine ensures_bind (ensures_read (own_refl _ _ _) (fun u hu => ⟨?_, ?_⟩) fun e he u hu => ⟨?_, ?_⟩)
    · rintro mounts ⟨⟩
      refine ensures_pure ⟨hP t u hu (hP s t ht hs), fun hfalse => ⟨t, hu, fun h => ?_⟩, by rintro e ⟨⟩⟩
      rw [normpath_normpath, h.2] at hfalse
      cases hfalse
    · rintro e ⟨⟩
    · rintro a ⟨⟩
    · rintro e' ⟨⟩
      exact checked_os (hP t u hu (hP s t ht hs)) he
  · rintro e ⟨⟩
  · rintro a ⟨⟩
  · rintro e' ⟨⟩
    exact checked_os (hP s t ht hs) he

/-- The client is waited for. -/
theorem ensures_waitForGlusterMount (hP : Stable Filed held P) (attempts : Nat) (hs : P s) :
    (waitForGlusterMount volname mountpoint mountIdentity attempts).ensures (Guarantee Filed) (Own Filed errand)
      (fun r t => P t ∧ ∀ e, r = .error e → e.isOs = true) held s := by
  induction attempts generalizing s with
  | zero => exact ensures_pure ⟨hs, by rintro e ⟨⟩⟩
  | succ attempts ih =>
    refine ensures_bind (ensures_mono (fun r t hr => ⟨fun current _ => ?_, fun e he => ?_⟩) (ensures_current hP hs))
    · exact ensures_ite (fun _ => ensures_pure ⟨hr.keeps, by rintro e ⟨⟩⟩) fun _ => ih hr.keeps
    · refine ⟨hr.keeps, ?_⟩
      rintro e' ⟨⟩
      exact hr.errors e he

end

/-! ## Under the lock -/

section

variable {s t : Host} {volname mountpoint : List Char} {mountIdentity : Option (List Char)} {held : List Unit}
  {P : Host → Prop} {errand : Errand}

theorem stable_sound : Stable Filed held (Host.Sound Filed) := fun _ _ ht hs => hs.rely ht

/-- The mount is not established, and nobody else establishes it. -/
def Host.Stale (Filed : List Char → PoolInfo → Prop) (volname target : List Char) (mountIdentity : Option (List Char))
    (s : Host) : Prop :=
  s.Sound Filed ∧ ¬s.Established volname target mountIdentity

theorem Host.Stale.rely {target : List Char} (h : s.Stale Filed volname target mountIdentity)
    (ht : Rely (Guarantee Filed) [()] s t) : t.Stale Filed volname target mountIdentity :=
  ⟨h.1.rely ht, rely_locked (fun _ _ h => h.stale) ht h.2⟩

theorem Host.Free.rely {target : List Char} (h : s.Free target) (ht : Rely (Guarantee Filed) [()] s t) :
    t.Free target := rely_locked (fun _ _ h => h.free) ht h

/-- A step of the holder of the lock. -/
theorem own_locked {s' : Host} {errand : Option Errand} (h : LockStep s errand s') : Own Filed errand [()] s s' := by
  rw [Own, if_pos (List.mem_singleton.mpr rfl)]
  exact h

/-- A mount that goes away. -/
theorem disturbs_detach (target : List Char) : Disturbs Filed s { s with mounts := detach target s.mounts } :=
  ⟨detach_sublist target s.mounts, fun _ h => .inl h, id⟩

/-- The mount of an errand is stale. -/
abbrev Errand.Stale (errand : Errand) (Filed : List Char → PoolInfo → Prop) (s : Host) : Prop :=
  s.Stale Filed errand.volname errand.target errand.mountIdentity

theorem ensures_umount (hs : errand.Stale Filed s) (honly : s.Only errand.volname errand.target) :
    (umount errand.target).ensures (Guarantee Filed) (Own Filed (some errand)) (fun r t =>
      errand.Stale Filed t ∧ (r = .ok () → t.Free errand.target)) [()] s := by
  have hdetach : LockStep s (some errand) { s with mounts := detach errand.target s.mounts } := .detach honly hs.2
  have hdisturbs : Disturbs Filed s { s with mounts := detach errand.target s.mounts } := disturbs_detach _
  have hstale : errand.Stale Filed { s with mounts := detach errand.target s.mounts } :=
    ⟨hs.1.own (own_locked hdetach), hdisturbs.stale hs.2⟩
  have hfree : Host.Free { s with mounts := detach errand.target s.mounts } errand.target := not_mem_detach hs.1.1
  unfold umount
  by_cases hmounted : s.mounts.any (·.target = errand.target) = true
  · refine ensures_step ?_ ?_ ?_ <;> simp only [if_pos hmounted]
    · simp only [List.mem_cons, List.not_mem_nil, or_false]
      rintro t (rfl | rfl)
      · exact own_refl _ _ _
      · exact own_locked hdetach
    · exact fun t ht => ⟨hstale.rely ht, fun _ => hfree.rely ht⟩
    · simp only [List.mem_cons, List.not_mem_nil, or_false]
      rintro e - s' (rfl | rfl) t ht
      · exact ⟨hs.rely ht, by rintro ⟨⟩⟩
      · exact ⟨hstale.rely ht, by rintro ⟨⟩⟩
  · refine ensures_step ?_ ?_ ?_ <;> simp only [if_neg hmounted]
    · simp only [List.mem_cons, List.not_mem_nil, or_false, or_self]
      rintro t rfl
      exact own_refl _ _ _
    · exact fun t ht => ⟨hs.rely ht, by rintro ⟨⟩⟩
    · simp only [List.mem_cons, List.not_mem_nil, or_false, or_self]
      rintro e - s' rfl t ht
      exact ⟨hs.rely ht, by rintro ⟨⟩⟩

/-- What is stale is detached, and nothing is left there. -/
theorem ensures_removeStaleGlusterMount (errand : Errand) (hs : errand.Stale Filed s) :
    (removeStaleGlusterMount errand.volname errand.mountpoint).ensures (Guarantee Filed) (Own Filed (some errand)) (fun r t =>
      errand.Stale Filed t ∧ (r = .ok () → t.Free errand.target)) [()] s := by
  refine ensures_bind (ensures_read (own_refl _ _ _) (fun t ht => ⟨?_, ?_⟩) fun e he t ht => ⟨?_, ?_⟩)
  · rintro mounts ⟨⟩
    refine ensures_ite (fun hnone => ensures_pure ⟨hs.rely ht, fun _ => ?_⟩) fun _ => ensures_ite (fun _ => ?_) fun hsame => ?_
    · refine Host.Free.rely (fun entry hentry htarget => ?_) ht
      have hmem : entry.source ∈ (s.mounts.filter (·.target = normpath errand.mountpoint)).map (·.source) :=
        List.mem_map_of_mem (List.mem_filter.mpr ⟨hentry, decide_eq_true htarget⟩)
      rw [hnone] at hmem
      cases hmem
    · exact ensures_throw ⟨hs.rely ht, by rintro ⟨⟩⟩
    · have honly : s.Only errand.volname errand.target := by
        intro entry hentry htarget
        by_contra hother
        refine hsame fun hempty => ?_
        have hmem : entry.source ∈ ((s.mounts.filter (·.target = normpath errand.mountpoint)).map (·.source)).filter
            (glusterVolumeName · ≠ some errand.volname) :=
          List.mem_filter.mpr ⟨List.mem_map_of_mem (List.mem_filter.mpr ⟨hentry, decide_eq_true htarget⟩), decide_eq_true hother⟩
        rw [hempty] at hmem
        cases hmem
      exact ensures_umount (hs.rely ht) (rely_locked (fun _ _ h => h.only) ht honly)
  · rintro e ⟨⟩
  · rintro a ⟨⟩
  · rintro e' ⟨⟩
    exact ⟨hs.rely ht, by rintro ⟨⟩⟩

/-- Nothing is mounted there, and nobody else mounts anything. -/
def Host.Vacant (Filed : List Char → PoolInfo → Prop) (volname target : List Char) (mountIdentity : Option (List Char))
    (s : Host) : Prop :=
  s.Stale Filed volname target mountIdentity ∧ s.Free target

theorem Host.Vacant.rely {target : List Char} (h : s.Vacant Filed volname target mountIdentity)
    (ht : Rely (Guarantee Filed) [()] s t) : t.Vacant Filed volname target mountIdentity :=
  ⟨h.1.rely ht, h.2.rely ht⟩

/-- How the start of a client ends: a complaint about its options says that nothing was mounted. -/
def Launched (Filed : List Char → PoolInfo → Prop) (volname target : List Char) (mountIdentity : Option (List Char))
    {α : Type} (r : Except GlusterErr α) (t : Host) : Prop :=
  t.Sound Filed ∧ ∀ error, r = .error (.command error) → error.rejectsOptions = true →
    t.Vacant Filed volname target mountIdentity

theorem launched_ok {α : Type} {target : List Char} {a : α} (h : t.Sound Filed) :
    Launched Filed volname target mountIdentity (.ok a) t := ⟨h, by rintro error ⟨⟩⟩

theorem launched_os {α : Type} {target : List Char} {e : GlusterErr} (h : t.Sound Filed) (he : e.isOs = true) :
    Launched Filed volname target mountIdentity (.error e : Except GlusterErr α) t := by
  refine ⟨h, ?_⟩
  rintro error ⟨⟩
  cases he

/-- How the start of the client of an errand ends. -/
abbrev Errand.Launched (errand : Errand) (Filed : List Char → PoolInfo → Prop) {α : Type} (r : Except GlusterErr α)
    (t : Host) : Prop :=
  Gluster.Launched Filed errand.volname errand.target errand.mountIdentity r t

theorem ensures_launch {args : List (List Char)} (hargs : args ∈ errand.commands)
    (hs : s.Vacant Filed errand.volname errand.target errand.mountIdentity) :
    (launch (errand.client args)).ensures (Guarantee Filed) (Own Filed (some errand)) (errand.Launched Filed) [()] s := by
  have hstart : LockStep s (some errand) (s.mounted (errand.client args)) := .start hargs hs.2
  have hmounted : (s.mounted (errand.client args)).Sound Filed := hs.1.1.own (own_locked hstart)
  have hstay : ∀ error : CommandError, ∀ t, Rely (Guarantee Filed) [()] s t →
      errand.Launched Filed (.error (.command error) : Except GlusterErr Unit) t :=
    fun error t ht => ⟨hs.1.1.rely ht, fun _ _ _ => hs.rely ht⟩
  have hgone : ∀ e, GlusterErr.isOs e = true → ∀ s' : Host, s'.Sound Filed → ∀ t,
      Rely (Guarantee Filed) [()] s' t →
      errand.Launched Filed (.error e : Except GlusterErr Unit) t :=
    fun e he s' hs' t ht => launched_os (hs'.rely ht) he
  unfold launch
  cases hlaunch : s.launch with
  | mounts =>
    refine ensures_step ?_ ?_ ?_ <;> simp only [hlaunch, List.mem_cons, List.not_mem_nil, or_false]
    · rintro t (rfl | rfl)
      · exact own_refl _ _ _
      · exact own_locked hstart
    · exact fun t ht => launched_ok (hmounted.rely ht)
    · rintro e he s' (rfl | rfl)
      · exact hgone e he s' hs.1.1
      · exact hgone e he _ hmounted
  | mountsWith error accepted =>
    refine ensures_step ?_ ?_ ?_ <;> simp only [hlaunch, List.mem_cons, List.not_mem_nil, or_false]
    · rintro t (rfl | rfl)
      · exact own_refl _ _ _
      · exact own_locked hstart
    · refine fun t ht => ⟨hmounted.rely ht, ?_⟩
      rintro error ⟨⟩ hrejects
      rw [accepted] at hrejects
      cases hrejects
    · rintro e he s' (rfl | rfl)
      · exact hgone e he s' hs.1.1
      · exact hgone e he _ hmounted
  | exits =>
    refine ensures_step ?_ ?_ ?_ <;> simp only [hlaunch, List.mem_cons, List.not_mem_nil, or_false, or_self]
    · rintro t rfl
      exact own_refl _ _ _
    · exact fun t ht => launched_ok (hs.1.1.rely ht)
    · rintro e he s' rfl
      exact hgone e he s' hs.1.1
  | fails error =>
    refine ensures_step ?_ ?_ ?_ <;> simp only [hlaunch, List.mem_cons, List.not_mem_nil, or_false, or_self]
    · rintro t rfl
      exact own_refl _ _ _
    · exact hstay error
    · rintro e he s' rfl
      exact hgone e he s' hs.1.1

theorem Launched.rely {α : Type} {target : List Char} {r : Except GlusterErr α}
    (h : Launched Filed volname target mountIdentity r s) (ht : Rely (Guarantee Filed) [()] s t) :
    Launched Filed volname target mountIdentity r t :=
  ⟨h.1.rely ht, fun error hr hrejects => (h.2 error hr hrejects).rely ht⟩

theorem launched_error {α β : Type} {target : List Char} {e : GlusterErr}
    (h : Launched Filed volname target mountIdentity (.error e : Except GlusterErr α) t) :
    Launched Filed volname target mountIdentity (.error e : Except GlusterErr β) t := by
  refine ⟨h.1, ?_⟩
  rintro error ⟨⟩ hrejects
  exact h.2 error rfl hrejects

theorem ensures_mountSucceeded {error : CommandError} {errand : Option Errand} (hP : Stable Filed held P) (hs : P s) :
    (mountSucceededAfterCommandError error volname mountpoint mountIdentity).ensures (Guarantee Filed) (Own Filed errand)
      (fun r t => P t ∧ ∀ e, r = .error e → e.isOs = true) held s := by
  refine ensures_ite (fun _ => ensures_pure ⟨hs, by rintro e ⟨⟩⟩) fun _ => ?_
  exact ensures_mono (fun r t hr => ⟨hr.keeps, hr.errors⟩) (ensures_current hP hs)

theorem ensures_executeMountCommand {args : List (List Char)} (hargs : args ∈ errand.commands)
    (hs : s.Vacant Filed errand.volname errand.target errand.mountIdentity) :
    (executeMountCommand (errand.client args) errand.volname errand.mountpoint errand.mountIdentity).ensures
      (Guarantee Filed) (Own Filed (some errand)) (errand.Launched Filed) [()] s := by
  refine ensures_tryCatch (ensures_bind (ensures_mono (fun r t hr => ⟨fun _ _ => ?_, fun e he => ?_⟩) (ensures_launch hargs hs)))
  · exact ensures_pure ⟨fun _ _ => launched_ok hr.1, by rintro e ⟨⟩⟩
  · subst he
    refine ⟨by rintro a ⟨⟩, ?_⟩
    rintro e' ⟨⟩
    cases e with
    | command error =>
      refine ensures_bind (ensures_mono (fun r u hu => ⟨fun succeeded _ => ?_, fun e he => launched_os hu.1.1 (hu.2 e he)⟩)
        (ensures_mountSucceeded (fun _ _ hrely h => Launched.rely h hrely) hr))
      exact ensures_ite (fun _ => ensures_pure (launched_ok hu.1.1)) fun _ => ensures_throw (launched_error hu.1)
    | _ => exact ensures_throw (launched_error hr)

theorem ensures_executeGlusterfsMount (errand : Errand) {args : List (List Char)} (hargs : args ∈ errand.commands)
    (hs : s.Vacant Filed errand.volname errand.target errand.mountIdentity) :
    (executeGlusterfsMount (errand.client args) errand.volname errand.mountpoint errand.mountIdentity).ensures
      (Guarantee Filed) (Own Filed (some errand)) (errand.Launched Filed) [()] s := by
  refine ensures_bind (ensures_mono (fun r t hr => ⟨fun ended _ => ?_, fun e he => ?_⟩) (ensures_executeMountCommand hargs hs))
  · refine ensures_ite (fun _ => ensures_pure (launched_ok hr.1)) fun _ => ?_
    refine ensures_bind (ensures_mono (fun r u hu => ⟨fun established _ => ?_, fun e he => launched_os hu.1 (hu.2 e he)⟩)
      (ensures_waitForGlusterMount stable_sound 20 hr.1))
    refine ensures_ite (fun _ => ensures_throw ⟨hu.1, ?_⟩) fun _ => ensures_pure (launched_ok hu.1)
    rintro error ⟨⟩ hrejects
    exact absurd hrejects (by decide +kernel)
  · subst he
    exact launched_error hr

theorem ensures_mountGlusterfsWithHost {volume : HostVolume} {token : Option String}
    (hs : s.Vacant Filed volume.gVolname (normpath mountpoint) (token.map String.toList)) :
    (mountGlusterfsWithHost volume.gVolname mountpoint volume.gHost volume.gOptions (token.map String.toList)).ensures
      (Guarantee Filed) (Own Filed (some (volume.externalErrand mountpoint token))) (fun _ t => t.Sound Filed) [()] s := by
  have hmount {u : Host} (options : List (List Char)) (hoptions : options ∈ [optionArgs volume.gOptions, []])
      (hu : u.Vacant Filed volume.gVolname (normpath mountpoint) (token.map String.toList)) :=
    ensures_executeGlusterfsMount (volume.externalErrand mountpoint token) (List.mem_map_of_mem hoptions) hu
  refine ensures_bind (ensures_read (own_refl _ _ _) (fun t ht => ⟨fun _ _ => ?_, ?_⟩) fun e he t ht => ⟨?_, ?_⟩)
  · refine ensures_tryCatch (ensures_mono (fun r u hu => ⟨fun _ _ => hu.1, ?_⟩) (hmount _ (by simp) (hs.rely ht)))
    rintro e rfl
    cases e with
    | command error =>
      refine ensures_ite (fun hrejects => ?_) fun _ => ensures_throw hu.1
      exact ensures_mono (fun _ _ h => h.1) (hmount _ (by simp) (hu.2 error rfl hrejects))
    | _ => exact ensures_throw hu.1
  · rintro e ⟨⟩
  · rintro a ⟨⟩
  · rintro e' ⟨⟩
    exact hs.1.1.rely ht

end

/-! ## Threads -/

section

variable {s t : Host} {volname mountpoint : List Char} {mountIdentity : Option (List Char)} {held : List Unit}
  {volume : HostVolume} {α : Type} {errand : Option Errand}

theorem stale_of_checked {target : List Char} (h : Checked Filed [()] volname target mountIdentity
    (Host.Sound Filed) (.ok false) t) : t.Stale Filed volname target mountIdentity := by
  obtain ⟨s, ht, hs⟩ := h.stale rfl
  exact ⟨h.keeps, rely_locked (fun _ _ h => h.stale) ht hs⟩

/-- A read of something else. -/
theorem ensures_other {errs : GlusterErr → Bool} {g : Host → Except GlusterErr α} (hs : s.Sound Filed) :
    (Prog.read errs g : GlusterProg α).ensures (Guarantee Filed) (Own Filed errand) (fun _ t => t.Sound Filed) held s :=
  ensures_read (own_refl _ _ _) (fun _ ht => hs.rely ht) fun _ _ _ ht => hs.rely ht

/-- A part of a thread that leaves the host sound. -/
theorem ensures_bind_sound {β : Type} {p : GlusterProg α} {g : α → GlusterProg β}
    (hp : p.ensures (Guarantee Filed) (Own Filed errand) (fun _ t => t.Sound Filed) held s)
    (hg : ∀ a t, t.Sound Filed → (g a).ensures (Guarantee Filed) (Own Filed errand) (fun _ t => t.Sound Filed) held t) :
    (p >>= g).ensures (Guarantee Filed) (Own Filed errand) (fun _ t => t.Sound Filed) held s :=
  ensures_bind (ensures_mono (fun _ t ht => ⟨fun a _ => hg a t ht, fun _ _ => ht⟩) hp)

theorem ensures_current_sound (hs : s.Sound Filed) : (glusterMountIsCurrent volname mountpoint mountIdentity).ensures
    (Guarantee Filed) (Own Filed errand) (fun _ t => t.Sound Filed) held s :=
  ensures_mono (fun _ _ h => h.keeps) (ensures_current stable_sound hs)

/-- The part under the lock: unless the mount is current, what is stale is detached before a client is started. -/
theorem ensures_mountLocked {current start : GlusterProg α} (errand : Errand)
    (hcurrent : ∀ t, t.Sound Filed →
      current.ensures (Guarantee Filed) (Own Filed (some errand)) (fun _ t => t.Sound Filed) [()] t)
    (hstart : ∀ t, t.Vacant Filed errand.volname errand.target errand.mountIdentity →
      start.ensures (Guarantee Filed) (Own Filed (some errand)) (fun _ t => t.Sound Filed) [()] t)
    (hs : s.Sound Filed) :
    (Prog.withLock () (fun _ => false) (do
      if ← glusterMountIsCurrent errand.volname errand.mountpoint errand.mountIdentity then current
      else do
        removeStaleGlusterMount errand.volname errand.mountpoint
        start)).ensures (Guarantee Filed) (Own Filed (some errand)) (fun _ t => t.Sound Filed) [] s := by
  refine ensures_withLock fun t ht => ensures_mono (fun _ _ h _ hu => Host.Sound.rely h hu) ?_
  refine ensures_bind (ensures_mono (fun r t hr => ⟨?_, fun _ _ => hr.keeps⟩) (ensures_current stable_sound (hs.rely ht)))
  rintro (_ | _) rfl
  · refine ensures_bind (ensures_mono (fun r u hu => ⟨?_, fun _ _ => hu.1.1⟩)
      (ensures_removeStaleGlusterMount errand (stale_of_checked hr)))
    rintro ⟨⟩ rfl
    exact hstart u ⟨hu.1, hu.2 rfl⟩
  · exact hcurrent t hr.keeps

theorem ensures_setQuotaOption (hs : s.Sound Filed) : (setQuotaOption mountpoint).ensures
    (Guarantee Filed) (Own Filed errand) (fun _ t => t.Sound Filed) held s := by
  refine ensures_bind_sound (ensures_other hs) fun quota t ht => ensures_ite (fun _ => ensures_pure ht) fun _ => ?_
  refine ensures_bind_sound (ensures_other ht) fun host u hu => ?_
  cases host with
  | none => exact ensures_pure hu
  | some host => exact ensures_bind_sound (ensures_other hu) fun _ _ hv => ensures_pure hv

variable [JsonText]

/-- The rest of a thread is known by the mount identity of its pool. -/
theorem commits_mountToken {data : Dict} {rest : Option (List Char) → GlusterProg α} {P : Option Errand → Prop} (hnone : P none)
    (h : ∀ token, Fingerprint.mountIdentity data = .ok token →
      (rest (token.map String.toList)).commits (Guarantee Filed) Waits (Own Filed) P [] s) :
    (mountToken data >>= rest).commits (Guarantee Filed) Waits (Own Filed) P [] s := by
  unfold mountToken
  cases hdata : Fingerprint.mountIdentity data with
  | ok token => exact h token hdata
  | error e => exact commits_of none hnone fun _ _ => trivial

omit [JsonText] in
/-- A part of a thread whose errand is known. -/
theorem commits_of_ensures {p : GlusterProg α} {P : Option Errand → Prop} (errand : Option Errand) (hP : P errand) (hs : s.Sound Filed)
    (h : ∀ t : Host, t.Sound Filed → p.ensures (Guarantee Filed) (Own Filed errand) (fun _ t => t.Sound Filed) [] t) :
    p.commits (Guarantee Filed) Waits (Own Filed) P [] s :=
  commits_of errand hP fun t ht => wpr_mono (fun _ _ _ _ => trivial) (h t (hs.rely ht))

theorem commits_handleExternalVolume {P : Option Errand → Prop} (hnone : P none)
    (hP : ∀ token, Fingerprint.mountIdentity volume.data = .ok token → P (some (volume.externalErrand mountpoint token)))
    (hs : s.Sound Filed) :
    (handleExternalVolume volume mountpoint).commits (Guarantee Filed) Waits (Own Filed) P [] s := by
  refine commits_mountToken hnone fun token htoken => commits_of_ensures _ (hP token htoken) hs fun t ht => ?_
  refine ensures_bind_sound (ensures_current_sound ht) fun current t ht => ensures_ite (fun _ => ensures_pure ht) fun _ => ?_
  refine ensures_bind_sound (ensures_mountLocked (volume.externalErrand mountpoint token) (fun _ hu => ensures_pure hu)
    (fun u hu => ?_) ht) fun already u hu => ensures_ite (fun _ => ensures_pure hu) fun _ => ensures_setQuotaOption hu
  exact ensures_bind_sound (ensures_mountGlusterfsWithHost hu) fun _ _ h => ensures_pure h

omit [JsonText] in
/-- The file that was read. -/
theorem info_of_read {file : Option PoolInfo} {info : PoolInfo}
    (h : file.elim (.error GlusterErr.fileNotFound) (.ok : PoolInfo → Except GlusterErr PoolInfo) = .ok info) : file = some info := by
  cases file with
  | none => cases h
  | some info =>
    cases h
    rfl

theorem commits_mountGlusterfs {isClient : Bool} (hs : s.Sound Filed) :
    (mountGlusterfs volume mountpoint isClient).commits (Guarantee Filed) Waits (Own Filed)
      (fun errand => ∀ e, errand = some e → (Thread.mount volume mountpoint isClient).Errand Filed e) [] s := by
  have hnone : ∀ e, (none : Option Errand) = some e → (Thread.mount volume mountpoint isClient).Errand Filed e := by
    rintro e ⟨⟩
  unfold mountGlusterfs
  split
  · next hexternal =>
    refine commits_handleExternalVolume hnone (fun token htoken => ?_) hs
    rintro e ⟨⟩
    exact .external hexternal htoken
  · next hnative =>
    refine commits_read_bind none hnone (fun t => ⟨List.not_mem_nil, rfl⟩) fun t ht info hinfo => ?_
    have ht := hs.rely ht
    refine commits_mountToken hnone fun token htoken => ?_
    refine commits_of_ensures (some (volume.nativeErrand mountpoint isClient info token)) ?_ ht fun u hu => ?_
    · rintro e ⟨⟩
      exact .native (Bool.eq_false_iff.mpr hnative) (ht.2 _ _ (info_of_read hinfo)) htoken
    refine ensures_bind_sound (ensures_current_sound hu) fun current t ht => ensures_ite (fun _ => ensures_pure ht) fun _ => ?_
    refine ensures_bind_sound (ensures_other ht) fun reachable t ht => ?_
    refine ensures_ite (fun _ => ensures_bind (ensures_throw ⟨by rintro a ⟨⟩, fun _ _ => ht⟩)) fun _ => ?_
    refine ensures_bind_sound (ensures_mountLocked (volume.nativeErrand mountpoint isClient info token)
      (fun _ hu => ensures_pure hu) (fun u hu => ?_) ht) fun _ _ hu => ensures_pure hu
    refine ensures_bind (ensures_read (own_refl _ _ _) (fun v hv => ⟨fun _ _ => ?_, fun _ _ => hu.1.1.rely hv⟩)
      fun e he v hv => ⟨by rintro a ⟨⟩, fun _ _ => hu.1.1.rely hv⟩)
    exact ensures_mono (fun _ _ h => h.1) (ensures_executeGlusterfsMount (volume.nativeErrand mountpoint isClient info token)
      (List.mem_singleton.mpr rfl) (hu.rely hv))

omit [JsonText] in
/-- Without the lock mounts only go away. -/
theorem ensures_unmountGlusterfs (hs : s.Sound Filed) : (unmountGlusterfs mountpoint volname).ensures
    (Guarantee Filed) (Own Filed none) (fun _ t => t.Sound Filed) [] s := by
  refine ensures_bind_sound (ensures_bind_sound (ensures_other hs) fun _ _ ht => ensures_pure ht) fun mounted t ht =>
    ensures_ite (fun _ => ?_) fun _ => ensures_pure ht
  have hkeeps : ∀ u ∈ t :: (if t.mounts.any (·.target = normpath mountpoint) then
      ((.ok () : Except GlusterErr Unit), { t with mounts := detach (normpath mountpoint) t.mounts })
      else (.error (.command notMounted), t)).2 :: [], Own Filed none [] t u := by
    intro u hu
    rw [Own, if_neg List.not_mem_nil]
    split at hu
    · simp only [List.mem_cons, List.not_mem_nil, or_false] at hu
      rcases hu with rfl | rfl
      · exact .refl _
      · exact disturbs_detach _
    · simp only [List.mem_cons, List.not_mem_nil, or_false, or_self] at hu
      exact hu ▸ .refl _
  exact ensures_step hkeeps (fun u hu => (ht.own (hkeeps _ (by simp))).rely hu) fun e _ s' hs' u hu =>
    (ht.own (hkeeps s' hs')).rely hu

/-- Every thread commits itself to one of its errands. -/
theorem commits_thread {thread : Thread} (hfair : thread.Fair Filed) (hs : s.Sound Filed) :
    thread.prog.commits (Guarantee Filed) Waits (Own Filed)
      (fun errand => ∀ e, errand = some e → thread.Errand Filed e) [] s := by
  have hnone : ∀ e, (none : Option Errand) = some e → thread.Errand Filed e := by
    rintro e ⟨⟩
  cases thread with
  | mount volume mountpoint isClient => exact commits_void (commits_mountGlusterfs hs)
  | unmount mountpoint volname => exact commits_of_ensures _ hnone hs fun t ht => ensures_unmountGlusterfs ht
  | world f =>
    refine commits_of_ensures none hnone hs fun t ht => ?_
    have hown : ∀ u ∈ t :: f t :: [], Own Filed none [] t u := by
      intro u hu
      rw [Own, if_neg List.not_mem_nil]
      simp only [List.mem_cons, List.not_mem_nil, or_false] at hu
      rcases hu with rfl | rfl
      · exact .refl _
      · exact hfair t
    exact ensures_step hown (fun u hu => (ht.own (hown _ (by simp))).rely hu) fun e he => by cases he

end

/-! ## A stale mount -/

section

/-- Nothing is hashed: the pool has no mount identity. -/
abbrev bareJson : JsonText := ⟨fun _ => "", fun _ => ""⟩

attribute [local instance] bareJson

/-- An External pool of an older version. -/
def legacyVolume : HostVolume :=
  { name := "pool".toList, external := true, gVolname := "vol".toList, gHost := "gluster1".toList }

def legacyMountpoint : List Char := "/mnt/pool".toList

/-- Its client is gone, and has left its mount. -/
def staleHost : Host := { mounts := [⟨displayName "vol".toList none, legacyMountpoint⟩] }

/-- A thread that mounts the pool. -/
def mountThread : GlusterProg Unit := (Thread.mount legacyVolume legacyMountpoint false).prog

/-- The host when it has done so. -/
def remountedHost : Host := (mountThread.run staleHost).2

end

end Kadalu.Node.Gluster
