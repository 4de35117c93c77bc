import Kadalu.Volume.Archiving
import Kadalu.Volume.Deleting

/-!
# Deletion under changing reclaim policies

The policy of a pool may change between the attempts on one volume. What they leave behind is a doomed volume or an archive
on its way (`Phase`), and each phase says what either policy does next (`Phase.step`). The delete policy refuses an
interrupted archive, which only the archive policy completes.
-/

namespace Kadalu

open Durable Durable.Prog Except

section

variable [VolnameHash]

section

variable {t : PvType} {v a : String} {p q : Path} {m : Metadata} {payload : Payload} {s s₀ : Pool} {us : List String}

/-! ## The phases -/

/-- A name that nothing in the pool has. -/
structure Unused (s : Pool) (a : String) : Prop where
  safe : isSafePathComponent a = true
  metadata : s.metadata.lookup (archivePath a) = none
  payload : s.payloads.lookup (archivePath a) = none
  record : ∀ p r, Record s p r → r.id ≠ a
  idle : ¬Pending s a

/-- The draws of `uuid4` give new names. -/
structure NewNames (s : Pool) (us : List String) : Prop where
  drawn : archiveCandidates us ≠ []
  unused : ∀ a ∈ archiveCandidates us, Unused s a

/-- The outcome of a deletion: nothing of `v` is left, or one archive with its payload, its row and its reservation. -/
inductive Concluded (v : String) (q : Path) (s₀ s : Pool) : Prop
  | removed {out : CapacityRecords} : RemovedFrom v q s₀ s → capacityMetadataRecords s = .ok out →
      out.reservations.lookup v = none → Concluded v q s₀ s
  | archived {out : CapacityRecords} {a : String} {m : Metadata} {payload : Payload} :
      Frame [q, archivePath a] [v, a] s₀ s → ArchivedAs v a m payload s → ¬Pending s v → capacityMetadataRecords s = .ok out →
      out.reservations.lookup v = none → out.reservations.lookup a = some m.size → Concluded v q s₀ s

/-- A tombstone whose payload is gone. -/
def Spent (q : Path) (s : Pool) : Prop :=
  ∃ m, s.metadata.lookup q = some m ∧ m.state = some .deleting ∧ s.payloads.lookup q = none

/-- An archive of `v` has been interrupted. -/
def Interrupts (v : String) (q : Path) (s : Pool) : Prop :=
  ∃ p m, s.metadata.lookup p = some m ∧ (p = q ∨ p.dirname = ["archive"]) ∧ m.state = some .archiving ∧
    m.originalVolumeId = some v

/-- What attempts under any policies can leave of `v`. -/
inductive Phase (t : PvType) (v : String) (q : Path) (s₀ s : Pool) : Prop
  | doomed {lo : Int} : Doomed t v q lo s₀ s → Phase t v q s₀ s
  | archiving {a : String} {m : Metadata} {payload : Payload} : NewName v q a s₀ → Plain t v q m →
      ArchiveStage v a q m payload s₀ s → Phase t v q s₀ s

/-- A name is drawn as long as the archives are as in `s₀`. -/
theorem draws_unused (hq : q ∈ volumePaths t v) (hf : Frame [q] [v] s₀ s) (hus : NewNames s₀ us) :
    ∃ a, freshArchiveName s us = .ok a ∧ Unused s₀ a ∧ startsWith ARCHIVE_PREFIX a = true := by
  obtain ⟨a, as, has⟩ := List.exists_cons_of_ne_nil hus.drawn
  have ha : a ∈ archiveCandidates us := has ▸ List.mem_cons_self
  have hoff : archivePath a ∉ [q] := by simpa using archivePath_ne hq
  have hunused := hus.unused a ha
  have hdrawn : freshArchiveName s us = .ok a := by
    unfold freshArchiveName
    rw [has, List.find?_cons_of_pos]
    · rfl
    · rw [hf.payloads _ hoff, hf.metadata _ hoff, hunused.payload, hunused.metadata]
      rfl
  exact ⟨a, hdrawn, hunused, (freshArchiveName_ok hdrawn).1⟩

/-- The delete policy refuses prepared metadata, and changes nothing. -/
theorem inv_deletePrepared {vol : Volume} (hm : s.metadata.lookup (vol.metadataPath.getD vol.volpath) = some m)
    (hstate : m.state = some .archiving) (hno : NoIntents vol.volpath s) :
    (deleteManagedVolume vol .delete us).inv (· = s) (fun _ _ => False) s := by
  rw [deleteManagedVolume]
  refine inv_bind (inv_read rfl fun m₁ hm₁ => ?_)
  rw [hm] at hm₁
  cases hm₁
  refine inv_bind (inv_bind (inv_read rfl fun o ho => ?_))
  cases (readVolumeExpansionIntent_absent hno.2).symm.trans ho
  refine inv_ret (inv_ite (fun _ => inv_raise rfl) fun _ => inv_bind (inv_bind (inv_read rfl fun o ho => ?_)))
  cases (readVolumeCreationIntent_absent hno.1).symm.trans ho
  refine inv_ret ?_
  rw [if_neg (by decide)]
  refine inv_bind (inv_ofExcept rfl fun paths _ => inv_ite (fun _ => inv_raise rfl) fun _ => inv_bind ?_)
  rw [markDeleting, hstate]
  dsimp only
  rw [if_pos (.inl (by decide))]
  exact inv_raise rfl

/-! ## One attempt -/

section

variable {m₀ : Metadata} {payload₀ : Payload} {lo : Int} {host : HostVol}
  (h₀ : Stored t v (canon t v) m₀ payload₀ s₀) (hsep : Separate [canon t v] [v] s₀)

include h₀

/-- Metadata of an interrupted archive is not elsewhere in the pool. -/
theorem not_interrupts {ps : List Path} {vs : List String} (hf : Frame ps vs s₀ s)
    (hps : ∀ p ∈ ps, ∀ m', s.metadata.lookup p = some m' → m'.state ≠ some .archiving) (hq : canon t v ∈ ps) :
    ¬Interrupts v (canon t v) s := by
  rintro ⟨p, m', hm, hp, hstate, horiginal⟩
  by_cases hmem : p ∈ ps
  · exact hps p hmem m' hm hstate
  · rcases hp with rfl | hdir
    · exact hmem hq
    · rw [hf.metadata p hmem] at hm
      exact h₀.whole p m' hm ⟨hdir, hstate, horiginal⟩

theorem Alive.not_interrupts (hf : Frame [canon t v] [v] s₀ s) (h : Alive t v (canon t v) lo m s) :
    ¬Interrupts v (canon t v) s := by
  refine Kadalu.not_interrupts h₀ hf (fun p hp m' hm => ?_) List.mem_cons_self
  obtain rfl := List.mem_singleton.mp hp
  cases h.metadata.symm.trans hm
  rcases h.state with ⟨hstate, -⟩ | ⟨hstate, -⟩
  · simp [hstate]
  · simp [hstate]

theorem Vanished.not_interrupts (hf : Frame [canon t v] [v] s₀ s) (h : Vanished v (canon t v) s) :
    ¬Interrupts v (canon t v) s := by
  refine Kadalu.not_interrupts h₀ hf (fun p hp m' hm => ?_) List.mem_cons_self
  obtain rfl := List.mem_singleton.mp hp
  rw [h.metadata] at hm
  cases hm

theorem ArchiveStage.concluded (hn : NewName v (canon t v) a s₀) (hm : Plain t v (canon t v) m)
    (h : ArchiveStage v a (canon t v) m payload s₀ s) (hend : ArchivedAs v a m payload s) : Concluded v (canon t v) s₀ s := by
  obtain ⟨-, hidle, out, hout, hv, ha⟩ := h.reserved h₀ hn hm
  exact .archived h.frame hend hidle hout hv ha

/-- The archive policy takes up a volume under deletion, as long as its payload is there. -/
theorem completes_archiveAlive (hsep : Separate [canon t v] [v] s₀) (hf : Frame [canon t v] [v] s₀ s) (hi : Indexed s)
    (hus : NewNames s₀ us) (state : Option Lifecycle)
    (hp : (s.payloads.lookup (canon t v)).isSome) (h : Alive t v (canon t v) lo m s) :
    (deleteManagedVolume (foundVolume host t v (canon t v) state m) .archive us).completes (Phase t v (canon t v) s₀)
      (fun _ s' => Phase t v (canon t v) s₀ s' ∧ Concluded v (canon t v) s₀ s') s := by
  refine completes_absorb rfl rfl rfl hf hi rfl h (fun _ => .doomed) fun m₁ s₁ h₁ hno₁ hf₁ hi₁ hp₁ => ?_
  obtain ⟨payload, hpayload⟩ := Option.isSome_iff_exists.mp hp
  obtain ⟨a, hdrawn, hunused, hnamed⟩ := draws_unused h₀.active.path hf₁ hus
  have hn : NewName v (canon t v) a s₀ := newName_of_separate hsep h₀ hunused.safe hnamed hunused.metadata
    hunused.payload hunused.record hunused.idle
  have hoff : archivePath a ∉ [canon t v] := by simpa using archivePath_ne h₀.active.path
  obtain ⟨hcreations, hexpansions⟩ := noIntents_archive (a := a) h₀.scannable
  have hfree : NoIntents (archivePath a) s₁ :=
    ⟨(hf₁.creations _ hoff).trans hcreations, (hf₁.expansions _ hoff).trans hexpansions⟩
  have hmoving : Moving v a (canon t v) payload s₀ (canon t v) m₁ (canon t v) s₁ :=
    .start h₀.active.path hn hf₁ hno₁ h₁.metadata (by rw [hp₁, hpayload]) hfree
  rw [if_pos rfl]
  refine completes_mono (fun _ s' h' => ⟨.archiving hn h₁.toPlain h'.1, h'.1.concluded h₀ hn h₁.toPlain h'.2⟩)
    (completes_archiveVolume h₀ hn rfl rfl h₁.size h₁.archiveName hmoving hdrawn ?_ fun s' h' => .archiving hn h₁.toPlain h')
  exact .doomed ⟨hf₁, hi₁, .inl ⟨m₁, h₁⟩⟩

/-- What an attempt finds, and what either policy makes of it. -/
structure Handles (t : PvType) (v : String) (q : Path) (s₀ s : Pool) (host : HostVol) (us : List String) (vol : Volume) :
    Prop where
  volname : vol.volname = v
  host : vol.host = host
  shared : vol.singlePvPerPool = false
  state : vol.state ≠ some .creating
  archive : ¬Spent q s → (deleteManagedVolume vol .archive us).completes (Phase t v q s₀)
    (fun _ s' => Phase t v q s₀ s' ∧ Concluded v q s₀ s') s
  delete : ¬Interrupts v q s → (deleteManagedVolume vol .delete us).completes (Phase t v q s₀)
    (fun _ s' => Phase t v q s₀ s' ∧ Concluded v q s₀ s') s
  refuses : Interrupts v q s → (deleteManagedVolume vol .delete us).inv (· = s) (fun _ _ => False) s

include hsep

/-- **One look.** A search finds nothing once the deletion is settled, else a volume that both policies handle. -/
theorem Phase.found (hshared : host.singlePvPerPool = false) (hus : NewNames s₀ us) (h : Phase t v (canon t v) s₀ s) :
    (searchPool host s v (allPaths v) = .ok none ∧ Concluded v (canon t v) s₀ s ∧ ¬Interrupts v (canon t v) s) ∨
    ∃ vol, searchPool host s v (allPaths v) = .ok (some vol) ∧ Handles t v (canon t v) s₀ s host us vol := by
  cases h with
  | doomed h =>
    have hf := h.frame
    rcases h.stage with ⟨m₁, halive⟩ | hvanished
    · obtain ⟨state, hcreating, hsearch⟩ := halive.found h₀ hf hshared
      have hnot := halive.not_interrupts h₀ hf
      refine .inr ⟨_, hsearch, rfl, rfl, rfl, hcreating, fun hspent => ?_, fun _ => ?_, fun h => absurd h hnot⟩
      · refine completes_archiveAlive h₀ hsep hf h.indexed hus state ?_ halive
        rcases halive.state with ⟨-, hp⟩ | ⟨hstate, -⟩
        · exact hp
        · by_contra hp
          exact hspent ⟨m₁, halive.metadata, hstate, Option.not_isSome_iff_eq_none.mp hp⟩
      · refine completes_imp (fun _ => .doomed) (completes_mono (fun _ s' h' => ⟨.doomed h'.1, ?_⟩)
          (completes_deleteManagedVolume rfl rfl rfl hf h.indexed rfl halive))
        obtain ⟨-, out, hout, hnone⟩ := h'.2.absent h₀ hsep h'.1.frame hshared
        exact .removed (removed_of_vanished h₀ hsep h'.1.frame h'.2) hout hnone
    · obtain ⟨hsearch, out, hout, hnone⟩ := hvanished.absent h₀ hsep hf hshared
      exact .inl ⟨hsearch, .removed (removed_of_vanished h₀ hsep hf hvanished) hout hnone, hvanished.not_interrupts h₀ hf⟩
  | archiving hn hm h =>
    rcases h.found h₀ hn hm hshared with ⟨hsearch, hend⟩ | ⟨vol, hsearch, hvol⟩
    · refine .inl ⟨hsearch, h.concluded h₀ hn hm hend, ?_⟩
      refine not_interrupts h₀ h.frame (fun p hp m' hm' => ?_) List.mem_cons_self
      rcases List.mem_pair.mp hp with rfl | rfl
      · rw [(hend.gone t _ canon_mem).1] at hm'
        cases hm'
      · rw [hend.metadata] at hm'
        cases hm'
        simp
    · have hinterrupts : Interrupts v (canon t v) s := by
        refine ⟨_, _, hvol.metadata, hvol.place.imp id fun h => ?_, rfl, rfl⟩
        rw [h]
        rfl
      exact .inr ⟨vol, hsearch, hvol.volname, hvol.host, hvol.shared, by simp [hvol.state],
        fun _ => completes_imp (fun _ => .archiving hn hm) (completes_mono (fun _ s' h' => ⟨.archiving hn hm h'.1,
          h'.1.concluded h₀ hn hm h'.2⟩) (hvol.completes us)),
        fun h => absurd hinterrupts h, fun _ => inv_deletePrepared hvol.metadata rfl hvol.noIntents⟩

end

/-! ## Any number of attempts -/

/-- The pool records with another reclaim policy of one pool. -/
def withPolicy (hosts : List HostVol) (name : String) (policy : Option String) : List HostVol :=
  hosts.map fun host => if host.name = name then { host with pvReclaimPolicy := policy } else host

section

variable {hosts : List HostVol} {host : HostVol} {policy : Option String} {w w₀ w' : World} {P : ReclaimPolicy}
  {m₀ : Metadata} {payload₀ : Payload}

theorem HostedBy.withPolicy (h : HostedBy hosts host v w) (policy : Option String) :
    HostedBy (withPolicy hosts host.name policy) { host with pvReclaimPolicy := policy } v w := by
  obtain ⟨hshared, before, after, rfl, hothers⟩ := h
  refine ⟨hshared, before, after, ?_, hothers⟩
  have hkept : ∀ l : List HostVol, (∀ other ∈ l, other.name ≠ host.name) → Kadalu.withPolicy l host.name policy = l :=
    fun l hl =>
    (List.map_congr_left fun other ho => if_neg (hl other ho)).trans (List.map_id' l)
  have hbefore := hkept before fun other ho => (hothers other (.inl ho)).1
  have hafter := hkept after fun other ho => (hothers other (.inr ho)).1
  rw [Kadalu.withPolicy, List.map_append, List.map_cons, if_pos rfl]
  exact congrArg₂ _ hbefore (congrArg _ hafter)

/-- An attempt under any policy, up to a crash or its end. The archive policy does not meet a spent tombstone. -/
def Attempt (hosts : List HostVol) (host : HostVol) (v : String) (q : Path) (s₀ : Pool) (w w' : World) : Prop :=
  ∃ policy P us, reclaimPolicyOf policy = .ok P ∧ (P = .archive → ¬Spent q (w host.name)) ∧ NewNames s₀ us ∧
    (deleteVolume (withPolicy hosts host.name policy) v us).Visits w w'

section

variable (h₀ : Stored t v (canon t v) m₀ payload₀ s₀) (hsep : Separate [canon t v] [v] s₀) (hhost : HostedBy hosts host v w₀)

include h₀ hsep hhost

/-- One attempt keeps the phase. -/
theorem Phase.attempt (h : Phase t v (canon t v) s₀ s)
    (hattempt : Attempt hosts host v (canon t v) s₀ (Function.update w₀ host.name s) w') :
    ∃ s', w' = Function.update w₀ host.name s' ∧ Phase t v (canon t v) s₀ s' := by
  obtain ⟨policy, P, us, hpolicy, hspent, hus, hv⟩ := hattempt
  rw [Function.update_self] at hspent
  have hhost' := hhost.withPolicy policy
  have hvalid := h₀.active.valid
  rcases h.found h₀ hsep hhost'.shared hus with ⟨hsearch, -⟩ | ⟨vol, hsearch, hvol⟩
  · exact hhost'.visits_deleteVolume_absent hvalid h hsearch hv
  refine hhost'.visits_deleteVolume hvalid h hsearch hvol.volname hvol.host hvol.shared ?_ hv
  have hvolPolicy : reclaimPolicyOf vol.host.pvReclaimPolicy = .ok P := by rw [hvol.host, hpolicy]
  cases P with
  | retain =>
    rw [deleteVolumeLocked, hvolPolicy]
    exact inv_ret h
  | archive =>
    rw [deleteVolumeLocked_managed hvolPolicy (by decide) hvol.state hvol.shared]
    exact inv_mono (fun _ _ h' => h'.1) (hvol.archive (hspent rfl)).1
  | delete =>
    rw [deleteVolumeLocked_managed hvolPolicy (by decide) hvol.state hvol.shared]
    by_cases hinterrupts : Interrupts v (canon t v) s
    · refine inv_imp (C := (· = s)) (fun s' hs' => ?_) (fun _ _ hf => hf.elim) (hvol.refuses hinterrupts)
      rwa [hs']
    · exact inv_mono (fun _ _ h' => h'.1) (hvol.delete hinterrupts).1

/-- A fault-free attempt concludes the deletion, once its policy handles what is there. -/
theorem Phase.concludes (h : Phase t v (canon t v) s₀ s) (hus : NewNames s₀ us) (hpolicy : reclaimPolicyOf policy = .ok P)
    (hhandles : P = .archive ∧ ¬Spent (canon t v) s ∨ P = .delete ∧ ¬Interrupts v (canon t v) s) :
    (deleteVolume (withPolicy hosts host.name policy) v us).succeeds
      (fun _ w' => Concluded v (canon t v) s₀ (w' host.name)) (Function.update w₀ host.name s) := by
  have hhost' := hhost.withPolicy policy
  have hvalid := h₀.active.valid
  rcases h.found h₀ hsep hhost'.shared hus with ⟨hsearch, hend, -⟩ | ⟨vol, hsearch, hvol⟩
  · exact hhost'.retry_absent hvalid hsearch hend
  refine hhost'.retry hvalid hsearch hvol.volname hvol.host hvol.shared ?_
  have hvolPolicy : reclaimPolicyOf vol.host.pvReclaimPolicy = .ok P := by rw [hvol.host, hpolicy]
  rcases hhandles with ⟨rfl, hspent⟩ | ⟨rfl, hinterrupts⟩
  · rw [deleteVolumeLocked_managed hvolPolicy (by decide) hvol.state hvol.shared]
    obtain ⟨u, hu, -, hend⟩ := completes_run (hvol.archive hspent)
    exact ⟨u, hu, hend⟩
  · rw [deleteVolumeLocked_managed hvolPolicy (by decide) hvol.state hvol.shared]
    obtain ⟨u, hu, -, hend⟩ := completes_run (hvol.delete hinterrupts)
    exact ⟨u, hu, hend⟩

/-- The delete policy leaves an interrupted archive to the archive policy. -/
theorem Phase.refuses (h : Phase t v (canon t v) s₀ s) (hus : NewNames s₀ us) (hpolicy : reclaimPolicyOf policy = .ok .delete)
    (hinterrupts : Interrupts v (canon t v) s) :
    (∀ w', (deleteVolume (withPolicy hosts host.name policy) v us).Visits (Function.update w₀ host.name s) w' →
      w' = Function.update w₀ host.name s) ∧
    ((deleteVolume (withPolicy hosts host.name policy) v us).run (Function.update w₀ host.name s)).1 ≠ .ok () := by
  have hhost' := hhost.withPolicy policy
  have hvalid := h₀.active.valid
  rcases h.found h₀ hsep hhost'.shared hus with ⟨-, -, hnot⟩ | ⟨vol, hsearch, hvol⟩
  · exact absurd hinterrupts hnot
  have hvolPolicy : reclaimPolicyOf vol.host.pvReclaimPolicy = .ok .delete := by rw [hvol.host, hpolicy]
  have hrefused := hvol.refuses hinterrupts
  rw [← deleteVolumeLocked_managed hvolPolicy (by decide) hvol.state hvol.shared] at hrefused
  constructor
  · intro w' hv
    obtain ⟨s', rfl, rfl⟩ := hhost'.visits_deleteVolume (C := (· = s)) hvalid rfl hsearch hvol.volname hvol.host hvol.shared
      (inv_mono (fun _ _ hf => hf.elim) hrefused) hv
    rfl
  · rw [hhost'.run_deleteVolume hvalid hsearch hvol.volname hvol.host hvol.shared]
    exact inv_never hrefused

end

/-- **Any policies before, one at the end.** The archive policy concludes the deletion unless it meets a spent tombstone, the
delete policy unless it meets an interrupted archive, which it leaves as it is. -/
theorem policies_conclude (h₀ : Stored t v (canon t v) m payload (w₀ host.name))
    (hkind : payload.isDir = decide (t = .subvol)) (hindexed : Indexed (w₀ host.name))
    (hint : OwnIntents t v (canon t v) m (w₀ host.name))
    (hsized : ∀ i e, Creating (w₀ host.name) v i → Expanding (w₀ host.name) v e → m.size = e.toSize)
    (hhost : HostedBy hosts host v w₀)
    (hattempts : Relation.ReflTransGen (Attempt hosts host v (canon t v) (w₀ host.name)) w₀ w)
    (hus : NewNames (w₀ host.name) us) :
    (∀ policy, reclaimPolicyOf policy = .ok .archive → ¬Spent (canon t v) (w host.name) →
      (deleteVolume (withPolicy hosts host.name policy) v us).succeeds
        (fun _ w' => Concluded v (canon t v) (w₀ host.name) (w' host.name)) w) ∧
    (∀ policy, reclaimPolicyOf policy = .ok .delete → ¬Interrupts v (canon t v) (w host.name) →
      (deleteVolume (withPolicy hosts host.name policy) v us).succeeds
        (fun _ w' => Concluded v (canon t v) (w₀ host.name) (w' host.name)) w) ∧
    ∀ policy, reclaimPolicyOf policy = .ok .delete → Interrupts v (canon t v) (w host.name) →
      (∀ w', (deleteVolume (withPolicy hosts host.name policy) v us).Visits w w' → w' = w) ∧
        ((deleteVolume (withPolicy hosts host.name policy) v us).run w).1 ≠ .ok () := by
  have hord : Orderly t v (canon t v) m (w₀ host.name) := ⟨fun _ _ => rfl, hsized⟩
  have hsep := separate_of_orderly h₀ hint hord
  obtain ⟨out, hout⟩ := scan_ok_iff.mpr h₀.scannable
  obtain ⟨lo, hlo⟩ := scan_reserves_committed hout ⟨canon t v, _, h₀.record, rfl, rfl, rfl⟩
  have hphase : ∃ s, w = Function.update w₀ host.name s ∧ Phase t v (canon t v) (w₀ host.name) s := by
    induction hattempts with
    | refl =>
      exact ⟨_, (Function.update_eq_self _ _).symm,
        .doomed ⟨.refl _, hindexed, .inl ⟨m, alive_of_stored h₀ hkind hint hord hout hlo⟩⟩⟩
    | tail _ hattempt ih =>
      obtain ⟨s, rfl, h⟩ := ih
      exact h.attempt h₀ hsep hhost hattempt
  obtain ⟨s, rfl, h⟩ := hphase
  rw [Function.update_self]
  exact ⟨fun policy hpolicy hspent => h.concludes h₀ hsep hhost hus hpolicy (.inl ⟨rfl, hspent⟩),
    fun policy hpolicy hnot => h.concludes h₀ hsep hhost hus hpolicy (.inr ⟨rfl, hnot⟩),
    fun policy hpolicy hinterrupts => h.refuses h₀ hsep hhost hus hpolicy hinterrupts⟩

end

end

end

section

attribute [local instance] sampleHash

/-- Every pool is the one of the volume `pvc-1`. -/
def loneWorld : World := fun _ => lonePool "pvc-1" (canon .subvol "pvc-1")

theorem loneWorld_stored : Stored .subvol "pvc-1" (canon .subvol "pvc-1") (loneMetadata "pvc-1" (canon .subvol "pvc-1")) lonePayload
    (loneWorld "pool") :=
  lonePool_stored (by decide +kernel) canon_mem

/-- An archive that moved its payload is refused under the delete policy; a tombstone that lost it fails under the archive
policy. -/
theorem changedPolicy_wedges :
    Stored .subvol "pvc-1" (canon .subvol "pvc-1") (loneMetadata "pvc-1" (canon .subvol "pvc-1")) lonePayload
      (loneWorld "pool") ∧
    (∃ w, (deleteVolume [archivingHost] "pvc-1" ["1"]).Visits loneWorld w ∧
      ((deleteVolume [deletingHost] "pvc-1" ["2"]).run w).1 ≠ .ok ()) ∧
    ∃ w, (deleteVolume [deletingHost] "pvc-1" ["1"]).Visits loneWorld w ∧
      ((deleteVolume [archivingHost] "pvc-1" ["2"]).run w).1 ≠ .ok () := by
  exact ⟨loneWorld_stored, ⟨_, after_visits 11 _ _, by decide +kernel⟩, _, after_visits 10 _ _, by decide +kernel⟩

/-- The pool after a crash of the archive policy. -/
def interruptedWorld : World :=
  (deleteVolume (withPolicy [deletingHost] "pool" (some "archive")) "pvc-1" ["1"]).after 11 loneWorld

theorem loneWorld_newNames {u : String} (hs : isSafePathComponent (ARCHIVE_PREFIX ++ u) = true)
    (hne : "pvc-1" ≠ ARCHIVE_PREFIX ++ u) :
    NewNames (loneWorld "pool") [u] := by
  have hfree : ∀ a, archivePath a ≠ canon .subvol "pvc-1" := fun a => archivePath_ne canon_mem
  refine ⟨by simp [archiveCandidates], fun a ha => ?_⟩
  obtain rfl : a = ARCHIVE_PREFIX ++ u := by simpa [archiveCandidates] using ha
  refine ⟨hs, AList.lookup_insert_ne (hfree _), AList.lookup_insert_ne (hfree _), fun p r hr => ?_, lonePool_idle⟩
  obtain ⟨m, hm, -⟩ := id hr
  obtain ⟨rfl, -⟩ := lookup_single hm
  rw [Record.functional hr loneWorld_stored.record]
  exact hne

/-- The archive policy concludes what the crash has left. -/
theorem interruptedArchive_concludes :
    Relation.ReflTransGen (Attempt [deletingHost] deletingHost "pvc-1" (canon .subvol "pvc-1") (loneWorld "pool")) loneWorld
      interruptedWorld ∧
    (deleteVolume (withPolicy [deletingHost] "pool" (some "archive")) "pvc-1" ["2"]).succeeds
      (fun _ w => Concluded "pvc-1" (canon .subvol "pvc-1") (loneWorld "pool") (w "pool")) interruptedWorld := by
  have hattempt : Attempt [deletingHost] deletingHost "pvc-1" (canon .subvol "pvc-1") (loneWorld "pool") loneWorld
      interruptedWorld := by
    refine ⟨some "archive", .archive, ["1"], rfl, fun _ ⟨m, _, _, hp⟩ => ?_,
      loneWorld_newNames (by decide +kernel) (by decide +kernel), after_visits 11 _ _⟩
    exact absurd (loneWorld_stored.payload.symm.trans hp) (Option.some_ne_none _)
  have hindexed : Indexed (loneWorld "pool") :=
    Indexed.insert (s := { loneWorld "pool" with rows := ∅ }) nofun (by decide)
  refine ⟨.single hattempt, (policies_conclude loneWorld_stored rfl hindexed
    ⟨fun i hi => absurd (.inl ⟨i, hi⟩) lonePool_idle, fun p e hp hv => absurd (.inr ⟨e, p, hp, hv⟩) lonePool_idle⟩
    (fun i e hi => absurd (.inl ⟨i, hi⟩) lonePool_idle)
    ⟨rfl, [], [], rfl, by simp⟩ (.single hattempt) (loneWorld_newNames (by decide +kernel) (by decide +kernel))).1 _ rfl ?_⟩
  rintro ⟨m, hm, hstate, -⟩
  have hnot : ((interruptedWorld "pool").metadata.lookup (canon .subvol "pvc-1")).any (·.state = some .deleting) = false := by
    decide +kernel
  rw [show (interruptedWorld "pool").metadata.lookup (canon .subvol "pvc-1") = some m from hm] at hnot
  simp [hstate] at hnot

end

end Kadalu
