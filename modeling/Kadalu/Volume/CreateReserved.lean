import Kadalu.Durable.CrashLogic
import Kadalu.Durable.Stepwise
import Kadalu.Pool.Rebuild
import Kadalu.Volume.Create
import Kadalu.Volume.Paths

/-!
# What a create may change

`CreateStep` is what one step of a create may do to the pool: reserve the request, make or change the payload and commit
the metadata while the reservation is there, and drop the reservation of committed metadata. `MayCreate` is when a create
may do anything at all; otherwise it raises and the pool stays as it is.

* `guarded_createSubdirVolume`, `inv_createSubdirVolume`: a subvolume is created so.
* `create_reserved`: a block volume too, unless its pending intent is for another size (`Mismatched`), which is not compared.
-/

namespace Kadalu

open Durable Durable.Prog Except

section Model

variable [VolnameHash] {t : PvType} {v : String} {p : Path} {n : Int} {s s' : Pool} {uuid : String} {i : CreationIntent}

/-! ## Reservations -/

/-- A durable create intent of this volume ID, type, path and size. -/
def Reserves (t : PvType) (v : String) (p : Path) (n : Int) (s : Pool) (i : CreationIntent) : Prop :=
  s.creations.lookup p = some i ∧ creationIntentMatches i v t p n = true

/-- What a step of a create may do. -/
inductive CreateStep (t : PvType) (v : String) (p : Path) (n : Int) (s : Pool) : Pool → Prop
  | same : CreateStep t v p n s s
  | reserve (i : CreationIntent) (hfresh : s.metadata.lookup p = none) (hnone : s.creations.lookup p = none)
    (hi : creationIntentMatches i v t p n = true) : CreateStep t v p n s { s with creations := s.creations.insert p i }
  | payload (i : CreationIntent) (x : Payload) (hfresh : s.metadata.lookup p = none) (hi : Reserves t v p n s i) :
    CreateStep t v p n s { s with payloads := s.payloads.insert p x }
  | commit (i : CreationIntent) (m : Metadata) (hfresh : s.metadata.lookup p = none) (hi : Reserves t v p n s i)
    (hsize : m.size = i.size) : CreateStep t v p n s { s with metadata := s.metadata.insert p m }
  | finish (m : Metadata) (hm : s.metadata.lookup p = some m) (hsize : m.size = n) :
    CreateStep t v p n s { s with creations := s.creations.erase p }

/-- When a create may change something or return: the volume is committed with this size, or reserved, or there is
nothing of it. -/
inductive MayCreate (t : PvType) (v : String) (n : Int) (s : Pool) : Prop
  | committed (p : Path) (m : Metadata) (hn : 0 < n) (hp : canonicalPath t v = .ok p) (hm : s.metadata.lookup p = some m)
    (hsize : m.size = n)
  | reserved (p : Path) (i : CreationIntent) (hn : 0 < n) (hp : canonicalPath t v = .ok p)
    (hfresh : s.metadata.lookup p = none) (hi : Reserves t v p n s i)
  | fresh (p : Path) (hn : 0 < n) (hp : canonicalPath t v = .ok p) (hfresh : s.metadata.lookup p = none)
    (hnone : s.creations.lookup p = none) (hpayload : s.payloads.lookup p = none)

/-- A create mutates only what it reserved: every step of every run, interrupted or not, is one that it may do, and where
it may do nothing it raises and changes nothing. -/
structure CreatesReserved (t : PvType) (v : String) (n : Int) (create : PoolProg Path) (s : Pool) : Prop where
  steps : ∀ q s₁ o q' s₂, create.Reaches s q s₁ → q.next o s₁ = some (q', s₂) →
    s₂ = s₁ ∨ ∃ p, canonicalPath t v = .ok p ∧ CreateStep t v p n s₁ s₂
  others : ¬MayCreate t v n s → ∀ q s₁, create.Reaches s q s₁ → s₁ = s ∧ ∀ a, q ≠ ret a

/-! ## Steps -/

section Steps

omit [VolnameHash]

variable {G : Pool → Pool → Prop}

theorem guarded_update {f : Pool → Except Err Pool} {Q : Unit → Pool → Prop} (hs : G s s)
    (h : ∀ s', f s = .ok s' → G s s' ∧ Q () s') : (update f).guarded G Q s := by
  cases hf : f s with
  | error e =>
    refine guarded_step (fun u hu => ?_) fun a ha => ?_
    · simp only [hf, error_bind, List.mem_cons, List.not_mem_nil, or_false, or_self] at hu
      exact hu ▸ hs
    · simp only [hf, error_bind] at ha
      cases ha
  | ok s' =>
    obtain ⟨hG, hQ⟩ := h s' hf
    refine guarded_step (fun u hu => ?_) fun a ha => ?_
    · simp only [hf, ok_bind, pure_eq_ok, List.mem_cons, List.not_mem_nil, or_false] at hu
      rcases hu with rfl | rfl
      · exact hs
      · exact hG
    · simpa only [hf, ok_bind, pure_eq_ok] using hQ

theorem guarded_fileStep {α : Type} {f : Pool → Except Err (α × Pool)} {Q : α → Pool → Prop} (hs : G s s)
    (h : ∀ a s', f s = .ok (a, s') → G s s' ∧ Q a s') : (fileStep f).guarded G Q s := by
  cases hf : f s with
  | error e =>
    refine guarded_step (fun u hu => ?_) fun a ha => ?_
    · simp only [hf, List.mem_cons, List.not_mem_nil, or_false, or_self] at hu
      exact hu ▸ hs
    · simp only [hf] at ha
      cases ha
  | ok x =>
    obtain ⟨hG, hQ⟩ := h x.1 x.2 hf
    refine guarded_step (fun u hu => ?_) fun a ha => ?_
    · simp only [hf, List.mem_cons, List.not_mem_nil, or_false] at hu
      rcases hu with rfl | rfl
      · exact hs
      · exact hG
    · simp only [hf] at ha ⊢
      cases ha
      exact hQ

/-! ## Creating under a reservation -/

/-- Reserved and not committed. -/
def Reserving (t : PvType) (v : String) (p : Path) (n : Int) (i : CreationIntent) (s : Pool) : Prop :=
  s.metadata.lookup p = none ∧ Reserves t v p n s i

theorem Reserving.size (h : Reserving t v p n i s) : i.size = n := by
  have := of_decide_eq_true h.2.2
  rw [this]
  rfl

/-- A file operation on the payload. -/
theorem guarded_payload {f : Pool → Except Err Pool} (h : Reserving t v p n i s)
    (hf : ∀ s', f s = .ok s' → s' = s ∨ ∃ x, s' = { s with payloads := s.payloads.insert p x }) :
    (update f).guarded (CreateStep t v p n) (fun _ => Reserving t v p n i) s := by
  refine guarded_update .same fun s' hs' => ?_
  rcases hf s' hs' with rfl | ⟨x, rfl⟩
  · exact ⟨.same, h⟩
  · exact ⟨.payload i x h.1 h.2, h⟩

theorem guarded_makeSubdir (h : Reserving t v p n i s) :
    (makeSubdir p).guarded (CreateStep t v p n) (fun _ => Reserving t v p n i) s := by
  refine guarded_payload h fun s' hs' => ?_
  split at hs' <;> cases hs'
  · exact .inl rfl
  · exact .inr ⟨_, rfl⟩

theorem guarded_setSimpleQuota (h : Reserving t v p n i s) :
    (setSimpleQuota p n).guarded (CreateStep t v p n) (fun _ => Reserving t v p n i) s := by
  refine guarded_payload h fun s' hs' => ?_
  split at hs' <;> cases hs'
  exact .inr ⟨_, rfl⟩

theorem guarded_openBacking (h : Reserving t v p n i s) :
    (openBacking p).guarded (CreateStep t v p n) (fun _ => Reserving t v p n i) s := by
  refine guarded_payload h fun s' hs' => ?_
  split at hs'
  · cases hs'
    exact .inr ⟨_, rfl⟩
  · split at hs' <;> cases hs'
    exact .inl rfl

theorem guarded_truncateBacking (h : Reserving t v p n i s) :
    (truncateBacking p n).guarded (CreateStep t v p n) (fun _ => Reserving t v p n i) s := by
  refine guarded_payload h fun s' hs' => ?_
  split at hs' <;> cases hs'
  exact .inr ⟨_, rfl⟩

theorem guarded_makeFilesystem (h : Reserving t v p n i s) :
    (makeFilesystem p).guarded (CreateStep t v p n) (fun _ => Reserving t v p n i) s := by
  refine guarded_step (fun u hu => ?_) fun _ _ => ?_
  · simp only [List.mem_cons, List.not_mem_nil, or_false] at hu
    rcases hu with rfl | rfl
    · exact .same
    · split
      · exact .same
      · exact .payload i _ h.1 h.2
  · split
    · exact h
    · exact h

/-- The metadata of this path has this size. -/
def CommittedAt (p : Path) (n : Int) (s : Pool) : Prop := ∃ m, s.metadata.lookup p = some m ∧ m.size = n

theorem guarded_savePvMetadata {o : Option String} (h : Reserving t v p n i s) :
    (savePvMetadata p n o uuid).guarded (CreateStep t v p n) (fun _ => CommittedAt p n) s := by
  have hwrite : ∀ m : Metadata, m.size = n →
      (writeMetadata p m).guarded (CreateStep t v p n) (fun _ => CommittedAt p n) s := by
    refine fun m hm => guarded_update .same fun s' hs' => ?_
    cases hs'
    exact ⟨.commit i m h.1 h.2 (hm.trans h.size.symm), m, AList.lookup_insert _, hm⟩
  unfold savePvMetadata
  dsimp only
  split
  · exact guarded_bind (guarded_ofExcept fun _ _ => guarded_bind (hwrite _ rfl))
  · exact guarded_bind (hwrite _ rfl)

end Steps

theorem guarded_finishVolumeCreation (h : CommittedAt p n s) :
    (update fun s => finishVolumeCreation s v t p i).guarded (CreateStep t v p n) (fun _ _ => True) s := by
  refine guarded_update .same fun s' hs' => ?_
  obtain ⟨m, hm, hsize⟩ := h
  rw [finishVolumeCreation_ok hs']
  exact ⟨.finish m hm hsize, trivial⟩

theorem guarded_commitCreation (h : Reserving t v p n i s) :
    (commitCreation v t p n i uuid).guarded (CreateStep t v p n) (fun _ _ => True) s :=
  guarded_bind (guarded_mono (fun _ _ h => guarded_finishVolumeCreation h) (guarded_savePvMetadata h))

/-! ## Finding committed metadata, or none -/

theorem readVolumeCreationIntent_some (h : readVolumeCreationIntent s v t p = .ok (some i)) :
    s.creations.lookup p = some i ∧ creationIntentMatches i v t p i.size = true := by
  unfold readVolumeCreationIntent at h
  split at h
  · cases h
  · next intent hl =>
    obtain ⟨-, -, h⟩ := bind_ok.mp h
    rw [throw_eq_error, ite_error_ok] at h
    obtain ⟨hm, h⟩ := h
    cases h
    exact ⟨hl, by simpa using hm⟩

theorem guarded_resumeCommitted {m : Metadata} {o : Option CreationIntent} (hm : s.metadata.lookup p = some m) :
    (resumeCommitted v t p n m o).guarded (CreateStep t v p n) (fun _ _ => True) s := by
  refine guarded_bind (guarded_ofExcept fun _ hvalid => guarded_bind (guarded_read .same fun _ _ => ?_))
  have hsize : m.size = n := by
    unfold validateBlockMetadata at hvalid
    rw [throw_eq_error, ite_error_ok, not_or, not_not] at hvalid
    exact hvalid.1.1
  cases o with
  | none => exact guarded_pure trivial
  | some intent =>
    dsimp only
    split
    · exact guarded_throw
    · exact guarded_bind (guarded_ofExcept fun _ _ => guarded_finishVolumeCreation ⟨m, hm, hsize⟩)

/-- The reservation that a create has found or made. The size of a block volume's intent is not compared. -/
theorem guarded_authorizeCreation {o : Option CreationIntent} (hfresh : s.metadata.lookup p = none)
    (hread : readVolumeCreationIntent s v t p = .ok o) (hsize : ∀ i, o = some i → t ≠ .subvol → i.size = n) :
    (authorizeCreation v t p n o uuid).guarded (CreateStep t v p n) (fun i => Reserving t v p n i) s := by
  refine guarded_bind (guarded_read .same fun _ _ => ?_)
  cases o with
  | none =>
    have hnone := readVolumeCreationIntent_none hread
    dsimp only
    split
    · exact guarded_throw
    · refine guarded_fileStep .same fun i s' hs' => ?_
      obtain ⟨-, rfl, rfl⟩ := prepareVolumeCreation_new hnone hs'
      have hi : creationIntentMatches (volumeCreationIntent v t p n (some uuid)) v t p n = true := decide_eq_true rfl
      exact ⟨.reserve _ hfresh hnone hi, hfresh, AList.lookup_insert _, hi⟩
  | some intent =>
    obtain ⟨hlookup, hmatch⟩ := readVolumeCreationIntent_some hread
    dsimp only
    split
    · exact guarded_throw
    · next hsub =>
      refine guarded_pure ⟨hfresh, hlookup, ?_⟩
      by_cases ht : t = .subvol
      · simpa [ht] using hsub
      · rwa [hsize intent rfl ht] at hmatch

/-! ## The steps of a create -/

section

variable (hp : canonicalPath t v = .ok p)

include hp

theorem guarded_createBlockVolume (uuid : String)
    (hsize : ∀ i, s.metadata.lookup p = none → readVolumeCreationIntent s v t p = .ok (some i) → i.size = n) :
    (createBlockVolume t v n uuid).guarded (CreateStep t v p n) (fun _ _ => True) s := by
  unfold createBlockVolume
  refine guarded_guard fun _ => guarded_guard fun _ => guarded_bind (guarded_ofExcept fun q hq => ?_)
  cases hp.symm.trans hq
  refine guarded_bind (guarded_read .same fun metadata hm => guarded_bind (guarded_read .same fun intent hi => ?_))
  cases hm
  cases hfresh : s.metadata.lookup p with
  | some m => exact guarded_bind (guarded_mono (fun _ _ _ => guarded_pure trivial) (guarded_resumeCommitted hfresh))
  | none =>
    have hread : ∀ i, intent = some i → t ≠ .subvol → i.size = n := by
      rintro i rfl -
      exact hsize i hfresh hi
    refine guarded_bind (guarded_mono (fun i s₁ h₁ => ?_) (guarded_authorizeCreation hfresh hi hread))
    refine guarded_bind (guarded_mono (fun _ s₂ h₂ => ?_) (guarded_openBacking h₁))
    refine guarded_bind (guarded_mono (fun _ s₃ h₃ => ?_) (guarded_truncateBacking h₂))
    refine guarded_when (guarded_makeFilesystem h₃) (fun _ s₄ h₄ => ?_) h₃
    exact guarded_bind (guarded_mono (fun _ _ _ => guarded_pure trivial) (guarded_commitCreation h₄))

end

theorem guarded_createSubdirVolume {quota save : Bool} (hp : canonicalPath .subvol v = .ok p) :
    (createSubdirVolume v n quota save uuid).guarded (CreateStep .subvol v p n) (fun _ _ => True) s := by
  unfold createSubdirVolume
  refine guarded_guard fun _ => guarded_bind (guarded_ofExcept fun q hq => ?_)
  cases hp.symm.trans hq
  refine guarded_bind (guarded_read .same fun metadata hm => guarded_bind (guarded_read .same fun intent hi => ?_))
  cases hm
  cases hfresh : s.metadata.lookup p with
  | some m => exact guarded_bind (guarded_mono (fun _ _ _ => guarded_pure trivial) (guarded_resumeCommitted hfresh))
  | none =>
    have hread : ∀ i, intent = some i → PvType.subvol ≠ .subvol → i.size = n := fun _ _ h => absurd rfl h
    refine guarded_bind (guarded_mono (fun i s₁ h₁ => ?_) (guarded_authorizeCreation hfresh hi hread))
    refine guarded_bind (guarded_mono (fun _ s₂ h₂ => ?_) (guarded_makeSubdir h₁))
    split
    · refine guarded_bind (guarded_mono (fun _ s₃ h₃ => ?_) (guarded_setSimpleQuota h₂))
      refine guarded_when (P := fun _ _ => True) (guarded_commitCreation h₃) (fun _ _ _ => guarded_pure trivial) trivial
    · exact guarded_pure trivial

/-! ## Where a create may do nothing -/

/-- A run that ends with an exception and leaves the pool as it is. -/
def Refuses {α : Type} (create : PoolProg α) (s : Pool) : Prop := create.inv (· = s) (fun _ _ => False) s

section Refuses

omit [VolnameHash]

variable {α β : Type} {create : PoolProg α}

theorem Refuses.reaches {s₁ : Pool} {q : PoolProg α} (h : Refuses create s) (hr : create.Reaches s q s₁) :
    s₁ = s ∧ ∀ a, q ≠ ret a := by
  obtain ⟨rfl, hq⟩ := wpc_reaches (C := (· = s)) rfl h hr
  refine ⟨rfl, ?_⟩
  rintro a rfl
  exact hq

theorem refuses_throw (e : Err) : Refuses (throw e : PoolProg α) s := inv_raise (C := (· = s)) rfl

theorem refuses_first {g : α → PoolProg β} (h : Refuses create s) : Refuses (create >>= g) s :=
  inv_bind (inv_mono (fun _ _ h => h.elim) h)

theorem refuses_ofExcept {r : Except Err α} {g : α → PoolProg β} (h : ∀ a, r = .ok a → Refuses (g a) s) :
    Refuses (Prog.ofExcept r >>= g) s :=
  inv_bind (inv_ofExcept (C := (· = s)) rfl h)

theorem refuses_read {r : Pool → Except Err α} {g : α → PoolProg β} (h : ∀ a, r s = .ok a → Refuses (g a) s) :
    Refuses (readPool r >>= g) s :=
  inv_bind (inv_read (C := (· = s)) rfl h)

theorem refuses_guard {c : Prop} {_ : Decidable c} {e : Err} {rest : PUnit → PoolProg α} (h : ¬c → Refuses (rest ⟨⟩) s) :
    Refuses (if c then throw e >>= rest else rest ⟨⟩) s := by
  split
  · exact refuses_first (refuses_throw e)
  · exact h ‹_›

theorem refuses_update {f : Pool → Except Err Pool} {e : Err} {g : Unit → PoolProg α} (hf : f s = .error e) :
    Refuses (update f >>= g) s := by
  refine refuses_first (inv_step (C := (· = s)) (fun u hu => ?_) fun _ ha => ?_)
  · simpa [hf] using hu
  · simp only [hf, error_bind] at ha
    cases ha

end Refuses

theorem refuses_resumeCommitted {m : Metadata} {o : Option CreationIntent} (hsize : m.size ≠ n) :
    Refuses (resumeCommitted v t p n m o) s := by
  refine refuses_ofExcept fun _ hvalid => ?_
  unfold validateBlockMetadata at hvalid
  rw [if_pos (.inl hsize)] at hvalid
  cases hvalid

theorem refuses_authorizeCreation {o : Option CreationIntent} {g : CreationIntent → PoolProg Path}
    (hread : readVolumeCreationIntent s v t p = .ok o)
    (hnone : o = none → s.payloads.lookup p ≠ none)
    (hsome : ∀ i, o = some i → t = .subvol ∧ creationIntentMatches i v t p n = false) :
    Refuses (authorizeCreation v t p n o uuid >>= g) s := by
  refine refuses_first (refuses_read fun found hfound => ?_)
  cases o with
  | none =>
    have hsomething : (s.payloads.lookup p).isSome = true := Option.isSome_iff_ne_none.mpr (hnone rfl)
    cases hfound
    dsimp only
    rw [if_pos hsomething]
    exact refuses_throw _
  | some i =>
    obtain ⟨ht, hmatch⟩ := hsome i rfl
    dsimp only
    rw [if_pos ⟨ht, by rw [hmatch]; rfl⟩]
    exact refuses_throw _

theorem refuses_createSubdirVolume {quota save : Bool} (h : ¬MayCreate .subvol v n s) :
    Refuses (createSubdirVolume v n quota save uuid) s := by
  unfold createSubdirVolume
  refine refuses_guard fun hn => refuses_ofExcept fun p hp => refuses_read fun metadata hm => refuses_read fun o hread => ?_
  have hn : 0 < n := by omega
  cases hm
  cases hfresh : s.metadata.lookup p with
  | some m => exact refuses_first (refuses_resumeCommitted fun hsize => h (.committed p m hn hp hfresh hsize))
  | none =>
    refine refuses_authorizeCreation hread ?_ ?_
    · rintro rfl hpayload
      exact h (.fresh p hn hp hfresh (readVolumeCreationIntent_none hread) hpayload)
    · rintro i rfl
      refine ⟨rfl, Bool.eq_false_iff.mpr fun hmatch => ?_⟩
      exact h (.reserved p i hn hp hfresh ⟨(readVolumeCreationIntent_some hread).1, hmatch⟩)

/-- A pending create of a block volume for another size than the one asked for, whose backing file can be opened. -/
structure Mismatched (t : PvType) (v : String) (n : Int) (s : Pool) (p : Path) (i : CreationIntent) : Prop where
  block : t ≠ .subvol
  positive : 0 < n
  path : canonicalPath t v = .ok p
  fresh : s.metadata.lookup p = none
  pending : readVolumeCreationIntent s v t p = .ok (some i)
  size : i.size ≠ n
  backing : ∀ x, s.payloads.lookup p = some x → x.isDir = false

theorem refuses_createBlockVolume (h : ¬MayCreate t v n s) (hsize : ∀ p i, ¬Mismatched t v n s p i) :
    Refuses (createBlockVolume t v n uuid) s := by
  unfold createBlockVolume
  refine refuses_guard fun ht => refuses_guard fun hn => refuses_ofExcept fun p hp => refuses_read fun metadata hm =>
    refuses_read fun o hread => ?_
  have hn : 0 < n := by omega
  cases hm
  cases hfresh : s.metadata.lookup p with
  | some m => exact refuses_first (refuses_resumeCommitted fun hsize => h (.committed p m hn hp hfresh hsize))
  | none =>
    cases o with
    | none =>
      refine refuses_authorizeCreation hread (fun _ hpayload => ?_) nofun
      exact h (.fresh p hn hp hfresh (readVolumeCreationIntent_none hread) hpayload)
    | some i =>
      obtain ⟨hlookup, hmatch⟩ := readVolumeCreationIntent_some hread
      have hne : i.size ≠ n := fun hi => h (.reserved p i hn hp hfresh ⟨hlookup, hi ▸ hmatch⟩)
      have hdir : ∃ x, s.payloads.lookup p = some x ∧ x.isDir = true := by
        by_contra hno
        refine hsize p i ⟨ht, hn, hp, hfresh, hread, hne, fun x hx => ?_⟩
        exact Bool.eq_false_iff.mpr fun hd => hno ⟨x, hx, hd⟩
      obtain ⟨x, hx, hd⟩ := hdir
      refine inv_bind (inv_mono (Q := fun _ t => t = s) (fun j s' hs' => ?_) ?_)
      · subst hs'
        exact refuses_update (e := .os) (by simp only [hx, hd, if_true, throw_eq_error])
      · refine inv_bind (inv_read (C := (· = s)) rfl fun _ _ => ?_)
        dsimp only
        split
        · exact inv_raise (C := (· = s)) rfl
        · exact inv_ret rfl

/-! ## A pending intent of another size -/

/-- The backing file is there and the intents are those of `s`. -/
def Opened (s : Pool) (p : Path) (u : Pool) : Prop := u.creations = s.creations ∧ ∃ x, u.payloads.lookup p = some x

omit [VolnameHash] in
theorem succeeds_update {f : Pool → Except Err Pool} {Q : Unit → Pool → Prop} (s' : Pool) (hf : f s = .ok s')
    (hQ : Q () s') : (update f).succeeds Q s :=
  succeeds_step (a := ()) (by simp only [hf, ok_bind, pure_eq_ok]) (by simpa only [hf, ok_bind, pure_eq_ok] using hQ)

/-- The create goes through, with the size that is asked for. -/
theorem Mismatched.succeeds (uuid : String) (h : Mismatched t v n s p i) : (createBlockVolume t v n uuid).succeeds (fun _ _ => True) s := by
  obtain ⟨ht, hn, hp, hfresh, hread, -, hback⟩ := h
  have hneg : ¬n ≤ 0 := by omega
  unfold createBlockVolume
  rw [if_neg ht, if_neg hneg, hp]
  refine succeeds_bind (succeeds_pure (a := p) (succeeds_bind (succeeds_read rfl (succeeds_bind (succeeds_read hread ?_)))))
  rw [hfresh]
  have hauth : (authorizeCreation v t p n (some i) uuid).succeeds (fun j u => j = i ∧ u = s) s := by
    refine succeeds_bind (succeeds_read rfl ?_)
    dsimp only
    rw [if_neg fun hsub => ht hsub.1]
    exact succeeds_pure ⟨rfl, rfl⟩
  refine succeeds_bind (succeeds_mono ?_ hauth)
  rintro j u ⟨hj, hu⟩
  rw [hj, hu]
  have hopen : (openBacking p).succeeds (fun _ u => Opened s p u) s := by
    cases hx : s.payloads.lookup p with
    | none =>
      exact succeeds_update { s with payloads := s.payloads.insert p { isDir := false } } (by simp only [hx, pure_eq_ok])
        ⟨rfl, _, AList.lookup_insert _⟩
    | some x =>
      exact succeeds_update s (by simp only [hx, hback x hx, Bool.false_eq_true, if_false, pure_eq_ok]) ⟨rfl, x, hx⟩
  refine succeeds_bind (succeeds_mono ?_ hopen)
  rintro _ u₁ ⟨hc₁, x₁, hx₁⟩
  have htrunc : (truncateBacking p n).succeeds (fun _ u => Opened s p u) u₁ :=
    succeeds_update { u₁ with payloads := u₁.payloads.insert p { x₁ with length := n } } (by simp only [hx₁, pure_eq_ok])
      ⟨hc₁, _, AList.lookup_insert _⟩
  refine succeeds_bind (succeeds_mono ?_ htrunc)
  rintro _ u₂ ⟨hc₂, x₂, hx₂⟩
  have hcommit : ∀ u, Opened s p u → (do commitCreation v t p n i uuid; pure p : PoolProg Path).succeeds (fun _ _ => True) u := by
    rintro u ⟨hc, -⟩
    refine succeeds_bind ?_
    unfold commitCreation
    have hsave : (savePvMetadata p n i.incarnation uuid).succeeds (fun _ u => u.creations = s.creations) u := by
      obtain ⟨hv, rfl⟩ := canonicalPath_ok.mp hp
      have hwrite : ∀ m, (writeMetadata (canon t v) m).succeeds (fun _ u => u.creations = s.creations) u := fun m =>
        succeeds_update _ rfl hc
      unfold savePvMetadata
      dsimp only
      rw [basename_canon, startsWith_component]
      split
      · next hr =>
        rw [volumeNameFromComponent_component hv (by simpa using hr)]
        exact succeeds_bind (succeeds_pure (a := v) (succeeds_bind (succeeds_pure (a := some v) (hwrite _))))
      · exact succeeds_bind (succeeds_pure (a := none) (hwrite _))
    refine succeeds_bind (succeeds_mono (fun _ u' hu' => ?_) hsave)
    have hfinish : readVolumeCreationIntent u' v t p = .ok (some i) := by
      unfold readVolumeCreationIntent
      rw [hu']
      exact hread
    refine succeeds_update { u' with creations := u'.creations.erase p } ?_ (succeeds_pure trivial)
    simp only [finishVolumeCreation, hfinish, ok_bind, ne_eq, not_true_eq_false, if_false, pure_eq_ok]
  split
  · have hmkfs : (makeFilesystem p).succeeds (fun _ u => Opened s p u) u₂ :=
      succeeds_step (a := ()) (by simp only [hx₂]) (by simp only [hx₂]; exact ⟨hc₂, _, AList.lookup_insert _⟩)
    exact succeeds_bind (succeeds_mono (fun _ u₃ h₃ => hcommit u₃ h₃) hmkfs)
  · exact hcommit u₂ ⟨hc₂, x₂, hx₂⟩

/-! ## Creates -/

theorem creates_of_refuses {create : PoolProg Path} (h : Refuses create s) : CreatesReserved t v n create s where
  steps _ _ _ _ _ hr hn := by
    obtain ⟨rfl, hq⟩ := wpc_reaches (C := (· = s)) rfl h hr
    exact .inl (wpc_next hq hn).1
  others _ _ _ hr := h.reaches hr

theorem creates_of_guarded {create : PoolProg Path} (hp : canonicalPath t v = .ok p)
    (h : create.guarded (CreateStep t v p n) (fun _ _ => True) s) (hrefuse : ¬MayCreate t v n s → Refuses create s) :
    CreatesReserved t v n create s where
  steps _ _ _ _ _ hr hn := .inr ⟨p, hp, (guarded_next (guarded_reaches h hr) hn).1⟩
  others hno _ _ hr := (hrefuse hno).reaches hr

/-- A create of a volume ID without a path raises. -/
theorem not_mayCreate {e : Err} (hp : canonicalPath t v = .error e) : ¬MayCreate t v n s := by
  rintro (⟨p, m, -, hok, -⟩ | ⟨p, i, -, hok, -⟩ | ⟨p, -, hok, -⟩) <;> rw [hp] at hok <;> cases hok

theorem creates_subdirVolume {quota save : Bool} : CreatesReserved .subvol v n (createSubdirVolume v n quota save uuid) s := by
  cases hp : canonicalPath .subvol v with
  | error e => exact creates_of_refuses (refuses_createSubdirVolume (not_mayCreate hp))
  | ok p => exact creates_of_guarded hp (guarded_createSubdirVolume hp) refuses_createSubdirVolume

/-- A create that may do something has no pending intent of another size. -/
theorem MayCreate.size (h : MayCreate t v n s) (hp : canonicalPath t v = .ok p) (hfresh : s.metadata.lookup p = none)
    (hread : readVolumeCreationIntent s v t p = .ok (some i)) : i.size = n := by
  obtain ⟨hlookup, -⟩ := readVolumeCreationIntent_some hread
  rcases h with ⟨q, m, -, hok, hm, -⟩ | ⟨q, j, -, hok, -, hj⟩ | ⟨q, -, hok, -, hnone, -⟩
  · cases hp.symm.trans hok
    rw [hfresh] at hm
    cases hm
  · cases hp.symm.trans hok
    cases hlookup.symm.trans hj.1
    exact Reserving.size ⟨hfresh, hj⟩
  · cases hp.symm.trans hok
    rw [hlookup] at hnone
    cases hnone

theorem creates_blockVolume (h : ∀ p i, ¬Mismatched t v n s p i) :
    CreatesReserved t v n (createBlockVolume t v n uuid) s := by
  by_cases hmay : MayCreate t v n s
  · cases hp : canonicalPath t v with
    | error e => exact absurd hmay (not_mayCreate hp)
    | ok p =>
      have hguard := guarded_createBlockVolume hp uuid fun i hfresh hread => hmay.size hp hfresh hread
      exact creates_of_guarded hp hguard fun hno => absurd hmay hno
  · exact creates_of_refuses (refuses_createBlockVolume hmay h)

/-- **What a create mutates.** A create of a subvolume, and a create of a block volume, mutate only what they reserved:
exactly unless the block volume has a pending create intent of another size. -/
theorem create_reserved : ((∀ quota save, CreatesReserved .subvol v n (createSubdirVolume v n quota save uuid) s) ∧
    CreatesReserved t v n (createBlockVolume t v n uuid) s) ↔ ∀ p i, ¬Mismatched t v n s p i := by
  refine ⟨fun h p i hmis => ?_, fun h => ⟨fun _ _ => creates_subdirVolume, creates_blockVolume h⟩⟩
  obtain ⟨a, ha, -⟩ := hmis.succeeds uuid
  have hreach := run_reaches (createBlockVolume t v n uuid) s
  rw [ha] at hreach
  exact (h.2.others (fun hmay => hmis.size (hmay.size hmis.path hmis.fresh hmis.pending)) _ _ hreach).2 a rfl

end Model

/-! ## A sample -/

attribute [local instance] sampleHash

/-- A raw block volume reserved with ten bytes. -/
def reservedTen : Pool :=
  { creations := AList.singleton (canon .rawblock "pvc-1") (volumeCreationIntent "pvc-1" .rawblock (canon .rawblock "pvc-1") 10 none) }

theorem reservedTen_mismatched : Mismatched .rawblock "pvc-1" 20 reservedTen (canon .rawblock "pvc-1")
    (volumeCreationIntent "pvc-1" .rawblock (canon .rawblock "pvc-1") 10 none) where
  block := by decide
  positive := by decide
  path := canonicalPath_eq (by decide)
  fresh := rfl
  pending := by decide +kernel
  size := by decide
  backing _ h := nomatch h

/-- The volume that is created under it has twenty bytes. -/
theorem reservedTen_exceeded : ¬CreatesReserved .rawblock "pvc-1" 20 (createBlockVolume .rawblock "pvc-1" 20 "u") reservedTen := by
  intro h
  obtain ⟨a, ha, -⟩ := reservedTen_mismatched.succeeds "u"
  have hreach := run_reaches (createBlockVolume .rawblock "pvc-1" 20 "u") reservedTen
  rw [ha] at hreach
  exact (h.others (fun hmay => reservedTen_mismatched.size (hmay.size reservedTen_mismatched.path rfl
    reservedTen_mismatched.pending)) _ _ hreach).2 a rfl

end Kadalu
