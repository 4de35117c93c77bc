import Kadalu.Driver.CreateVolume
import Kadalu.Pool.Rebuild

/-!
# Selection of a pool

`mountAndSelectHostingVolume` tries the shared pools in order. A pool that cannot be checked is passed over, and its failure is
kept; an exception of the admission itself ends the search.

* `mountAndSelectHostingVolume_eq`: the search as one check after the other (`checkPool`), its failures under the names of their
  pools.
* `selects_of_run`: what every run of the search ends with, read off the verdicts of its checks, and that the pools it does not
  select gain nothing for the volume.
* `conflict_ends`: a run in which the conflict on one pool ends the search before a pool that would admit the volume.
-/

namespace Kadalu

open Durable Durable.Prog Except

section

variable [VolnameHash]

/-! ## The search by checks -/

/-- What the check of one pool says. -/
inductive Verdict where
  | admitted
  | full
  | unavailable (e : Err)
  deriving DecidableEq, Repr

/-- What the search keeps of a check. -/
def Verdict.failure (hvol : String) : Verdict → Option (String × Err)
  | unavailable e => some (hvol, e)
  | _ => none

/-- What the search ends with; `failed` is `HostingVolumeSelectionError`. -/
inductive Selection where
  | pool (hvol : String)
  | exhausted
  | failed (failures : List (String × Err))
  deriving DecidableEq, Repr

/-- The three stages of the check of a pool. -/
def checkPool (requiredSize : Int) (volumeId : String) (pvtype : PvType) (uuid : String) (hvol : String) :
    WorldProg Verdict := do
  match ← SelectionStage.mount.check (Prog.read mountErr fun _ => pure ()) with
  | .error e => pure (.unavailable e)
  | .ok () =>
    match ← SelectionStage.stat.check (Prog.read Err.isOs fun _ => pure ()) with
    | .error e => pure (.unavailable e)
    | .ok () =>
      match ← SelectionStage.capacity.check (onPool hvol (admitStep volumeId pvtype requiredSize uuid)) with
      | .error e => pure (.unavailable e)
      | .ok true => pure .admitted
      | .ok false => pure .full

/-- The search over the pools that are left, with the failures so far. -/
def selectHostingVolume (requiredSize : Int) (volumeId : String) (pvtype : PvType) (uuid : String) :
    List HostVol → List (String × Err) → WorldProg Selection
  | [], failures => pure (if failures.isEmpty then .exhausted else .failed failures)
  | volume :: volumes, failures =>
    if volume.singlePvPerPool then selectHostingVolume requiredSize volumeId pvtype uuid volumes failures
    else do
      match ← checkPool requiredSize volumeId pvtype uuid volume.name with
      | .admitted => pure (.pool volume.name)
      | .full => selectHostingVolume requiredSize volumeId pvtype uuid volumes failures
      | .unavailable e => selectHostingVolume requiredSize volumeId pvtype uuid volumes (failures ++ [(volume.name, e)])

/-- The return value or the exception of a selection. -/
def Selection.result : Selection → WorldProg (Option String)
  | pool hvol => pure (some hvol)
  | exhausted => pure none
  | failed failures => throw (.command (selectionReturnCode (failures.map Prod.snd).reverse))

variable {n : Int} {v uuid : String} {t : PvType} {volumes : List HostVol} {failures : List (String × Err)}

/-- The search and the source agree. -/
theorem mountAndSelectHostingVolume_eq : mountAndSelectHostingVolume n v t uuid volumes (failures.map Prod.snd).reverse =
    selectHostingVolume n v t uuid volumes failures >>= Selection.result := by
  induction volumes generalizing failures with
  | nil =>
    cases failures with
    | nil => rfl
    | cons f fs => simp [mountAndSelectHostingVolume, selectHostingVolume, Selection.result, andThen]
  | cons volume volumes ih =>
    rw [mountAndSelectHostingVolume, selectHostingVolume]
    split
    · exact ih
    · have hnext : ∀ e, mountAndSelectHostingVolume n v t uuid volumes (e :: (failures.map Prod.snd).reverse) =
          selectHostingVolume n v t uuid volumes (failures ++ [(volume.name, e)]) >>= Selection.result := by
        intro e
        rw [← ih, List.map_append, List.reverse_append]
        rfl
      simp only [checkPool, bind_eq, andThen_assoc]
      refine congrArg (andThen _) (funext fun r => ?_)
      rcases r with e | e | _
      · rfl
      · exact hnext e
      · simp only [onOk_ok, andThen_assoc]
        refine congrArg (andThen _) (funext fun r => ?_)
        rcases r with e | e | _
        · rfl
        · exact hnext e
        · simp only [onOk_ok, andThen_assoc]
          refine congrArg (andThen _) (funext fun r => ?_)
          rcases r with e | e | _ | _
          · rfl
          · exact hnext e
          · exact ih
          · rfl

/-! ## What a check does -/

/-- The verdict of the check of a pool that finds the world `w` and leaves the world `w'`. -/
inductive Checked (n : Int) (v : String) (t : PvType) (uuid hvol : String) (w : World) : Verdict → World → Prop
  | admitted {s : Pool} : admitVolumeCreation (w hvol) (w hvol).capacity v t n uuid = .ok (true, s) →
      Checked n v t uuid hvol w .admitted (Function.update w hvol s)
  | full {s : Pool} : admitVolumeCreation (w hvol) (w hvol).capacity v t n uuid = .ok (false, s) →
      Checked n v t uuid hvol w .full (Function.update w hvol s)
  | unavailable {stage : SelectionStage} {e : Err} : stage.skips e = true → Checked n v t uuid hvol w (.unavailable e) w

/-- An exception of the admission on a pool, which no stage of the check skips. -/
def Escapes (hvol : String) (w : World) (e : Err) (w' : World) : Prop :=
  SelectionStage.capacity.skips e = false ∧ ∀ h, h ≠ hvol → w' h = w h

variable {hvol : String} {w w' : World}

omit [VolnameHash] in
theorem wpc_check {α : Type} {stage : SelectionStage} {p : WorldProg α} {Q : Except Err (Except Err α) → World → Prop}
    {P : Except Err α → World → Prop} (h : p.wpc (fun _ => True) P w) (hok : ∀ a w', P (.ok a) w' → Q (.ok (.ok a)) w')
    (hskip : ∀ e w', stage.skips e = true → P (.error e) w' → Q (.ok (.error e)) w')
    (hraise : ∀ e w', stage.skips e = false → P (.error e) w' → Q (.error e) w') :
    (stage.check p).wpc (fun _ => True) Q w := by
  refine wpc_andThen.mpr (wpc_andThen.mpr (wpc_mono (fun _ h => h) (fun r w' hr => ?_) h))
  cases r with
  | ok a => exact hok a w' hr
  | error e =>
    show wpc (fun _ => True) Q (if stage.skips e then pure (.error e) else throw e) w'
    cases he : stage.skips e with
    | true => exact hskip e w' he hr
    | false => exact hraise e w' he hr

omit [VolnameHash] in
/-- A step that only probes a pool, under a stage that skips all its exceptions. -/
theorem wpc_probe {stage : SelectionStage} {errs : Err → Bool} {Q : Except Err (Except Err Unit) → World → Prop}
    (hskips : ∀ e, errs e = true → stage.skips e = true) (hok : Q (.ok (.ok ())) w)
    (herr : ∀ e, stage.skips e = true → Q (.ok (.error e)) w) :
    (stage.check (Prog.read errs fun _ => pure ())).wpc (fun _ => True) Q w := by
  have hread : (Prog.read errs fun _ => pure () : WorldProg Unit).wpc (fun _ => True) (fun r w' => w' = w ∧ match r with
      | .ok _ => True
      | .error e => errs e = true) w := by
    refine ⟨⟨trivial, rfl, trivial⟩, fun e he w' hw' => ⟨trivial, ?_, he⟩⟩
    simpa using hw'
  refine wpc_check hread ?_ ?_ ?_
  · rintro ⟨⟩ w' ⟨rfl, -⟩
    exact hok
  · rintro e w' he ⟨rfl, -⟩
    exact herr e he
  · rintro e w' he ⟨rfl, herrs⟩
    rw [hskips e herrs] at he
    cases he

/-- What the admission of a volume on the pool `s` ends with; an exception that skips the pool leaves it as it was. -/
def Admits (n : Int) (v : String) (t : PvType) (uuid : String) (s : Pool) : Except Err Bool → Pool → Prop
  | .ok b, s' => admitVolumeCreation s s.capacity v t n uuid = .ok (b, s')
  | .error e, s' => SelectionStage.capacity.skips e = true → s' = s

theorem wpc_admitStep {s : Pool} : (admitStep v t n uuid).wpc (fun _ => True) (Admits n v t uuid s) s := by
  refine wpc_andThen.mpr ⟨⟨trivial, ?_⟩, fun e he s' hs' => ⟨trivial, fun _ => by simpa using hs'⟩⟩
  show (transaction (fun s => admitVolumeCreation s s.capacity v t n uuid) dbErr).wpc (fun _ => True) (Admits n v t uuid s) s
  refine ⟨⟨trivial, wpc_ofExcept.mpr ?_⟩, fun e he s' _ => ⟨trivial, fun hskip => ?_⟩⟩
  · cases hadmits : admitVolumeCreation s s.capacity v t n uuid with
    | ok r =>
      simp only [hadmits]
      exact hadmits
    | error e =>
      simp only [hadmits]
      exact fun _ => rfl
  · -- the exceptions of SQLite within the transaction skip no pool
    cases of_decide_eq_true hskip
    cases he

theorem wpc_checkPool : (checkPool n v t uuid hvol).wpc (fun _ => True) (fun r w' => match r with
    | .ok verdict => Checked n v t uuid hvol w verdict w'
    | .error e => Escapes hvol w e w') w := by
  refine wpc_andThen.mpr (wpc_probe (fun e he => he) ?_ fun e he => .unavailable he)
  refine wpc_andThen.mpr (wpc_probe (fun e he => he) ?_ fun e he => .unavailable he)
  have hadmits : (onPool hvol (admitStep v t n uuid)).wpc (fun _ => True)
      (fun r w' => ∃ s, w' = Function.update w hvol s ∧ Admits n v t uuid (w hvol) r s) w := by
    have hstep : (onPool hvol (admitStep v t n uuid)).wpc (fun _ => True)
        (fun r w' => ∃ s, w' = Function.update w hvol s ∧ Admits n v t uuid (w hvol) r s)
        (Function.update w hvol (w hvol)) :=
      wpc_focus (wpc_mono (fun _ h => h) (fun r s hs => ⟨s, rfl, hs⟩) wpc_admitStep)
    rwa [Function.update_eq_self] at hstep
  refine wpc_andThen.mpr (wpc_check hadmits ?_ ?_ ?_)
  · rintro b w' ⟨s, rfl, hs⟩
    cases b with
    | true => exact .admitted hs
    | false => exact .full hs
  · rintro e w' he ⟨s, rfl, hs⟩
    rw [hs he, Function.update_eq_self]
    exact .unavailable he
  · rintro e w' he ⟨s, rfl, -⟩
    exact ⟨he, fun h hne => Function.update_of_ne hne s w⟩

/-! ## What a search ends with -/

/-- The pools that may be shared by volumes. -/
def sharedPools (volumes : List HostVol) : List HostVol := volumes.filter (!·.singlePvPerPool)

/-- Checks of pools one after the other, from the world `w` to the world `w'`. -/
inductive Searched (n : Int) (v : String) (t : PvType) (uuid : String) : World → List (HostVol × Verdict) → World → Prop
  | nil {w : World} : Searched n v t uuid w [] w
  | cons {w w₁ w' : World} {volume : HostVol} {verdict : Verdict} {checks : List (HostVol × Verdict)} :
      Checked n v t uuid volume.name w verdict w₁ → Searched n v t uuid w₁ checks w' →
      Searched n v t uuid w ((volume, verdict) :: checks) w'

/-- The failures of a list of checks, in their order. -/
def failuresOf (checks : List (HostVol × Verdict)) : List (String × Err) := checks.filterMap fun c => c.2.failure c.1.name

/-- The ends of a search of `volumes` from the world `w`, with the failures of the pools before them:

* the first shared pool that admits the volume,
* no pool, when all shared pools are full,
* all failures, when no shared pool admits the volume and there are failures,
* an exception of the admission on a pool, when no shared pool before it admits the volume. -/
inductive Selects (n : Int) (v : String) (t : PvType) (uuid : String) (volumes : List HostVol) (failures : List (String × Err))
    (w : World) : Except Err Selection → World → Prop
  | pool {checks : List (HostVol × Verdict)} {volume : HostVol} {rest : List HostVol} {w₁ w₂ : World} :
      sharedPools volumes = checks.map Prod.fst ++ volume :: rest →
      Searched n v t uuid w checks w₁ → (∀ c ∈ checks, c.2 ≠ .admitted) → Checked n v t uuid volume.name w₁ .admitted w₂ →
      Selects n v t uuid volumes failures w (.ok (.pool volume.name)) w₂
  | exhausted {checks : List (HostVol × Verdict)} {w₁ : World} :
      sharedPools volumes = checks.map Prod.fst → Searched n v t uuid w checks w₁ →
      (∀ c ∈ checks, c.2 = .full) → failures = [] → Selects n v t uuid volumes failures w (.ok .exhausted) w₁
  | failed {checks : List (HostVol × Verdict)} {w₁ : World} :
      sharedPools volumes = checks.map Prod.fst → Searched n v t uuid w checks w₁ →
      (∀ c ∈ checks, c.2 ≠ .admitted) → failures ++ failuresOf checks ≠ [] →
      Selects n v t uuid volumes failures w (.ok (.failed (failures ++ failuresOf checks))) w₁
  | raised {checks : List (HostVol × Verdict)} {volume : HostVol} {rest : List HostVol} {w₁ w₂ : World} {e : Err} :
      sharedPools volumes = checks.map Prod.fst ++ volume :: rest →
      Searched n v t uuid w checks w₁ → (∀ c ∈ checks, c.2 ≠ .admitted) → Escapes volume.name w₁ e w₂ →
      Selects n v t uuid volumes failures w (.error e) w₂

omit [VolnameHash] in
theorem sharedPools_dedicated {volume : HostVol} (h : volume.singlePvPerPool = true) :
    sharedPools (volume :: volumes) = sharedPools volumes := by
  simp [sharedPools, h]

omit [VolnameHash] in
theorem sharedPools_shared {volume : HostVol} (h : ¬volume.singlePvPerPool = true) :
    sharedPools (volume :: volumes) = volume :: sharedPools volumes := by
  simp [sharedPools, h]

/-- A dedicated pool is passed over. -/
theorem Selects.dedicated {volume : HostVol} {r : Except Err Selection} (hvolume : volume.singlePvPerPool = true)
    (h : Selects n v t uuid volumes failures w r w') : Selects n v t uuid (volume :: volumes) failures w r w' := by
  cases h with
  | pool hpools hchecks hnone hadmits => exact .pool ((sharedPools_dedicated hvolume).trans hpools) hchecks hnone hadmits
  | exhausted hpools hchecks hfull hnone => exact .exhausted ((sharedPools_dedicated hvolume).trans hpools) hchecks hfull hnone
  | failed hpools hchecks hnone hsome => exact .failed ((sharedPools_dedicated hvolume).trans hpools) hchecks hnone hsome
  | raised hpools hchecks hnone hraise => exact .raised ((sharedPools_dedicated hvolume).trans hpools) hchecks hnone hraise

/-- A search goes on after a check that does not admit the volume. -/
theorem Selects.cons {volume : HostVol} {verdict : Verdict} {w₁ : World} {r : Except Err Selection}
    (hvolume : ¬volume.singlePvPerPool = true) (hcheck : Checked n v t uuid volume.name w verdict w₁)
    (hverdict : verdict ≠ .admitted)
    (h : Selects n v t uuid volumes (failures ++ (verdict.failure volume.name).toList) w₁ r w') :
    Selects n v t uuid (volume :: volumes) failures w r w' := by
  have hall : ∀ {checks : List (HostVol × Verdict)}, (∀ c ∈ checks, c.2 ≠ .admitted) →
      ∀ c ∈ (volume, verdict) :: checks, c.2 ≠ .admitted := fun h => List.forall_mem_cons.mpr ⟨hverdict, h⟩
  have hfailures : ∀ checks, failures ++ (verdict.failure volume.name).toList ++ failuresOf checks =
      failures ++ failuresOf ((volume, verdict) :: checks) := by
    intro checks
    rw [List.append_assoc, failuresOf, failuresOf, List.filterMap_cons]
    cases verdict.failure volume.name <;> rfl
  cases h with
  | @pool checks _ rest _ _ hpools hchecks hnone hadmits =>
    refine @Selects.pool _ _ _ _ _ _ _ _ _ _ rest _ _ ?_ (.cons hcheck hchecks) (hall hnone) hadmits
    rw [sharedPools_shared hvolume, hpools, List.map_cons, List.cons_append]
  | exhausted hpools hchecks hfull hempty =>
    obtain ⟨rfl, hnone⟩ := List.append_eq_nil_iff.mp hempty
    refine .exhausted ?_ (.cons hcheck hchecks) (List.forall_mem_cons.mpr ⟨?_, hfull⟩) rfl
    · rw [sharedPools_shared hvolume, hpools, List.map_cons]
    · cases verdict with
      | admitted => exact absurd rfl hverdict
      | full => rfl
      | unavailable e => cases hnone
  | failed hpools hchecks hnone hsome =>
    rw [hfailures] at hsome ⊢
    refine .failed ?_ (.cons hcheck hchecks) (hall hnone) hsome
    rw [sharedPools_shared hvolume, hpools, List.map_cons]
  | @raised _ _ rest _ _ _ hpools hchecks hnone hraise =>
    refine @Selects.raised _ _ _ _ _ _ _ _ _ _ rest _ _ _ ?_ (.cons hcheck hchecks) (hall hnone) hraise
    rw [sharedPools_shared hvolume, hpools, List.map_cons, List.cons_append]

theorem wpc_selectHostingVolume : (selectHostingVolume n v t uuid volumes failures).wpc (fun _ => True)
    (fun r w' => Selects n v t uuid volumes failures w r w') w := by
  induction volumes generalizing failures w with
  | nil =>
    cases failures with
    | nil => exact .exhausted rfl .nil (by simp) rfl
    | cons f fs =>
      have h : Selects n v t uuid [] (f :: fs) w (.ok (.failed (f :: fs ++ failuresOf []))) w :=
        .failed rfl .nil (by simp) (by simp)
      rw [failuresOf, List.filterMap_nil, List.append_nil] at h
      exact h
  | cons volume volumes ih =>
    rw [selectHostingVolume]
    split
    · rename_i hvolume
      exact wpc_mono (fun _ h => h) (fun r w' h => h.dedicated hvolume) ih
    · rename_i hvolume
      refine wpc_andThen.mpr (wpc_mono (fun _ h => h) (fun r w₁ hr => ?_) wpc_checkPool)
      cases r with
      | error e => exact .raised (sharedPools_shared hvolume) .nil (by simp) hr
      | ok verdict =>
        cases verdict with
        | admitted => exact .pool (sharedPools_shared hvolume) .nil (by simp) hr
        | full =>
          refine wpc_mono (fun _ h => h) (fun r w' h => .cons hvolume hr (by simp) ?_) ih
          simpa [Verdict.failure] using h
        | unavailable e => exact wpc_mono (fun _ h => h) (fun r w' h => .cons hvolume hr (by simp) h) ih

/-! ## Pools that are not selected -/

/-- The pool gained neither an intent nor a row for `v`. -/
def Untouched (v : String) (s s' : Pool) : Prop :=
  s'.creations = s.creations ∧ (s.rows.lookup v = none → s'.rows.lookup v = none)

omit [VolnameHash] in
theorem Untouched.refl {s : Pool} : Untouched v s s := ⟨rfl, fun h => h⟩

omit [VolnameHash] in
theorem Untouched.trans {s₁ s₂ s₃ : Pool} (h₁ : Untouched v s₁ s₂) (h₂ : Untouched v s₂ s₃) : Untouched v s₁ s₃ :=
  ⟨h₂.1.trans h₁.1, fun h => h₂.2 (h₁.2 h)⟩

/-- Only a pool that admits the volume gains anything for it. -/
theorem Checked.untouched {verdict : Verdict} (h : Checked n v t uuid hvol w verdict w') {other : String}
    (hother : verdict = .admitted → other ≠ hvol) : Untouched v (w other) (w' other) := by
  cases h with
  | admitted hs =>
    rw [Function.update_of_ne (hother rfl)]
    exact .refl
  | full hs =>
    by_cases he : other = hvol
    · subst he
      rw [Function.update_self]
      obtain ⟨p, rows, -, -, hadmission⟩ := admit_cases hs
      cases hadmission with
      | refused hcreations hrow => exact ⟨rfl, fun _ => hrow⟩
    · rw [Function.update_of_ne he]
      exact .refl
  | unavailable he => exact .refl

theorem Searched.untouched {checks : List (HostVol × Verdict)} (h : Searched n v t uuid w checks w')
    (hnone : ∀ c ∈ checks, c.2 ≠ .admitted) (other : String) : Untouched v (w other) (w' other) := by
  induction h with
  | nil => exact .refl
  | cons hcheck hchecks ih =>
    obtain ⟨hfirst, hrest⟩ := List.forall_mem_cons.mp hnone
    exact (hcheck.untouched fun he => absurd he hfirst).trans (ih hrest)

theorem Selects.untouched {r : Selection} (h : Selects n v t uuid volumes failures w (.ok r) w') {other : String}
    (hother : r ≠ .pool other) : Untouched v (w other) (w' other) := by
  cases h with
  | pool hpools hchecks hnone hadmits =>
    exact (hchecks.untouched hnone other).trans (hadmits.untouched fun _ he => hother (he ▸ rfl))
  | exhausted hpools hchecks hfull hempty =>
    exact hchecks.untouched (fun c hc => by rw [hfull c hc]; simp) other
  | failed hpools hchecks hnone hsome => exact hchecks.untouched hnone other

/-- **Selection.** Every run of the search ends as its checks say, and only the pool that it selects has gained an intent or a
row for the volume. -/
theorem selects_of_run {r : Except Err Selection}
    (h : (selectHostingVolume n v t uuid volumes []).Reaches w (Prog.ofExcept r) w') :
    Selects n v t uuid volumes [] w r w' ∧
      ∀ selection, r = .ok selection → ∀ other, selection ≠ .pool other → Untouched v (w other) (w' other) := by
  have hselects : Selects n v t uuid volumes [] w r w' := wpc_ofExcept.mp (wpc_reaches trivial wpc_selectHostingVolume h).2
  refine ⟨hselects, ?_⟩
  rintro selection rfl other hother
  exact hselects.untouched hother

end

/-! ## A conflict on one pool -/

section

attribute [local instance] sampleHash

/-- The two pools. -/
def conflictPools : List HostVol := [{ name := "pool", type := "Replica1" }, { name := "other", type := "Replica1" }]

def conflictUuid : String := "6ba7b810-9dad-11d1-80b4-00c04fd430c8"

/-- The search for a pool of `pvc-1`. -/
def conflictSearch (size : Int) : WorldProg Selection := selectHostingVolume size "pvc-1" .subvol conflictUuid conflictPools []

/-- The volume is admitted with 1000 bytes, and its create crashes. -/
def conflictWorld : World := ((conflictSearch 1000).run fun _ => { capacity := 10000 }).2

/-- It is admitted on the first pool. -/
theorem conflictSearch_selects : Selects 1000 "pvc-1" .subvol conflictUuid conflictPools [] (fun _ => { capacity := 10000 })
    (.ok (.pool "pool")) conflictWorld := by
  have hrun : ((conflictSearch 1000).run fun _ => { capacity := 10000 }).1 = .ok (.pool "pool") := by decide +kernel
  have hreaches := (conflictSearch 1000).run_reaches fun _ => { capacity := 10000 }
  rw [hrun] at hreaches
  exact (selects_of_run hreaches).1

/-- A retry with another size ends with the conflict on the first pool, although the other one admits the volume. -/
theorem conflict_ends :
    (∃ w', (conflictSearch 2000).Reaches conflictWorld
      (raise (.value "Pending create does not match the requested identity, type, path, or size")) w') ∧
    ∃ s, admitVolumeCreation (conflictWorld "other") 10000 "pvc-1" .subvol 2000 conflictUuid = .ok (true, s) := by
  constructor
  · have hrun : ((conflictSearch 2000).run conflictWorld).1 =
        .error (.value "Pending create does not match the requested identity, type, path, or size") := by decide +kernel
    have hreaches := (conflictSearch 2000).run_reaches conflictWorld
    rw [hrun] at hreaches
    exact ⟨_, hreaches⟩
  · obtain ⟨⟨b, s⟩, hadmits, hb⟩ : ∃ r, admitVolumeCreation (conflictWorld "other") 10000 "pvc-1" .subvol 2000 conflictUuid =
        .ok r ∧ r.1 = true := ok_of_test (by decide +kernel)
    cases hb
    exact ⟨s, hadmits⟩

end

end Kadalu
