import Mathlib.Data.List.Nodup
import Mathlib.Data.List.Sigma
import Mathlib.Data.List.TakeWhile
import Kadalu.Operator.Rollout

/-!
# The order of a rolling server upgrade

Every apply of `deployServerPods` is allowed: it finds the rollout of the apply before it complete, and that of a serving
member finds all recovery members applied and a clean heal result.

* `…_emits`: what a part of the deployment asks, and what it has seen when it returns.
* `Rolling`: the loop invariant of the applies.
-/

namespace Kadalu.Operator

open Calls

/-! ## What the parts of a deployment ask -/

/-- The event of a wait: no apply and no part of the classification. -/
def Quiet (e : OpEvent) : Prop :=
  match e.1 with
  | .applyServer _ | .readStatefulSet .existing _ | .readStatefulSet .serving _ => False
  | _ => True

def IsRead (purpose : Purpose) (e : OpEvent) : Prop := ∃ name, e.1 = .readStatefulSet purpose name

theorem healRound_emits (obj : StorageObject) (deadline : Int) (servers : List String) :
    Emits Quiet (fun r es => r = .ok .clean → ∃ e ∈ es, CleanHeal obj e)
      (healRound deadline obj.storage.length servers) := by
  induction servers with
  | nil => exact emits_pure (by simp)
  | cons server servers ih =>
    refine emits_bind (P := fun _ _ => True) (emits_request (fun _ => trivial) fun _ => trivial) ?_ (by simp)
    intro now earlier _
    split
    · exact emits_pure (by simp)
    refine emits_bind (P := fun r es => ∀ summary, r = .ok (some summary) →
      (⟨.queryHeal server, .ok summary⟩ : OpEvent) ∈ es) ?_ ?_ (by simp)
    · refine emits_tryCatch (P := fun r es => ∀ summary, r = .ok (some summary) →
        (⟨.queryHeal server, .ok summary⟩ : OpEvent) ∈ es) ?_ (fun _ _ h => h) ?_
      · refine emits_bind (P := fun r es => es = [⟨.queryHeal server, r⟩])
          (emits_request (fun _ => trivial) fun _ => rfl) ?_ (by simp)
        rintro summary _ rfl
        refine emits_pure ?_
        rintro _ ⟨⟩
        exact List.mem_singleton_self _
      · intro e _ _
        split
        · refine emits_pure ?_
          rintro _ ⟨⟩
        · exact emits_throw (by simp)
    · intro summary es hquery
      have hrest : Emits Quiet (fun b es' => b = .ok .clean → ∃ e ∈ (es' ++ es) ++ earlier, CleanHeal obj e)
          (healRound deadline obj.storage.length servers) := by
        simpa only [List.append_assoc] using emits_found ih (es ++ earlier)
      cases summary with
      | none => exact hrest
      | some summary =>
        dsimp only
        split
        · next hclean =>
          refine emits_pure fun _ => ⟨⟨.queryHeal server, .ok summary⟩, ?_, server, summary, rfl, hclean⟩
          simp [hquery summary rfl]
        split
        · exact emits_pure (by simp)
        · exact hrest

theorem healRounds_emits (obj : StorageObject) (deadline : Int) (fuel : Nat) (servers : List String) :
    Emits Quiet (fun r es => r = .ok () → ∃ e ∈ es, CleanHeal obj e)
      (healRounds deadline obj.storage.length fuel servers) := by
  induction fuel generalizing servers with
  | zero => exact emits_cut
  | succ fuel ih =>
    refine emits_bind (healRound_emits obj deadline servers) ?_ (by simp)
    intro round es hround
    split
    · next hclean => exact emits_pure fun _ => by simpa using hround (congrArg _ hclean)
    refine emits_bind (P := fun _ _ => True) (emits_request (fun _ => trivial) fun _ => trivial) ?_ (by simp)
    intro now es' _
    split
    · exact emits_throw (by simp)
    refine emits_bind (P := fun _ _ => True) (emits_request (fun _ => trivial) fun _ => trivial) ?_ (by simp)
    intro _ es'' _
    simpa only [List.append_assoc] using emits_found (ih _) (es'' ++ (es' ++ es))

/-- A wait for the heal that returns has seen a clean result. -/
theorem waitForStorageHeal_emits (obj : StorageObject) (fuel : Nat) :
    Emits Quiet (fun r es => r = .ok () → ∃ e ∈ es, CleanHeal obj e) (waitForStorageHeal fuel obj.serverPodNames) := by
  unfold waitForStorageHeal
  have hlength : obj.serverPodNames.length = obj.storage.length := by
    simp [StorageObject.serverPodNames, StorageObject.statefulsetNames]
  rw [hlength]
  split
  · exact emits_throw (by simp)
  refine emits_bind (P := fun _ _ => True) (emits_request (fun _ => trivial) fun _ => trivial) ?_ (by simp)
  intro now es _
  exact emits_found (healRounds_emits obj _ fuel _) es

theorem rolloutRounds_emits (deadline : Int) (name : String) (fuel : Nat) :
    Emits Quiet (fun r es => r = .ok () → ∃ e ∈ es, RolledOut name e) (rolloutRounds deadline name fuel) := by
  induction fuel with
  | zero => exact emits_cut
  | succ fuel ih =>
    refine emits_bind (P := fun r es => es = [⟨.readStatefulSet .rollout name, r⟩])
      (emits_request (fun _ => trivial) fun _ => rfl) ?_ (by simp)
    intro statefulSet seen hseen
    split
    · next hcomplete =>
      exact emits_pure fun _ => ⟨_, by rw [hseen]; exact List.mem_singleton_self _, statefulSet, rfl, hcomplete⟩
    refine emits_bind (P := fun _ _ => True) (emits_request (fun _ => trivial) fun _ => trivial) ?_ (by simp)
    intro now es _
    split
    · exact emits_throw (by simp)
    refine emits_bind (P := fun _ _ => True) (emits_request (fun _ => trivial) fun _ => trivial) ?_ (by simp)
    intro _ es' _
    simpa only [List.append_assoc] using emits_found ih (es' ++ (es ++ seen))

/-- A wait for a rollout that returns has seen it complete. -/
theorem waitForServerStatefulsetRollout_emits (fuel : Nat) (name : String) :
    Emits Quiet (fun r es => r = .ok () → ∃ e ∈ es, RolledOut name e) (waitForServerStatefulsetRollout fuel name) := by
  refine emits_bind (P := fun _ _ => True) (emits_request (fun _ => trivial) fun _ => trivial) ?_ (by simp)
  intro now es _
  exact emits_found (rolloutRounds_emits _ name fuel) es

/-- What the answer of a read says about the existence of a member. -/
def found : Except OpErr (Option StatefulSet) → Except OpErr Bool
  | .ok _ => .ok true
  | .error e => if e = .api (some 404) then .ok false else .error e

theorem found_ok_false {a : Except OpErr (Option StatefulSet)} (h : found a = .ok false) :
    a = .error (.api (some 404)) := by
  cases a with
  | ok s => cases h
  | error e =>
    simp only [found] at h
    split at h
    · next he => rw [he]
    · cases h

theorem existing_emits (name : String) :
    Emits (IsRead .existing) (fun r es => ∃ a, es = [⟨.readStatefulSet .existing name, a⟩] ∧ r = found a)
      (tryCatch (do let _ ← Request.read .existing name; pure true) fun e =>
        if e = .api (some 404) then pure false else throw e) := by
  intro C h hC hstep a h' hs
  cases hs
  refine ⟨hstep _ _ ⟨name, rfl⟩ hC, ?_⟩
  have hread : ∀ e ∈ ([⟨.readStatefulSet .existing name, a⟩] : OpHistory), IsRead .existing e := by
    simp only [List.mem_singleton, forall_eq]
    exact ⟨name, rfl⟩
  cases a with
  | ok s => exact ⟨_, rfl, hread, _, rfl, rfl⟩
  | error e =>
    refine wp_ite (fun he => ?_) fun he => ?_
    · exact ⟨_, rfl, hread, _, rfl, by simp [found, he]⟩
    · exact ⟨_, rfl, hread, _, rfl, by simp [found, he]⟩

/-- After the loop over distinct names a member was not found exactly when it was left out. -/
theorem existingServerStatefulsetNames_emits (names : List String) (hnd : names.Nodup) :
    Emits (IsRead .existing) (fun r es => ∀ existing, r = .ok existing → (∀ n ∈ existing, n ∈ names) ∧
        ∀ n, (⟨.readStatefulSet .existing n, .error (.api (some 404))⟩ : OpEvent) ∈ es ↔ n ∈ names ∧ n ∉ existing)
      (existingServerStatefulsetNames names) := by
  induction names with
  | nil =>
    refine emits_pure ?_
    rintro _ ⟨⟩
    simp
  | cons name names ih =>
    obtain ⟨hname, hnd⟩ := List.nodup_cons.mp hnd
    refine emits_bind (existing_emits name) ?_ (by simp)
    rintro exists' es ⟨a, hes, hfound⟩
    refine emits_bind (ih hnd) ?_ (by simp)
    intro existing es' hrest
    obtain ⟨hsub, hmissing⟩ := hrest existing rfl
    refine emits_pure ?_
    rintro _ ⟨⟩
    have hhead : ∀ n, (⟨.readStatefulSet .existing n, .error (.api (some 404))⟩ : OpEvent) ∈ es ↔
        n = name ∧ exists' = false := by
      intro n
      rw [hes, List.mem_singleton]
      constructor
      · intro h
        cases h
        refine ⟨rfl, ?_⟩
        simpa [found] using hfound
      · rintro ⟨rfl, rfl⟩
        rw [found_ok_false hfound.symm]
        rfl
    have hself : name ∉ existing := fun h => hname (hsub name h)
    refine ⟨?_, fun n => ?_⟩
    · intro n hn
      cases exists' <;> grind
    · rw [List.nil_append, List.mem_append, hmissing, hhead]
      cases exists' <;> grind

/-- After the loop a member is serving or was listed. -/
theorem unavailableServerStatefulsetNames_emits (names : List String) :
    Emits (IsRead .serving) (fun r es => ∀ unavailable, r = .ok unavailable →
        (∀ n, (∃ s, (⟨.readStatefulSet .serving n, .ok s⟩ : OpEvent) ∈ es ∧ serverStatefulsetRolloutComplete s = false) ↔
          n ∈ unavailable) ∧
        ∀ n ∈ names, n ∉ unavailable →
          ∃ s, (⟨.readStatefulSet .serving n, .ok s⟩ : OpEvent) ∈ es ∧ serverStatefulsetRolloutComplete s = true)
      (unavailableServerStatefulsetNames names) := by
  induction names with
  | nil =>
    refine emits_pure ?_
    rintro _ ⟨⟩
    simp
  | cons name names ih =>
    refine emits_bind (P := fun r es => es = [⟨.readStatefulSet .serving name, r⟩])
      (emits_request (fun _ => ⟨name, rfl⟩) fun _ => rfl) ?_ (by simp)
    intro statefulSet es hes
    refine emits_bind ih ?_ (by simp)
    intro unavailable es' hrest
    obtain ⟨hlisted, hserving⟩ := hrest unavailable rfl
    refine emits_pure ?_
    rintro _ ⟨⟩
    have hhead : ∀ n s, (⟨.readStatefulSet .serving n, .ok s⟩ : OpEvent) ∈ es ↔ n = name ∧ s = statefulSet := by
      intro n s
      rw [hes, List.mem_singleton]
      constructor
      · intro h
        cases h
        exact ⟨rfl, rfl⟩
      · rintro ⟨rfl, rfl⟩
        rfl
    simp only [List.nil_append, List.mem_append, hhead, or_and_right, exists_or, hlisted]
    refine ⟨fun n => ?_, fun n hn hout => ?_⟩
    · cases hc : serverStatefulsetRolloutComplete statefulSet <;> grind
    · rcases List.mem_cons.mp hn with rfl | hn
      · cases hc : serverStatefulsetRolloutComplete statefulSet
        · simp [hc] at hout
        · exact .inr ⟨statefulSet, ⟨rfl, rfl⟩, hc⟩
      · refine .inl (hserving n hn fun h => hout ?_)
        split
        · exact h
        · exact List.mem_cons_of_mem _ h

/-! ## Histories grow -/

variable {obj : StorageObject} {h es : OpHistory} {name n : String} {e : OpEvent}

theorem Quiet.not_apply (hq : Quiet e) : ¬IsApply e := by
  rintro ⟨name, hname⟩
  simp [Quiet, hname] at hq

theorem IsRead.not_apply {purpose : Purpose} (hr : IsRead purpose e) : ¬IsApply e := by
  rintro ⟨name, hname⟩
  obtain ⟨_, hr⟩ := hr
  cases hr.symm.trans hname

theorem ordered_cons (he : ¬IsApply e) (ho : Ordered obj h) : Ordered obj (e :: h) :=
  ⟨fun name hname => absurd ⟨name, hname⟩ he, ho⟩

theorem sinceApply_append (hes : ∀ e ∈ es, ¬IsApply e) : sinceApply (es ++ h) = es ++ sinceApply h :=
  List.takeWhile_append_of_pos fun e he => by simpa using hes e he

@[simp] theorem sinceApply_apply {r : Except OpErr Unit} : sinceApply (⟨.applyServer name, r⟩ :: h) = [] :=
  List.takeWhile_cons_of_neg (by simpa using ⟨name, rfl⟩)

/-- Only the reads of the classification say which members are recovery. -/
theorem recovery_append (hes : ∀ e ∈ es, ¬IsRead .existing e ∧ ¬IsRead .serving e) :
    Recovery (es ++ h) n ↔ Recovery h n := by
  have hout : ∀ purpose a, purpose = .existing ∨ purpose = .serving →
      (⟨.readStatefulSet purpose n, a⟩ : OpEvent) ∉ es := by
    rintro purpose a hp hmem
    rcases hp with rfl | rfl
    · exact (hes _ hmem).1 ⟨n, rfl⟩
    · exact (hes _ hmem).2 ⟨n, rfl⟩
  simp only [Recovery, List.mem_append, hout _ _ (.inl rfl), hout _ _ (.inr rfl), false_or]

theorem Quiet.not_read (hq : Quiet e) : ¬IsRead .existing e ∧ ¬IsRead .serving e := by
  constructor
  all_goals
    rintro ⟨name, hname⟩
    simp [Quiet, hname] at hq

theorem Healthy.append (hh : Healthy h n) : Healthy (es ++ h) n := by
  obtain ⟨s, hs, hc⟩ := hh
  exact ⟨s, List.mem_append_right _ hs, hc⟩

theorem Applied.append (ha : Applied h n) : Applied (es ++ h) n := by
  obtain ⟨r, hr⟩ := ha
  exact ⟨r, List.mem_append_right _ hr⟩

/-! ## The loop -/

/-- The recovery members of the classification, in the order of the bricks. -/
def recoveryMembers (obj : StorageObject) (recoveryNames : List String) : List String :=
  obj.statefulsetNames.filter fun name => recoveryNames.contains name

def healthyMembers (obj : StorageObject) (recoveryNames : List String) : List String :=
  obj.statefulsetNames.filter fun name => !recoveryNames.contains name

/-- The loop of the applies after `done`, with `rest` to come. -/
structure Rolling (obj : StorageObject) (recoveryNames done rest : List String) (h : OpHistory) : Prop where
  ordered : Ordered obj h
  members : done ++ rest = recoveryMembers obj recoveryNames ++ healthyMembers obj recoveryNames
  recovery : ∀ n ∈ obj.statefulsetNames, n ∈ recoveryNames ↔ Recovery h n
  healthy : ∀ n ∈ obj.statefulsetNames, n ∉ recoveryNames → Healthy h n
  applied : ∀ n ∈ done, Applied h n
  rollout : ∀ last r tail, h = sinceApply h ++ ⟨.applyServer last, r⟩ :: tail → ∃ e ∈ sinceApply h, RolledOut last e
  heal : ∀ n rest', rest = n :: rest' → n ∉ recoveryNames → ∃ e ∈ sinceApply h, CleanHeal obj e

variable {recoveryNames done rest : List String}

theorem mem_recoveryMembers : n ∈ recoveryMembers obj recoveryNames ↔ n ∈ obj.statefulsetNames ∧ n ∈ recoveryNames := by
  simp [recoveryMembers]

theorem mem_healthyMembers : n ∈ healthyMembers obj recoveryNames ↔ n ∈ obj.statefulsetNames ∧ n ∉ recoveryNames := by
  simp [healthyMembers]

/-- A serving member comes when all recovery members are done. -/
theorem done_of_healthy (hm : done ++ name :: rest = recoveryMembers obj recoveryNames ++ healthyMembers obj recoveryNames)
    (hn : name ∉ recoveryNames) :
    ∃ mid, done = recoveryMembers obj recoveryNames ++ mid ∧ healthyMembers obj recoveryNames = mid ++ name :: rest := by
  rcases List.append_eq_append_iff.mp hm with ⟨as, hrec, hrest⟩ | ⟨mid, hdone, hhealthy⟩
  · cases as with
    | nil => exact ⟨[], by simpa using hrec.symm, hrest.symm⟩
    | cons a as =>
      -- the member would be one of the recovery members
      obtain ⟨rfl, -⟩ := List.cons.inj hrest
      have hmem : name ∈ recoveryMembers obj recoveryNames := by simp [hrec]
      exact absurd (mem_recoveryMembers.mp hmem).2 hn
  · exact ⟨mid, hdone, hhealthy⟩

namespace Rolling

theorem mem_names (hr : Rolling obj recoveryNames done (name :: rest) h) : name ∈ obj.statefulsetNames := by
  have hmem : name ∈ recoveryMembers obj recoveryNames ++ healthyMembers obj recoveryNames := hr.members ▸ by simp
  rcases List.mem_append.mp hmem with hm | hm
  · exact (mem_recoveryMembers.mp hm).1
  · exact (mem_healthyMembers.mp hm).1

/-- The next apply is allowed. -/
theorem allowed (hr : Rolling obj recoveryNames done (name :: rest) h) : ApplyAllowed obj h name := by
  have hclass := hr.recovery name hr.mem_names
  refine ⟨?_, hr.rollout, fun hnot other hother hrec => ?_, fun hnot => ?_⟩
  · by_cases hmem : name ∈ recoveryNames
    · exact .inl (hclass.mp hmem)
    · exact .inr (hr.healthy name hr.mem_names hmem)
  · obtain ⟨mid, hdone, -⟩ := done_of_healthy hr.members fun hmem => hnot (hclass.mp hmem)
    refine hr.applied other (hdone ▸ List.mem_append_left _ ?_)
    exact mem_recoveryMembers.mpr ⟨hother, (hr.recovery other hother).mpr hrec⟩
  · exact hr.heal name rest rfl fun hmem => hnot (hclass.mp hmem)

/-- The next member is behind a heal result if this one was the last of its kind. -/
theorem heal_next {m : String} {rest' : List String}
    (hm : done ++ name :: m :: rest' = recoveryMembers obj recoveryNames ++ healthyMembers obj recoveryNames)
    (hnext : m ∉ recoveryNames) :
    name ∉ recoveryNames ∨ (recoveryMembers obj recoveryNames).getLast? = some name := by
  have hm' : (done ++ [name]) ++ m :: rest' = recoveryMembers obj recoveryNames ++ healthyMembers obj recoveryNames := by
    simpa using hm
  obtain ⟨mid, hdone, hhealthy⟩ := done_of_healthy hm' hnext
  rcases List.eq_nil_or_concat mid with rfl | ⟨mid', b, rfl⟩
  · rw [List.append_nil] at hdone
    exact .inr (by simp [← hdone])
  · -- the member itself was serving
    rw [List.concat_eq_append, ← List.append_assoc] at hdone
    obtain ⟨-, hb⟩ := List.append_inj' hdone rfl
    obtain rfl : name = b := by simpa using hb
    have hmem : name ∈ healthyMembers obj recoveryNames := by simp [hhealthy]
    exact .inl (mem_healthyMembers.mp hmem).2

/-- One round of the loop. -/
theorem step {a : Except OpErr Unit} (hr : Rolling obj recoveryNames done (name :: rest) h) (hes : ∀ e ∈ es, Quiet e)
    (hroll : ∃ e ∈ es, RolledOut name e)
    (hheal : name ∉ recoveryNames ∨ (recoveryMembers obj recoveryNames).getLast? = some name → ∃ e ∈ es, CleanHeal obj e) :
    Rolling obj recoveryNames (done ++ [name]) rest (es ++ ⟨.applyServer name, a⟩ :: h) := by
  have hsince : sinceApply (es ++ ⟨.applyServer name, a⟩ :: h) = es := by
    rw [sinceApply_append fun e he => (hes e he).not_apply, sinceApply_apply, List.append_nil]
  have hkeep : es ++ ⟨.applyServer name, a⟩ :: h = (es ++ [⟨.applyServer name, a⟩]) ++ h := by simp
  have hclass : ∀ e ∈ es ++ [⟨.applyServer name, a⟩], ¬IsRead .existing e ∧ ¬IsRead .serving e := by
    intro e he
    rcases List.mem_append.mp he with he | he
    · exact (hes e he).not_read
    · rw [List.mem_singleton.mp he]
      constructor <;> rintro ⟨_, hread⟩ <;> cases hread
  refine ⟨?_, by simpa using hr.members, ?_, ?_, ?_, ?_, ?_⟩
  · refine keeps_events (fun e h he ho => ordered_cons (Quiet.not_apply he) ho) hes ⟨?_, hr.ordered⟩
    rintro n ⟨⟩
    exact hr.allowed
  · intro n hn
    rw [hkeep, recovery_append hclass]
    exact hr.recovery n hn
  · intro n hn hout
    rw [hkeep]
    exact (hr.healthy n hn hout).append
  · intro n hn
    rcases List.mem_append.mp hn with hn | hn
    · rw [hkeep]
      exact (hr.applied n hn).append
    · obtain rfl := List.mem_singleton.mp hn
      exact ⟨a, by simp⟩
  · intro last r tail heq
    rw [hsince] at heq ⊢
    have := List.append_cancel_left heq
    cases this
    exact hroll
  · rintro m rest' rfl hout
    rw [hsince]
    exact hheal (heal_next hr.members hout)

end Rolling

theorem applyMembers_ordered {fuel : Nat} (hr : Rolling obj recoveryNames done rest h) :
    wp remember (Ordered obj) (fun _ _ => True)
      (applyMembers fuel obj true true recoveryNames (recoveryMembers obj recoveryNames) rest) h := by
  induction rest generalizing done h with
  | nil => exact trivial
  | cons name rest ih =>
    have happly : ∀ a, Ordered obj (⟨.applyServer name, a⟩ :: h) := by
      refine fun a => ⟨?_, hr.ordered⟩
      rintro n ⟨⟩
      exact hr.allowed
    refine wp_bind (wp_remember happly fun a => ?_)
    cases a with
    | error e => exact trivial
    | ok u =>
      refine wp_bind ((waitForServerStatefulsetRollout_emits fuel name).wp (happly _)
        (fun e h he ho => ordered_cons (Quiet.not_apply he) ho) fun r es hes hroll ho => ?_)
      cases r with
      | error e => exact trivial
      | ok u' =>
        have hroll := hroll rfl
        -- the rest of the loop, after a heal wait or without one
        have hnext : ∀ es', (∀ e ∈ es', Quiet e) →
            (name ∉ recoveryNames ∨ (recoveryMembers obj recoveryNames).getLast? = some name →
              ∃ e ∈ es', CleanHeal obj e) →
            wp remember (Ordered obj) (fun _ _ => True)
              (applyMembers fuel obj true true recoveryNames (recoveryMembers obj recoveryNames) rest)
              (es' ++ (es ++ ⟨.applyServer name, .ok u⟩ :: h)) := by
          intro es' hes' hheal
          rw [← List.append_assoc]
          refine ih (hr.step (fun e he => (List.mem_append.mp he).elim (hes' e) (hes e)) ?_ fun hlast => ?_)
          · obtain ⟨e, he, hrolled⟩ := hroll
            exact ⟨e, List.mem_append_right _ he, hrolled⟩
          · obtain ⟨e, he, hclean⟩ := hheal hlast
            exact ⟨e, List.mem_append_left _ he, hclean⟩
        dsimp only
        split
        · refine wp_bind ((waitForStorageHeal_emits obj fuel).wp ho
            (fun e h he ho => ordered_cons (Quiet.not_apply he) ho) fun r es' hes' hclean _ => ?_)
          cases r with
          | error e => exact trivial
          | ok _ => exact hnext es' hes' fun _ => hclean rfl
        · next hlast =>
          refine wp_bind (wp_pure (hnext [] (by simp) fun hwait => absurd hwait ?_))
          simpa using hlast

/-! ## The deployment -/

theorem getBrickHostname_injective (volname : String) : Function.Injective (getBrickHostname volname) := by
  intro i j hij
  have hrepr : i.repr = j.repr := String.append_right_inj _ |>.mp hij
  have hdigits : Nat.toDigits 10 i = Nat.toDigits 10 j := String.ofList_injective hrepr
  have hback : ∀ n, Nat.ofDigitChars 10 (Nat.toDigits 10 n) 0 = n := fun n =>
    Nat.ofDigitChars_toDigits (by decide) (by decide)
  rw [← hback i, hdigits, hback]

theorem statefulsetNames_nodup (obj : StorageObject) : obj.statefulsetNames.Nodup :=
  List.Nodup.map (getBrickHostname_injective obj.name) List.nodup_range

/-- The first history of the loop: the classification, and a heal wait if nothing is recovery. -/
theorem rolling_start {recoveryNames : List String} (ho : Ordered obj h) (hquiet : ∀ e ∈ h, ¬IsApply e)
    (hrec : ∀ n ∈ obj.statefulsetNames, n ∈ recoveryNames ↔ Recovery h n)
    (hhealthy : ∀ n ∈ obj.statefulsetNames, n ∉ recoveryNames → Healthy h n)
    (hheal : recoveryMembers obj recoveryNames = [] → ∃ e ∈ h, CleanHeal obj e) :
    Rolling obj recoveryNames [] (recoveryMembers obj recoveryNames ++ healthyMembers obj recoveryNames) h := by
  have hsince : sinceApply h = h := List.takeWhile_eq_self_iff.mpr fun e he => by simpa using hquiet e he
  refine ⟨ho, rfl, hrec, hhealthy, by simp, ?_, ?_⟩
  · intro last r tail heq
    exact absurd ⟨last, rfl⟩ (hquiet ⟨.applyServer last, r⟩ (heq ▸ by simp))
  · intro n rest heq hout
    rw [hsince]
    have heq' : [] ++ n :: rest = recoveryMembers obj recoveryNames ++ healthyMembers obj recoveryNames := heq.symm
    obtain ⟨mid, hdone, -⟩ := done_of_healthy heq' hout
    exact hheal (List.append_eq_nil_iff.mp hdone.symm).1

/-- The names of the classification after its two loops are those the history calls recovery. -/
theorem classified {existing unavailable : List String} {es' : OpHistory} {a : Except OpErr Unit}
    (hmissing : ∀ n, (⟨.readStatefulSet .existing n, .error (.api (some 404))⟩ : OpEvent) ∈ es ↔
      n ∈ obj.statefulsetNames ∧ n ∉ existing)
    (hlisted : ∀ n, (∃ s, (⟨.readStatefulSet .serving n, .ok s⟩ : OpEvent) ∈ es' ∧
      serverStatefulsetRolloutComplete s = false) ↔ n ∈ unavailable)
    (hes : ∀ e ∈ es, IsRead .existing e) (hes' : ∀ e ∈ es', IsRead .serving e) (n : String)
    (hn : n ∈ obj.statefulsetNames) :
    n ∈ (obj.statefulsetNames.filter fun name => !existing.contains name) ++ unavailable ↔
      Recovery (es' ++ (es ++ [⟨.applyService obj.name, a⟩])) n := by
  have hfirst : ∀ e, IsRead .existing e → e ∈ es' ++ (es ++ [⟨.applyService obj.name, a⟩]) → e ∈ es := by
    intro e he hmem
    rcases List.mem_append.mp hmem with hmem | hmem
    · obtain ⟨_, h₁⟩ := he
      obtain ⟨_, h₂⟩ := hes' e hmem
      cases h₁.symm.trans h₂
    · rcases List.mem_append.mp hmem with hmem | hmem
      · exact hmem
      · obtain ⟨_, h₁⟩ := he
        rw [List.mem_singleton.mp hmem] at h₁
        cases h₁
  have hsecond : ∀ e, IsRead .serving e → e ∈ es' ++ (es ++ [⟨.applyService obj.name, a⟩]) → e ∈ es' := by
    intro e he hmem
    obtain ⟨_, h₁⟩ := he
    rcases List.mem_append.mp hmem with hmem | hmem
    · exact hmem
    · rcases List.mem_append.mp hmem with hmem | hmem
      · obtain ⟨_, h₂⟩ := hes e hmem
        cases h₁.symm.trans h₂
      · rw [List.mem_singleton.mp hmem] at h₁
        cases h₁
  rw [List.mem_append, List.mem_filter, ← hlisted]
  constructor
  · rintro (⟨-, hout⟩ | ⟨s, hs, hc⟩)
    · refine .inl (List.mem_append_right _ (List.mem_append_left _ ((hmissing n).mpr ⟨hn, ?_⟩)))
      simpa using hout
    · exact .inr ⟨s, List.mem_append_left _ hs, hc⟩
  · rintro (hs | ⟨s, hs, hc⟩)
    · exact .inl ⟨hn, by simpa using ((hmissing n).mp (hfirst _ ⟨n, rfl⟩ hs)).2⟩
    · exact .inr ⟨s, hsecond _ ⟨n, rfl⟩ hs, hc⟩

/-- The applies of a heal-gated pool, from the end of the classification on. -/
theorem gatedMembers_ordered {fuel : Nat} (ho : Ordered obj h) (hquiet : ∀ e ∈ h, ¬IsApply e)
    (hclass : ∀ n ∈ obj.statefulsetNames, n ∈ recoveryNames ↔ Recovery h n)
    (hhealthy : ∀ n ∈ obj.statefulsetNames, n ∉ recoveryNames → Healthy h n) :
    wp remember (Ordered obj) (fun _ _ => True) (do
      if (recoveryMembers obj recoveryNames).isEmpty then waitForStorageHeal fuel obj.serverPodNames
      applyMembers fuel obj true true recoveryNames (recoveryMembers obj recoveryNames)
        (recoveryMembers obj recoveryNames ++ healthyMembers obj recoveryNames)) h := by
  dsimp only
  split
  · refine wp_bind ((waitForStorageHeal_emits obj fuel).wp ho
      (fun e h he ho => ordered_cons (Quiet.not_apply he) ho) fun r es hes hclean ho' => ?_)
    cases r with
    | error e => exact trivial
    | ok _ =>
      refine applyMembers_ordered (rolling_start ho' ?_ ?_ ?_ fun _ => ?_)
      · exact fun e he => (List.mem_append.mp he).elim (fun he => (hes e he).not_apply) (hquiet e)
      · intro n hn
        rw [recovery_append fun e he => (hes e he).not_read]
        exact hclass n hn
      · exact fun n hn hout => (hhealthy n hn hout).append
      · obtain ⟨e, he, hc⟩ := hclean rfl
        exact ⟨e, List.mem_append_left _ he, hc⟩
  · next hsome =>
    exact applyMembers_ordered (rolling_start ho hquiet hclass hhealthy fun hnil => absurd (by simpa using hnil) hsome)

theorem deployServerPods_wp (fuel : Nat) (obj : StorageObject) (appsClient : Bool) (hgated : obj.shdRequired = true) :
    wp remember (Ordered obj) (fun _ _ => True) (deployServerPods fuel obj appsClient) [] := by
  unfold deployServerPods
  cases appsClient with
  | false => simp only [hgated, Bool.not_false, Bool.and_self, ↓reduceIte]; exact trivial
  | true =>
    simp only [hgated, Bool.not_true, Bool.and_false, Bool.and_self, Bool.false_eq_true, ↓reduceIte]
    have hservice : ∀ a, Ordered obj [⟨.applyService obj.name, a⟩] := fun a =>
      ⟨fun _ h => (by cases h), trivial⟩
    refine wp_bind (wp_remember hservice fun a => ?_)
    cases a with
    | error e => exact trivial
    | ok u =>
      refine wp_ite (fun _ => trivial) fun _ => ?_
      -- which members exist
      refine wp_bind ((existingServerStatefulsetNames_emits _ (statefulsetNames_nodup obj)).wp (hservice _)
        (fun e h he ho => ordered_cons he.not_apply ho) fun r es hes hexisting ho => ?_)
      cases r with
      | error e => exact trivial
      | ok existing =>
        have hmissing := (hexisting existing rfl).2
        -- which of them serve
        refine wp_bind ((unavailableServerStatefulsetNames_emits _).wp ho
          (fun e h he ho => ordered_cons he.not_apply ho) fun r es' hes' hserving ho' => ?_)
        cases r with
        | error e => exact trivial
        | ok unavailable =>
          obtain ⟨hlisted, hserves⟩ := hserving unavailable rfl
          have hclass := fun n hn => classified (a := .ok u) hmissing hlisted hes hes' n hn
          have hhealthy : ∀ n ∈ obj.statefulsetNames,
              n ∉ (obj.statefulsetNames.filter fun name => !existing.contains name) ++ unavailable →
                Healthy (es' ++ (es ++ [⟨.applyService obj.name, .ok u⟩])) n := by
            intro n hn hout
            simp only [List.mem_append, List.mem_filter, hn, true_and, not_or, List.contains_eq_mem,
              Bool.not_eq_true', decide_eq_false_iff_not, Decidable.not_not] at hout
            obtain ⟨s, hs, hc⟩ := hserves n (List.mem_mergeSort.mpr hout.1) hout.2
            exact ⟨s, List.mem_append_left _ hs, hc⟩
          have hquiet : ∀ e ∈ es' ++ (es ++ [⟨.applyService obj.name, .ok u⟩]), ¬IsApply e := by
            intro e he
            rcases List.mem_append.mp he with he | he
            · exact (hes' e he).not_apply
            · rcases List.mem_append.mp he with he | he
              · exact (hes e he).not_apply
              · rw [List.mem_singleton.mp he]
                rintro ⟨_, h⟩
                cases h
          exact gatedMembers_ordered ho' hquiet hclass hhealthy

/-- **Rolling upgrades.** In every run over a heal-gated pool every apply is allowed. -/
theorem deployServerPods_ordered {fuel : Nat} {obj : StorageObject} {appsClient : Bool} {p' : OpProg Unit} {h : OpHistory}
    (hgated : obj.shdRequired = true) (hrun : Exec remember (deployServerPods fuel obj appsClient) [] p' h) :
    Ordered obj h :=
  (wp_exec trivial (deployServerPods_wp fuel obj appsClient hgated) hrun).1

/-- A pool of two members. -/
def samplePool : StorageObject := ⟨"pool", "Replica2", [⟨some "a"⟩, ⟨some "b"⟩]⟩

/-- A member that serves. -/
def servingSet : StatefulSet :=
  ⟨some ⟨some 1⟩, some ⟨some 1⟩, some ⟨some 1, some "r", some "r", some 1, some 1, some 1, some 1, some 1⟩⟩

/-- What a server reports of one brick. -/
def cleanBrick : String :=
  "Status: Connected\nTotal Number of entries: 0\nNumber of entries in heal pending: 0\nNumber of entries in split-brain: 0\n" ++
    "Number of entries possibly healing: 0\n"

/-- The first member is missing. The second serves, and is applied behind the rollout of the first and a clean heal result. -/
def sampleRollout : List OpEvent :=
  [⟨.applyService "pool", .ok ()⟩, ⟨.readStatefulSet .existing "server-pool-0", .error (.api (some 404))⟩,
    ⟨.readStatefulSet .existing "server-pool-1", .ok (some servingSet)⟩,
    ⟨.readStatefulSet .serving "server-pool-1", .ok (some servingSet)⟩, ⟨.applyServer "server-pool-0", .ok ()⟩,
    ⟨.monotonic, .ok (0 : Int)⟩, ⟨.readStatefulSet .rollout "server-pool-0", .ok (some servingSet)⟩,
    ⟨.monotonic, .ok (1 : Int)⟩, ⟨.monotonic, .ok (1 : Int)⟩,
    ⟨.queryHeal "server-pool-0-0", .ok (cleanBrick ++ cleanBrick)⟩, ⟨.applyServer "server-pool-1", .ok ()⟩]

theorem sampleRollout_follows : follows (deployServerPods 1 samplePool true) sampleRollout = true := by
  decide +kernel

theorem sampleRollout_ordered : Ordered samplePool sampleRollout.reverse := by
  obtain ⟨p', hp'⟩ := exec_follows sampleRollout_follows []
  rw [List.append_nil] at hp'
  exact deployServerPods_ordered (by decide +kernel) hp'

end Kadalu.Operator
