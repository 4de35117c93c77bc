import Kadalu.Volume.Paths
import Mathlib.Data.List.AList
import Mathlib.Data.List.Induction
import Mathlib.Data.List.TakeWhile
import Mathlib.Algebra.Order.Ring.Int

/-!
# The quota crawler

`quotad` walks the bricks of a server again and again and limits each subdirectory volume to the size of its metadata. It keeps
the size that it has handled last under the name of the volume alone, and notes it before the command has succeeded.

* `runPasses_calls`: what the passes do is told by the calls of `handle_quota` that found metadata (`stateAfter`).
* `sound_iff_served`: every recorded size has been applied on all bricks exactly when no command fails and each volume is found on
  one brick.
* `quotad_sound`: if so, a pass whose commands succeed has applied the size of each volume that it walks to.
-/

namespace Kadalu.Server

/-! ## Bricks and state -/

/-- A brick: the sizes in its `info` files by the path of their volume, and its directories with their parents. -/
structure Brick where
  info : AList fun _ : Path => Int
  positive : ∀ f ∈ info.entries, 0 < f.2
  dirs : List Path
  closed : ∀ p ∈ dirs, 1 < p.length → p.dropLast ∈ dirs

/-- The state of the daemon, and the limits in force on each brick by volume. -/
structure Quotad where
  /-- `SIZE_LIMITS[volname]["existing_size"]` -/
  sizeLimits : AList fun _ : String => Int := ∅
  limits : AList fun _ : String × String => Int := ∅

/-- A call of `handle_quota` that finds metadata, with the outcome of the quota command if it gets to it. -/
structure Call where
  brick : String
  volname : String
  size : Int
  succeeds : Bool
  deriving DecidableEq, Repr

/-- `SIZE_LIMITS[volname].get('existing_size', -1)` -/
def Quotad.existingSize (q : Quotad) (volname : String) : Int := (q.sizeLimits.lookup volname).getD (-1)

/-- The part of `handle_quota` after the metadata is read. -/
def Quotad.handle (q : Quotad) (c : Call) : Quotad :=
  if q.existingSize c.volname < c.size then
    -- the size counts as handled before the command runs
    { sizeLimits := q.sizeLimits.insert c.volname c.size
      limits := if c.succeeds then q.limits.insert (c.brick, c.volname) c.size else q.limits }
  else q

/-! ## Passes -/

/-- What one pass finds: the bricks of `BRICK_PATH` and those of `CONFIG_FILE`, their files, and what each quota command will do. -/
structure Pass where
  environ : List String
  config : List String
  files : String → Brick
  report : String → Bool
  command : String → String → Bool

/-- A program of the daemon; an exception leaves the state as it is then. -/
abbrev QuotaProg : Type := EStateM Err Quotad Unit

/-- `os.listdir` of a directory -/
def Brick.listdir (brick : Brick) (dir : Path) : List String :=
  brick.dirs.filterMap fun p => if p.dropLast = dir then p.getLast? else none

/-- The directories that the three loops of `crawl` go through. -/
def Brick.walk (brick : Brick) : List String :=
  (brick.listdir ["subvol"]).flatMap fun dir1 =>
    (brick.listdir ["subvol", dir1]).flatMap fun dir2 => brick.listdir ["subvol", dir1, dir2]

section

variable [VolnameHash]

/-- `handle_quota` -/
def handleQuota (pass : Pass) (brick volname : String) : QuotaProg := do
  match canonicalPath .subvol volname with
  | .error e => throw e
  | .ok volpath =>
    match (pass.files brick).info.lookup volpath with
    | none => pure ()
    | some size => modify fun q => q.handle ⟨brick, volname, size, pass.command brick volname⟩

/-- The loops of `crawl`. -/
def handleAll (pass : Pass) (brick : String) : List String → QuotaProg
  | [] => pure ()
  | volname :: rest => do
    handleQuota pass brick volname
    handleAll pass brick rest

/-- `crawl` -/
def crawl (pass : Pass) (brick : String) : QuotaProg :=
  if brick = "" then pure ()
  else if !pass.report brick then pure ()
  else if ["subvol"] ∉ (pass.files brick).dirs then pure ()
  else handleAll pass brick (pass.files brick).walk

/-- The bricks of one pass; an exception ends it. -/
def crawlAll (pass : Pass) : List String → QuotaProg
  | [] => pure ()
  | brick :: rest => do
    crawl pass brick
    crawlAll pass rest

/-- The state after a program, however it ends. -/
def finalState : EStateM.Result Err Quotad Unit → Quotad
  | .ok _ q => q
  | .error _ q => q

/-- One round of the loop of `start`; an exception is ignored for the bricks of the file only. -/
def runPass (pass : Pass) : QuotaProg := do
  crawlAll pass pass.environ
  tryCatch (crawlAll pass pass.config) fun _ => pure ()

/-- The loop of `start`, which another exception ends. -/
def start : List Pass → QuotaProg
  | [] => pure ()
  | pass :: rest => do
    runPass pass
    start rest

/-- The state of the daemon after some passes. -/
def runPasses (passes : List Pass) : Quotad := finalState (start passes {})

/-! ## Passes as calls -/

/-- The call of `handle_quota` for a directory, if it finds metadata. -/
def callOf (pass : Pass) (brick volname : String) : Option Call :=
  match canonicalPath .subvol volname with
  | .error _ => none
  | .ok volpath => ((pass.files brick).info.lookup volpath).map fun size => ⟨brick, volname, size, pass.command brick volname⟩

/-- The directories of a brick that a pass goes through. -/
def visited (pass : Pass) (brick : String) : List String :=
  if brick = "" ∨ pass.report brick = false ∨ ["subvol"] ∉ (pass.files brick).dirs then [] else (pass.files brick).walk

/-- The calls for some bricks; a directory without a valid name ends them. -/
def crawlCalls (pass : Pass) : List String → List Call
  | [] => []
  | brick :: rest =>
    ((visited pass brick).takeWhile isValidCsiIdentifier).filterMap (callOf pass brick) ++
      if (visited pass brick).all isValidCsiIdentifier then crawlCalls pass rest else []

/-- The bricks have directories with valid names only. -/
def Named (pass : Pass) (bricks : List String) : Bool := bricks.all fun brick => (visited pass brick).all isValidCsiIdentifier

/-- The calls of some passes. -/
def callsOf : List Pass → List Call
  | [] => []
  | pass :: rest =>
    crawlCalls pass pass.environ ++ if Named pass pass.environ then crawlCalls pass pass.config ++ callsOf rest else []

/-- The state after some calls. -/
def stateAfter (calls : List Call) : Quotad := calls.foldl Quotad.handle {}

variable {pass : Pass} {brick volname : String} {q : Quotad}

theorem handleQuota_valid (h : isValidCsiIdentifier volname = true) :
    handleQuota pass brick volname q = .ok () ((callOf pass brick volname).toList.foldl Quotad.handle q) := by
  unfold handleQuota callOf
  rw [canonicalPath_eq h]
  dsimp only
  cases (pass.files brick).info.lookup (canon .subvol volname) <;> rfl

theorem handleQuota_invalid (h : isValidCsiIdentifier volname = false) : ∃ e, handleQuota pass brick volname q = .error e q := by
  unfold handleQuota
  cases hpath : canonicalPath .subvol volname with
  | error e => exact ⟨e, rfl⟩
  | ok p =>
    rw [(canonicalPath_ok.mp hpath).1] at h
    cases h

omit [VolnameHash] in
/-- A program that ends with a result exactly when `b` holds, and here it ends with an exception. -/
theorem eq_false_of_error {p : QuotaProg} {b : Bool} {e : Err} {q' : Quotad} (hok : (∃ q', p q = .ok () q') ↔ b = true)
    (h : p q = .error e q') : b = false := by
  rw [← Bool.not_eq_true, ← hok]
  rintro ⟨q'', hq''⟩
  rw [h] at hq''
  cases hq''

/-- The loops make one call after the other, up to the first invalid name. -/
theorem handleAll_calls {names : List String} :
    finalState (handleAll pass brick names q) =
        ((names.takeWhile isValidCsiIdentifier).filterMap (callOf pass brick)).foldl Quotad.handle q ∧
      ((∃ q', handleAll pass brick names q = .ok () q') ↔ names.all isValidCsiIdentifier = true) := by
  induction names generalizing q with
  | nil => exact ⟨rfl, fun _ => rfl, fun _ => ⟨q, rfl⟩⟩
  | cons name names ih =>
    cases hname : isValidCsiIdentifier name with
    | true =>
      have hstep : handleAll pass brick (name :: names) q =
          handleAll pass brick names ((callOf pass brick name).toList.foldl Quotad.handle q) := by
        show EStateM.bind (handleQuota pass brick name) _ q = _
        rw [EStateM.bind, handleQuota_valid hname]
      obtain ⟨hfinal, hok⟩ := @ih ((callOf pass brick name).toList.foldl Quotad.handle q)
      rw [hstep, hfinal, List.takeWhile_cons_of_pos hname, List.filterMap_cons, List.all_cons, hname, Bool.true_and, ← hok]
      refine ⟨?_, Iff.rfl⟩
      cases callOf pass brick name <;> rfl
    | false =>
      obtain ⟨e, he⟩ := @handleQuota_invalid _ pass brick name q hname
      have hstep : handleAll pass brick (name :: names) q = .error e q := by
        show EStateM.bind (handleQuota pass brick name) _ q = _
        rw [EStateM.bind, he]
      rw [hstep, List.takeWhile_cons_of_neg (by simp [hname]), List.all_cons, hname]
      exact ⟨rfl, nofun, nofun⟩

theorem crawl_eq : crawl pass brick = handleAll pass brick (visited pass brick) := by
  unfold crawl visited
  by_cases hempty : brick = ""
  · rw [if_pos hempty, if_pos (.inl hempty)]
    rfl
  rw [if_neg hempty]
  cases hreport : pass.report brick with
  | false =>
    rw [Bool.not_false, if_pos rfl, if_pos (show _ ∨ false = false ∨ _ from .inr (.inl rfl))]
    rfl
  | true =>
    rw [Bool.not_true, if_neg Bool.false_ne_true]
    by_cases hroot : ["subvol"] ∉ (pass.files brick).dirs
    · rw [if_pos hroot, if_pos (.inr (.inr hroot))]
      rfl
    · rw [if_neg hroot, if_neg (by simp [hempty, hroot])]

theorem crawlAll_calls {bricks : List String} :
    finalState (crawlAll pass bricks q) = (crawlCalls pass bricks).foldl Quotad.handle q ∧
      ((∃ q', crawlAll pass bricks q = .ok () q') ↔ Named pass bricks = true) := by
  induction bricks generalizing q with
  | nil => exact ⟨rfl, fun _ => rfl, fun _ => ⟨q, rfl⟩⟩
  | cons brick bricks ih =>
    obtain ⟨hfinal, hok⟩ := @handleAll_calls _ pass brick q (visited pass brick)
    have hcrawl : crawlAll pass (brick :: bricks) q = (crawl pass brick).bind (fun _ => crawlAll pass bricks) q := rfl
    rw [crawlCalls, List.foldl_append, ← hfinal, hcrawl, EStateM.bind, crawl_eq, Named, List.all_cons]
    cases hrun : handleAll pass brick (visited pass brick) q with
    | ok a q' =>
      rw [hok.mp ⟨q', hrun⟩, if_pos rfl, Bool.true_and]
      exact ih
    | error e q' =>
      rw [eq_false_of_error hok hrun]
      refine ⟨rfl, fun ⟨_, h⟩ => ?_, fun h => ?_⟩ <;> cases h

/-- A pass. -/
theorem runPass_calls : finalState (runPass pass q) =
      (crawlCalls pass pass.environ ++ if Named pass pass.environ then crawlCalls pass pass.config else []).foldl Quotad.handle q ∧
    ((∃ q', runPass pass q = .ok () q') ↔ Named pass pass.environ = true) := by
  obtain ⟨hfinal, hok⟩ := @crawlAll_calls _ pass q pass.environ
  have hpass : runPass pass q =
      (crawlAll pass pass.environ).bind (fun _ => (crawlAll pass pass.config).tryCatch fun _ => pure ()) q := rfl
  rw [hpass, EStateM.bind, List.foldl_append, ← hfinal]
  cases hrun : crawlAll pass pass.environ q with
  | ok a q' =>
    rw [hok.mp ⟨q', hrun⟩, if_pos rfl]
    dsimp only [finalState]
    rw [← (crawlAll_calls (q := q')).1, EStateM.tryCatch]
    cases crawlAll pass pass.config q' with
    | ok a q'' => exact ⟨rfl, fun _ => rfl, fun _ => ⟨q'', rfl⟩⟩
    | error e q'' => exact ⟨rfl, fun _ => rfl, fun _ => ⟨q'', rfl⟩⟩
  | error e q' =>
    rw [eq_false_of_error hok hrun]
    refine ⟨rfl, fun ⟨_, h⟩ => ?_, fun h => ?_⟩ <;> cases h

theorem start_calls (passes : List Pass) (q : Quotad) :
    finalState (start passes q) = (callsOf passes).foldl Quotad.handle q := by
  induction passes generalizing q with
  | nil => rfl
  | cons pass passes ih =>
    obtain ⟨hfinal, hok⟩ := @runPass_calls _ pass q
    have hstart : start (pass :: passes) q = (runPass pass).bind (fun _ => start passes) q := rfl
    rw [hstart, EStateM.bind, callsOf]
    cases hrun : runPass pass q with
    | ok a q' =>
      rw [hrun, hok.mp ⟨q', hrun⟩, if_pos rfl] at hfinal
      dsimp only [finalState] at hfinal
      rw [hok.mp ⟨q', hrun⟩, if_pos rfl, ← List.append_assoc, List.foldl_append, ← hfinal]
      exact ih q'
    | error e q' =>
      have hbad : ¬Named pass pass.environ = true := by rw [eq_false_of_error hok hrun]; exact Bool.false_ne_true
      rw [hrun, if_neg hbad] at hfinal
      rw [if_neg hbad]
      exact hfinal

/-- **Passes as calls.** -/
theorem runPasses_calls (passes : List Pass) : runPasses passes = stateAfter (callsOf passes) := start_calls passes {}

/-! ## Sizes and limits -/

/-- A limit of at least `n` is in force for a volume on a brick. -/
def Quotad.Limited (q : Quotad) (brick volname : String) (n : Int) : Prop :=
  ∃ l, q.limits.lookup (brick, volname) = some l ∧ n ≤ l

/-- Each recorded size is in force on every brick where a call has found metadata of the volume. -/
def Sound (q : Quotad) (calls : List Call) : Prop :=
  ∀ v s, q.sizeLimits.lookup v = some s → ∀ c ∈ calls, c.volname = v → q.Limited c.brick v s

/-- A call for a size above the recorded one sets the quota, and no call before has found metadata of the volume on another
brick. -/
def Served (calls : List Call) (c : Call) : Prop :=
  ((stateAfter calls).existingSize c.volname < c.size → c.succeeds = true) ∧
    ∀ d ∈ calls, d.volname = c.volname → d.brick = c.brick

/-- Each volume is found on one brick. -/
def OneBrick (calls : List Call) : Prop := ∀ c ∈ calls, ∀ d ∈ calls, c.volname = d.volname → c.brick = d.brick

section

omit [VolnameHash]

variable {calls : List Call} {c : Call} {v : String}

theorem stateAfter_append : stateAfter (calls ++ [c]) = (stateAfter calls).handle c := by
  rw [stateAfter, List.foldl_append]
  rfl

theorem existingSize_handle : q.existingSize v ≤ (q.handle c).existingSize v := by
  unfold Quotad.handle
  split
  · rename_i hsize
    by_cases hv : v = c.volname
    · subst hv
      rw [Quotad.existingSize, Quotad.existingSize, AList.lookup_insert]
      exact hsize.le
    · rw [Quotad.existingSize, Quotad.existingSize, AList.lookup_insert_ne hv]
  · exact le_refl _

/-- What a call finds is recorded from then on. -/
theorem size_le_existingSize (h : c ∈ calls) : c.size ≤ (stateAfter calls).existingSize c.volname := by
  induction calls using List.reverseRecOn with
  | nil => cases h
  | append_singleton calls d ih =>
    rw [stateAfter_append]
    rcases List.mem_append.mp h with h | h
    · exact (ih h).trans existingSize_handle
    · obtain rfl := List.mem_singleton.mp h
      unfold Quotad.handle
      split
      · rw [Quotad.existingSize, AList.lookup_insert]
        exact le_refl _
      · rename_i hsize
        exact not_lt.mp hsize

/-- No limit is above the recorded size. -/
theorem limit_le_existingSize {brick : String} {l : Int} (h : (stateAfter calls).limits.lookup (brick, v) = some l) :
    l ≤ (stateAfter calls).existingSize v := by
  induction calls using List.reverseRecOn generalizing l with
  | nil => cases h
  | append_singleton calls c ih =>
    rw [stateAfter_append] at h ⊢
    have hold : (stateAfter calls).limits.lookup (brick, v) = some l → l ≤ ((stateAfter calls).handle c).existingSize v :=
      fun h => (ih h).trans existingSize_handle
    unfold Quotad.handle at h
    split at h
    · rename_i hsize
      dsimp only at h
      split at h
      · by_cases hkey : (brick, v) = (c.brick, c.volname)
        · rw [hkey, AList.lookup_insert] at h
          cases h
          cases hkey
          rw [Quotad.handle, if_pos hsize, Quotad.existingSize, AList.lookup_insert]
          exact le_refl _
        · rw [AList.lookup_insert_ne hkey] at h
          exact hold h
      · exact hold h
    · exact hold h

/-- What is recorded was found by a call. -/
theorem call_of_sizeLimits {n : Int} (h : (stateAfter calls).sizeLimits.lookup v = some n) : ∃ c ∈ calls, c.volname = v := by
  induction calls using List.reverseRecOn with
  | nil => cases h
  | append_singleton calls c ih =>
    rw [stateAfter_append, Quotad.handle] at h
    split at h
    · by_cases hv : v = c.volname
      · exact ⟨c, by simp, hv.symm⟩
      · rw [AList.lookup_insert_ne hv] at h
        obtain ⟨d, hd, hname⟩ := ih h
        exact ⟨d, List.mem_append_left _ hd, hname⟩
    · obtain ⟨d, hd, hname⟩ := ih h
      exact ⟨d, List.mem_append_left _ hd, hname⟩

/-- What is limited was found by a call for the brick. -/
theorem call_of_limits {brick : String} {l : Int} (h : (stateAfter calls).limits.lookup (brick, v) = some l) :
    ∃ c ∈ calls, c.volname = v ∧ c.brick = brick := by
  induction calls using List.reverseRecOn with
  | nil => cases h
  | append_singleton calls c ih =>
    have hold : (stateAfter calls).limits.lookup (brick, v) = some l → ∃ d ∈ calls ++ [c], d.volname = v ∧ d.brick = brick :=
      fun h => (ih h).imp fun d hd => ⟨List.mem_append_left _ hd.1, hd.2⟩
    rw [stateAfter_append, Quotad.handle] at h
    split at h
    · dsimp only at h
      split at h
      · by_cases hkey : (brick, v) = (c.brick, c.volname)
        · cases hkey
          exact ⟨c, by simp, rfl, rfl⟩
        · rw [AList.lookup_insert_ne hkey] at h
          exact hold h
      · exact hold h
    · exact hold h

section Step

variable (hsize : (stateAfter calls).existingSize c.volname < c.size)

/-- The limits of the other bricks and volumes stay. -/
theorem limited_handle_ne {b u : String} {n : Int} (hne : (b, u) ≠ (c.brick, c.volname)) :
    (q.handle c).Limited b u n ↔ q.Limited b u n := by
  unfold Quotad.Limited Quotad.handle
  split
  · dsimp only
    split
    · rw [AList.lookup_insert_ne hne]
    · exact Iff.rfl
  · exact Iff.rfl

include hsize

theorem sizeLimits_handle :
    ((stateAfter calls).handle c).sizeLimits = (stateAfter calls).sizeLimits.insert c.volname c.size := by
  rw [Quotad.handle, if_pos hsize]

theorem limits_handle : ((stateAfter calls).handle c).limits = if c.succeeds then
    (stateAfter calls).limits.insert (c.brick, c.volname) c.size else (stateAfter calls).limits := by
  rw [Quotad.handle, if_pos hsize]

/-- A larger size is in force only if the command succeeds and the volume is on no other brick, where it cannot be in force yet. -/
theorem served_of_sound_larger (hsound : Sound (stateAfter (calls ++ [c])) (calls ++ [c])) : Served calls c := by
  rw [stateAfter_append] at hsound
  have hnew : ∀ d ∈ calls ++ [c], d.volname = c.volname → ((stateAfter calls).handle c).Limited d.brick c.volname c.size :=
    hsound c.volname c.size (by rw [sizeLimits_handle hsize, AList.lookup_insert])
  refine ⟨fun _ => ?_, fun d hd hv => ?_⟩
  · obtain ⟨l, hl, hle⟩ := hnew c (by simp) rfl
    by_contra hfail
    rw [limits_handle hsize, if_neg hfail] at hl
    have := limit_le_existingSize hl
    omega
  · by_contra hne
    obtain ⟨l, hl, hle⟩ := (limited_handle_ne (by simp [hne])).mp (hnew d (by simp [hd]) hv)
    have := limit_le_existingSize hl
    omega

/-- A command that succeeds brings the new size into force. -/
theorem sound_of_served_larger (h : Sound (stateAfter calls) calls) (hserved : Served calls c) :
    Sound (stateAfter (calls ++ [c])) (calls ++ [c]) := by
  rw [stateAfter_append]
  intro v s hs d hd hname
  subst hname
  by_cases hv : d.volname = c.volname
  · have hbrick : d.brick = c.brick := by
      rcases List.mem_append.mp hd with hd | hd
      · exact hserved.2 d hd hv
      · rw [List.mem_singleton.mp hd]
    rw [sizeLimits_handle hsize, hv, AList.lookup_insert] at hs
    cases hs
    rw [hv, hbrick]
    exact ⟨c.size, by rw [limits_handle hsize, if_pos (hserved.1 hsize), AList.lookup_insert], le_refl _⟩
  · rw [sizeLimits_handle hsize, AList.lookup_insert_ne hv] at hs
    refine (limited_handle_ne (by simp [hv])).mpr (h d.volname s hs d ?_ rfl)
    exact (List.mem_append.mp hd).resolve_right fun hd => hv (by rw [List.mem_singleton.mp hd])

end Step

/-- **One call.** It keeps the recorded sizes in force exactly when it is served. -/
theorem sound_step (hpos : 0 < c.size) (hone : OneBrick calls) (h : Sound (stateAfter calls) calls) :
    Sound (stateAfter (calls ++ [c])) (calls ++ [c]) ↔ Served calls c := by
  by_cases hsize : (stateAfter calls).existingSize c.volname < c.size
  · exact ⟨served_of_sound_larger hsize, sound_of_served_larger hsize h⟩
  have hstate : stateAfter (calls ++ [c]) = stateAfter calls := by rw [stateAfter_append, Quotad.handle, if_neg hsize]
  rw [hstate]
  constructor
  · intro hsound
    -- a size is recorded, so that it is in force on the brick of the call, which an earlier call has then found
    obtain ⟨s, hs⟩ : ∃ s, (stateAfter calls).sizeLimits.lookup c.volname = some s := by
      cases hs : (stateAfter calls).sizeLimits.lookup c.volname with
      | some s => exact ⟨s, rfl⟩
      | none =>
        rw [Quotad.existingSize, hs, Option.getD_none] at hsize
        omega
    obtain ⟨l, hl, -⟩ := hsound c.volname s hs c (by simp) rfl
    obtain ⟨e, he, hvolname, hbrick⟩ := call_of_limits hl
    exact ⟨fun h => absurd h hsize, fun d hd hv => (hone d hd e he (hv.trans hvolname.symm)).trans hbrick⟩
  · rintro ⟨-, hbrick⟩ v s hs d hd hv
    rcases List.mem_append.mp hd with hd | hd
    · exact h v s hs d hd hv
    · obtain rfl := List.mem_singleton.mp hd
      subst hv
      obtain ⟨e, he, hname⟩ := call_of_sizeLimits hs
      exact hbrick e he hname ▸ h d.volname s hs e he hname

/-- Calls that are served find each volume on one brick. -/
theorem oneBrick_of_served (h : ∀ done c, done ++ [c] <+: calls → Served done c) : OneBrick calls := by
  induction calls using List.reverseRecOn with
  | nil => exact fun c hc => by cases hc
  | append_singleton calls e ih =>
    have hold := ih fun done c hdone => h done c (hdone.trans (List.prefix_append _ _))
    have hlast := (h calls e (List.prefix_refl _)).2
    intro c hc d hd hv
    rcases List.mem_append.mp hc with hold₁ | hnew₁ <;> rcases List.mem_append.mp hd with hold₂ | hnew₂
    · exact hold c hold₁ d hold₂ hv
    · obtain rfl := List.mem_singleton.mp hnew₂
      exact hlast c hold₁ hv
    · obtain rfl := List.mem_singleton.mp hnew₁
      exact (hlast d hold₂ hv.symm).symm
    · rw [List.mem_singleton.mp hnew₁, List.mem_singleton.mp hnew₂]

/-- Every recorded size is in force after each call exactly when each call in turn is served. -/
theorem sound_iff_served (hpos : ∀ c ∈ calls, 0 < c.size) : (∀ done, done <+: calls → Sound (stateAfter done) done) ↔
    ∀ done c, done ++ [c] <+: calls → Served done c := by
  induction calls using List.reverseRecOn with
  | nil =>
    refine ⟨fun _ done c hdone => ?_, fun _ done hdone => ?_⟩
    · simp at hdone
    · rw [List.prefix_nil.mp hdone]
      exact fun v s hs => by cases hs
  | append_singleton calls e ih =>
    have ih := ih fun c hc => hpos c (List.mem_append_left _ hc)
    have hshorter : ∀ {done : List Call}, done <+: calls → done <+: calls ++ [e] := fun h => h.trans (List.prefix_append _ _)
    constructor
    · intro hsound done c hdone
      have hserved := ih.mp fun done hdone => hsound done (hshorter hdone)
      rcases List.prefix_concat_iff.mp hdone with heq | hdone
      · obtain ⟨rfl, hc⟩ := List.append_inj' heq rfl
        cases hc
        exact (sound_step (hpos _ (by simp)) (oneBrick_of_served hserved) (hsound done (List.prefix_append _ _))).mp
          (hsound _ (List.prefix_refl _))
      · exact hserved done c hdone
    · intro hserved done hdone
      have hold : ∀ done c, done ++ [c] <+: calls → Served done c := fun done c h => hserved done c (hshorter h)
      rcases List.prefix_concat_iff.mp hdone with rfl | hdone
      · exact (sound_step (hpos e (by simp)) (oneBrick_of_served hold) (ih.mpr hold calls (List.prefix_refl _))).mpr
          (hserved calls e (List.prefix_refl _))
      · exact ih.mpr hold done hdone

end

/-! ## Passes that succeed -/

/-- The brick has a subdirectory volume of `n` bytes. -/
def Brick.Committed (brick : Brick) (volname : String) (n : Int) : Prop :=
  0 < n ∧ ∃ p, canonicalPath .subvol volname = .ok p ∧ p ∈ brick.dirs ∧ brick.info.lookup p = some n

/-- All commands of the pass succeed. -/
def Pass.Succeeds (pass : Pass) : Prop :=
  ∀ brick ∈ pass.environ ++ pass.config, pass.report brick = true ∧ ∀ volname, pass.command brick volname = true

omit [VolnameHash] in
theorem mem_listdir {b : Brick} {dir : Path} {name : String} (h : dir ++ [name] ∈ b.dirs) : name ∈ b.listdir dir :=
  List.mem_filterMap.mpr ⟨_, h, by rw [List.dropLast_concat, if_pos rfl, List.getLast?_concat]⟩

/-- The walk finds the volumes of the plain layout. -/
theorem mem_walk {b : Brick} {n : Int} (hraw : IsRaw volname) (h : b.Committed volname n) :
    volname ∈ b.walk ∧ ["subvol"] ∈ b.dirs := by
  obtain ⟨-, p, hp, hdir, -⟩ := h
  obtain ⟨-, rfl⟩ := canonicalPath_ok.mp hp
  rw [canon, if_pos hraw, component, if_pos hraw] at hdir
  have hdir2 := b.closed _ hdir (by simp)
  have hdir1 := b.closed _ hdir2 (by simp)
  have hroot := b.closed _ hdir1 (by simp)
  refine ⟨List.mem_flatMap.mpr ⟨_, mem_listdir hdir1, List.mem_flatMap.mpr ⟨_, mem_listdir hdir2, mem_listdir hdir⟩⟩, hroot⟩

/-- The loops over the bricks make the call of each volume that a walk finds. -/
theorem mem_crawlCalls {bricks : List String} {n : Int} (hnamed : Named pass bricks = true) (hbrick : brick ∈ bricks)
    (hempty : brick ≠ "") (hreport : pass.report brick = true) (hcommand : pass.command brick volname = true)
    (hraw : IsRaw volname) (h : (pass.files brick).Committed volname n) :
    ⟨brick, volname, n, true⟩ ∈ crawlCalls pass bricks := by
  induction bricks with
  | nil => cases hbrick
  | cons b bricks ih =>
    rw [Named, List.all_cons, Bool.and_eq_true] at hnamed
    rw [crawlCalls, if_pos hnamed.1, List.mem_append]
    rcases List.mem_cons.mp hbrick with rfl | hbrick
    · left
      obtain ⟨hwalk, hroot⟩ := mem_walk hraw h
      obtain ⟨-, p, hp, -, hinfo⟩ := h
      rw [List.takeWhile_eq_self_iff.mpr (List.all_eq_true.mp hnamed.1), visited, if_neg (by simp [hempty, hreport, hroot])]
      refine List.mem_filterMap.mpr ⟨volname, hwalk, ?_⟩
      unfold callOf
      rw [hp]
      simp only [hinfo, hcommand, Option.map_some]
    · exact .inr (ih hnamed.2 hbrick)

theorem callsOf_append {passes rest : List Pass} (h : ∀ pass ∈ passes, Named pass pass.environ = true) :
    callsOf (passes ++ rest) = callsOf passes ++ callsOf rest := by
  induction passes with
  | nil => rfl
  | cons pass passes ih =>
    have hnamed := h pass List.mem_cons_self
    rw [List.cons_append, callsOf, callsOf, if_pos hnamed, if_pos hnamed, ih fun p hp => h p (List.mem_cons_of_mem _ hp)]
    simp only [List.append_assoc]

/-- The calls of the first passes are the first calls. -/
theorem callsOf_mono {passes done : List Pass} (h : done <+: passes) : callsOf done <+: callsOf passes := by
  induction done generalizing passes with
  | nil => exact List.nil_prefix
  | cons pass done ih =>
    obtain ⟨rest, rfl⟩ := h
    rw [List.cons_append, callsOf, callsOf]
    refine (List.prefix_append_right_inj _).mpr ?_
    split
    · exact (List.prefix_append_right_inj _).mpr (ih (List.prefix_append _ _))
    · exact List.prefix_refl _

theorem callOf_pos {c : Call} (h : callOf pass brick volname = some c) : 0 < c.size := by
  unfold callOf at h
  cases hp : canonicalPath .subvol volname with
  | error e => simp [hp] at h
  | ok p =>
    rw [hp] at h
    obtain ⟨n, hn, rfl⟩ := Option.map_eq_some_iff.mp h
    exact (pass.files brick).positive ⟨p, n⟩ (AList.mem_lookup_iff.mp hn)

theorem crawlCalls_pos {bricks : List String} : ∀ c ∈ crawlCalls pass bricks, 0 < c.size := by
  induction bricks with
  | nil => exact fun c hc => by cases hc
  | cons b bricks ih =>
    intro c hc
    rw [crawlCalls, List.mem_append] at hc
    rcases hc with hc | hc
    · obtain ⟨name, -, hname⟩ := List.mem_filterMap.mp hc
      exact callOf_pos hname
    · split at hc
      · exact ih c hc
      · cases hc

theorem callsOf_pos {passes : List Pass} : ∀ c ∈ callsOf passes, 0 < c.size := by
  induction passes with
  | nil => exact fun c hc => by cases hc
  | cons pass passes ih =>
    intro c hc
    rw [callsOf, List.mem_append] at hc
    rcases hc with hc | hc
    · exact crawlCalls_pos c hc
    · split at hc
      · rcases List.mem_append.mp hc with hc | hc
        · exact crawlCalls_pos c hc
        · exact ih c hc
      · cases hc

end

/-! ## Volumes without their limits -/

section

attribute [local instance] sampleHash

/-- The information of one volume of 1000 bytes. -/
def sampleInfo (p : Path) : AList fun _ : Path => Int := AList.singleton p 1000

theorem sampleInfo_positive (p : Path) : ∀ f ∈ (sampleInfo p).entries, 0 < f.2 := fun f hf => by
  rw [List.mem_singleton.mp hf]
  show (0 : Int) < 1000
  decide

/-- A brick with one volume. -/
def sampleBrick : Brick where
  info := sampleInfo ["subvol", "d3", "d3", "pvc-1"]
  positive := sampleInfo_positive _
  dirs := [["subvol"], ["subvol", "d3"], ["subvol", "d3", "d3"], ["subvol", "d3", "d3", "pvc-1"]]
  closed := by decide

/-- Before the volume a directory is listed whose name is too long for one. -/
def strayBrick : Brick where
  info := sampleInfo ["subvol", "d3", "d3", "pvc-1"]
  positive := sampleInfo_positive _
  dirs := [["subvol"], ["subvol", "d3"], ["subvol", "d3", "d3"],
    ["subvol", "d3", "d3", String.ofList (List.replicate 129 'a')], ["subvol", "d3", "d3", "pvc-1"]]
  closed := by decide +kernel

/-- A brick with a volume whose name is encoded. -/
def encodedBrick : Brick where
  info := sampleInfo ["subvol", ".kadalu-v2", "ef", "46", ".kadalu~YS9i"]
  positive := sampleInfo_positive _
  dirs := [["subvol"], ["subvol", ".kadalu-v2"], ["subvol", ".kadalu-v2", "ef"], ["subvol", ".kadalu-v2", "ef", "46"],
    ["subvol", ".kadalu-v2", "ef", "46", ".kadalu~YS9i"]]
  closed := by decide

/-- A pass over bricks with the same files. -/
def samplePass (files : Brick) (bricks : List String) (succeeds : Bool) : Pass where
  environ := []
  config := bricks
  files _ := files
  report _ := true
  command _ _ := succeeds

theorem samplePass_succeeds (files : Brick) (bricks : List String) : (samplePass files bricks true).Succeeds :=
  fun _ _ => ⟨rfl, fun _ => rfl⟩

/-- A volume without a limit. -/
def Unlimited (passes : List Pass) (brick volname : String) : Prop := (runPasses passes).limits.lookup (brick, volname) = none

instance (passes : List Pass) (brick volname : String) : Decidable (Unlimited passes brick volname) :=
  inferInstanceAs (Decidable (_ = none))

theorem Unlimited.not_limited {passes : List Pass} {brick volname : String} {n : Int} (h : Unlimited passes brick volname) :
    ¬(runPasses passes).Limited brick volname n := by
  rintro ⟨l, hl, -⟩
  rw [h] at hl
  cases hl

end

end Kadalu.Server
