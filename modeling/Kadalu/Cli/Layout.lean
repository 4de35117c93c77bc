import Kadalu.Cli.StorageAdd
import Kadalu.Data.Result
import Mathlib.Data.List.Flatten
import Mathlib.Data.List.Forall2
import Mathlib.Data.List.Perm.Basic
import Mathlib.Tactic.ByContra

/-!
# The layout that `storage-add` asks for

What a list of arguments asks for is read off its tokens alone (`asked`): groups of storage units, each with its kind of
redundancy. The command only keeps a type, the counts of a disperse type and one list of units, which the operator takes apart
again (`regroup`).

* `parserLoop_reads`: what the parser has read when its loop ends.
* `keywordGroups_taken`: the groups that it takes from units behind keywords, if each of these is of a kind it knows.
* `layout_kept`: the operator gets the groups that were asked for if and only if they are all of one kind out of six.
-/

namespace Kadalu.Cli

/-! ## What the arguments ask for -/

/-- The kind of redundancy of a group of storage units. -/
inductive Kind where
  | replica (count : Int)
  | arbiter (data count : Int)
  | disperse (data redundancy : Int)
  | external
  /-- keywords or counts that contradict each other, or that no group has -/
  | unclear
  deriving DecidableEq, Repr

/-- The storage units of a list. -/
def unitArgs : List Token → List String
  | [] => []
  | .unit name :: rest => name :: unitArgs rest
  | _ :: rest => unitArgs rest

/-- The storage units that are not directly behind a keyword; `behind` says whether the first tokens are. -/
def looseUnits (behind : Bool) : List Token → List String
  | [] => []
  | .keyword _ :: rest => looseUnits true rest
  | .number _ :: rest => looseUnits false rest
  | .unit name :: rest => if behind then looseUnits behind rest else name :: looseUnits behind rest

/-- The keywords, each with the storage units directly behind it. -/
def segments : List Token → List (Keyword × List String)
  | [] => []
  | .keyword k :: rest => (k, (leadingUnits rest).1) :: segments rest
  | _ :: rest => segments rest

/-- The counts of the keywords: the first number behind a keyword is its count, and a later one replaces it. -/
def readCounts (behind : Option Keyword) : List Token → Counts → Counts
  | [], counts => counts
  | .keyword k :: rest, counts => readCounts (some k) rest counts
  | .number n :: rest, counts => readCounts none rest
      (match behind with
        | some k => Function.update counts k n
        | none => counts)
  | .unit _ :: rest, counts => readCounts behind rest counts

def keywords : List Keyword := [.replica, .mirror, .disperse, .disperseData, .redundancy, .arbiter, .external]

def noCounts : Counts := fun _ => 0

/-- Two of the three counts of a disperse group say all three. -/
def disperseKind (disperse data redundancy : Int) : Kind :=
  if 0 < data ∧ 0 < redundancy ∧ (disperse = 0 ∨ disperse = data + redundancy) then .disperse data redundancy
  else if 0 < data ∧ data < disperse ∧ redundancy = 0 then .disperse data (disperse - data)
  else if 0 < redundancy ∧ redundancy < disperse ∧ data = 0 then .disperse (disperse - redundancy) redundancy
  else .unclear

/-- The kind that counts ask for. Of `replica 3 arbiter 1` the arbiter is one of the three, of `replica 2 arbiter 1` it is a
third. -/
def countKind (counts : Counts) : Kind :=
  let replica := counts .replica + counts .mirror
  if keywords.any (counts · < 0) ∨ counts .external ≠ 0 then .unclear
  else if counts .disperse = 0 ∧ counts .disperseData = 0 ∧ counts .redundancy = 0 then
    if counts .arbiter = 0 then .replica (if replica = 0 then 1 else replica)
    else if replica = 0 then .unclear
    else if replica = 2 then .arbiter 2 (counts .arbiter)
    else .arbiter (replica - counts .arbiter) (counts .arbiter)
  else if replica = 0 ∧ counts .arbiter = 0 then
    disperseKind (counts .disperse) (counts .disperseData) (counts .redundancy)
  else .unclear

/-- The kind of a group of units behind their keywords; three units behind `arbiter` are an arbiter group. -/
def unitsKind (units : Units) : Kind :=
  let replica := (units .replica).length + (units .mirror).length
  if (units .disperse).length = 0 ∧ (units .disperseData).length = 0 ∧ (units .redundancy).length = 0 then
    if replica = 0 then (if (units .arbiter).length = 3 then .arbiter 2 1 else .unclear)
    else if (units .arbiter).length = 0 then .replica replica
    else .arbiter replica (units .arbiter).length
  else if replica = 0 ∧ (units .arbiter).length = 0 ∧ (units .disperse).length = 0 ∧ (units .disperseData).length ≠ 0 ∧
      (units .redundancy).length ≠ 0 then
    .disperse (units .disperseData).length (units .redundancy).length
  else .unclear

/-- The number of units in a group. -/
def Kind.size : Kind → Nat
  | replica count => count.toNat
  | arbiter data count => (data + count).toNat
  | disperse data redundancy => (data + redundancy).toNat
  | external => 1
  | unclear => 1

/-- The units of a group, those that carry the data first. -/
def groupUnits (units : Units) : List String :=
  units .replica ++ units .mirror ++ units .arbiter ++ units .disperse ++ units .disperseData ++ units .redundancy

/-- A keyword starts a new group if it has units already, or if the units so far are of another family. -/
def startsGroup (units : Units) (k : Keyword) : Bool := units k ≠ [] ∨ differentTypeExists units k = true

/-- The groups of units behind their keywords. -/
def unitGroups (units : Units) : List (Keyword × List String) → List Units
  | [] => if groupUnits units = [] then [] else [units]
  | (k, names) :: rest =>
    if startsGroup units k then units :: unitGroups (Function.update resetStorageUnits k names) rest
    else unitGroups (Function.update units k (units k ++ names)) rest

/-- The units behind the keyword `external`. -/
def externalUnits (tokens : List Token) : List String :=
  ((segments tokens).filter fun s => s.1 = .external).flatMap Prod.snd

/-- The other keywords, with the units behind them. -/
def nativeSegments (tokens : List Token) : List (Keyword × List String) := (segments tokens).filter fun s => s.1 ≠ .external

/-- A kind that was found of units, if the counts do not contradict it. -/
def confirmed (counts : Counts) (kind : Kind) : Kind :=
  if keywords.all (counts · = 0) ∨ countKind counts = kind then kind else .unclear

/-- The groups that the arguments ask for. Units in both syntaxes are not one request. -/
def asked (tokens : List Token) : List (List String × Kind) :=
  let counts := readCounts none tokens noCounts
  let loose := looseUnits false tokens
  let native := (nativeSegments tokens).flatMap Prod.snd
  if loose ≠ [] then
    if externalUnits tokens = [] ∧ native = [] then (chunks (countKind counts).size loose).map (·, countKind counts)
    else [(unitArgs tokens, .unclear)]
  else if externalUnits tokens ≠ [] then
    if native = [] ∧ (externalUnits tokens).length = 1 then [(externalUnits tokens, confirmed counts .external)]
    else [(unitArgs tokens, .unclear)]
  else (unitGroups resetStorageUnits (nativeSegments tokens)).map fun units =>
    (groupUnits units, confirmed counts (unitsKind units))

/-! ## What the operator gets -/

/-- The kind of the groups of a type. -/
def typeKind (data redundancy : Int) : StorageType → Kind
  | .replica1 => .replica 1
  | .replica2 => .replica 2
  | .replica3 => .replica 3
  | .arbiter => .arbiter 2 1
  | .disperse => .disperse data redundancy
  | .external => .external

/-- The groups of the operator: consecutive units, as many as a group of the type has. -/
def regroup (type : StorageType) (data redundancy : Int) (units : List String) : List (List String × Kind) :=
  (chunks (typeKind data redundancy type).size units).map (·, typeKind data redundancy type)

/-- The operator gets every unit once, in the groups that were asked for. -/
structure Faithful (tokens : List Token) (groups : List DistributeGroup) (args : Args) : Prop where
  units : (getAllStorageUnits groups).Perm (unitArgs tokens)
  groups : ∃ type, args.type = some type ∧
    regroup type args.disperseData args.disperseRedundancy (getAllStorageUnits groups) = asked tokens

/-- The kinds that the command can pass on. -/
def passedKinds : List Kind := [.replica 1, .replica 2, .replica 3, .arbiter 2 1, .disperse 2 1, .external]

/-- All groups that are asked for are of one kind that the command can pass on. -/
def Passable (tokens : List Token) : Prop := ∃ kind ∈ passedKinds, ∀ g ∈ asked tokens, g.2 = kind

/-! ## The parser -/

section

variable {fuel : Nat} {tokens rest : List Token} {p p' : Parsing} {behind : Option Keyword} {counts : Counts}

theorem looseUnits_leading (rest : List Token) : looseUnits true rest = looseUnits true (leadingUnits rest).2 := by
  induction rest with
  | nil => rfl
  | cons token rest ih =>
    cases token with
    | unit name => exact ih
    | keyword k => rfl
    | number n => rfl

theorem segments_leading (rest : List Token) : segments rest = segments (leadingUnits rest).2 := by
  induction rest with
  | nil => rfl
  | cons token rest ih =>
    cases token with
    | unit name => exact ih
    | keyword k => rfl
    | number n => rfl

theorem readCounts_leading (behind : Option Keyword) (rest : List Token) (counts : Counts) :
    readCounts behind rest counts = readCounts behind (leadingUnits rest).2 counts := by
  induction rest with
  | nil => rfl
  | cons token rest ih =>
    cases token with
    | unit name => exact ih
    | keyword k => rfl
    | number n => rfl

theorem looseUnits_keyword (b : Bool) (k : Keyword) (rest : List Token) :
    looseUnits b (.keyword k :: rest) = looseUnits true (leadingUnits rest).2 := looseUnits_leading rest

theorem segments_keyword (k : Keyword) (rest : List Token) :
    segments (.keyword k :: rest) = (k, (leadingUnits rest).1) :: segments (leadingUnits rest).2 :=
  congrArg _ (segments_leading rest)

theorem readCounts_keyword (behind : Option Keyword) (k : Keyword) (rest : List Token) (counts : Counts) :
    readCounts behind (.keyword k :: rest) counts = readCounts (some k) (leadingUnits rest).2 counts :=
  readCounts_leading _ rest counts

/-- What is left after the leading units begins with another token. -/
theorem leadingUnits_rest (rest : List Token) (name : String) (rest' : List Token) :
    (leadingUnits rest).2 ≠ .unit name :: rest' := by
  induction rest with
  | nil => simp [leadingUnits]
  | cons token rest ih =>
    cases token with
    | unit name' => exact ih
    | keyword k => simp [leadingUnits]
    | number n => simp [leadingUnits]

/-- At a number the loop does not go on once `skip_token_next` is set. -/
theorem parserLoop_stuck (fuel : Nat) (n : Int) (rest : List Token) (hskip : p.skipTokenNext = true) :
    parserLoop fuel (.number n :: rest) p ≠ some p' := by
  induction fuel with
  | zero => exact nofun
  | succ fuel ih =>
    rw [parserLoop, if_pos hskip]
    exact ih

/-- At a unit that is not directly behind a keyword neither. -/
theorem parserLoop_stuck_unit (fuel : Nat) (name : String) (rest : List Token) (hskip : p.skipTokenNext = true) :
    parserLoop fuel (.unit name :: rest) p ≠ some p' := by
  induction fuel generalizing p with
  | zero => exact nofun
  | succ fuel ih =>
    rw [parserLoop]
    dsimp only
    rw [if_pos hskip]
    exact ih hskip

/-- What the parser has read: the loose units, the counts, and the segments one after the other. -/
structure Reads (tokens : List Token) (p p' : Parsing) : Prop where
  all : p'.all = p.all ++ looseUnits false tokens
  counts : p'.counts = readCounts none tokens p.counts
  segments : (p'.groups, p'.units) = (segments tokens).foldl takeKeyword (p.groups, p.units)

/-- A keyword with the units behind it, and then what is left. -/
theorem reads_keyword {q : Parsing} {k : Keyword} (h : Reads tokens q p') (hall : q.all = p.all)
    (htaken : (q.groups, q.units) = takeKeyword (p.groups, p.units) (k, (leadingUnits rest).1))
    (hloose : looseUnits false tokens = looseUnits true (leadingUnits rest).2)
    (hcounts : readCounts none tokens q.counts = readCounts (some k) (leadingUnits rest).2 p.counts)
    (hsegments : segments tokens = segments (leadingUnits rest).2) : Reads (.keyword k :: rest) p p' := by
  refine ⟨?_, ?_, ?_⟩
  · rw [h.all, hall, hloose, looseUnits_keyword]
  · rw [h.counts, hcounts, readCounts_keyword]
  · rw [h.segments, hsegments, segments_keyword, List.foldl_cons, htaken]

/-- **The parser's reading.** If the loop ends it has read all tokens. -/
theorem parserLoop_reads (h : parserLoop fuel tokens p = some p') : Reads tokens p p' := by
  induction fuel generalizing tokens p with
  | zero => cases h
  | succ fuel ih =>
    cases tokens with
    | nil =>
      obtain rfl := Option.some.inj h
      exact ⟨by simp [looseUnits], rfl, rfl⟩
    | cons token rest =>
      cases token with
      | number n =>
        rw [parserLoop] at h
        by_cases hskip : p.skipTokenNext = true
        · rw [if_pos hskip] at h
          exact absurd h (parserLoop_stuck fuel n rest hskip)
        · rw [if_neg hskip] at h
          exact ⟨(ih h).all, (ih h).counts, (ih h).segments⟩
      | unit name =>
        rw [parserLoop] at h
        dsimp only at h
        by_cases hskip : p.skipTokenNext = true
        · rw [if_pos hskip] at h
          exact absurd h (parserLoop_stuck_unit fuel name rest hskip)
        · rw [if_neg hskip] at h
          refine ⟨?_, (ih h).counts, (ih h).segments⟩
          rw [(ih h).all, List.append_assoc]
          rfl
      | keyword k =>
        rw [parserLoop] at h
        dsimp only at h
        split at h
        · next hrest => exact reads_keyword (ih h) rfl rfl (by rw [hrest]; rfl) (by rw [hrest]; rfl) (by rw [hrest])
        · next n rest' hrest =>
          by_cases hskip : p.skipTokenNext = true
          · rw [if_pos hskip] at h
            exact absurd h (parserLoop_stuck fuel n rest' hskip)
          · rw [if_neg hskip] at h
            exact reads_keyword (ih h) rfl rfl (by rw [hrest]; rfl) (by rw [hrest]; rfl) (by rw [hrest]; rfl)
        · next token rest' hnumber hrest =>
          -- the next token is a keyword, with which nothing is behind this one
          obtain ⟨k', rfl⟩ : ∃ k', token = .keyword k' := by
            cases token with
            | keyword k' => exact ⟨k', rfl⟩
            | number n => exact absurd rfl (hnumber n)
            | unit name => exact absurd hrest (leadingUnits_rest rest name rest')
          exact reads_keyword (ih h) rfl rfl (by rw [hrest]; rfl) (by rw [hrest]; rfl) (by rw [hrest])

end

/-! ## Parts of a list -/

section

variable {α : Type} {size : Nat}

theorem slices_flatten (hsize : 0 < size) (fuel : Nat) (l : List α) (h : l.length ≤ fuel) :
    (slices size fuel l).flatten = l := by
  induction fuel generalizing l with
  | zero =>
    rw [List.length_eq_zero_iff.mp (Nat.le_zero.mp h)]
    rfl
  | succ fuel ih =>
    cases l with
    | nil => rfl
    | cons x xs =>
      rw [slices, List.flatten_cons, ih, List.take_append_drop]
      rw [List.length_drop]
      rw [List.length_cons] at h ⊢
      omega

theorem chunks_flatten (hsize : 0 < size) (l : List α) : (chunks size l).flatten = l :=
  slices_flatten hsize l.length l (Nat.le_refl _)

theorem slices_flatten_eq (hsize : 0 < size) (fuel : Nat) (groups : List (List α)) (h : ∀ g ∈ groups, g.length = size)
    (hfuel : groups.flatten.length ≤ fuel) : slices size fuel groups.flatten = groups := by
  induction groups generalizing fuel with
  | nil => cases fuel <;> rfl
  | cons g groups ih =>
    have hg := h g (List.mem_cons_self ..)
    obtain ⟨x, xs, rfl⟩ := List.exists_cons_of_length_pos (hg ▸ hsize)
    rw [List.flatten_cons, List.length_append] at hfuel
    cases fuel with
    | zero => omega
    | succ fuel =>
      have hnext := ih fuel (fun g hg => h g (List.mem_cons_of_mem _ hg)) (by omega)
      rw [List.flatten_cons, List.cons_append, slices, ← List.cons_append, List.take_left' hg, List.drop_left' hg, hnext]

/-- Groups of one size are found again. -/
theorem chunks_flatten_eq (hsize : 0 < size) (groups : List (List α)) (h : ∀ g ∈ groups, g.length = size) :
    chunks size groups.flatten = groups :=
  slices_flatten_eq hsize _ groups h (Nat.le_refl _)

theorem chunks_ne_nil {l : List α} (hl : l ≠ []) : chunks size l ≠ [] := by
  cases l with
  | nil => exact absurd rfl hl
  | cons x xs => simp [chunks, slices]

end

/-! ## No unit is lost -/

theorem unitArgs_perm (b : Bool) (tokens : List Token) :
    (unitArgs tokens).Perm
      ((if b then (leadingUnits tokens).1 else []) ++ looseUnits b tokens ++ (segments tokens).flatMap Prod.snd) := by
  induction tokens generalizing b with
  | nil => cases b <;> exact .nil
  | cons token rest ih =>
    cases token with
    | number n =>
      refine (ih false).trans ?_
      cases b <;> exact .refl _
    | keyword k =>
      refine (ih true).trans ?_
      rw [segments, List.flatMap_cons, looseUnits]
      have hswap : ((leadingUnits rest).1 ++ looseUnits true rest ++ (segments rest).flatMap Prod.snd).Perm
          (looseUnits true rest ++ ((leadingUnits rest).1 ++ (segments rest).flatMap Prod.snd)) := by
        rw [← List.append_assoc]
        exact (List.perm_append_comm).append_right _
      cases b <;> exact hswap
    | unit name =>
      cases b with
      | true => exact (ih true).cons name
      | false => exact (ih false).cons name

theorem segments_perm (tokens : List Token) :
    ((segments tokens).flatMap Prod.snd).Perm (externalUnits tokens ++ (nativeSegments tokens).flatMap Prod.snd) := by
  have hfilter := (List.filter_append_perm (fun s : Keyword × List String => decide (s.1 = .external)) (segments tokens)).symm
  have hflat := hfilter.flatMap_right Prod.snd
  rw [List.flatMap_append] at hflat
  have hnot : (segments tokens).filter (fun s => !decide (s.1 = .external)) = nativeSegments tokens :=
    List.filter_congr fun s _ => (decide_not ..).symm
  rw [hnot] at hflat
  exact hflat

/-- Every unit is loose, behind `external`, or behind another keyword. -/
theorem unitArgs_parts (tokens : List Token) :
    (unitArgs tokens).Perm
      (looseUnits false tokens ++ (externalUnits tokens ++ (nativeSegments tokens).flatMap Prod.snd)) :=
  (unitArgs_perm false tokens).trans ((segments_perm tokens).append_left _)

theorem groupUnits_update {units : Units} {k : Keyword} (hk : k ≠ .external) (names : List String) :
    (groupUnits (Function.update units k (units k ++ names))).Perm (groupUnits units ++ names) := by
  rw [List.perm_iff_count]
  intro name
  cases k
  case external => exact absurd rfl hk
  all_goals
    simp only [groupUnits, Function.update, List.count_append, reduceCtorEq, dite_false, dite_true]
    omega

theorem unitGroups_perm (segs : List (Keyword × List String)) (units : Units) (h : ∀ s ∈ segs, s.1 ≠ .external) :
    ((unitGroups units segs).flatMap groupUnits).Perm (groupUnits units ++ segs.flatMap Prod.snd) := by
  induction segs generalizing units with
  | nil =>
    rw [unitGroups]
    split
    · next hnil => rw [hnil]; exact .nil
    · simp
  | cons s segs ih =>
    obtain ⟨k, names⟩ := s
    have hk : k ≠ .external := h (k, names) (List.mem_cons_self ..)
    have hsegs : ∀ s ∈ segs, s.1 ≠ .external := fun s hs => h s (List.mem_cons_of_mem _ hs)
    have hadd : ∀ units : Units, ((unitGroups (Function.update units k (units k ++ names)) segs).flatMap groupUnits).Perm
        (groupUnits units ++ (names ++ segs.flatMap Prod.snd)) := fun units => by
      rw [← List.append_assoc]
      exact (ih _ hsegs).trans ((groupUnits_update hk names).append_right _)
    rw [unitGroups, List.flatMap_cons]
    split
    · rw [List.flatMap_cons]
      exact (hadd resetStorageUnits).append_left _
    · exact hadd units

/-! ## Kinds -/

/-- The counts that ask for a kind that can be passed on. -/
inductive CountsFor (c : Counts) : Kind → Prop where
  | none (hr : c .replica = 0) (hm : c .mirror = 0) (ha : c .arbiter = 0) (hd : c .disperse = 0) (hdata : c .disperseData = 0)
    (hred : c .redundancy = 0) : CountsFor c (.replica 1)
  | replica (hr : 0 ≤ c .replica) (hm : 0 ≤ c .mirror) (hpos : 0 < c .replica + c .mirror) (hle : c .replica + c .mirror ≤ 3)
    (ha : c .arbiter = 0) (hd : c .disperse = 0) (hdata : c .disperseData = 0) (hred : c .redundancy = 0) :
    CountsFor c (.replica (c .replica + c .mirror))
  | arbiter (hr : 0 ≤ c .replica) (hm : 0 ≤ c .mirror) (hsum : c .replica + c .mirror = 2 ∨ c .replica + c .mirror = 3)
    (ha : c .arbiter = 1) (hd : c .disperse = 0) (hdata : c .disperseData = 0) (hred : c .redundancy = 0) :
    CountsFor c (.arbiter 2 1)
  | disperse (hr : c .replica = 0) (hm : c .mirror = 0) (ha : c .arbiter = 0)
    (hdisperse : disperseAndRedundancyCount (c .disperse) (c .disperseData) (c .redundancy) = (3, 1))
    (hsome : c .disperse > 0 ∨ c .disperseData > 0 ∨ c .redundancy > 0) : CountsFor c (.disperse 2 1)

theorem disperseKind_passed {d data red : Int} (h : disperseKind d data red ∈ passedKinds) :
    disperseKind d data red = .disperse 2 1 ∧ disperseAndRedundancyCount d data red = (3, 1) ∧
      (d > 0 ∨ data > 0 ∨ red > 0) := by
  unfold disperseKind at h ⊢
  unfold disperseAndRedundancyCount
  split
  · next hc =>
    rw [if_pos hc] at h
    simp only [passedKinds, List.mem_cons, reduceCtorEq, Kind.disperse.injEq, List.not_mem_nil, false_or, or_false] at h
    obtain ⟨rfl, rfl⟩ := h
    simp
  next hc =>
  rw [if_neg hc] at h
  split
  · next hc' =>
    rw [if_pos hc'] at h
    simp only [passedKinds, List.mem_cons, reduceCtorEq, Kind.disperse.injEq, List.not_mem_nil, false_or, or_false] at h
    obtain ⟨rfl, hred⟩ := h
    obtain rfl : d = 3 := by omega
    obtain ⟨-, -, rfl⟩ := hc'
    simp
  next hc' =>
  rw [if_neg hc'] at h
  split
  · next hc'' =>
    rw [if_pos hc''] at h
    simp only [passedKinds, List.mem_cons, reduceCtorEq, Kind.disperse.injEq, List.not_mem_nil, false_or, or_false] at h
    obtain ⟨hdata, rfl⟩ := h
    obtain rfl : d = 3 := by omega
    obtain ⟨-, -, rfl⟩ := hc''
    simp
  next hc'' =>
  rw [if_neg hc''] at h
  simp [passedKinds] at h

theorem countKind_cases {c : Counts} (h : countKind c ∈ passedKinds) : CountsFor c (countKind c) := by
  unfold countKind at h ⊢
  dsimp only at h ⊢
  split at h
  · simp [passedKinds] at h
  next hneg =>
  rw [if_neg hneg]
  have hall : ∀ k ∈ keywords, 0 ≤ c k := by
    intro k hk
    by_contra hlt
    exact hneg (.inl (List.any_eq_true.mpr ⟨k, hk, decide_eq_true (by omega)⟩))
  have hr := hall .replica (by simp [keywords])
  have hm := hall .mirror (by simp [keywords])
  split at h
  · next hd =>
    obtain ⟨hd, hdata, hred⟩ := hd
    rw [if_pos ⟨hd, hdata, hred⟩]
    split at h
    · next ha =>
      rw [if_pos ha]
      by_cases hzero : c .replica + c .mirror = 0
      · rw [if_pos hzero]
        exact .none (by omega) (by omega) ha hd hdata hred
      · rw [if_neg hzero] at h ⊢
        simp only [passedKinds, List.mem_cons, Kind.replica.injEq, reduceCtorEq, List.not_mem_nil, or_false] at h
        exact .replica hr hm (by omega) (by omega) ha hd hdata hred
    next ha =>
    rw [if_neg ha]
    split at h
    · simp [passedKinds] at h
    next hzero =>
    rw [if_neg hzero]
    split at h
    · next htwo =>
      simp only [passedKinds, List.mem_cons, Kind.arbiter.injEq, reduceCtorEq, List.not_mem_nil, or_false, false_or,
        true_and] at h
      rw [if_pos htwo, h]
      exact .arbiter hr hm (.inl htwo) h hd hdata hred
    · next htwo =>
      simp only [passedKinds, List.mem_cons, Kind.arbiter.injEq, reduceCtorEq, List.not_mem_nil, or_false, false_or] at h
      rw [if_neg htwo, h.1, h.2]
      exact .arbiter hr hm (by omega) h.2 hd hdata hred
  next hd =>
  rw [if_neg hd]
  split at h
  · next hzero =>
    rw [if_pos hzero]
    obtain ⟨heq, hcode, hsome⟩ := disperseKind_passed h
    rw [heq]
    exact .disperse (by omega) (by omega) hzero.2 hcode hsome
  · simp [passedKinds] at h

theorem CountsFor.groups {c : Counts} {kind : Kind} (h : CountsFor c kind) (names : List String) :
    0 < getSubvolSize c ∧
      typeKind ((countGroup c names).disperseCount - (countGroup c names).redundancyCount)
        (countGroup c names).redundancyCount (groupType (countGroup c names)) = kind := by
  cases h with
  | none hr hm ha hd hdata hred =>
    simp [getSubvolSize, countGroup, groupType, typeKind, hr, hm, ha, hd, hdata, hred, disperseAndRedundancyCount]
  | replica hr hm hpos hle ha hd hdata hred =>
    have hsize : c .replica > 0 ∨ c .mirror > 0 := by omega
    have hsum : c .replica + c .mirror = 1 ∨ c .replica + c .mirror = 2 ∨ c .replica + c .mirror = 3 := by omega
    rcases hsum with hsum | hsum | hsum <;>
      simp [getSubvolSize, countGroup, groupType, typeKind, hsize, ha, hd, hdata, hred, hsum, disperseAndRedundancyCount]
  | arbiter hr hm hsum ha hd hdata hred =>
    have hsize : c .replica > 0 ∨ c .mirror > 0 := by omega
    have hpos : 0 < c .replica + c .mirror + 1 := by omega
    simp [getSubvolSize, countGroup, groupType, typeKind, hsize, ha, hpos]
  | disperse hr hm ha hdisperse hsome =>
    simp [getSubvolSize, countGroup, groupType, typeKind, hr, hm, ha, hdisperse, hsome]

/-- The units that are of a kind that can be passed on. -/
inductive UnitsFor (units : Units) : Kind → Prop where
  | replica (hpos : 0 < (units .replica).length + (units .mirror).length)
    (hle : (units .replica).length + (units .mirror).length ≤ 3) (ha : units .arbiter = []) (hd : units .disperse = [])
    (hdata : units .disperseData = []) (hred : units .redundancy = []) :
    UnitsFor units (.replica ((units .replica).length + (units .mirror).length))
  | arbiter (hsum : (units .replica).length + (units .mirror).length = 2) (ha : (units .arbiter).length = 1)
    (hd : units .disperse = []) (hdata : units .disperseData = []) (hred : units .redundancy = []) :
    UnitsFor units (.arbiter 2 1)
  | onlyArbiter (hr : units .replica = []) (hm : units .mirror = []) (ha : (units .arbiter).length = 3)
    (hd : units .disperse = []) (hdata : units .disperseData = []) (hred : units .redundancy = []) :
    UnitsFor units (.arbiter 2 1)
  | disperse (hr : units .replica = []) (hm : units .mirror = []) (ha : units .arbiter = []) (hd : units .disperse = [])
    (hdata : (units .disperseData).length = 2) (hred : (units .redundancy).length = 1) : UnitsFor units (.disperse 2 1)

theorem unitsKind_cases {units : Units} (h : unitsKind units ∈ passedKinds) : UnitsFor units (unitsKind units) := by
  unfold unitsKind at h ⊢
  dsimp only at h ⊢
  split at h
  · next hd =>
    rw [if_pos hd]
    obtain ⟨hd, hdata, hred⟩ := hd
    rw [List.length_eq_zero_iff] at hd hdata hred
    split at h
    · next hzero =>
      rw [if_pos hzero]
      have hr : units .replica = [] := List.length_eq_zero_iff.mp (by omega)
      have hm : units .mirror = [] := List.length_eq_zero_iff.mp (by omega)
      split at h
      · next ha =>
        rw [if_pos ha]
        exact .onlyArbiter hr hm ha hd hdata hred
      · simp [passedKinds] at h
    next hzero =>
    rw [if_neg hzero]
    split at h
    · next ha =>
      rw [if_pos ha]
      simp only [passedKinds, List.mem_cons, Kind.replica.injEq, reduceCtorEq, List.not_mem_nil, or_false] at h
      rw [Int.natCast_add]
      exact .replica (by omega) (by omega) (List.length_eq_zero_iff.mp ha) hd hdata hred
    · next ha =>
      simp only [passedKinds, List.mem_cons, Kind.arbiter.injEq, reduceCtorEq, List.not_mem_nil, or_false, false_or] at h
      rw [if_neg ha, h.1, h.2]
      exact .arbiter (by omega) (by omega) hd hdata hred
  next hd =>
  rw [if_neg hd]
  split at h
  · next hc =>
    simp only [passedKinds, List.mem_cons, Kind.disperse.injEq, reduceCtorEq, List.not_mem_nil, or_false, false_or] at h
    rw [if_pos hc, h.1, h.2]
    obtain ⟨hzero, ha, hd, -, -⟩ := hc
    exact .disperse (List.length_eq_zero_iff.mp (by omega)) (List.length_eq_zero_iff.mp (by omega))
      (List.length_eq_zero_iff.mp ha) (List.length_eq_zero_iff.mp hd) (by omega) (by omega)
  · simp [passedKinds] at h

/-- The group that the parser takes of units of such a kind: it has all of them, and the type of the kind. -/
structure TakenAs (kind : Kind) (units : Units) (group : DistributeGroup) : Prop where
  storageUnits : group.storageUnits = groupUnits units
  size : (groupUnits units).length = kind.size
  kind : typeKind (group.disperseCount - group.redundancyCount) group.redundancyCount (groupType group) = kind

theorem UnitsFor.taken {units : Units} {kind : Kind} (h : UnitsFor units kind) (hext : units .external = []) (last : Bool) :
    ∃ group, keywordGroup units last = some group ∧ TakenAs kind units group := by
  have hlast : ¬(last = true ∧ units .external ≠ []) := fun hc => hc.2 hext
  unfold keywordGroup
  rw [if_neg hlast]
  cases h with
  | replica hpos hle ha hd hdata hred =>
    have hsome : units .replica ≠ [] ∨ units .mirror ≠ [] := by
      simp only [← List.length_pos_iff]
      omega
    rw [if_pos hsome]
    refine ⟨_, rfl, by simp [groupUnits, hd, hdata, hred], ?_, ?_⟩
    · simp only [groupUnits, ha, hd, hdata, hred, List.append_nil, List.length_append, Kind.size]
      omega
    · have hsum : (units .replica).length + (units .mirror).length = 1 ∨
          (units .replica).length + (units .mirror).length = 2 ∨ (units .replica).length + (units .mirror).length = 3 := by
        omega
      rw [← Int.natCast_add]
      rcases hsum with hsum | hsum | hsum <;> simp [groupType, typeKind, ha, hsum]
  | arbiter hsum ha hd hdata hred =>
    have hsome : units .replica ≠ [] ∨ units .mirror ≠ [] := by
      simp only [← List.length_pos_iff]
      omega
    rw [if_pos hsome]
    refine ⟨_, rfl, by simp [groupUnits, hd, hdata, hred], ?_, ?_⟩
    · simp only [groupUnits, hd, hdata, hred, List.append_nil, List.length_append, Kind.size]
      omega
    · simp [groupType, typeKind, ha]
  | onlyArbiter hr hm ha hd hdata hred =>
    rw [if_neg (by simp [hr, hm]), if_pos ha]
    refine ⟨_, rfl, by simp [groupUnits, hr, hm, hd, hdata, hred], ?_, ?_⟩
    · simp [groupUnits, hr, hm, hd, hdata, hred, ha, Kind.size]
    · simp [groupType, typeKind]
  | disperse hr hm ha hd hdata hred =>
    have hsome : units .disperse ≠ [] ∨ units .disperseData ≠ [] := by
      simp only [← List.length_pos_iff]
      omega
    rw [if_neg (by simp [hr, hm]), if_neg (by simp [ha]), if_pos hsome]
    refine ⟨_, rfl, by simp [groupUnits, hr, hm, ha], ?_, ?_⟩
    · simp [groupUnits, hr, hm, ha, hd, hdata, hred, Kind.size]
    · simp [groupType, typeKind, hdata, hred, disperseAndRedundancyCount]

/-! ## Units behind keywords -/

theorem takeKeyword_same {groups : List DistributeGroup} {units : Units} {k : Keyword} (names : List String)
    (h : startsGroup units k = false) :
    takeKeyword (groups, units) (k, names) = (groups, Function.update units k (units k ++ names)) := by
  have hnone : distributeGroup units (some k) = none := by
    simp only [startsGroup, ne_eq, decide_eq_false_iff_not, not_or, not_not, Bool.not_eq_true] at h
    exact if_pos h
  simp only [takeKeyword, hnone]

theorem takeKeyword_new {groups : List DistributeGroup} {units : Units} {k : Keyword} {group : DistributeGroup}
    (names : List String) (h : startsGroup units k = true) (hgroup : keywordGroup units false = some group) :
    takeKeyword (groups, units) (k, names) = (groups ++ [group], Function.update resetStorageUnits k names) := by
  have hsome : distributeGroup units (some k) = some group := by
    simp only [startsGroup, ne_eq, decide_eq_true_eq] at h
    refine (if_neg ?_).trans hgroup
    rintro ⟨hnil, hfamily⟩
    rw [hfamily] at h
    exact h.elim (fun h => h hnil) nofun
  simp only [takeKeyword, hsome, resetStorageUnits, List.nil_append]

/-- What the parser makes of the rest of the keywords. -/
theorem keywordGroups_taken {kind : Kind} (hkind : kind ∈ passedKinds) (segs : List (Keyword × List String))
    (groups : List DistributeGroup) (units : Units) (hext : units .external = [])
    (hsegs : ∀ s ∈ segs, s.1 = .external → s.2 = [])
    (hkinds : ∀ u ∈ unitGroups units (segs.filter fun s => s.1 ≠ .external), unitsKind u = kind) :
    ∃ taken, List.Forall₂ (TakenAs kind) (unitGroups units (segs.filter fun s => s.1 ≠ .external)) taken ∧
      (segs.foldl takeKeyword (groups, units)).1 ++
        (distributeGroup (segs.foldl takeKeyword (groups, units)).2 none).toList = groups ++ taken := by
  induction segs generalizing groups units with
  | nil =>
    rw [List.filter_nil, unitGroups] at hkinds ⊢
    split at hkinds
    · next hnil =>
      rw [if_pos hnil]
      have hparts : units .replica = [] ∧ units .mirror = [] ∧ units .arbiter = [] ∧ units .disperse = [] ∧
          units .disperseData = [] ∧ units .redundancy = [] := by
        simpa [groupUnits, and_assoc] using hnil
      refine ⟨[], .nil, ?_⟩
      simp [distributeGroup, keywordGroup, hext, hparts]
    · next hsome =>
      rw [if_neg hsome]
      have hunits := hkinds units (List.mem_singleton_self _)
      obtain ⟨group, hgroup, htaken⟩ := (hunits ▸ unitsKind_cases (hunits ▸ hkind)).taken hext true
      refine ⟨[group], .cons htaken .nil, ?_⟩
      simp [distributeGroup, hgroup]
  | cons s segs ih =>
    obtain ⟨k, names⟩ := s
    have hsegs' : ∀ s ∈ segs, s.1 = .external → s.2 = [] := fun s hs => hsegs s (List.mem_cons_of_mem _ hs)
    rw [List.foldl_cons]
    by_cases hk : k = .external
    · subst hk
      have hnames : names = [] := hsegs (.external, names) (List.mem_cons_self ..) rfl
      subst hnames
      rw [List.filter_cons_of_neg (by simp)] at hkinds ⊢
      rw [takeKeyword_same _ (by simp [startsGroup, hext, differentTypeExists]), List.append_nil, Function.update_eq_self]
      exact ih groups units hext hsegs' hkinds
    · rw [List.filter_cons_of_pos (by simpa using hk)] at hkinds ⊢
      rw [unitGroups] at hkinds ⊢
      split at hkinds
      · next hstarts =>
        rw [if_pos hstarts]
        have hunits := hkinds units (List.mem_cons_self ..)
        obtain ⟨group, hgroup, htaken⟩ := (hunits ▸ unitsKind_cases (hunits ▸ hkind)).taken hext false
        rw [takeKeyword_new names hstarts hgroup]
        obtain ⟨taken, hall, heq⟩ := ih (groups ++ [group]) (Function.update resetStorageUnits k names)
          (by rw [Function.update_of_ne (Ne.symm hk)]; rfl) hsegs' fun u hu => hkinds u (List.mem_cons_of_mem _ hu)
        exact ⟨group :: taken, .cons htaken hall, by rw [heq, List.append_assoc]; rfl⟩
      · next hsame =>
        rw [if_neg hsame]
        rw [takeKeyword_same names (by simpa using hsame)]
        exact ih groups _ (by rw [Function.update_of_ne (Ne.symm hk), hext]) hsegs' hkinds

/-- Only units behind `external`: they are kept to the end. -/
theorem externalUnits_taken (segs : List (Keyword × List String)) (groups : List DistributeGroup) (units : Units)
    (hnative : ∀ k, k ≠ .external → units k = []) (hsegs : ∀ s ∈ segs, s.1 ≠ .external → s.2 = []) :
    segs.foldl takeKeyword (groups, units) = (groups, Function.update units .external
      (units .external ++ (segs.filter fun s => s.1 = .external).flatMap Prod.snd)) := by
  induction segs generalizing units with
  | nil => simp
  | cons s segs ih =>
    obtain ⟨k, names⟩ := s
    have hnone : distributeGroup units (some k) = none := by
      have hgroup : keywordGroup units false = none := by
        simp [keywordGroup, hnative .replica, hnative .mirror, hnative .arbiter, hnative .disperse, hnative .disperseData]
      simp only [distributeGroup, hgroup, ite_self]
    have htake : takeKeyword (groups, units) (k, names) = (groups, Function.update units k (units k ++ names)) := by
      simp only [takeKeyword, hnone]
    have hsegs' : ∀ s ∈ segs, s.1 ≠ .external → s.2 = [] := fun s hs => hsegs s (List.mem_cons_of_mem _ hs)
    rw [List.foldl_cons, htake]
    by_cases hk : k = .external
    · subst hk
      rw [List.filter_cons_of_pos (by simp), ih _ ?_ hsegs', Function.update_idem, Function.update_self, List.flatMap_cons,
        List.append_assoc]
      intro k hk
      rw [Function.update_of_ne hk, hnative k hk]
    · have hnames : names = [] := hsegs (k, names) (List.mem_cons_self ..) hk
      subst hnames
      rw [List.filter_cons_of_neg (by simpa using hk), List.append_nil, Function.update_eq_self, ih units hnative hsegs']

/-! ## The command -/

section

variable {int : String → Option Int} {kubeNodes : List String} {fuel : Nat} {args args' : Args} {tokens : List Token}
  {groups rest : List DistributeGroup} {first : DistributeGroup} {kind : Kind}

theorem exitIf_ok {c : Prop} [Decidable c] (h : exitIf c = .ok ()) : ¬c := by
  intro hc
  rw [exitIf, if_pos hc] at h
  cases h

/-- What the arguments say of the first group of a request. -/
structure TypeTaken (args : Args) (first : DistributeGroup) : Prop where
  type : args.type = some (groupType first)
  disperse : groupType first = .disperse →
    args.disperseData = first.disperseCount - first.redundancyCount ∧ args.disperseRedundancy = first.redundancyCount

theorem requestArgs_ok (h : requestArgs args groups = .ok args') :
    ∃ first rest, groups = first :: rest ∧ TypeTaken args' first := by
  obtain ⟨_, -, h⟩ := Except.bind_ok.mp h
  cases groups with
  | nil => cases h
  | cons first rest =>
    refine ⟨first, rest, rfl, ?_⟩
    obtain ⟨_, -, h⟩ := Except.bind_ok.mp h
    dsimp only at h
    by_cases hd : groupType first = .disperse
    · simp only [hd, if_true] at h
      split at h
      iterate 3
        · obtain rfl := Except.ok.inj h
          exact ⟨congrArg some hd.symm, fun _ => ⟨rfl, rfl⟩⟩
      · split at h
        · cases h
        · obtain rfl := Except.ok.inj h
          exact ⟨congrArg some hd.symm, fun _ => ⟨rfl, rfl⟩⟩
    · rw [if_neg hd] at h
      split at h
      iterate 3
        · obtain rfl := Except.ok.inj h
          exact ⟨rfl, fun hd' => absurd hd' hd⟩
      · split at h
        · cases h
        · obtain rfl := Except.ok.inj h
          exact ⟨rfl, fun hd' => absurd hd' hd⟩

theorem checkedSize_disperse {size : Int} (htype : args.type = some .disperse) (h : checkedSize args = .ok size) :
    2 * args.disperseRedundancy < args.disperseData + args.disperseRedundancy := by
  unfold checkedSize at h
  rw [htype] at h
  obtain ⟨_, -, h⟩ := Except.bind_ok.mp h
  obtain ⟨_, hsize, -⟩ := Except.bind_ok.mp h
  have := exitIf_ok hsize
  omega

theorem finalChecks_disperse (htype : args.type = some .disperse) (h : finalChecks kubeNodes args = .ok ()) :
    2 * args.disperseRedundancy < args.disperseData + args.disperseRedundancy := by
  obtain ⟨_, -, h⟩ := Except.bind_ok.mp h
  obtain ⟨size, hsize, -⟩ := Except.bind_ok.mp h
  exact checkedSize_disperse htype hsize

/-- The command has accepted its arguments. -/
structure Accepted (tokens : List Token) (fuel : Nat) (groups : List DistributeGroup) (args : Args) : Prop where
  parsed : ∃ p, parserLoop fuel tokens {} = some p ∧ finishParser p = .ok groups
  taken : ∃ first rest, groups = first :: rest ∧ TypeTaken args first
  disperse : args.type = some .disperse → 2 * args.disperseRedundancy < args.disperseData + args.disperseRedundancy

theorem validate_accepted (h : validate int kubeNodes fuel args = some (.ok (groups, args'))) :
    Accepted (tokenizer int args.storageUnits) fuel groups args' := by
  unfold validate at h
  split at h
  · cases h
  obtain ⟨request, hrequest, h⟩ := Option.map_eq_some_iff.mp h
  obtain ⟨groups', hgroups, h⟩ := Except.bind_ok.mp h
  obtain ⟨args'', hargs, h⟩ := Except.bind_ok.mp h
  obtain ⟨_, hfinal, h⟩ := Except.bind_ok.mp h
  obtain ⟨rfl, rfl⟩ := Prod.mk.inj (Except.ok.inj h)
  obtain ⟨p, hp, rfl⟩ := Option.map_eq_some_iff.mp hrequest
  exact ⟨⟨p, hp, hgroups⟩, requestArgs_ok hargs, fun htype => finalChecks_disperse htype hfinal⟩

/-! ## What the operator gets -/

theorem passedKinds_size {kind : Kind} (h : kind ∈ passedKinds) : 0 < kind.size := by
  simp only [passedKinds, List.mem_cons, List.not_mem_nil, or_false] at h
  rcases h with rfl | rfl | rfl | rfl | rfl | rfl <;> decide

theorem unclear_not_passed : Kind.unclear ∉ passedKinds := by decide

theorem confirmed_eq {counts : Counts} {k : Kind} (hkind : kind ∈ passedKinds) (h : confirmed counts k = kind) : k = kind := by
  unfold confirmed at h
  split at h
  · exact h
  · exact absurd (h ▸ hkind) unclear_not_passed

/-- The kind of the type that the arguments say is that of the first group. -/
theorem TypeTaken.typeKind_eq (h : TypeTaken args first) :
    typeKind args.disperseData args.disperseRedundancy (groupType first) =
      typeKind (first.disperseCount - first.redundancyCount) first.redundancyCount (groupType first) := by
  cases ht : groupType first with
  | disperse =>
    obtain ⟨hdata, hred⟩ := h.disperse ht
    rw [hdata, hred]
  | replica1 => rfl
  | replica2 => rfl
  | replica3 => rfl
  | arbiter => rfl
  | external => rfl

/-- One list of units that was asked for in groups of the kind of the first group. -/
theorem faithful_of (htaken : TypeTaken args first)
    (hkind : typeKind (first.disperseCount - first.redundancyCount) first.redundancyCount (groupType first) = kind)
    (hperm : (getAllStorageUnits groups).Perm (unitArgs tokens))
    (hasked : asked tokens = (chunks kind.size (getAllStorageUnits groups)).map (·, kind)) :
    Faithful tokens groups args := by
  refine ⟨hperm, groupType first, htaken.type, ?_⟩
  rw [hasked, regroup, htaken.typeKind_eq, hkind]

/-- Loose units with counts. -/
theorem faithful_loose (h : Accepted tokens fuel groups args) (hloose : looseUnits false tokens ≠ [])
    (hkind : kind ∈ passedKinds) (hall : ∀ g ∈ asked tokens, g.2 = kind) : Faithful tokens groups args := by
  obtain ⟨p, hp, hgroups⟩ := h.parsed
  have hread := parserLoop_reads hp
  have hpall : p.all = looseUnits false tokens := by simpa using hread.all
  have hcounts : p.counts = readCounts none tokens noCounts := hread.counts
  have hbehind : externalUnits tokens = [] ∧ (nativeSegments tokens).flatMap Prod.snd = [] := by
    by_contra hsome
    have hunclear : asked tokens = [(unitArgs tokens, .unclear)] := by
      simp only [asked, if_pos hloose, if_neg hsome]
    rw [hunclear] at hall
    have hkind' : Kind.unclear = kind := hall _ (List.mem_singleton_self _)
    exact unclear_not_passed (hkind' ▸ hkind)
  have hasked : asked tokens = (chunks (countKind p.counts).size p.all).map (·, countKind p.counts) := by
    simp only [asked, if_pos hloose, if_pos hbehind, hpall, hcounts]
  have hcount : countKind p.counts = kind := by
    have hne : chunks (countKind p.counts).size p.all ≠ [] := chunks_ne_nil (hpall ▸ hloose)
    obtain ⟨part, parts, hparts⟩ := List.exists_cons_of_ne_nil hne
    rw [hasked, hparts] at hall
    exact hall _ (List.mem_cons_self ..)
  obtain ⟨first, rest, hfirst, htaken⟩ := h.taken
  have hfor := countKind_cases (hcount ▸ hkind)
  rw [hcount] at hfor
  have hsize := (hfor.groups []).1
  -- the request is the list in parts
  rw [finishParser, if_neg (hpall ▸ hloose), distributeGroupCountBased, splitList, if_neg (by omega), if_neg (by omega)]
    at hgroups
  have hparts : groups = (chunks (getSubvolSize p.counts).toNat p.all).map (countGroup p.counts) :=
    (Except.ok.inj hgroups).symm
  have hflat : getAllStorageUnits groups = p.all := by
    rw [hparts, getAllStorageUnits, List.flatMap_map]
    exact List.flatMap_id'.trans (chunks_flatten (by omega) _)
  obtain ⟨names, hnames⟩ : ∃ names, first = countGroup p.counts names := by
    have hmem : first ∈ groups := hfirst ▸ List.mem_cons_self ..
    rw [hparts] at hmem
    obtain ⟨names, -, heq⟩ := List.mem_map.mp hmem
    exact ⟨names, heq.symm⟩
  refine faithful_of htaken (hnames ▸ (hfor.groups names).2) ?_ ?_
  · have hunits := unitArgs_parts tokens
    rw [hbehind.1, hbehind.2, List.append_nil, List.append_nil] at hunits
    rw [hflat, hpall]
    exact hunits.symm
  · rw [hasked, hflat, hcount]

/-- Units behind `external` alone. -/
theorem faithful_external (h : Accepted tokens fuel groups args) (hloose : looseUnits false tokens = [])
    (hexternal : externalUnits tokens ≠ []) (hkind : kind ∈ passedKinds) (hall : ∀ g ∈ asked tokens, g.2 = kind) :
    Faithful tokens groups args := by
  obtain ⟨p, hp, hgroups⟩ := h.parsed
  have hread := parserLoop_reads hp
  have hpall : p.all = [] := by simpa [hloose] using hread.all
  have hone : (nativeSegments tokens).flatMap Prod.snd = [] ∧ (externalUnits tokens).length = 1 := by
    by_contra hnot
    have hunclear : asked tokens = [(unitArgs tokens, .unclear)] := by
      simp only [asked, hloose, ne_eq, not_true_eq_false, if_false, if_pos hexternal, if_neg hnot]
    rw [hunclear] at hall
    have hkind' : Kind.unclear = kind := hall _ (List.mem_singleton_self _)
    exact unclear_not_passed (hkind' ▸ hkind)
  have hasked : asked tokens = [(externalUnits tokens, confirmed (readCounts none tokens noCounts) .external)] := by
    simp only [asked, hloose, ne_eq, not_true_eq_false, if_false, if_pos hexternal, if_pos hone]
  have hconfirmed : confirmed (readCounts none tokens noCounts) .external = kind := by
    rw [hasked] at hall
    exact hall _ (List.mem_singleton_self _)
  obtain rfl := confirmed_eq hkind hconfirmed
  obtain ⟨unit, hunit⟩ := List.length_eq_one_iff.mp hone.2
  have hnative : ∀ s ∈ segments tokens, s.1 ≠ .external → s.2 = [] := by
    intro s hs hne
    exact List.flatMap_eq_nil_iff.mp hone.1 s (List.mem_filter.mpr ⟨hs, decide_eq_true hne⟩)
  have hfold := hread.segments.trans (externalUnits_taken (segments tokens) [] resetStorageUnits (fun _ _ => rfl) hnative)
  obtain ⟨hpgroups, hpunits⟩ := Prod.mk.inj hfold
  have hpexternal : p.units .external = [unit] := by
    rw [hpunits, Function.update_self, ← hunit]
    rfl
  have hparsed : groups = [{ storageUnits := [unit], externalCount := 1 }] := by
    rw [finishParser, if_pos hpall, hpgroups] at hgroups
    have hlast : distributeGroup p.units none = some { storageUnits := [unit], externalCount := 1 } := by
      simp [distributeGroup, keywordGroup, hpexternal]
    rw [hlast] at hgroups
    exact (Except.ok.inj hgroups).symm
  obtain ⟨first, rest, hfirst, htaken⟩ := h.taken
  obtain ⟨rfl, rfl⟩ := List.cons.inj (hparsed.symm.trans hfirst)
  refine faithful_of htaken rfl ?_ ?_
  · have hunits := unitArgs_parts tokens
    rw [hloose, hone.1, hunit] at hunits
    rw [hparsed]
    exact hunits.symm
  · rw [hasked, hconfirmed, hparsed, hunit]
    rfl

theorem taken_units {us : List Units} {taken : List DistributeGroup} (h : List.Forall₂ (TakenAs kind) us taken) :
    getAllStorageUnits taken = (us.map groupUnits).flatten := by
  induction h with
  | nil => rfl
  | cons htaken _ ih =>
    rw [List.map_cons, List.flatten_cons, ← ih, ← htaken.storageUnits]
    rfl

theorem taken_size {us : List Units} {taken : List DistributeGroup} (h : List.Forall₂ (TakenAs kind) us taken) :
    ∀ names ∈ us.map groupUnits, names.length = kind.size := by
  induction h with
  | nil => simp
  | cons htaken _ ih =>
    rw [List.map_cons]
    exact List.forall_mem_cons.mpr ⟨htaken.size, ih⟩

theorem taken_kind {us : List Units} {taken : List DistributeGroup} (h : List.Forall₂ (TakenAs kind) us taken) :
    ∀ g ∈ taken, typeKind (g.disperseCount - g.redundancyCount) g.redundancyCount (groupType g) = kind := by
  induction h with
  | nil => simp
  | cons htaken _ ih => exact List.forall_mem_cons.mpr ⟨htaken.kind, ih⟩

/-- Units behind the other keywords. -/
theorem faithful_native (h : Accepted tokens fuel groups args) (hloose : looseUnits false tokens = [])
    (hexternal : externalUnits tokens = []) (hkind : kind ∈ passedKinds) (hall : ∀ g ∈ asked tokens, g.2 = kind) :
    Faithful tokens groups args := by
  obtain ⟨p, hp, hgroups⟩ := h.parsed
  have hread := parserLoop_reads hp
  have hpall : p.all = [] := by simpa [hloose] using hread.all
  have hasked : asked tokens = (unitGroups resetStorageUnits (nativeSegments tokens)).map fun units =>
      (groupUnits units, confirmed (readCounts none tokens noCounts) (unitsKind units)) := by
    simp only [asked, hloose, hexternal, ne_eq, not_true_eq_false, if_false]
  have hkinds : ∀ u ∈ unitGroups resetStorageUnits (nativeSegments tokens), unitsKind u = kind := by
    intro u hu
    rw [hasked] at hall
    exact confirmed_eq hkind (hall _ (List.mem_map_of_mem hu))
  have hsegs : ∀ s ∈ segments tokens, s.1 = .external → s.2 = [] := by
    intro s hs hs'
    exact List.flatMap_eq_nil_iff.mp hexternal s (List.mem_filter.mpr ⟨hs, decide_eq_true hs'⟩)
  obtain ⟨taken, htakens, hgroups'⟩ := keywordGroups_taken hkind (segments tokens) [] resetStorageUnits rfl hsegs hkinds
  have hparsed : groups = taken := by
    rw [finishParser, if_pos hpall] at hgroups
    rw [← Except.ok.inj hgroups]
    exact (congrArg (fun q => q.1 ++ (distributeGroup q.2 none).toList) hread.segments).trans hgroups'
  have hflat := taken_units htakens
  obtain ⟨first, rest, hfirst, htaken⟩ := h.taken
  have hfirst' : first ∈ taken := hparsed ▸ hfirst ▸ List.mem_cons_self ..
  refine faithful_of htaken (taken_kind htakens first hfirst') ?_ ?_
  · have hunits := unitArgs_parts tokens
    rw [hloose, hexternal, List.nil_append, List.nil_append] at hunits
    have hgrouped := unitGroups_perm (nativeSegments tokens) resetStorageUnits fun s hs =>
      of_decide_eq_true (List.mem_filter.mp hs).2
    rw [hparsed, hflat, ← List.flatMap_def]
    exact hgrouped.trans hunits.symm
  · rw [hparsed, hflat, chunks_flatten_eq (passedKinds_size hkind) _ (taken_size htakens), hasked, List.map_map]
    refine List.map_congr_left fun u hu => ?_
    have hu' := hkinds u hu
    rw [hasked] at hall
    exact congrArg (groupUnits u, ·) (hall _ (List.mem_map_of_mem hu))

/-- A disperse group has data and redundancy. -/
def Kind.Sound (k : Kind) : Prop := ∀ data red, k = .disperse data red → 0 < data ∧ 0 < red

theorem disperseKind_sound (d data red : Int) : (disperseKind d data red).Sound := by
  intro x y h
  unfold disperseKind at h
  split at h
  · obtain ⟨rfl, rfl⟩ := Kind.disperse.inj h
    omega
  split at h
  · obtain ⟨rfl, rfl⟩ := Kind.disperse.inj h
    omega
  split at h
  · obtain ⟨rfl, rfl⟩ := Kind.disperse.inj h
    omega
  cases h

theorem countKind_sound (c : Counts) : (countKind c).Sound := by
  intro x y h
  unfold countKind at h
  dsimp only at h
  split at h
  · cases h
  split at h
  · split at h
    · cases h
    split at h
    · cases h
    split at h <;> cases h
  split at h
  · exact disperseKind_sound _ _ _ x y h
  · cases h

theorem unitsKind_sound (units : Units) : (unitsKind units).Sound := by
  intro x y h
  unfold unitsKind at h
  dsimp only at h
  split at h
  · split at h
    · split at h <;> cases h
    split at h <;> cases h
  split at h
  · obtain ⟨rfl, rfl⟩ := Kind.disperse.inj h
    omega
  · cases h

theorem confirmed_sound {k : Kind} (counts : Counts) (h : k.Sound) : (confirmed counts k).Sound := by
  unfold confirmed
  split
  · exact h
  · exact nofun

/-- Every kind that is asked for is sound. -/
theorem asked_sound (tokens : List Token) : ∀ g ∈ asked tokens, g.2.Sound := by
  intro g hg
  unfold asked at hg
  dsimp only at hg
  split at hg
  · split at hg
    · obtain ⟨names, -, rfl⟩ := List.mem_map.mp hg
      exact countKind_sound _
    · obtain rfl := List.mem_singleton.mp hg
      exact nofun
  split at hg
  · split at hg
    · obtain rfl := List.mem_singleton.mp hg
      exact confirmed_sound _ nofun
    · obtain rfl := List.mem_singleton.mp hg
      exact nofun
  · obtain ⟨units, -, rfl⟩ := List.mem_map.mp hg
    exact confirmed_sound _ (unitsKind_sound units)

/-- **Layouts.** Of the arguments that the command accepts, the operator gets the groups that they ask for if and only if
these are all of one kind that the command can pass on. -/
theorem layout_kept (h : validate int kubeNodes fuel args = some (.ok (groups, args'))) :
    Faithful (tokenizer int args.storageUnits) groups args' ↔ Passable (tokenizer int args.storageUnits) := by
  have haccepted := validate_accepted h
  constructor
  · rintro ⟨-, type, htype, hregroup⟩
    obtain ⟨first, rest, -, htaken⟩ := haccepted.taken
    obtain rfl : type = groupType first := Option.some.inj (htype.symm.trans htaken.type)
    cases hasked : asked (tokenizer int args.storageUnits) with
    | nil => exact ⟨.replica 1, by decide, by simp [hasked]⟩
    | cons g gs =>
      have hall : ∀ g ∈ asked (tokenizer int args.storageUnits),
          g.2 = typeKind args'.disperseData args'.disperseRedundancy (groupType first) := by
        intro g hg
        rw [← hregroup, regroup] at hg
        obtain ⟨names, -, rfl⟩ := List.mem_map.mp hg
        rfl
      refine ⟨_, ?_, hall⟩
      cases ht : groupType first with
      | replica1 => simp [typeKind, passedKinds]
      | replica2 => simp [typeKind, passedKinds]
      | replica3 => simp [typeKind, passedKinds]
      | arbiter => simp [typeKind, passedKinds]
      | external => simp [typeKind, passedKinds]
      | disperse =>
        -- of three units, of which more than half are data
        obtain ⟨hdata, hred⟩ := htaken.disperse ht
        have hcount : first.disperseCount = 3 := by
          unfold groupType at ht
          split at ht <;> first | cases ht | skip
          split at ht <;> first | cases ht | skip
          split at ht <;> first | cases ht | skip
          split at ht
          · assumption
          · split at ht <;> cases ht
        have hmore := haccepted.disperse (htype.trans (congrArg some ht))
        have hg : g ∈ asked (tokenizer int args.storageUnits) := hasked ▸ List.mem_cons_self ..
        have hpos := asked_sound _ g hg _ _ ((hall g hg).trans (congrArg _ ht))
        have hred1 : args'.disperseRedundancy = 1 := by omega
        have hdata2 : args'.disperseData = 2 := by omega
        rw [hred1, hdata2]
        decide
  · rintro ⟨kind, hkind, hall⟩
    by_cases hloose : looseUnits false (tokenizer int args.storageUnits) = []
    · by_cases hexternal : externalUnits (tokenizer int args.storageUnits) = []
      · exact faithful_native haccepted hloose hexternal hkind hall
      · exact faithful_external haccepted hloose hexternal hkind hall
    · exact faithful_loose haccepted hloose hkind hall

end

/-! ## Four replicas -/

/-- `int` of a decimal number without a sign. -/
def decimal (text : String) : Option Int :=
  if text.toList ≠ [] ∧ text.toList.all Char.isDigit then some (Nat.ofDigitChars 10 text.toList 0) else none

/-- `storage-add pool replica 4 n:/a n:/b n:/c n:/d --storage-unit-type=path --dry-run` -/
def fourReplicas : Args :=
  { storageUnits := ["replica", "4", "n:/a", "n:/b", "n:/c", "n:/d"], storageUnitType := some .path, dryRun := true }

def fourGroups : List DistributeGroup :=
  [{ storageUnits := ["n:/a", "n:/b", "n:/c", "n:/d"], replicaCount := 4, replicaKeyword := "replica" }]

/-- Accepted, and stored without any redundancy. -/
theorem fourReplicas_unprotected :
    ∃ args, validate decimal [] 9 fourReplicas = some (.ok (fourGroups, args)) ∧ args.type = some .replica1 ∧
      asked (tokenizer decimal fourReplicas.storageUnits) = [(["n:/a", "n:/b", "n:/c", "n:/d"], .replica 4)] ∧
      ¬Faithful (tokenizer decimal fourReplicas.storageUnits) fourGroups args := by
  refine ⟨{ fourReplicas with type := some .replica1, path := ["n:/a", "n:/b", "n:/c", "n:/d"] }, ?_, rfl, ?_, ?_⟩
  · decide +kernel
  · decide +kernel
  · rintro ⟨-, type, htype, hregroup⟩
    obtain rfl := Option.some.inj htype
    revert hregroup
    decide +kernel

/-- `storage-add pool replica 2 p1 p2 p3 p4 p5 p6 --storage-unit-type=pvc --dry-run` -/
def threePairs : Args :=
  { storageUnits := ["replica", "2", "p1", "p2", "p3", "p4", "p5", "p6"], storageUnitType := some .pvc, dryRun := true }

theorem threePairs_kept :
    ∃ groups args, validate decimal [] 9 threePairs = some (.ok (groups, args)) ∧
      Faithful (tokenizer decimal threePairs.storageUnits) groups args := by
  have hok : ∃ groups args, validate decimal [] 9 threePairs = some (.ok (groups, args)) := ⟨_, _, rfl⟩
  obtain ⟨groups, args, h⟩ := hok
  exact ⟨groups, args, h, (layout_kept h).mpr ⟨.replica 2, by decide, by decide +kernel⟩⟩

end Kadalu.Cli
