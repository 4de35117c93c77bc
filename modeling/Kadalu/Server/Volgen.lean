import Kadalu.Data.Result
import Kadalu.Operator.Request

/-!
# Distribute groups of a native pool

`generateClientVolgenData` cuts the bricks of a pool record into the distribute groups of the volfiles. The operator has accepted
the pool before, and demands that a group is decommissioned as a whole, except where it does not look at the bricks in groups.

* `Grouping`: the groups take all bricks in their order, each as many as its type has.
* `grouped_iff`: the groups are decommissioned as a whole for every type but `Arbiter`, whose bricks are not compared.
-/

namespace Kadalu.Server

open Operator

/-! ## The data of the volfiles -/

/-- The exceptions of the source. -/
inductive VolgenErr where
  | key (name : String)
  | type
  | zeroDivision
  | index
  deriving DecidableEq, Repr

structure StorageUnit where
  path : String
  port : Int := 24007
  nodeName : String
  nodeId : String
  deriving DecidableEq, Repr

/-- A distribute group; an entry that the source leaves out is `none`. -/
structure DistributeGroup where
  type : String
  replicaCount : Option Int
  arbiterCount : Option Int
  disperse : Option Disperse
  storageUnits : List StorageUnit
  deriving DecidableEq, Repr

structure ClientData where
  name : String
  id : String
  distributeGroups : List DistributeGroup
  deriving DecidableEq, Repr

/-- `get_replica_count` -/
def getReplicaCount : List (String × Int) := [("Replica1", 1), ("Replica2", 2), ("Replica3", 3)]

/-- `"Replica" in data["type"]` -/
def isReplica (type : String) : Bool := (type.toList.tails).any ("Replica".toList.isPrefixOf ·)

/-- `storage_unit_count`; no other type of a volume with replicas is known, and a text is no count. -/
def storageUnitCount (type : String) (disperse : Disperse) : Except VolgenErr Int :=
  if type = VOLUME_TYPE_DISPERSE then pure (disperse.data + disperse.redundancy)
  else if isReplica type then
    match getReplicaCount.lookup type with
    | some count => pure count
    | none => throw .type
  else if type = VOLUME_TYPE_ARBITER then pure 3
  else pure 0

/-- The `type` of a group -/
def groupType (type : String) : String :=
  if isReplica type then "replicate" else if type = VOLUME_TYPE_DISPERSE then "disperse" else "arbiter"

/-- The storage unit of a brick. -/
def storageUnit (brick : PoolBrick) : StorageUnit where
  path := brick.brickPath.getD ""
  nodeName := brick.node.getD ""
  nodeId := brick.nodeId.getD ""

/-- The storage unit with an index in a group. -/
def unitAt (bricks : List PoolBrick) (brickIdx : Nat) : Except VolgenErr StorageUnit :=
  match bricks[brickIdx]? with
  | some brick => pure (storageUnit brick)
  | none => throw .index

/-- One group of `count` storage units. -/
def distributeGroup (type : String) (disperse : Disperse) (count : Nat) (bricks : List PoolBrick) (distGrpIdx : Nat) :
    Except VolgenErr DistributeGroup := do
  let storageUnits ← (List.range count).mapM fun storageUnitIdx => unitAt bricks (distGrpIdx * count + storageUnitIdx)
  pure
    { type := groupType type
      replicaCount := if type = VOLUME_TYPE_DISPERSE then none else some count
      arbiterCount := if type = VOLUME_TYPE_ARBITER then some 1 else none
      disperse := if groupType type = "disperse" then some disperse else none
      storageUnits }

/-- `data[key]` -/
def subscript {α : Type} (key : String) : Option α → Except VolgenErr α
  | some value => pure value
  | none => throw (.key key)

/-- `generate_client_volgen_data`; no group is made with a count that is a text. -/
def generateClientVolgenData (data : PoolRecord) : Except VolgenErr ClientData := do
  let type ← subscript "type" data.type
  let units := storageUnitCount type data.disperse
  let name ← subscript "volname" data.volname
  let id ← subscript "volume_id" data.volumeId
  let bricks ← subscript "bricks" data.bricks
  let count ← units
  if count = 0 then throw .zeroDivision
  let distGrpCount := ((bricks.length : Int).tdiv count).toNat
  let distributeGroups ← (List.range distGrpCount).mapM (distributeGroup type data.disperse count.toNat bricks)
  pure { name, id, distributeGroups }

/-! ## Groups of bricks -/

/-- The bricks of a group of each type. -/
def groupSize (obj : KadaluStorage) : Nat :=
  if obj.type = some "Replica1" then 1
  else if obj.type = some "Replica2" then 2
  else if obj.type = some "Replica3" then 3
  else if obj.type = some "Arbiter" then 3
  else (obj.disperse.data + obj.disperse.redundancy).toNat

/-- The groups are the bricks in their order, `size` in each, and the data has their storage units. -/
structure Grouping (size : Nat) (bricks : List PoolBrick) (groups : List (List PoolBrick)) (client : ClientData) : Prop where
  ordered : groups.flatten = bricks
  sizes : ∀ g ∈ groups, g.length = size
  units : client.distributeGroups.map (·.storageUnits) = groups.map fun g => g.map storageUnit

/-- The whole group is decommissioned in one way, or no brick of it. -/
def Uniform (group : List PoolBrick) : Prop := ∀ a ∈ group, ∀ b ∈ group, a.decommissioned = b.decommissioned

/-- The parts of a list. -/
def parts {α : Type} (size n : Nat) (l : List α) : List (List α) := (List.range n).map fun i => (l.drop (i * size)).take size

section

variable {α β : Type} {size n : Nat} {l : List α}

theorem parts_flatten_take (size n : Nat) (l : List α) : (parts size n l).flatten = l.take (n * size) := by
  induction n with
  | zero => simp [parts]
  | succ n ih =>
    rw [parts, List.range_succ, List.map_append, List.flatten_append, List.map_singleton, List.flatten_singleton,
      Nat.succ_mul, List.take_add]
    exact congrArg (· ++ _) ih

theorem parts_flatten (h : l.length = n * size) : (parts size n l).flatten = l := by
  rw [parts_flatten_take, ← h, List.take_length]

theorem parts_length (h : l.length = n * size) : ∀ g ∈ parts size n l, g.length = size := by
  intro g hg
  obtain ⟨i, hi, rfl⟩ := List.mem_map.mp hg
  have hle : (i + 1) * size ≤ n * size := Nat.mul_le_mul_right size (List.mem_range.mp hi)
  rw [Nat.succ_mul] at hle
  rw [List.length_take, List.length_drop]
  omega

/-- Parts of one size are determined by the list. -/
theorem parts_unique (hsize : 0 < size) : ∀ {gs hs : List (List α)}, (∀ g ∈ gs, g.length = size) →
    (∀ h ∈ hs, h.length = size) → gs.flatten = hs.flatten → gs = hs
  | [], [], _, _, _ => rfl
  | [], h :: hs, _, hh, heq => by
    have hlen := congrArg List.length heq
    rw [List.flatten_cons, List.length_append, hh h (by simp)] at hlen
    simp at hlen
    omega
  | g :: gs, [], hg, _, heq => by
    have hlen := congrArg List.length heq
    rw [List.flatten_cons, List.length_append, hg g (by simp)] at hlen
    simp at hlen
    omega
  | g :: gs, h :: hs, hg, hh, heq => by
    rw [List.flatten_cons, List.flatten_cons] at heq
    obtain ⟨rfl, hrest⟩ := List.append_inj heq ((hg g (by simp)).trans (hh h (by simp)).symm)
    rw [parts_unique hsize (fun x hx => hg x (by simp [hx])) (fun x hx => hh x (by simp [hx])) hrest]

theorem mapM_map_ok {ε : Type} {f : α → Except ε β} {g : α → β} (h : ∀ a ∈ l, f a = .ok (g a)) :
    l.mapM f = .ok (l.map g) :=
  Except.mapM_ok.mpr (List.forall₂_map_right_iff.mpr (List.forall₂_same.mpr h))

end

/-! ## The code's groups -/

section

variable {type name id : String} {disperse : Disperse} {count n : Nat} {bricks : List PoolBrick} {data : PoolRecord}

theorem units_eq {i : Nat} (h : (i + 1) * count ≤ bricks.length) :
    (List.range count).mapM (fun k => unitAt bricks (i * count + k)) =
      .ok (((bricks.drop (i * count)).take count).map storageUnit) := by
  rw [Nat.succ_mul] at h
  have hunit : ∀ k ∈ List.range count, unitAt bricks (i * count + k) =
      .ok (((bricks[i * count + k]?).map storageUnit).getD { path := "", nodeName := "", nodeId := "" }) := by
    intro k hk
    have hlt : i * count + k < bricks.length := by
      have := List.mem_range.mp hk
      omega
    rw [unitAt, List.getElem?_eq_getElem hlt]
    rfl
  rw [mapM_map_ok hunit]
  refine congrArg Except.ok (List.ext_getElem (by simp; omega) fun k hk hk' => ?_)
  have hlt : i * count + k < bricks.length := by
    have := hk
    simp only [List.length_map, List.length_range] at this
    omega
  simp [List.getElem?_eq_getElem hlt]

/-- The group of a part of the bricks. -/
def groupOf (type : String) (disperse : Disperse) (count : Nat) (bricks : List PoolBrick) (i : Nat) : DistributeGroup where
  type := groupType type
  replicaCount := if type = VOLUME_TYPE_DISPERSE then none else some count
  arbiterCount := if type = VOLUME_TYPE_ARBITER then some 1 else none
  disperse := if groupType type = "disperse" then some disperse else none
  storageUnits := ((bricks.drop (i * count)).take count).map storageUnit

/-- The data has the parts of the bricks, if they make up whole groups. -/
theorem generateClientVolgenData_parts (htype : data.type = some type) (hname : data.volname = some name)
    (hid : data.volumeId = some id) (hbricks : data.bricks = some bricks)
    (hcount : storageUnitCount type data.disperse = .ok (count : Int)) (hpos : 0 < count) (hlen : bricks.length = n * count) :
    ∃ client, generateClientVolgenData data = .ok client ∧ Grouping count bricks (parts count n bricks) client := by
  have hn : ((bricks.length : Int).tdiv count).toNat = n := by
    rw [hlen, Int.natCast_mul, Int.mul_tdiv_cancel _ (by omega), Int.toNat_natCast]
  have hgroups : (List.range n).mapM (distributeGroup type data.disperse count bricks) =
      .ok ((List.range n).map (groupOf type data.disperse count bricks)) := by
    refine mapM_map_ok fun i hi => ?_
    have hle : (i + 1) * count ≤ bricks.length := by
      rw [hlen]
      exact Nat.mul_le_mul_right count (List.mem_range.mp hi)
    rw [distributeGroup, units_eq hle]
    rfl
  have hdata : generateClientVolgenData data = .ok
      { name, id, distributeGroups := (List.range n).map (groupOf type data.disperse count bricks) } := by
    unfold generateClientVolgenData
    rw [htype, hname, hid, hbricks]
    simp only [subscript, pure_bind]
    rw [hcount, Except.ok_bind, if_neg (by omega), Int.toNat_natCast, hn, hgroups]
    rfl
  refine ⟨_, hdata, parts_flatten hlen, parts_length hlen, ?_⟩
  rw [List.map_map, parts, List.map_map]
  rfl

end

/-! ## Accepted pools -/

section

variable [RequestChecks] {obj : KadaluStorage} {existing : Option PoolRecord} {volumeId : String}

/-- What the operator has checked of the bricks of a native pool. -/
structure LayoutChecked (obj : KadaluStorage) (type : String) : Prop where
  typed : obj.type = some type
  count : storageUnitCount type obj.disperse = .ok (groupSize obj : Int)
  pos : 0 < groupSize obj
  whole : obj.storage.length % groupSize obj = 0
  together : type ≠ VOLUME_TYPE_ARBITER → decommissionedTogether (groupSize obj) obj.storage = true

omit [RequestChecks] in
theorem subvolBricksCount_disperse {disperse : Disperse} {count : Nat}
    (h : subvolBricksCount (some VOLUME_TYPE_DISPERSE) disperse = some count) :
    0 < disperse.data + disperse.redundancy ∧ count = (disperse.data + disperse.redundancy).toNat := by
  unfold subvolBricksCount at h
  rw [if_neg (by decide), if_neg (by decide), if_pos rfl] at h
  split at h
  · cases h
  rename_i hpos
  split at h
  · cases h
  split at h
  · cases h
  · simp only [Bool.or_eq_true, decide_eq_true_eq, not_or] at hpos
    exact ⟨by omega, (Option.some.inj h).symm⟩

theorem layoutChecked (h : validateVolumeRequest obj = true) (hnative : obj.type ≠ some VOLUME_TYPE_EXTERNAL) :
    ∃ type, LayoutChecked obj type := by
  simp only [validateVolumeRequest, Bool.and_eq_true, if_neg hnative] at h
  obtain ⟨⟨⟨⟨⟨-, htypes⟩, -⟩, -⟩, -⟩, -, hlayout⟩ := h
  obtain ⟨type, htype, hmem⟩ : ∃ type, obj.type = some type ∧ VALID_HOSTING_VOLUME_TYPES.contains type = true := by
    cases htype : obj.type with
    | none => rw [htype] at htypes; cases htypes
    | some type => rw [htype] at htypes; exact ⟨type, rfl, htypes⟩
  unfold validateLayout at hlayout
  cases hcount : subvolBricksCount obj.type obj.disperse with
  | none => rw [hcount] at hlayout; cases hlayout
  | some count =>
    rw [hcount] at hlayout
    simp only [Bool.and_eq_true, decide_eq_true_eq] at hlayout
    obtain ⟨⟨⟨hwhole, htogether⟩, -⟩, harbiter⟩ := hlayout
    rw [htype] at hcount hnative harbiter
    simp only [VALID_HOSTING_VOLUME_TYPES, List.contains_eq_mem, List.mem_cons, List.not_mem_nil, or_false,
      decide_eq_true_eq] at hmem
    refine ⟨type, ?_⟩
    rcases hmem with rfl | rfl | rfl | rfl | rfl | rfl
    · obtain rfl : 1 = count := Option.some.inj hcount
      have hsize : groupSize obj = 1 := by simp [groupSize, htype]
      exact ⟨htype, by rw [hsize]; rfl, by omega, by rw [hsize]; exact hwhole, fun _ => by rw [hsize]; exact htogether⟩
    · obtain rfl : 2 = count := Option.some.inj hcount
      have hsize : groupSize obj = 2 := by simp [groupSize, htype]
      exact ⟨htype, by rw [hsize]; rfl, by omega, by rw [hsize]; exact hwhole, fun _ => by rw [hsize]; exact htogether⟩
    · obtain rfl : 3 = count := Option.some.inj hcount
      have hsize : groupSize obj = 3 := by simp [groupSize, htype]
      exact ⟨htype, by rw [hsize]; rfl, by omega, by rw [hsize]; exact hwhole, fun _ => by rw [hsize]; exact htogether⟩
    · obtain ⟨hpos, rfl⟩ := subvolBricksCount_disperse hcount
      have hsize : groupSize obj = (obj.disperse.data + obj.disperse.redundancy).toNat := by simp [groupSize, htype]
      refine ⟨htype, ?_, by omega, by rw [hsize]; exact hwhole, fun _ => by rw [hsize]; exact htogether⟩
      rw [hsize, Int.toNat_of_nonneg (by omega)]
      rfl
    · exact absurd rfl hnative
    · have hsize : groupSize obj = 3 := by simp [groupSize, htype]
      have hthree : 3 ≤ obj.storage.length ∧ obj.storage.length % 3 = 0 := by
        simpa [VOLUME_TYPE_ARBITER] using harbiter
      exact ⟨htype, by rw [hsize]; rfl, by omega, by rw [hsize]; exact hthree.2, fun hne => absurd rfl hne⟩

/-! ## Decommissioned groups -/

omit [RequestChecks] in
theorem storedBrick_decommissioned {name : String} {storage : List StorageBrick} {i : Nat}
    (h : i < (storage.mapIdx (storedBrick name)).length) :
    (storage.mapIdx (storedBrick name))[i].decommissioned = (storage.getD i {}).decommissioned := by
  rw [List.getElem_mapIdx, List.getD_eq_getElem?_getD, List.getElem?_eq_getElem (by simpa using h)]
  rfl

omit [RequestChecks] in
/-- The operator compares each brick with the first of its group. -/
theorem uniform_parts_iff {name : String} {storage : List StorageBrick} {size n : Nat} (hsize : 0 < size)
    (hlen : storage.length = n * size) :
    (∀ g ∈ parts size n (storage.mapIdx (storedBrick name)), Uniform g) ↔ decommissionedTogether size storage = true := by
  have hbricks : (storage.mapIdx (storedBrick name)).length = storage.length := List.length_mapIdx
  constructor
  · intro huniform
    rw [decommissionedTogether, List.all_eq_true]
    intro i hi
    rw [List.mem_range] at hi
    have hfirst : i / size * size ≤ i := Nat.div_mul_le_self i size
    have hlast : i < i / size * size + size := by
      have := Nat.div_add_mod' i size
      have := Nat.mod_lt i hsize
      omega
    have hpart : i / size < n := by
      rw [Nat.div_lt_iff_lt_mul hsize, ← hlen]
      exact hi
    -- both bricks are in the part with the index `i / size`
    have hmem : ∀ j (hj : j < (storage.mapIdx (storedBrick name)).length), i / size * size ≤ j → j < i / size * size + size →
        (storage.mapIdx (storedBrick name))[j] ∈
          ((storage.mapIdx (storedBrick name)).drop (i / size * size)).take size := by
      intro j hj hle hlt
      rw [List.mem_take_iff_getElem]
      refine ⟨j - i / size * size, by rw [List.length_drop]; omega, ?_⟩
      rw [List.getElem_drop]
      congr 1
      omega
    have hsame := huniform _ (List.mem_map.mpr ⟨i / size, List.mem_range.mpr hpart, rfl⟩)
      _ (hmem i (by omega) hfirst hlast) _ (hmem (i / size * size) (by omega) (Nat.le_refl _) (by omega))
    rw [storedBrick_decommissioned (by omega), storedBrick_decommissioned (by omega)] at hsame
    exact decide_eq_true hsame
  · intro htogether g hg a ha b hb
    obtain ⟨i, -, rfl⟩ := List.mem_map.mp hg
    rw [decommissionedTogether, List.all_eq_true] at htogether
    -- each brick of the part has the flag of its first one
    have hflag : ∀ x ∈ ((storage.mapIdx (storedBrick name)).drop (i * size)).take size,
        x.decommissioned = (storage.getD (i * size) {}).decommissioned := by
      intro x hx
      obtain ⟨k, hk, rfl⟩ := List.mem_take_iff_getElem.mp hx
      rw [List.length_drop] at hk
      have hlt : i * size + k < storage.length := by omega
      have hdiv : (i * size + k) / size = i := by
        rw [Nat.mul_comm i, Nat.mul_add_div hsize, Nat.div_eq_of_lt (by omega), Nat.add_zero]
      have hone := of_decide_eq_true (htogether (i * size + k) (List.mem_range.mpr hlt))
      rw [hdiv] at hone
      rw [List.getElem_drop, storedBrick_decommissioned (by omega), hone]
    rw [hflag a ha, hflag b hb]

/-! ## The groups of an accepted pool -/

/-- The volfiles of a pool have its bricks in groups of its type, each decommissioned as a whole. -/
def GroupedByType (obj : KadaluStorage) (record : PoolRecord) : Prop :=
  ∃ client groups, generateClientVolgenData record = .ok client ∧
    Grouping (groupSize obj) (record.bricks.getD []) groups client ∧ ∀ g ∈ groups, Uniform g

/-- The bricks of an accepted pool are grouped as its type demands. Only the groups of an `Arbiter` pool may be decommissioned in
part, as their bricks have not been compared. -/
theorem grouped_iff (haccepted : validateVolumeRequest obj = true) (hnative : obj.type ≠ some VOLUME_TYPE_EXTERNAL) :
    GroupedByType obj (nativeRecord { obj with volumeId := some volumeId } existing) ↔
      (obj.type = some VOLUME_TYPE_ARBITER → decommissionedTogether 3 obj.storage = true) := by
  obtain ⟨type, hchecked⟩ := layoutChecked haccepted hnative
  have hsize := hchecked.pos
  obtain ⟨n, hn⟩ := Nat.dvd_of_mod_eq_zero hchecked.whole
  rw [Nat.mul_comm] at hn
  have hlen : (obj.storage.mapIdx (storedBrick obj.name)).length = n * groupSize obj := by
    rw [List.length_mapIdx, hn]
  have htyped : (nativeRecord { obj with volumeId := some volumeId } existing).type = some type := hchecked.typed
  obtain ⟨client, hclient, hgrouping⟩ := generateClientVolgenData_parts htyped rfl rfl rfl hchecked.count hsize hlen
  -- the groups are the parts, however they are found
  have hgrouped : GroupedByType obj (nativeRecord { obj with volumeId := some volumeId } existing) ↔
      decommissionedTogether (groupSize obj) obj.storage = true := by
    rw [← @uniform_parts_iff obj.name _ _ _ hsize hn]
    constructor
    · rintro ⟨client', groups, -, hgroups, huniform⟩
      have hsame : groups = parts (groupSize obj) n (obj.storage.mapIdx (storedBrick obj.name)) :=
        parts_unique hsize hgroups.sizes hgrouping.sizes (hgroups.ordered.trans hgrouping.ordered.symm)
      exact hsame ▸ huniform
    · exact fun huniform => ⟨client, _, hclient, hgrouping, huniform⟩
  rw [hgrouped]
  by_cases harbiter : type = VOLUME_TYPE_ARBITER
  · have hthree : groupSize obj = 3 := by
      rw [harbiter] at hchecked
      simp [groupSize, hchecked.typed, VOLUME_TYPE_ARBITER]
    rw [hthree]
    exact ⟨fun h _ => h, fun h => h (by rw [hchecked.typed, harbiter])⟩
  · refine ⟨fun _ h => ?_, fun _ => hchecked.together harbiter⟩
    rw [hchecked.typed] at h
    exact absurd (Option.some.inj h) harbiter

end

/-! ## A pool with an arbiter -/

/-- The checks on its texts. -/
abbrev arbiterChecks : RequestChecks where
  isIpAddress _ := false
  validTolerations _ := true

attribute [local instance] arbiterChecks

/-- The pool has one group, and one of its bricks is to be decommissioned. -/
def arbiterPool (decommissioned : String) : KadaluStorage where
  name := "pool"
  volumeId := some "6ba7b810-9dad-11d1-80b4-00c04fd430c8"
  type := some VOLUME_TYPE_ARBITER
  storage := [{ node := "n1", path := "/a" }, { node := "n2", path := "/a", decommissioned }, { node := "n3", path := "/a" }]

/-- A pool that keeps all its bricks. -/
theorem arbiterPool_grouped : GroupedByType (arbiterPool "") (nativeRecord (arbiterPool "") none) :=
  (@grouped_iff _ (arbiterPool "") _ _ (by decide +kernel) (by decide)).mpr fun _ => by decide

/-- The pool with one decommissioned brick is accepted, and its group is not uniform. -/
theorem arbiterPool_mixed : validateVolumeRequest (arbiterPool "true") = true ∧
    ¬ GroupedByType (arbiterPool "true") (nativeRecord (arbiterPool "true") none) := by
  refine ⟨by decide +kernel, ?_⟩
  rintro ⟨client, groups, hclient, hgrouping, huniform⟩
  have hone : groups = [(nativeRecord (arbiterPool "true") none).bricks.getD []] := by
    refine parts_unique (by decide : 0 < 3) hgrouping.sizes (by simp [nativeRecord, arbiterPool]) ?_
    rw [hgrouping.ordered]
    simp
  have hpair := huniform _ (by rw [hone]; exact List.mem_singleton_self _)
    (storedBrick "pool" 0 { node := "n1", path := "/a" }) (by simp [nativeRecord, arbiterPool])
    (storedBrick "pool" 1 { node := "n2", path := "/a", decommissioned := "true" }) (by simp [nativeRecord, arbiterPool])
  exact absurd hpair (by decide)

end Kadalu.Server
