import Mathlib.Data.List.Sort

/-!
# JSON values

A dictionary is a list of fields; of two fields with one key the first is the one that is found. `set` and `merge` write
fields into a dictionary, and `sortKeys` is the form in which key order does not matter.

* `lookup_set`, `lookup_merge`: what is found after a write.
* `lookup_sortFields`: sorting keeps what is found under each key.
-/

inductive Json where
  | null
  | bool (value : Bool)
  | num (value : Int)
  | str (value : String)
  | arr (values : List Json)
  | obj (fields : List (String × Json))
  deriving Repr

namespace Json

mutual

/-- Equality of values; of a dictionary the order of the fields counts. -/
def same : Json → Json → Bool
  | .null, .null => true
  | .bool a, .bool b => a = b
  | .num a, .num b => a = b
  | .str a, .str b => a = b
  | .arr as, .arr bs => sameValues as bs
  | .obj as, .obj bs => sameFields as bs
  | _, _ => false

def sameValues : List Json → List Json → Bool
  | [], [] => true
  | a :: as, b :: bs => same a b && sameValues as bs
  | _, _ => false

def sameFields : List (String × Json) → List (String × Json) → Bool
  | [], [] => true
  | (k, a) :: as, (l, b) :: bs => k = l && same a b && sameFields as bs
  | _, _ => false

end

mutual

theorem same_iff : ∀ a b : Json, same a b = true ↔ a = b
  | .null, b => by cases b <;> simp [same]
  | .bool a, b => by cases b <;> simp [same]
  | .num a, b => by cases b <;> simp [same]
  | .str a, b => by cases b <;> simp [same]
  | .arr as, b => by cases b <;> simp [same, sameValues_iff as]
  | .obj as, b => by cases b <;> simp [same, sameFields_iff as]

theorem sameValues_iff : ∀ as bs : List Json, sameValues as bs = true ↔ as = bs
  | [], bs => by cases bs <;> simp [sameValues]
  | a :: as, bs => by cases bs <;> simp [sameValues, same_iff a, sameValues_iff as]

theorem sameFields_iff : ∀ as bs : List (String × Json), sameFields as bs = true ↔ as = bs
  | [], bs => by cases bs <;> simp [sameFields]
  | (k, a) :: as, bs => by
    cases bs <;> simp [sameFields, same_iff a, sameFields_iff as, Prod.ext_iff]

end

instance : DecidableEq Json := fun a b => decidable_of_iff _ (same_iff a b)

end Json

/-- A dictionary with JSON values. -/
abbrev Dict := List (String × Json)

namespace Dict

variable {d : Dict} {k k' : String} {v : Json}

/-- `data.get(key, default)` -/
def getD (d : Dict) (key : String) (default : Json) : Json := (d.lookup key).getD default

/-- `data[key] = value` -/
def set (d : Dict) (key : String) (value : Json) : Dict :=
  match d with
  | [] => [(key, value)]
  | field :: rest => if field.1 = key then (key, value) :: rest else field :: set rest key value

/-- `data.pop(key, None)` -/
def pop (d : Dict) (key : String) : Dict := d.filter (·.1 ≠ key)

/-- `{**data, **fields}` -/
def merge (d : Dict) (fields : Dict) : Dict := fields.foldl (fun d field => d.set field.1 field.2) d

theorem lookup_field (k' k : String) (v : Json) (d : Dict) :
    List.lookup k' ((k, v) :: d) = if k' = k then some v else d.lookup k' := by
  rw [List.lookup_cons]
  by_cases h : k' = k
  · rw [if_pos h, beq_iff_eq.mpr h]
  · rw [if_neg h, beq_eq_false_iff_ne.mpr h]

theorem lookup_set (d : Dict) (k k' : String) (v : Json) :
    (d.set k v).lookup k' = if k' = k then some v else d.lookup k' := by
  induction d with
  | nil => exact lookup_field k' k v []
  | cons field rest ih =>
    obtain ⟨l, w⟩ := field
    unfold set
    by_cases hl : l = k
    · subst hl
      rw [if_pos rfl, lookup_field, lookup_field]
      split <;> rfl
    · rw [if_neg hl, lookup_field, lookup_field, ih]
      by_cases h : k' = l
      · subst h
        rw [if_pos rfl, if_neg hl, if_pos rfl]
      · rw [if_neg h, if_neg h]

@[simp] theorem getD_set (d : Dict) (k k' : String) (v default : Json) :
    (d.set k v).getD k' default = if k' = k then v else d.getD k' default := by
  unfold getD
  rw [lookup_set]
  split <;> rfl

/-- A write elsewhere. -/
theorem lookup_set_ne (d : Dict) (v : Json) (h : k' ≠ k) : (d.set k v).lookup k' = d.lookup k' := by
  rw [lookup_set, if_neg h]

/-- A field that stays. -/
theorem lookup_pop_ne (d : Dict) (h : k' ≠ k) : (d.pop k).lookup k' = d.lookup k' := by
  induction d with
  | nil => rfl
  | cons field rest ih =>
    obtain ⟨l, w⟩ := field
    unfold pop at ih ⊢
    rw [List.filter_cons, lookup_field]
    by_cases hl : l = k
    · rw [if_neg (by simp [hl]), ih, if_neg (hl ▸ h)]
    · rw [if_pos (by simp [hl]), lookup_field, ih]

/-- A default that is not used. -/
theorem getD_present (default default' : Json) (h : (d.lookup k).isSome = true) : d.getD k default = d.getD k default' := by
  obtain ⟨v, hv⟩ := Option.isSome_iff_exists.mp h
  simp only [getD, hv, Option.getD_some]

theorem getD_absent {default : Json} (h : d.lookup k = none) : d.getD k default = default := by
  simp only [getD, h, Option.getD_none]

/-- A default that is looked up under the same key. -/
theorem getD_getD (d : Dict) (k : String) (default : Json) : d.getD k (d.getD k default) = d.getD k default := by
  unfold getD
  cases d.lookup k <;> rfl

@[simp] theorem merge_nil (d : Dict) : d.merge [] = d := rfl

@[simp] theorem merge_cons (d : Dict) (k : String) (v : Json) (fields : Dict) :
    d.merge ((k, v) :: fields) = (d.set k v).merge fields := rfl

end Dict

/-! ## The order of keys -/

namespace Json

/-- Fields in the order of their keys. -/
def keyLe (a b : String × Json) : Prop := a.1 ≤ b.1

instance : DecidableRel keyLe := fun a b => inferInstanceAs (Decidable (a.1 ≤ b.1))

mutual

/-- `sort_keys` -/
def sortKeys : Json → Json
  | .arr values => .arr (sortValues values)
  | .obj fields => .obj ((sortFields fields).insertionSort keyLe)
  | v => v

def sortValues : List Json → List Json
  | [] => []
  | v :: rest => v.sortKeys :: sortValues rest

def sortFields : List (String × Json) → List (String × Json)
  | [] => []
  | (k, v) :: rest => (k, v.sortKeys) :: sortFields rest

end

theorem lookup_sortFields (k : String) : ∀ fields : Dict, (sortFields fields).lookup k = (fields.lookup k).map sortKeys
  | [] => rfl
  | (l, v) :: rest => by
    rw [sortFields, List.lookup_cons, List.lookup_cons, lookup_sortFields k rest]
    cases k == l <;> rfl

theorem keys_sortFields : ∀ fields : Dict, (sortFields fields).map Prod.fst = fields.map Prod.fst
  | [] => rfl
  | (l, v) :: rest => by rw [sortFields, List.map_cons, List.map_cons, keys_sortFields rest]

theorem sortValues_eq_map : ∀ values : List Json, sortValues values = values.map sortKeys
  | [] => rfl
  | v :: rest => by rw [sortValues, List.map_cons, sortValues_eq_map rest]

/-- With each key once, the order of the fields does not matter. -/
theorem lookup_perm {a b : Dict} (h : a.Perm b) (ha : (a.map Prod.fst).Nodup) (k : String) : a.lookup k = b.lookup k := by
  induction h with
  | nil => rfl
  | cons x _ ih =>
    obtain ⟨l, v⟩ := x
    rw [Dict.lookup_field, Dict.lookup_field, ih (List.nodup_cons.mp ha).2]
  | swap x y rest =>
    obtain ⟨l, v⟩ := x
    obtain ⟨m, w⟩ := y
    have hne : m ≠ l := by
      rintro rfl
      simp at ha
    simp only [Dict.lookup_field]
    by_cases hm : k = m
    · subst hm
      rw [if_pos rfl, if_neg hne, if_pos rfl]
    · rw [if_neg hm, if_neg hm]
  | trans hab _ ih₁ ih₂ => rw [ih₁ ha, ih₂ ((hab.map Prod.fst).nodup_iff.mp ha)]

/-- **Sorted dictionaries.** Two dictionaries that are the same up to the order of keys have the same values. -/
theorem lookup_of_sortKeys_eq {a b : Dict} (h : (Json.obj a).sortKeys = (Json.obj b).sortKeys)
    (ha : (a.map Prod.fst).Nodup) (hb : (b.map Prod.fst).Nodup) (k : String) :
    (a.lookup k).map sortKeys = (b.lookup k).map sortKeys := by
  simp only [sortKeys, Json.obj.injEq] at h
  have hsorted : ∀ d : Dict, (d.map Prod.fst).Nodup →
      ((sortFields d).insertionSort keyLe).lookup k = (d.lookup k).map sortKeys := fun d hd => by
    rw [lookup_perm (List.perm_insertionSort keyLe _) ?_ k, lookup_sortFields]
    rw [((List.perm_insertionSort keyLe _).map Prod.fst).nodup_iff, keys_sortFields]
    exact hd
  rw [← hsorted a ha, ← hsorted b hb, h]

end Json
