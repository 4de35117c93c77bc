import Kadalu.Operator.Names
import Kadalu.Operator.Snapshot
import Kadalu.Data.Canonical
import Kadalu.Data.InStep
import Mathlib.Algebra.Order.Ring.Int
import Mathlib.Data.Prod.Lex
import Mathlib.Data.String.Basic

/-!
# Tolerations

The tolerations of a pool come from its custom resource, from its stored record, or from the Pod template of its servers. The
operator brings a list of them into one form and compares these forms to see whether Pods are current.

* `normalizedToleration_agrees`: what the form of one toleration says of it.
* `normalizeTolerations_eq_iff`: when the forms of two lists are equal exactly if the lists mean the same.
-/

namespace Kadalu.Tolerations

open Operator Snapshot InStep

/-! ## One toleration -/

/-- A toleration as it comes in: a dictionary, or the attributes of an object of the Kubernetes client. -/
inductive RawToleration where
  | dict (fields : Dict)
  | model (attributes : Dict)

namespace RawToleration

def isDict : RawToleration → Bool
  | .dict _ => true
  | .model _ => false

/-- A value under a name that is there and is not `None`. -/
def get : RawToleration → String → Option Json
  | .dict fields, name => (fields.lookup name).filter (· ≠ .null)
  | .model attributes, name => (attributes.lookup name).filter (· ≠ .null)

/-- The name of a field in the models of the client. -/
def modelName (apiName : String) : String := if apiName = "tolerationSeconds" then "toleration_seconds" else apiName

/-- `normalized.get(api_name)` -/
def field (t : RawToleration) (apiName : String) : Option Json := (t.get apiName).orElse fun _ => t.get (modelName apiName)

end RawToleration

def fieldNames : List String := ["effect", "key", "operator", "tolerationSeconds", "value"]

def tolerationOperators : List String := ["Equal", "Exists"]

def tolerationEffects : List String := ["", "NoSchedule", "PreferNoSchedule", "NoExecute"]

/-- `_valid_qualified_label_name` -/
def validQualifiedLabelName (value : String) : Bool :=
  let validName := fun name : List Char => 0 < name.length && name.length ≤ 63 && isLabelName name
  match splitChars '/' value.toList with
  | [name] => validName name
  | [head, name] => validName name && (0 < head.length && head.length ≤ 253 && isDnsSubdomain head)
  | _ => false

def invalidToleration (context : String) : OpErr := .runtime s!"{context} contains an invalid toleration"

/-- A text field; one that is left out is empty. -/
def textField (context : String) : Option Json → Except OpErr String
  | none => .ok ""
  | some (.str value) => .ok value
  | some _ => .error (invalidToleration context)

/-- `tolerationSeconds` is an integer of 64 bits. -/
def secondsField (context : String) : Option Json → Except OpErr (Option Int)
  | none => .ok none
  | some (.num seconds) =>
    if seconds < -(2 ^ 63) ∨ 2 ^ 63 - 1 < seconds then .error (invalidToleration context) else .ok (some seconds)
  | some _ => .error (invalidToleration context)

/-- The fields of a toleration with its effective operator go together. -/
def acceptable (t : Toleration) : Bool :=
  tolerationOperators.contains t.operator && tolerationEffects.contains t.effect &&
    (t.key = "" || validQualifiedLabelName t.key) && validLabelValue t.value &&
    !(t.key = "" && t.operator ≠ "Exists") && !(t.operator = "Exists" && t.value ≠ "") &&
    !(t.tolerationSeconds.isSome && t.effect ≠ "NoExecute")

/-- `operator or "Equal"` -/
def effectiveOperator (operator : String) : String := if operator = "" then "Equal" else operator

/-- `_normalized_toleration` -/
def normalizedToleration (context : String) (t : RawToleration) : Except OpErr Toleration :=
  if !t.isDict && fieldNames.all fun name => (t.field name).isNone then .error (invalidToleration context)
  else do
    let effect ← textField context (t.field "effect")
    let key ← textField context (t.field "key")
    let operator ← textField context (t.field "operator")
    let value ← textField context (t.field "value")
    let tolerationSeconds ← secondsField context (t.field "tolerationSeconds")
    let canonical : Toleration := ⟨effectiveOperator operator, key, effect, value, tolerationSeconds⟩
    if !acceptable canonical then .error (invalidToleration context) else .ok canonical

/-! ## Lists -/

/-- What `normalize_tolerations` is given. -/
inductive RawTolerations where
  | absent
  | list (tolerations : List RawToleration)
  /-- a value that is not a list -/
  | other

/-- `json.dumps(normalized, sort_keys=True)` -/
def serialized (t : Toleration) : Json := (Json.obj t.dict).sortKeys

/-- The sort key; of a toleration without `tolerationSeconds` it has -1 in their place. -/
def sortKey (t : Toleration) : String ×ₗ String ×ₗ String ×ₗ String ×ₗ Int :=
  toLex (t.key, toLex (t.effect, toLex (t.operator, toLex (t.value, t.tolerationSeconds.getD (-1)))))

/-- `normalize_tolerations` -/
def normalizeTolerations (context : String) : RawTolerations → Except OpErr (List Toleration)
  | .absent => .ok []
  | .other => .error (.runtime s!"{context} has invalid tolerations")
  | .list tolerations => do
    let normalized ← tolerations.mapM (normalizedToleration context)
    return Canonical.canonical serialized sortKey normalized

/-- A toleration that `normalize_tolerations` returns, as a value that it can be given. -/
def raw (t : Toleration) : RawToleration := .dict t.dict

/-! ## What a toleration means to Kubernetes -/

namespace RawToleration

/-- A text; the empty text stands for one that is left out. -/
def text (t : RawToleration) (name : String) : Json := (t.field name).getD (.str "")

/-- The operator; one that is left out is `Equal`. -/
def operator (t : RawToleration) : Json := if t.text "operator" = .str "" then .str "Equal" else t.text "operator"

/-- Two tolerations with the same texts. -/
def SameTexts (t u : RawToleration) : Prop :=
  t.operator = u.operator ∧ t.text "key" = u.text "key" ∧ t.text "effect" = u.text "effect" ∧ t.text "value" = u.text "value"

/-- Two tolerations that Kubernetes does not tell apart. -/
def Equivalent (t u : RawToleration) : Prop := t.SameTexts u ∧ t.field "tolerationSeconds" = u.field "tolerationSeconds"

/-- Two tolerations one of which has no `tolerationSeconds` and the other -1 of them, and that are the same otherwise. -/
def Twins (t u : RawToleration) : Prop :=
  t.SameTexts u ∧ t.field "tolerationSeconds" = none ∧ u.field "tolerationSeconds" = some (.num (-1))

end RawToleration

/-- Two lists of the same tolerations, up to what Kubernetes does not tell apart. -/
def SameSet (l m : List RawToleration) : Prop :=
  (∀ t ∈ l, ∃ u ∈ m, t.Equivalent u) ∧ ∀ u ∈ m, ∃ t ∈ l, t.Equivalent u

section Reading

variable {context : String} {v : Option Json} {s : String} {t : RawToleration} {r : Toleration}

theorem textField_ok : textField context v = .ok s ↔ v.getD (.str "") = .str s := by
  unfold textField
  split
  · simp
  · simp
  · rename_i value hvalue
    simpa using hvalue s

theorem secondsField_ok {n : Option Int} :
    secondsField context v = .ok n ↔ v = n.map .num ∧ ∀ k ∈ n, -(2 ^ 63) ≤ k ∧ k ≤ 2 ^ 63 - 1 := by
  unfold secondsField
  cases n <;> split <;> (simp_all; try omega)

theorem operator_of_text (h : t.text "operator" = .str s) : t.operator = .str (effectiveOperator s) := by
  unfold RawToleration.operator effectiveOperator
  rw [h]
  by_cases hs : s = "" <;> simp [hs]

/-- What is accepted has a form that says what it says. -/
structure Agrees (t : RawToleration) (r : Toleration) : Prop where
  operator : t.operator = .str r.operator
  key : t.text "key" = .str r.key
  effect : t.text "effect" = .str r.effect
  value : t.text "value" = .str r.value
  seconds : t.field "tolerationSeconds" = r.tolerationSeconds.map .num

theorem normalizedToleration_agrees (h : normalizedToleration context t = .ok r) : Agrees t r := by
  unfold normalizedToleration at h
  obtain ⟨-, h⟩ := Except.ite_error_ok.mp h
  obtain ⟨effect, heffect, h⟩ := Except.bind_ok.mp h
  obtain ⟨key, hkey, h⟩ := Except.bind_ok.mp h
  obtain ⟨operator, hoperator, h⟩ := Except.bind_ok.mp h
  obtain ⟨value, hvalue, h⟩ := Except.bind_ok.mp h
  obtain ⟨seconds, hseconds, h⟩ := Except.bind_ok.mp h
  obtain ⟨-, h⟩ := Except.ite_error_ok.mp h
  cases h
  exact ⟨operator_of_text (textField_ok.mp hoperator), textField_ok.mp hkey, textField_ok.mp heffect, textField_ok.mp hvalue,
    (secondsField_ok.mp hseconds).1⟩

theorem Agrees.sameTexts {u : RawToleration} {r' : Toleration} (h : Agrees t r) (h' : Agrees u r') :
    t.SameTexts u ↔ r.operator = r'.operator ∧ r.key = r'.key ∧ r.effect = r'.effect ∧ r.value = r'.value := by
  simp [RawToleration.SameTexts, h.operator, h.key, h.effect, h.value, h'.operator, h'.key, h'.effect, h'.value]

/-- Tolerations with one form are those that Kubernetes does not tell apart. -/
theorem Agrees.equivalent {u : RawToleration} {r' : Toleration} (h : Agrees t r) (h' : Agrees u r') :
    t.Equivalent u ↔ r = r' := by
  have hnum : Function.Injective (Option.map Json.num) := Option.map_injective fun _ _ => Json.num.inj
  rw [RawToleration.Equivalent, h.sameTexts h', h.seconds, h'.seconds, hnum.eq_iff]
  obtain ⟨operator, key, effect, value, seconds⟩ := r
  obtain ⟨operator', key', effect', value', seconds'⟩ := r'
  simp only [Toleration.mk.injEq]
  tauto

/-! ## The form of a form -/

theorem acceptable_of_ok (h : normalizedToleration context t = .ok r) :
    acceptable r = true ∧ ∀ k ∈ r.tolerationSeconds, -(2 ^ 63) ≤ k ∧ k ≤ 2 ^ 63 - 1 := by
  unfold normalizedToleration at h
  obtain ⟨-, h⟩ := Except.ite_error_ok.mp h
  obtain ⟨_, -, h⟩ := Except.bind_ok.mp h
  obtain ⟨_, -, h⟩ := Except.bind_ok.mp h
  obtain ⟨_, -, h⟩ := Except.bind_ok.mp h
  obtain ⟨_, -, h⟩ := Except.bind_ok.mp h
  obtain ⟨_, hseconds, h⟩ := Except.bind_ok.mp h
  obtain ⟨haccept, h⟩ := Except.ite_error_ok.mp h
  cases h
  exact ⟨by simpa using haccept, (secondsField_ok.mp hseconds).2⟩

theorem filter_textValue (s : String) : (textValue s).filter (· ≠ .null) = textValue s := by
  unfold textValue
  split <;> simp

theorem textField_textValue (s : String) : textField context (textValue s) = .ok s := by
  unfold textValue
  split
  · simp_all [textField]
  · rfl

/-- The form of a toleration has the fields of its dictionary. -/
theorem field_raw (r : Toleration) :
    (raw r).field "effect" = textValue r.effect ∧ (raw r).field "key" = textValue r.key ∧
      (raw r).field "operator" = some (.str r.operator) ∧ (raw r).field "value" = textValue r.value ∧
      (raw r).field "tolerationSeconds" = r.tolerationSeconds.map .num := by
  have hseconds : (r.tolerationSeconds.map Json.num).filter (· ≠ .null) = r.tolerationSeconds.map .num := by
    cases r.tolerationSeconds <;> simp
  simp only [raw, RawToleration.field, RawToleration.get, RawToleration.modelName, Toleration.lookup_dict, String.reduceEq,
    if_true, if_false, filter_textValue, hseconds, Option.filter_none]
  refine ⟨?_, ?_, ?_, ?_, ?_⟩
  · cases textValue r.effect <;> rfl
  · cases textValue r.key <;> rfl
  · simp
  · cases textValue r.value <;> rfl
  · cases r.tolerationSeconds <;> rfl

/-- A toleration that was accepted is accepted again, in its form. -/
theorem normalizedToleration_raw (context' : String) (h : normalizedToleration context t = .ok r) :
    normalizedToleration context' (raw r) = .ok r := by
  obtain ⟨haccept, hrange⟩ := acceptable_of_ok h
  obtain ⟨heffect, hkey, hoperator, hvalue, hseconds⟩ := field_raw r
  have hoperator' : effectiveOperator r.operator = r.operator := by
    unfold effectiveOperator
    rw [if_neg]
    rintro hempty
    simp [acceptable, hempty, tolerationOperators] at haccept
  have hdict : (raw r).isDict = true := rfl
  rw [normalizedToleration, hdict, heffect, hkey, hoperator, hvalue, hseconds]
  have hstr : textField context' (some (.str r.operator)) = .ok r.operator := rfl
  have hint : secondsField context' (r.tolerationSeconds.map .num) = .ok r.tolerationSeconds := secondsField_ok.mpr ⟨rfl, hrange⟩
  simp [textField_textValue, hstr, hint, hoperator', haccept]

end Reading

/-! ## The form of a list -/

section Lists

variable {context context' : String} {l m : List RawToleration} {out out' : List Toleration}

theorem serialized_injective : Function.Injective serialized := Toleration.dict_injective

theorem normalizeTolerations_ok : normalizeTolerations context (.list l) = .ok out ↔
    ∃ normalized, List.Forall₂ (fun t r => normalizedToleration context t = .ok r) l normalized ∧
      out = Canonical.canonical serialized sortKey normalized := by
  unfold normalizeTolerations
  rw [Except.bind_ok]
  simp only [Except.mapM_ok, Except.pure_eq_ok, Except.ok.injEq, eq_comm (a := out)]

/-- The forms of two accepted lists hold the same tolerations exactly if the lists mean the same. -/
theorem sameSet_iff {ns ms : List Toleration} (hl : List.Forall₂ Agrees l ns) (hm : List.Forall₂ Agrees m ms) :
    SameSet l m ↔ ∀ r, r ∈ ns ↔ r ∈ ms := by
  constructor
  · rintro ⟨hlm, hml⟩ r
    constructor
    · intro hr
      obtain ⟨t, ht, hagrees⟩ := forall₂_right hl r hr
      obtain ⟨u, hu, hequiv⟩ := hlm t ht
      obtain ⟨r', hr', hagrees'⟩ := forall₂_left hm u hu
      rwa [(hagrees.equivalent hagrees').mp hequiv]
    · intro hr
      obtain ⟨u, hu, hagrees'⟩ := forall₂_right hm r hr
      obtain ⟨t, ht, hequiv⟩ := hml u hu
      obtain ⟨r', hr', hagrees⟩ := forall₂_left hl t ht
      rwa [← (hagrees.equivalent hagrees').mp hequiv]
  · intro h
    constructor
    · intro t ht
      obtain ⟨r, hr, hagrees⟩ := forall₂_left hl t ht
      obtain ⟨u, hu, hagrees'⟩ := forall₂_right hm r ((h r).mp hr)
      exact ⟨u, hu, (hagrees.equivalent hagrees').mpr rfl⟩
    · intro u hu
      obtain ⟨r, hr, hagrees'⟩ := forall₂_left hm u hu
      obtain ⟨t, ht, hagrees⟩ := forall₂_right hl r ((h r).mpr hr)
      exact ⟨t, ht, (hagrees.equivalent hagrees').mpr rfl⟩

/-- The sort key tells two tolerations apart, unless one has no seconds and the other -1. -/
theorem sortKey_eq_iff {r r' : Toleration} : sortKey r = sortKey r' ↔
    (r.operator = r'.operator ∧ r.key = r'.key ∧ r.effect = r'.effect ∧ r.value = r'.value) ∧
      r.tolerationSeconds.getD (-1) = r'.tolerationSeconds.getD (-1) := by
  simp only [sortKey, toLex_inj, Prod.mk.injEq]
  tauto

theorem twins_or_eq {r r' : Toleration} (h : sortKey r = sortKey r') :
    r = r' ∨ (r.tolerationSeconds = none ∧ r'.tolerationSeconds = some (-1)) ∨
      (r'.tolerationSeconds = none ∧ r.tolerationSeconds = some (-1)) := by
  obtain ⟨⟨hoperator, hkey, heffect, hvalue⟩, hseconds⟩ := sortKey_eq_iff.mp h
  obtain ⟨operator, key, effect, value, seconds⟩ := r
  obtain ⟨operator', key', effect', value', seconds'⟩ := r'
  obtain rfl := hoperator
  obtain rfl := hkey
  obtain rfl := heffect
  obtain rfl := hvalue
  cases seconds with
  | none =>
    cases seconds' with
    | none => exact .inl rfl
    | some n =>
      obtain rfl : -1 = n := hseconds
      exact .inr (.inl ⟨rfl, rfl⟩)
  | some n =>
    cases seconds' with
    | none =>
      obtain rfl : n = -1 := hseconds
      exact .inr (.inr ⟨rfl, rfl⟩)
    | some n' =>
      obtain rfl : n = n' := hseconds
      exact .inl rfl

theorem Agrees.twins {t u : RawToleration} {r r' : Toleration} (h : Agrees t r) (h' : Agrees u r') :
    t.Twins u ↔ sortKey r = sortKey r' ∧ r.tolerationSeconds = none ∧ r'.tolerationSeconds = some (-1) := by
  rw [RawToleration.Twins, h.sameTexts h', h.seconds, h'.seconds, sortKey_eq_iff, Option.map_eq_none_iff,
    Option.map_eq_some_iff]
  constructor
  · rintro ⟨htexts, hnone, n, hn, hnum⟩
    obtain rfl : n = -1 := Json.num.inj hnum
    exact ⟨⟨htexts, by rw [hnone, hn]; rfl⟩, hnone, hn⟩
  · rintro ⟨⟨htexts, -⟩, hnone, hsome⟩
    exact ⟨htexts, hnone, -1, hsome, rfl⟩

/-- Without twins the sort key tells the tolerations of a list apart. -/
theorem injOn_sortKey {ns : List Toleration} (hl : List.Forall₂ Agrees l ns) (htwins : ¬∃ t ∈ l, ∃ u ∈ l, t.Twins u) :
    Set.InjOn sortKey {r | r ∈ ns} := by
  intro r hr r' hr' h
  obtain ⟨t, ht, hagrees⟩ := forall₂_right hl r hr
  obtain ⟨u, hu, hagrees'⟩ := forall₂_right hl r' hr'
  rcases twins_or_eq h with heq | ⟨hnone, hsome⟩ | ⟨hnone, hsome⟩
  · exact heq
  · exact absurd ⟨t, ht, u, hu, (hagrees.twins hagrees').mpr ⟨h, hnone, hsome⟩⟩ htwins
  · exact absurd ⟨u, hu, t, ht, (hagrees'.twins hagrees).mpr ⟨h.symm, hnone, hsome⟩⟩ htwins

/-- An accepted list is accepted with two of its tolerations put in front. -/
theorem normalizeTolerations_pair {ns : List Toleration} {t u : RawToleration} {r r' : Toleration}
    (hl : List.Forall₂ (fun t r => normalizedToleration context t = .ok r) l ns)
    (ht : normalizedToleration context t = .ok r) (hu : normalizedToleration context u = .ok r') :
    normalizeTolerations context (.list ([t, u] ++ l)) = .ok (Canonical.canonical serialized sortKey ([r, r'] ++ ns)) :=
  normalizeTolerations_ok.mpr ⟨[r, r'] ++ ns, .cons ht (.cons hu hl), rfl⟩

theorem forall₂_agrees {ns : List Toleration} (hl : List.Forall₂ (fun t r => normalizedToleration context t = .ok r) l ns) :
    List.Forall₂ Agrees l ns :=
  hl.imp fun _ _ => normalizedToleration_agrees

/-- The form of a list is accepted, and its own form. -/
theorem normalizeTolerations_form (h : normalizeTolerations context (.list l) = .ok out) :
    normalizeTolerations context' (.list (out.map raw)) = .ok out := by
  obtain ⟨ns, hl, rfl⟩ := normalizeTolerations_ok.mp h
  refine normalizeTolerations_ok.mpr ⟨_, ?_, (Canonical.canonical_canonical serialized_injective ns).symm⟩
  rw [List.forall₂_map_left_iff, List.forall₂_same]
  intro r hr
  obtain ⟨t, -, ht⟩ := forall₂_right hl r ((Canonical.mem_canonical serialized_injective).mp hr)
  exact normalizedToleration_raw context' ht

/-- **Forms without twins.** The form of a list without twins is that of the lists that mean the same. -/
theorem normalizeTolerations_eq_iff (h : normalizeTolerations context (.list l) = .ok out)
    (h' : normalizeTolerations context' (.list m) = .ok out') (htwins : ¬∃ t ∈ l, ∃ u ∈ l, t.Twins u) :
    out = out' ↔ SameSet l m := by
  obtain ⟨ns, hl, rfl⟩ := normalizeTolerations_ok.mp h
  obtain ⟨ms, hm, rfl⟩ := normalizeTolerations_ok.mp h'
  rw [Canonical.canonical_eq_iff serialized_injective (injOn_sortKey (forall₂_agrees hl) htwins),
    sameSet_iff (forall₂_agrees hl) (forall₂_agrees hm)]

/-- **Twins.** A list with twins has another form than one that means the same. -/
theorem exists_form_ne (h : normalizeTolerations context (.list l) = .ok out) {t u : RawToleration} (ht : t ∈ l) (hu : u ∈ l)
    (htwins : t.Twins u) : ∃ m out', normalizeTolerations context (.list m) = .ok out' ∧ SameSet l m ∧ out ≠ out' := by
  obtain ⟨ns, hl, rfl⟩ := normalizeTolerations_ok.mp h
  obtain ⟨r, hr, hrt⟩ := forall₂_left hl t ht
  obtain ⟨r', hr', hru⟩ := forall₂_left hl u hu
  obtain ⟨hkey, hnone, hsome⟩ :=
    ((normalizedToleration_agrees hrt).twins (normalizedToleration_agrees hru)).mp htwins
  have hne : r ≠ r' := by
    rintro rfl
    rw [hnone] at hsome
    cases hsome
  have hsame : ∀ {a b : RawToleration} {c d : Toleration}, c ∈ ns → d ∈ ns → normalizedToleration context a = .ok c →
      normalizedToleration context b = .ok d → SameSet l ([a, b] ++ l) := by
    intro a b c d hc hd ha hb
    refine (sameSet_iff (forall₂_agrees hl) (forall₂_agrees (.cons ha (.cons hb hl)))).mpr fun e => ?_
    simp only [List.mem_cons]
    exact ⟨fun he => .inr (.inr he), fun he => he.elim (· ▸ hc) fun he => he.elim (· ▸ hd) id⟩
  -- with the twins in front, in one order or the other, the form is not that of the list
  have hswap := Canonical.canonical_ne_of_tie serialized_injective hne hkey ns
  by_cases hform : Canonical.canonical serialized sortKey ns = Canonical.canonical serialized sortKey ([r, r'] ++ ns)
  · exact ⟨_, _, normalizeTolerations_pair hl hru hrt, hsame hr' hr hru hrt, fun heq => hswap (hform ▸ heq)⟩
  · exact ⟨_, _, normalizeTolerations_pair hl hrt hru, hsame hr hr' hrt hru, hform⟩

end Lists

/-- **Canonical tolerations.** The form of an accepted list is accepted and its own form; and it is the form of exactly the
accepted lists that mean the same if and only if no toleration of the list has a twin. -/
theorem normalizeTolerations_canonical_iff (context : String) (l : List RawToleration) (out : List Toleration)
    (h : normalizeTolerations context (.list l) = .ok out) :
    (normalizeTolerations context (.list (out.map raw)) = .ok out ∧
      ∀ (context' : String) (m : List RawToleration) (out' : List Toleration),
        normalizeTolerations context' (.list m) = .ok out' → (out = out' ↔ SameSet l m)) ↔
      ¬∃ t ∈ l, ∃ u ∈ l, t.Twins u := by
  constructor
  · rintro ⟨-, hforms⟩ ⟨t, ht, u, hu, htwins⟩
    obtain ⟨m, out', hm, hsame, hne⟩ := exists_form_ne h ht hu htwins
    exact hne ((hforms context m out' hm).mpr hsame)
  · intro htwins
    exact ⟨normalizeTolerations_form h, fun context' m out' hm => normalizeTolerations_eq_iff h hm htwins⟩

/-- A toleration of the pods of an evicted node, for ever or for no time at all. -/
def crew (tolerationSeconds : List (String × Json)) : RawToleration :=
  .dict ([("key", .str "bellagio.invalid/crew"), ("operator", .str "Exists"), ("effect", .str "NoExecute")] ++
    tolerationSeconds)

theorem crew_canonical :
    let l := [crew [], crew [("tolerationSeconds", .num 11)], crew []]
    ∃ out, normalizeTolerations "Bellagio crew" (.list l) = .ok out ∧ out.length = 2 ∧
      ∀ (context' : String) (m : List RawToleration) (out' : List Toleration),
        normalizeTolerations context' (.list m) = .ok out' → (out = out' ↔ SameSet l m) := by
  have hform : ∃ out, normalizeTolerations "Bellagio crew"
      (.list [crew [], crew [("tolerationSeconds", .num 11)], crew []]) = .ok out ∧ out.length = 2 :=
    Except.ok_of_test (by decide +kernel)
  obtain ⟨out, hout, hlength⟩ := hform
  refine ⟨out, hout, hlength, ((normalizeTolerations_canonical_iff _ _ out hout).mpr ?_).2⟩
  rintro ⟨t, -, u, hu, -, -, hseconds⟩
  simp only [List.mem_cons, List.not_mem_nil, or_false] at hu
  rcases hu with rfl | rfl | rfl
  all_goals exact absurd hseconds (by decide +kernel)

/-- Two lists of the same two tolerations have two forms. -/
theorem crew_order : ∃ l m out out',
    normalizeTolerations "Bellagio crew" (.list l) = .ok out ∧ normalizeTolerations "Bellagio crew" (.list m) = .ok out' ∧
      l.Perm m ∧ SameSet l m ∧ out ≠ out' := by
  refine ⟨[crew [], crew [("tolerationSeconds", .num (-1))]], [crew [("tolerationSeconds", .num (-1))], crew []],
    [⟨"Exists", "bellagio.invalid/crew", "NoExecute", "", none⟩, ⟨"Exists", "bellagio.invalid/crew", "NoExecute", "", some (-1)⟩],
    [⟨"Exists", "bellagio.invalid/crew", "NoExecute", "", some (-1)⟩, ⟨"Exists", "bellagio.invalid/crew", "NoExecute", "", none⟩],
    ?_, ?_, List.Perm.swap _ _ _, ?_, by decide⟩
  · rfl
  · rfl
  · constructor
    all_goals
      intro t ht
      exact ⟨t, (List.Perm.swap _ _ _).mem_iff.mp ht, ⟨rfl, rfl, rfl, rfl⟩, rfl⟩

end Kadalu.Tolerations
