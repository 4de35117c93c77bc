import Mathlib.Data.List.Perm.Subperm
import Mathlib.Order.Basic
import Mathlib.Data.Nat.Find

/-!
# Symbolic links

A file system as far as the names in it are resolved: at some places there are links. The kernel walks along a path, puts the
target of a link in front of what is left, and gives up after a number of links (`walk`). A library function resolves the target of
a link before it goes on, leaves a link alone that it is resolving already, and joins on what it could not resolve (`realpath`).

* `walk_append`: a walk along two paths, one after the other.
* `walk_real`: a walk ends at a place that has no links on the way to it.
* `realpath_of_walk`: where the walk ends, the library function finds the end.
-/

namespace Symlinks

/-- A component of a path. -/
inductive Comp (ν : Type) where
  | self
  | parent
  | name (n : ν)

/-- What a link says. -/
structure Target (ν : Type) where
  absolute : Bool
  comps : List (Comp ν)

/-- The links of a file system, at their places; a place is the list of the names that lead to it. -/
abbrev Links (ν : Type) := List (List ν × Target ν)

variable {ν : Type}

/-- Where the target of a link in the directory `base` begins. -/
def Target.start (t : Target ν) (base : List ν) : List ν := if t.absolute then [] else base

variable [DecidableEq ν] (links : Links ν)

/-- There is a link at the place. -/
def isLink (place : List ν) : Bool := (links.lookup place).isSome

/-! ## The walk of the kernel -/

/-- A walk that leaves the rest of the way to `follow` at the first link. -/
def walkWith (follow : List ν → List (Comp ν) → Option (List ν)) : List ν → List (Comp ν) → Option (List ν)
  | base, [] => some base
  | base, .self :: rest => walkWith follow base rest
  | base, .parent :: rest => walkWith follow base.dropLast rest
  | base, .name n :: rest =>
    match links.lookup (base ++ [n]) with
    | none => walkWith follow (base ++ [n]) rest
    | some target => follow (target.start base) (target.comps ++ rest)

/-- A walk that follows a number of links. -/
def walk : Nat → List ν → List (Comp ν) → Option (List ν)
  | 0 => walkWith links fun _ _ => none
  | k + 1 => walkWith links (walk k)

/-! ## The library function -/

/-- What is known of a path in the end: its place, or how far it was resolved. -/
inductive Resolution (ν : Type) where
  | resolved (place : List ν)
  | stuck (place : List ν) (rest : List (Comp ν))

/-- The resolution of a path, with that of links. -/
def resolveWith (follow : List ν → Target ν → List ν → Resolution ν) : List ν → List (Comp ν) → Resolution ν
  | base, [] => .resolved base
  | base, .self :: rest => resolveWith follow base rest
  | base, .parent :: rest => resolveWith follow base.dropLast rest
  | base, .name n :: rest =>
    match links.lookup (base ++ [n]) with
    | none => resolveWith follow (base ++ [n]) rest
    | some target =>
      match follow (base ++ [n]) target base with
      | .resolved place => resolveWith follow place rest
      | .stuck place left => .stuck place (left ++ rest)

/-- The resolution of a path while the links `active` are being resolved. -/
def resolve : Nat → List (List ν) → List ν → List (Comp ν) → Resolution ν
  | 0, _ => resolveWith links fun place _ _ => .stuck place []
  | depth + 1, active => resolveWith links fun place target base =>
    if place ∈ active then .stuck place [] else resolve depth (place :: active) (target.start base) target.comps

/-- A path without a look at the file system. -/
def lexical : List ν → List (Comp ν) → List ν
  | base, [] => base
  | base, .self :: rest => lexical base rest
  | base, .parent :: rest => lexical base.dropLast rest
  | base, .name n :: rest => lexical (base ++ [n]) rest

/-- The place of a path; what cannot be resolved is joined on. A link inside itself is left at the depth of all links. -/
def realpath (path : List (Comp ν)) : List ν :=
  match resolve links links.length [] [] path with
  | .resolved place => place
  | .stuck place rest => lexical place rest

variable {links}

theorem mem_of_lookup {place : List ν} {target : Target ν} : ∀ {links : Links ν}, links.lookup place = some target →
    (place, target) ∈ links
  | [], h => by cases h
  | (q, t) :: links, h => by
    by_cases hq : place = q
    · rw [hq, List.lookup_cons_self] at h
      rw [hq, Option.some.inj h]
      exact List.mem_cons_self
    · rw [List.lookup_cons, beq_eq_false_iff_ne.mpr hq] at h
      exact List.mem_cons_of_mem _ (mem_of_lookup h)

theorem mem_keys_of_lookup {place : List ν} {target : Target ν} (h : links.lookup place = some target) :
    place ∈ links.map Prod.fst :=
  List.mem_map_of_mem (f := Prod.fst) (mem_of_lookup h)

theorem isLink_eq_false {place : List ν} : isLink links place = false ↔ links.lookup place = none := by
  rw [isLink, Option.isSome_eq_false_iff, Option.isNone_iff_eq_none]

/-! ## Walks -/

theorem walkWith_mono {f g : List ν → List (Comp ν) → Option (List ν)} (hfg : ∀ b r p, f b r = some p → g b r = some p)
    {base : List ν} {rest : List (Comp ν)} {place : List ν} (h : walkWith links f base rest = some place) :
    walkWith links g base rest = some place := by
  induction rest generalizing base with
  | nil => exact h
  | cons c rest ih =>
    cases c with
    | self => exact ih h
    | parent => exact ih h
    | name n =>
      unfold walkWith at h ⊢
      split at h
      · exact ih h
      · exact hfg _ _ _ h

theorem walk_succ {k : Nat} {base : List ν} {rest : List (Comp ν)} {place : List ν} (h : walk links k base rest = some place) :
    walk links (k + 1) base rest = some place := by
  induction k generalizing base rest place with
  | zero =>
    refine walkWith_mono (fun _ _ _ h => ?_) h
    cases h
  | succ k ih => exact walkWith_mono (fun _ _ _ => ih) h

theorem walk_mono {k m : Nat} (hkm : k ≤ m) {base : List ν} {rest : List (Comp ν)} {place : List ν}
    (h : walk links k base rest = some place) : walk links m base rest = some place := by
  induction hkm with
  | refl => exact h
  | step _ ih => exact walk_succ ih

@[simp] theorem walk_nil (k : Nat) (base : List ν) : walk links k base [] = some base := by cases k <;> rfl

theorem walk_self (k : Nat) (base : List ν) (rest : List (Comp ν)) :
    walk links k base (.self :: rest) = walk links k base rest := by
  cases k <;> rfl

theorem walk_parent (k : Nat) (base : List ν) (rest : List (Comp ν)) :
    walk links k base (.parent :: rest) = walk links k base.dropLast rest := by
  cases k <;> rfl

theorem walk_name {n : ν} {base : List ν} (h : links.lookup (base ++ [n]) = none) (k : Nat) (rest : List (Comp ν)) :
    walk links k base (.name n :: rest) = walk links k (base ++ [n]) rest := by
  cases k with
  | zero => rw [walk, walkWith, h]
  | succ k => rw [walk, walkWith, h]

theorem walk_link {n : ν} {base : List ν} {target : Target ν} (h : links.lookup (base ++ [n]) = some target) (k : Nat)
    (rest : List (Comp ν)) :
    walk links (k + 1) base (.name n :: rest) = walk links k (target.start base) (target.comps ++ rest) := by
  rw [walk, walkWith, h]

theorem walk_zero_link {n : ν} {base : List ν} {target : Target ν} (h : links.lookup (base ++ [n]) = some target)
    (rest : List (Comp ν)) : walk links 0 base (.name n :: rest) = none := by
  rw [walk, walkWith, h]

/-- Induction along a walk: over the links that it may still follow, and then over the path. -/
theorem walk_induction {P : Nat → List ν → List (Comp ν) → Prop} (nil : ∀ k base, P k base [])
    (self : ∀ k base rest, P k base rest → P k base (.self :: rest))
    (parent : ∀ k base rest, P k base.dropLast rest → P k base (.parent :: rest))
    (name : ∀ k base rest n, links.lookup (base ++ [n]) = none → P k (base ++ [n]) rest → P k base (.name n :: rest))
    (blocked : ∀ base rest n target, links.lookup (base ++ [n]) = some target → P 0 base (.name n :: rest))
    (link : ∀ k base rest n target, links.lookup (base ++ [n]) = some target →
      P k (target.start base) (target.comps ++ rest) → P (k + 1) base (.name n :: rest)) :
    ∀ k base rest, P k base rest := by
  intro k
  induction k with
  | zero =>
    intro base rest
    induction rest generalizing base with
    | nil => exact nil 0 base
    | cons c rest ih =>
      cases c with
      | self => exact self 0 base rest (ih base)
      | parent => exact parent 0 base rest (ih base.dropLast)
      | name n =>
        cases hlink : links.lookup (base ++ [n]) with
        | none => exact name 0 base rest n hlink (ih (base ++ [n]))
        | some target => exact blocked base rest n target hlink
  | succ k ihk =>
    intro base rest
    induction rest generalizing base with
    | nil => exact nil (k + 1) base
    | cons c rest ih =>
      cases c with
      | self => exact self (k + 1) base rest (ih base)
      | parent => exact parent (k + 1) base rest (ih base.dropLast)
      | name n =>
        cases hlink : links.lookup (base ++ [n]) with
        | none => exact name (k + 1) base rest n hlink (ih (base ++ [n]))
        | some target => exact link k base rest n target hlink (ihk (target.start base) (target.comps ++ rest))

/-- A walk along two paths ends where a walk along the second does, from the end of the first. -/
theorem walk_append {b : List (Comp ν)} {place : List ν} (k : Nat) (base : List ν) (a : List (Comp ν)) :
    walk links k base (a ++ b) = some place → ∃ mid, walk links k base a = some mid ∧ walk links k mid b = some place := by
  induction k, base, a using @walk_induction _ _ links with
  | nil k base => exact fun h => ⟨base, walk_nil k base, h⟩
  | self k base rest ih => rwa [List.cons_append, walk_self, walk_self]
  | parent k base rest ih => rwa [List.cons_append, walk_parent, walk_parent]
  | name k base rest n hlink ih => rwa [List.cons_append, walk_name hlink, walk_name hlink]
  | blocked base rest n target hlink =>
    rw [List.cons_append, walk_zero_link hlink]
    exact fun h => nomatch h
  | link k base rest n target hlink ih =>
    rw [List.cons_append, walk_link hlink, walk_link hlink, ← List.append_assoc]
    intro h
    obtain ⟨mid, hmid, hrest⟩ := ih h
    exact ⟨mid, hmid, walk_succ hrest⟩

/-- The names of a place come from the path and from the targets of links. -/
theorem walk_forall {p : ν → Prop} {place : List ν} (hlinks : ∀ l ∈ links, ∀ n, .name n ∈ l.2.comps → p n) (k : Nat)
    (base : List ν) (path : List (Comp ν)) :
    (∀ n ∈ base, p n) → (∀ n, .name n ∈ path → p n) → walk links k base path = some place → ∀ n ∈ place, p n := by
  induction k, base, path using @walk_induction _ _ links with
  | nil k base =>
    rw [walk_nil]
    exact fun hbase _ h => Option.some.inj h ▸ hbase
  | self k base rest ih =>
    rw [walk_self]
    exact fun hbase hpath => ih hbase fun n hn => hpath n (List.mem_cons_of_mem _ hn)
  | parent k base rest ih =>
    rw [walk_parent]
    exact fun hbase hpath => ih (fun n hn => hbase n ((List.dropLast_prefix base).subset hn)) fun n hn =>
      hpath n (List.mem_cons_of_mem _ hn)
  | name k base rest n hlink ih =>
    rw [walk_name hlink]
    refine fun hbase hpath => ih (fun m hm => ?_) fun m hm => hpath m (List.mem_cons_of_mem _ hm)
    rcases List.mem_append.mp hm with hm | hm
    · exact hbase m hm
    · exact List.mem_singleton.mp hm ▸ hpath n List.mem_cons_self
  | blocked base rest n target hlink =>
    rw [walk_zero_link hlink]
    exact fun _ _ h => nomatch h
  | link k base rest n target hlink ih =>
    rw [walk_link hlink]
    refine fun hbase hpath => ih (fun m hm => ?_) fun m hm => ?_
    · unfold Target.start at hm
      split at hm
      · cases hm
      · exact hbase m hm
    · rcases List.mem_append.mp hm with hm | hm
      · exact hlinks _ (mem_of_lookup hlink) m hm
      · exact hpath m (List.mem_cons_of_mem _ hm)

/-! ## Real places -/

/-- On the way to a place there are no links, nor is it one. -/
def Real (links : Links ν) (place : List ν) : Prop := ∀ p, p ≠ [] → p <+: place → links.lookup p = none

theorem real_nil : Real links [] := fun _ hne hp => absurd (List.prefix_nil.mp hp) hne

theorem Real.shorter {p q : List ν} (h : Real links q) (hp : p <+: q) : Real links p := fun r hne hr => h r hne (hr.trans hp)

theorem Real.snoc {place : List ν} {n : ν} (h : Real links place) (hn : links.lookup (place ++ [n]) = none) :
    Real links (place ++ [n]) := by
  intro p hne hp
  rcases List.prefix_concat_iff.mp hp with rfl | hp
  · exact hn
  · exact h p hne hp

theorem Real.start {target : Target ν} {base : List ν} (h : Real links base) : Real links (target.start base) := by
  unfold Target.start
  split
  · exact real_nil
  · exact h

theorem walk_real {place : List ν} (k : Nat) (base : List ν) (rest : List (Comp ν)) :
    Real links base → walk links k base rest = some place → Real links place := by
  induction k, base, rest using @walk_induction _ _ links with
  | nil k base => exact fun hreal h => Option.some.inj (walk_nil k base ▸ h) ▸ hreal
  | self k base rest ih => rwa [walk_self]
  | parent k base rest ih =>
    rw [walk_parent]
    exact fun hreal => ih (hreal.shorter (List.dropLast_prefix base))
  | name k base rest n hlink ih =>
    rw [walk_name hlink]
    exact fun hreal => ih (hreal.snoc hlink)
  | blocked base rest n target hlink =>
    rw [walk_zero_link hlink]
    exact fun _ h => nomatch h
  | link k base rest n target hlink ih =>
    rw [walk_link hlink]
    exact fun hreal => ih hreal.start

/-- Names that lead from a place to a real one are walked as they stand. -/
theorem walk_names (k : Nat) {base : List ν} : ∀ {names : List ν}, Real links (base ++ names) →
    walk links k base (names.map .name) = some (base ++ names)
  | [], _ => by rw [List.map_nil, walk_nil, List.append_nil]
  | n :: names, h => by
    have hn : links.lookup (base ++ [n]) = none := h _ (by simp) ⟨names, by simp⟩
    rw [List.map_cons, walk_name hn, walk_names k (by rwa [List.append_assoc]), List.append_assoc, List.singleton_append]

/-- The names that are left to walk along cost no links when they lead to a real place. -/
theorem walk_append_names {mid names : List ν} (hreal : Real links (mid ++ names)) (k : Nat) (base : List ν) (a : List (Comp ν)) :
    walk links k base a = some mid → walk links k base (a ++ names.map .name) = some (mid ++ names) := by
  induction k, base, a using @walk_induction _ _ links with
  | nil k base =>
    rw [walk_nil, List.nil_append]
    intro h
    obtain rfl := Option.some.inj h
    exact walk_names k hreal
  | self k base rest ih => rwa [List.cons_append, walk_self, walk_self]
  | parent k base rest ih => rwa [List.cons_append, walk_parent, walk_parent]
  | name k base rest n hlink ih => rwa [List.cons_append, walk_name hlink, walk_name hlink]
  | blocked base rest n target hlink =>
    rw [walk_zero_link hlink]
    exact fun h => nomatch h
  | link k base rest n target hlink ih => rwa [List.cons_append, walk_link hlink, walk_link hlink, ← List.append_assoc]

/-! ## The library function and the walk -/

/-- The walk along the target of a link does not end before it has followed `k` links. -/
def Needs (links : Links ν) (k : Nat) (place : List ν) : Prop :=
  ∀ target, links.lookup place = some target → ∀ j < k, walk links j (target.start place.dropLast) target.comps = none

theorem resolveWith_of_walk {follow : List ν → Target ν → List ν → Resolution ν} {k : Nat}
    (hfollow : ∀ base n target, links.lookup (base ++ [n]) = some target → ∀ j < k, ∀ mid,
      walk links j (target.start base) target.comps = some mid → follow (base ++ [n]) target base = .resolved mid)
    {base place : List ν} {rest : List (Comp ν)} (h : walk links k base rest = some place) :
    resolveWith links follow base rest = .resolved place := by
  induction rest generalizing base with
  | nil =>
    rw [walk_nil] at h
    rw [resolveWith, Option.some.inj h]
  | cons c rest ih =>
    cases c with
    | self => exact ih (walk_self k base rest ▸ h)
    | parent => exact ih (walk_parent k base rest ▸ h)
    | name n =>
      unfold resolveWith
      cases hlink : links.lookup (base ++ [n]) with
      | none => exact ih (walk_name hlink k rest ▸ h)
      | some target =>
        cases k with
        | zero =>
          rw [walk_zero_link hlink] at h
          cases h
        | succ k =>
          rw [walk_link hlink] at h
          obtain ⟨mid, hmid, hrest⟩ := walk_append k _ _ h
          dsimp only
          rw [hfollow base n target hlink k (Nat.lt_succ_self k) mid hmid]
          exact ih (walk_succ hrest)

/-- A link whose target is resolved with the links that are left is not one of those that need more. -/
theorem not_mem_of_needs {active : List (List ν)} {k j : Nat} (hneeds : ∀ p ∈ active, Needs links k p) (hj : j < k)
    {base mid : List ν} {n : ν} {target : Target ν} (hlink : links.lookup (base ++ [n]) = some target)
    (hmid : walk links j (target.start base) target.comps = some mid) : base ++ [n] ∉ active := by
  intro hp
  have hnone := hneeds _ hp target hlink j hj
  rw [List.dropLast_concat, hmid] at hnone
  cases hnone

/-- Where the walk ends, so does the resolution, at the same place: a link that is being resolved needs at least as many links
as are left of the walk, so it is not met again. -/
theorem resolve_of_walk {depth : Nat} {active : List (List ν)} (hnodup : active.Nodup)
    (hkeys : ∀ p ∈ active, p ∈ links.map Prod.fst) (hdepth : links.length ≤ depth + active.length) {k : Nat}
    (hneeds : ∀ p ∈ active, Needs links k p) {base place : List ν} {rest : List (Comp ν)}
    (h : walk links k base rest = some place) : resolve links depth active base rest = .resolved place := by
  induction depth generalizing active k base place rest with
  | zero =>
    refine resolveWith_of_walk (fun base n target hlink j hj mid hmid => ?_) h
    -- all links are being resolved, and this one is not among them
    have hnew : ((base ++ [n]) :: active).Nodup := List.nodup_cons.mpr ⟨not_mem_of_needs hneeds hj hlink hmid, hnodup⟩
    have hle : ((base ++ [n]) :: active).length ≤ (links.map Prod.fst).length :=
      (List.Nodup.subperm hnew (List.cons_subset.mpr ⟨mem_keys_of_lookup hlink, hkeys⟩)).length_le
    rw [List.length_cons, List.length_map] at hle
    omega
  | succ depth ihd =>
    refine resolveWith_of_walk (fun base n target hlink j hj mid hmid => ?_) h
    have hp := not_mem_of_needs hneeds hj hlink hmid
    rw [if_neg hp]
    have hends : ∃ m, walk links m (target.start base) target.comps = some mid := ⟨j, hmid⟩
    obtain ⟨m, hm, hfirst⟩ : ∃ m, walk links m (target.start base) target.comps = some mid ∧
        ∀ i < m, walk links i (target.start base) target.comps ≠ some mid :=
      ⟨Nat.find hends, Nat.find_spec hends, fun i hi => Nat.find_min hends hi⟩
    have hmj : m ≤ j := by
      by_contra hlt
      exact hfirst j (by omega) hmid
    refine ihd (List.nodup_cons.mpr ⟨hp, hnodup⟩) (List.forall_mem_cons.mpr ⟨mem_keys_of_lookup hlink, hkeys⟩) ?_ ?_ hm
    · rw [List.length_cons]
      omega
    · intro p hmem target' hlink' i hi
      rcases List.mem_cons.mp hmem with rfl | hmem
      · rw [List.dropLast_concat]
        obtain rfl := Option.some.inj (hlink.symm.trans hlink')
        cases hi' : walk links i (target.start base) target.comps with
        | none => rfl
        | some mid' => exact absurd (hi'.trans ((walk_mono hi.le hi').symm.trans hm)) (hfirst i hi)
      · exact hneeds p hmem target' hlink' i (by omega)

/-- **Resolution.** Where the walk of the kernel ends, the library function finds the end. -/
theorem realpath_of_walk {k : Nat} {path : List (Comp ν)} {place : List ν} (h : walk links k [] path = some place) :
    realpath links path = place := by
  unfold realpath
  rw [resolve_of_walk List.nodup_nil nofun (by simp) nofun h]

end Symlinks
