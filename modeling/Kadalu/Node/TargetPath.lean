import Kadalu.Data.Result
import Kadalu.Data.Symlinks
import Kadalu.Node.PathSyntax
import Mathlib.Data.List.Induction

/-!
# Target paths

The node plugin takes a target path from a request when it is normalized, lies below a directory of the kubelet and does not
go through symbolic links. The locks of operations and the search of the mount table compare the string that is left.

* `validateTargetPath_ok`: what an accepted path looks like.
* `sameLocation_iff`, `noLinkedParent_iff`: when two accepted paths of one location are one string, and when an accepted path
  has no links on its way.
-/

namespace Kadalu.Node

open Operator TargetLock Symlinks

/-! ## The host -/

/-- What `os.lstat` says of a name that is no link. -/
inductive Stat where
  | present
  /-- `FileNotFoundError` or `PermissionError` -/
  | hidden
  /-- any other `OSError` -/
  | failing
  deriving DecidableEq, Repr

/-- What the plugin sees of its host. -/
structure Host where
  cwd : List Char
  /-- `KUBELET_DIR` -/
  kubeletDir : String
  /-- `CSI_MOUNT_DIR` -/
  csiMountDir : Option String
  /-- the targets of links, at their places -/
  links : List (List (List Char) × List Char)
  stat : List (List Char) → Stat
  /-- the targets of the mount table -/
  mounts : List String

/-- A component of a path, as it is resolved. -/
def comp (c : List Char) : Comp (List Char) :=
  if c = [] ∨ c = ['.'] then .self else if c = ['.', '.'] then .parent else .name c

def parse (path : List Char) : List (Comp (List Char)) := (splitChars '/' path).map comp

namespace Host

variable (host : Host)

def parsedLinks : Links (List Char) := host.links.map fun l => (l.1, ⟨isabs l.2, parse l.2⟩)

/-- The number of links that the kernel follows. -/
def maxSymlinks : Nat := 40

/-- The place where an absolute path leads, if the kernel comes to an end. -/
def place (path : List Char) : Option (List (List Char)) := walk host.parsedLinks maxSymlinks [] (parse path)

/-- The place that an absolute path names in its directory. -/
def location (path : List Char) : Option (List (List Char)) := (host.place (dirname path)).map (· ++ [basename path])

/-- There is a symbolic link at the place. -/
def isLink (place : List (List Char)) : Bool := Symlinks.isLink host.parsedLinks place

/-- `os.path.realpath` of an absolute path -/
def realpath (path : List Char) : List Char := slashes false (Symlinks.realpath host.parsedLinks (parse path))

/-- `os.lstat`: whether there is a link, if it does not raise an exception that is not handled. -/
def lstatIsLink (path : List Char) : Except Unit Bool :=
  match host.location path with
  | none => .error ()
  | some place => if host.isLink place then .ok true else if host.stat place = .failing then .error () else .ok false

/-- `target_path_is_mounted` -/
def targetPathIsMounted (mountpoint : String) : Bool := host.mounts.contains (targetKey (String.ofList host.cwd) mountpoint)

end Host

/-! ## Validation -/

inductive TargetError where
  /-- `ValueError` -/
  | value (msg : String)
  /-- `OSError` -/
  | os
  deriving DecidableEq, Repr

/-- `_target_roots` -/
def targetRoots (host : Host) : List (List Char) :=
  match host.csiMountDir.filter (· ≠ "") with
  | some csiMountDir => [abspath host.cwd csiMountDir.toList]
  | none =>
    let kubeletDir := abspath host.cwd host.kubeletDir.toList
    [join kubeletDir "pods".toList, join (join (join kubeletDir "plugins".toList) "kubernetes.io".toList) "csi".toList]

/-- `_is_within`, for two absolute paths -/
def isWithin (path parent : List Char) : Bool := commonpath path parent = parent

/-- The checks of `_validate_target_path` below a root. -/
def validateBelow (host : Host) (normalizedTarget root : List Char) : Except TargetError String :=
  let realRoot := host.realpath root
  let relativePath := relpath normalizedTarget root
  if relativePath = ['.'] then .error (.value "target path must be below a kubelet mount root")
  else
    let relativeParent := dirname relativePath
    let targetParent := dirname normalizedTarget
    let expectedRealParent := normpath (join realRoot relativeParent)
    if host.realpath targetParent ≠ expectedRealParent then .error (.value "target path must not contain symbolic links")
    else if host.targetPathIsMounted (String.ofList normalizedTarget) then .ok (String.ofList normalizedTarget)
    else
      match host.lstatIsLink normalizedTarget with
      | .error _ => .error .os
      | .ok true => .error (.value "target path must not be a symbolic link")
      | .ok false => .ok (String.ofList normalizedTarget)

/-- `_validate_target_path` -/
def validateTargetPath (host : Host) (targetPath : String) : Except TargetError String :=
  if targetPath = "" ∨ '\x00' ∈ targetPath.toList ∨ ¬isabs targetPath.toList then
    .error (.value "target path must be absolute")
  else
    let normalizedTarget := normpath targetPath.toList
    if normalizedTarget ≠ targetPath.toList then .error (.value "target path must be normalized")
    else
      match (targetRoots host).find? (isWithin normalizedTarget) with
      | none => .error (.value "target path is outside the kubelet mount roots")
      | some root => validateBelow host normalizedTarget root

/-! ## What paths denote -/

/-- Two paths name one place. -/
def SameLocation (host : Host) (p q : String) : Prop :=
  ∃ place, host.location p.toList = some place ∧ host.location q.toList = some place

/-- The root that the validation finds for a path. -/
def targetRoot (host : Host) (p : String) : Option (List Char) := (targetRoots host).find? (isWithin p.toList)

/-- A path that leads down from a root, by at least one name. -/
def BelowRoot (host : Host) (p : String) : Prop :=
  ∃ root ∈ targetRoots host, ∃ rest, rest ≠ [] ∧ pathComponents p.toList = pathComponents root ++ rest

/-- A directory on the way from the root to the path. -/
def OnTheWay (root p parent : List Char) : Prop :=
  ∃ down rest, down ≠ [] ∧ rest ≠ [] ∧ pathComponents p = pathComponents root ++ down ++ rest ∧
    parent = slashes false (pathComponents root ++ down)

/-- No directory on the way from its root to a path is a symbolic link. -/
def NoLinkedParent (host : Host) (p : String) : Prop :=
  ∀ root, targetRoot host p = some root → ∀ parent, OnTheWay root p.toList parent →
    ∀ place, host.location parent = some place → host.isLink place = false

/-- The directory of a path that is in the mount table is there if its root is. -/
def MountResolves (host : Host) (p : String) : Prop :=
  host.targetPathIsMounted p = true → ∀ root, targetRoot host p = some root → (host.place root).isSome →
    (host.place (dirname p.toList)).isSome

/-- A path with two slashes in front. -/
def doubleSlash (p : String) : Bool := ['/', '/'].isPrefixOf p.toList

/-! ## Resolution of normalized paths -/

section Resolution

variable {host : Host} {double : Bool} {cs : List (List Char)}

theorem comp_name {c n : List Char} (h : comp c = .name n) (hc : '/' ∉ c) : Plain n := by
  unfold comp at h
  by_cases hself : c = [] ∨ c = ['.']
  · rw [if_pos hself] at h
    cases h
  · rw [if_neg hself] at h
    by_cases hparent : c = ['.', '.']
    · rw [if_pos hparent] at h
      cases h
    · rw [if_neg hparent] at h
      cases h
      obtain ⟨hne, hdot⟩ := not_or.mp hself
      exact ⟨hne, hdot, hparent, hc⟩

theorem comp_of_plain {c : List Char} (hc : Plain c) : comp c = .name c := by
  rw [comp, if_neg (not_or.mpr ⟨hc.nonempty, hc.notSelf⟩), if_neg hc.notParent]

theorem parse_plain {path n : List Char} (h : .name n ∈ parse path) : Plain n := by
  obtain ⟨c, hc, hn⟩ := List.mem_map.mp h
  exact comp_name hn (not_mem_of_mem_splitChars hc)

theorem parsedLinks_plain : ∀ l ∈ host.parsedLinks, ∀ n, .name n ∈ l.2.comps → Plain n := by
  intro l hl n hn
  obtain ⟨l', -, rfl⟩ := List.mem_map.mp hl
  exact parse_plain hn

theorem map_comp (hcs : ∀ c ∈ cs, Plain c) : cs.map comp = cs.map .name :=
  List.map_congr_left fun c hc => comp_of_plain (hcs c hc)

/-- A normalized path is walked along its names. -/
theorem walk_parse {links : Links (List Char)} (hcs : ∀ c ∈ cs, Plain c) (k : Nat) (base : List (List Char)) :
    walk links k base (parse (slashes double cs)) = walk links k base (cs.map .name) := by
  have hempty : comp [] = .self := rfl
  unfold parse
  rw [splitChars_slashes hcs, List.map_append]
  by_cases hne : cs = []
  · subst hne
    cases double <;> simp [hempty, walk_self]
  · rw [if_neg hne, map_comp hcs]
    cases double <;> simp [hempty, walk_self]

theorem place_slashes (hcs : ∀ c ∈ cs, Plain c) :
    host.place (slashes double cs) = walk host.parsedLinks Host.maxSymlinks [] (cs.map .name) :=
  walk_parse hcs _ _

theorem location_slashes {name : List Char} (hcs : ∀ c ∈ cs ++ [name], Plain c) :
    host.location (slashes double (cs ++ [name])) = (host.place (slashes double cs)).map (· ++ [name]) := by
  rw [Host.location, dirname_slashes hcs, basename_slashes (hcs name (by simp))]

/-- The slashes in front do not matter to the place. -/
theorem place_double (double' : Bool) (hcs : ∀ c ∈ cs, Plain c) : host.place (slashes double cs) = host.place (slashes double' cs) := by
  rw [place_slashes hcs, place_slashes hcs]

variable {loc : List (List Char)}

theorem place_plain {path : List Char} (h : host.place path = some loc) : ∀ c ∈ loc, Plain c :=
  walk_forall parsedLinks_plain _ _ _ (fun _ h => absurd h List.not_mem_nil) (fun _ => parse_plain) h

theorem place_real {path : List Char} (h : host.place path = some loc) : Real host.parsedLinks loc :=
  walk_real _ _ _ real_nil h

theorem realpath_of_place {path : List Char} (h : host.place path = some loc) : host.realpath path = slashes false loc := by
  rw [Host.realpath, realpath_of_walk h]

/-- Where a path leads, so does each of its directories. -/
theorem place_append {below : List (List Char)} (hcs : ∀ c ∈ cs ++ below, Plain c)
    (h : host.place (slashes double (cs ++ below)) = some loc) :
    ∃ mid, host.place (slashes double cs) = some mid ∧
      walk host.parsedLinks Host.maxSymlinks mid (below.map .name) = some loc := by
  rw [place_slashes hcs, List.map_append] at h
  rw [place_slashes fun c hc => hcs c (List.mem_append_left _ hc)]
  exact walk_append _ _ _ h

/-- Names that lead on to a real place are walked as they stand. -/
theorem place_append_names {mid below : List (List Char)} (hcs : ∀ c ∈ cs ++ below, Plain c)
    (h : host.place (slashes double cs) = some mid) (hreal : Real host.parsedLinks (mid ++ below)) :
    host.place (slashes double (cs ++ below)) = some (mid ++ below) := by
  rw [place_slashes fun c hc => hcs c (List.mem_append_left _ hc)] at h
  rw [place_slashes hcs, List.map_append]
  exact walk_append_names hreal _ _ _ h

end Resolution

/-! ## Roots -/

theorem plain_pods : Plain "pods".toList := by decide

theorem plain_plugins : Plain "plugins".toList := by decide

theorem plain_kubernetes : Plain "kubernetes.io".toList := by decide

theorem plain_csi : Plain "csi".toList := by decide

theorem forall_snoc {cs : List (List Char)} {c : List Char} (hcs : ∀ d ∈ cs, Plain d) (hc : Plain c) : ∀ d ∈ cs ++ [c], Plain d := by
  intro d hd
  rcases List.mem_append.mp hd with hd | hd
  · exact hcs d hd
  · exact List.mem_singleton.mp hd ▸ hc

/-- The roots are normalized. -/
theorem targetRoots_slashes {host : Host} {root : List Char} (h : root ∈ targetRoots host) :
    ∃ double rs, (∀ c ∈ rs, Plain c) ∧ root = slashes double rs := by
  unfold targetRoots at h
  split at h
  · obtain rfl := List.mem_singleton.mp h
    exact normpath_eq _
  · obtain ⟨double, cs, hcs, hdir⟩ := normpath_eq (join host.cwd host.kubeletDir.toList)
    have hplugins := forall_snoc hcs plain_plugins
    have hkubernetes := forall_snoc hplugins plain_kubernetes
    rw [abspath, hdir] at h
    dsimp only at h
    rw [join_name hcs plain_pods, join_name hcs plain_plugins, join_name hplugins plain_kubernetes,
      join_name hkubernetes plain_csi] at h
    rcases List.mem_cons.mp h with rfl | h
    · exact ⟨double, _, forall_snoc hcs plain_pods, rfl⟩
    · obtain rfl := List.mem_singleton.mp h
      exact ⟨double, _, forall_snoc hkubernetes plain_csi, rfl⟩

/-! ## Accepted paths -/

/-- What an accepted path looks like: its root, the directories below, and its name. -/
structure Accepted (host : Host) (p : String) (double : Bool) (rs mid : List (List Char)) (name : List Char) : Prop where
  text : p.toList = slashes double (rs ++ mid ++ [name])
  plain : ∀ c ∈ rs ++ mid ++ [name], Plain c
  root : targetRoot host p = some (slashes false rs)
  parent : host.realpath (slashes double (rs ++ mid)) =
    normpath (join (host.realpath (slashes false rs)) (['/'].intercalate mid))
  target : host.targetPathIsMounted p = true ∨ (host.location p.toList).isSome

theorem validateTargetPath_ok {host : Host} {p r : String} (h : validateTargetPath host p = .ok r) :
    r = p ∧ ∃ double rs mid name, Accepted host p double rs mid name := by
  unfold validateTargetPath at h
  obtain ⟨-, h⟩ := Except.ite_error_ok.mp h
  obtain ⟨hnorm, h⟩ := Except.ite_error_ok.mp h
  have hnorm := not_not.mp hnorm
  cases hroot : (targetRoots host).find? (isWithin (normpath p.toList)) with
  | none =>
    rw [hroot] at h
    cases h
  | some root =>
    rw [hroot] at h
    dsimp only at h
    rw [hnorm] at h hroot
    obtain ⟨double, cs, hcs, htext⟩ := normpath_eq p.toList
    rw [hnorm] at htext
    have hwithin : isWithin p.toList root = true := List.find?_some hroot
    obtain ⟨double', rs, hrs, rfl⟩ := targetRoots_slashes (List.mem_of_find?_eq_some hroot)
    have hcommon := of_decide_eq_true hwithin
    rw [htext, commonpath_slashes hcs hrs] at hcommon
    obtain ⟨rfl, rel, rfl⟩ := hcommon
    unfold validateBelow at h
    rw [htext, relpath_slashes hcs] at h
    obtain ⟨hbelow, h⟩ := Except.ite_error_ok.mp h
    by_cases hrel : rel = []
    · rw [if_pos hrel] at hbelow
      exact absurd rfl hbelow
    · obtain ⟨mid, name, rfl⟩ := (List.eq_nil_or_concat rel).resolve_left hrel
      rw [List.concat_eq_append] at *
      rw [← List.append_assoc] at hcs htext h
      have hmid : ∀ c ∈ mid, Plain c := fun c hc => hcs c (by simp [hc])
      have hname : Plain name := hcs name (by simp)
      rw [if_neg hrel] at h
      have hdir : dirname (['/'].intercalate (mid ++ [name])) = ['/'].intercalate mid := by
        simpa using dirname_names (fun d hd => absurd hd List.not_mem_nil : ∀ d ∈ [], d = '/') hname.noSlash hmid
      rw [hdir, dirname_slashes hcs] at h
      obtain ⟨hparent, h⟩ := Except.ite_error_ok.mp h
      have hofList : String.ofList (slashes double (rs ++ mid ++ [name])) = p := by rw [← htext, String.ofList_toList]
      rw [hofList] at h
      have haccepted : host.targetPathIsMounted p = true ∨ (host.location p.toList).isSome → r = p →
          r = p ∧ ∃ double rs mid name, Accepted host p double rs mid name := fun htarget hr =>
        ⟨hr, double, rs, mid, name, ⟨htext, hcs, hroot, not_not.mp hparent, htarget⟩⟩
      by_cases hmounted : host.targetPathIsMounted p = true
      · rw [if_pos hmounted] at h
        exact haccepted (.inl hmounted) (Except.ok.inj h).symm
      · rw [if_neg hmounted, ← htext] at h
        cases hlocation : host.location p.toList with
        | none =>
          rw [Host.lstatIsLink, hlocation] at h
          cases h
        | some place =>
          refine haccepted (.inr (by rw [hlocation]; rfl)) ?_
          split at h
          · cases h
          · cases h
          · exact (Except.ok.inj h).symm

theorem doubleSlash_slashes {double : Bool} {cs : List (List Char)} (hcs : ∀ c ∈ cs, Plain c) {p : String}
    (htext : p.toList = slashes double cs) : doubleSlash p = double := by
  unfold doubleSlash
  rw [htext, slashes]
  cases double
  · rcases head_intercalate hcs with h | ⟨d, l, hd, h⟩
    · rw [h]
      rfl
    · rw [h]
      simp [hd.symm, List.isPrefixOf]
  · simp

namespace Accepted

variable {host : Host} {p : String} {double : Bool} {rs mid : List (List Char)} {name : List Char}
  (h : Accepted host p double rs mid name)

include h

theorem plain_parent : ∀ c ∈ rs ++ mid, Plain c := fun c hc => h.plain c (List.mem_append_left _ hc)

theorem plain_root : ∀ c ∈ rs, Plain c := fun c hc => h.plain_parent c (List.mem_append_left _ hc)

theorem location_eq : host.location p.toList = (host.place (slashes double (rs ++ mid))).map (· ++ [name]) := by
  rw [h.text, location_slashes h.plain]

/-- Below its root the directory of an accepted path leads along its names. -/
theorem place_parent {loc : List (List Char)} (hloc : host.place (slashes double (rs ++ mid)) = some loc) :
    ∃ root, host.place (slashes false rs) = some root ∧ loc = root ++ mid := by
  obtain ⟨root, hroot, -⟩ := place_append h.plain_parent hloc
  rw [place_double false h.plain_root] at hroot
  refine ⟨root, hroot, ?_⟩
  have hplain : ∀ c ∈ root ++ mid, Plain c := fun c hc => by
    rcases List.mem_append.mp hc with hc | hc
    · exact place_plain hroot c hc
    · exact h.plain_parent c (List.mem_append_right _ hc)
  have hparent := h.parent
  rw [realpath_of_place hloc, realpath_of_place hroot, normpath_join hplain] at hparent
  exact (slashes_injective (place_plain hloc) hplain hparent).2

theorem belowRoot : BelowRoot host p := by
  refine ⟨_, List.mem_of_find?_eq_some h.root, mid ++ [name], by simp, ?_⟩
  rw [h.text, pathComponents_slashes h.plain, pathComponents_slashes h.plain_root, List.append_assoc]

/-- Two accepted paths of one location are the same text when their slashes and their roots are the same. -/
theorem eq_iff {q : String} {double' : Bool} {rs' mid' : List (List Char)} {name' : List Char}
    (h' : Accepted host q double' rs' mid' name') (hsame : SameLocation host p q) :
    p = q ↔ doubleSlash p = doubleSlash q ∧ targetRoot host p = targetRoot host q := by
  constructor
  · rintro rfl
    exact ⟨rfl, rfl⟩
  · rintro ⟨hdouble, hroots⟩
    rw [doubleSlash_slashes h.plain h.text, doubleSlash_slashes h'.plain h'.text] at hdouble
    rw [h.root, h'.root] at hroots
    obtain ⟨-, rfl⟩ := slashes_injective h.plain_root h'.plain_root (Option.some.inj hroots)
    obtain ⟨place, hp, hq⟩ := hsame
    rw [h.location_eq, Option.map_eq_some_iff] at hp
    rw [h'.location_eq, Option.map_eq_some_iff] at hq
    obtain ⟨loc, hloc, rfl⟩ := hp
    obtain ⟨loc', hloc', hplace⟩ := hq
    obtain ⟨root, hroot, rfl⟩ := h.place_parent hloc
    obtain ⟨root', hroot', rfl⟩ := h'.place_parent hloc'
    obtain rfl := Option.some.inj (hroot.symm.trans hroot')
    have hnames : mid' ++ [name'] = mid ++ [name] := by
      rwa [List.append_assoc, List.append_assoc, List.append_cancel_left_eq] at hplace
    apply String.toList_injective
    rw [h.text, h'.text, hdouble, List.append_assoc, List.append_assoc, hnames]

/-- A directory on the way to an accepted path, by its names. -/
theorem onTheWay_iff {parent : List Char} : OnTheWay (slashes false rs) p.toList parent ↔
    ∃ down rest, down ≠ [] ∧ mid = down ++ rest ∧ parent = slashes false (rs ++ down) := by
  unfold OnTheWay
  rw [h.text, pathComponents_slashes h.plain, pathComponents_slashes h.plain_root]
  constructor
  · rintro ⟨down, rest, hdown, hrest, hnames, rfl⟩
    obtain ⟨rest, last, rfl⟩ := (List.eq_nil_or_concat rest).resolve_left hrest
    rw [List.concat_eq_append, ← List.append_assoc] at hnames
    have hmid := List.append_inj_left' hnames rfl
    rw [List.append_assoc, List.append_cancel_left_eq] at hmid
    exact ⟨down, rest, hdown, hmid, rfl⟩
  · rintro ⟨down, rest, hdown, rfl, rfl⟩
    exact ⟨down, rest ++ [name], hdown, by simp, by simp, rfl⟩

/-- Without links on the way the names below the root are walked as they stand. -/
theorem place_down (hlinks : NoLinkedParent host p) {root : List (List Char)}
    (hroot : host.place (slashes false rs) = some root) (down : List (List Char)) :
    ∀ rest, mid = down ++ rest → host.place (slashes false (rs ++ down)) = some (root ++ down) := by
  induction down using List.reverseRecOn with
  | nil =>
    intro _ _
    rwa [List.append_nil, List.append_nil]
  | append_singleton down c ih =>
    intro rest hmid
    have hplain : ∀ d ∈ rs ++ down ++ [c], Plain d := fun d hd => h.plain_parent d (by
      rw [hmid]
      simp only [List.mem_append] at hd ⊢
      tauto)
    have hdown := ih (c :: rest) (by rw [hmid]; simp)
    have hlocation : host.location (slashes false (rs ++ (down ++ [c]))) = some (root ++ down ++ [c]) := by
      rw [← List.append_assoc, location_slashes hplain, hdown]
      rfl
    have hlink := hlinks _ h.root _ (h.onTheWay_iff.mpr ⟨down ++ [c], rest, by simp, hmid, rfl⟩) _ hlocation
    have hreal : Real host.parsedLinks (root ++ down ++ [c]) :=
      (place_real hdown).snoc (isLink_eq_false.mp hlink)
    rw [← List.append_assoc, ← List.append_assoc]
    exact place_append_names hplain hdown hreal

/-- An accepted path has no links on its way, unless it is in the mount table and its directory does not lead anywhere. -/
theorem noLinkedParent_iff : NoLinkedParent host p ↔ MountResolves host p := by
  have hdir : dirname p.toList = slashes double (rs ++ mid) := by rw [h.text, dirname_slashes h.plain]
  constructor
  · intro hlinks _ root hroot hresolves
    obtain rfl := Option.some.inj (h.root.symm.trans hroot)
    obtain ⟨loc, hloc⟩ := Option.isSome_iff_exists.mp hresolves
    have hplace := h.place_down hlinks hloc mid [] (by simp)
    rw [hdir, place_double false h.plain_parent, hplace]
    rfl
  · intro hmount root hroot parent hway place hplace
    obtain rfl := Option.some.inj (h.root.symm.trans hroot)
    obtain ⟨down, rest, hdown, hmid, rfl⟩ := h.onTheWay_iff.mp hway
    obtain ⟨down, c, rfl⟩ := (List.eq_nil_or_concat down).resolve_left hdown
    rw [List.concat_eq_append] at *
    have hplain : ∀ d ∈ rs ++ down ++ [c], Plain d := fun d hd => h.plain_parent d (by
      rw [hmid]
      simp only [List.mem_append] at hd ⊢
      tauto)
    have hplain' : ∀ d ∈ rs ++ down, Plain d := fun d hd => hplain d (List.mem_append_left _ hd)
    rw [← List.append_assoc, location_slashes hplain, Option.map_eq_some_iff] at hplace
    obtain ⟨loc, hloc, rfl⟩ := hplace
    obtain ⟨start, hstart, -⟩ := place_append hplain' hloc
    -- the directory of the path leads somewhere, so its names below the root are real
    have hparent : (host.place (slashes double (rs ++ mid))).isSome := by
      rcases h.target with hmounted | hlocation
      · rw [← hdir]
        exact hmount hmounted _ h.root (by rw [hstart]; rfl)
      · rw [h.location_eq, Option.isSome_map] at hlocation
        exact hlocation
    obtain ⟨whole, hwhole⟩ := Option.isSome_iff_exists.mp hparent
    obtain ⟨start', hstart', rfl⟩ := h.place_parent hwhole
    obtain rfl := Option.some.inj (hstart.symm.trans hstart')
    have hprefix : start ++ (down ++ [c]) <+: start ++ mid := by
      rw [hmid]
      exact ⟨rest, by simp⟩
    have hreal := (place_real hwhole).shorter hprefix
    rw [← List.append_assoc] at hreal
    have hnames := place_append_names hplain' hstart (hreal.shorter (List.prefix_append _ _))
    obtain rfl := Option.some.inj (hloc.symm.trans hnames)
    exact isLink_eq_false.mpr (hreal _ (by simp) (List.prefix_refl _))

end Accepted

/-- **Target paths.** Two accepted paths of one location are one string, and an accepted path lies below a root and has no
symbolic link on its way, if and only if paths of one location have the same slashes in front and the same root, and a path of the
mount table has a directory that the kernel resolves. -/
theorem validateTargetPath_canonical_iff (host : Host) (p q p' q' : String) (hp : validateTargetPath host p = .ok p')
    (hq : validateTargetPath host q = .ok q') :
    ((SameLocation host p q → p' = q') ∧ BelowRoot host p' ∧ NoLinkedParent host p') ↔
      (SameLocation host p q → doubleSlash p = doubleSlash q ∧ targetRoot host p = targetRoot host q) ∧ MountResolves host p := by
  obtain ⟨rfl, double, rs, mid, name, haccepted⟩ := validateTargetPath_ok hp
  obtain ⟨rfl, double', rs', mid', name', haccepted'⟩ := validateTargetPath_ok hq
  rw [haccepted.noLinkedParent_iff]
  constructor
  · rintro ⟨hsame, -, hmount⟩
    exact ⟨fun hs => (haccepted.eq_iff haccepted' hs).mp (hsame hs), hmount⟩
  · rintro ⟨hsame, hmount⟩
    exact ⟨fun hs => (haccepted.eq_iff haccepted' hs).mpr (hsame hs), haccepted.belowRoot, hmount⟩

/-- A host whose kubelet has not made a target yet; the directory of its pods is a link to another disk. -/
def theVault : Host where
  cwd := "/".toList
  kubeletDir := "/var/lib/kubelet"
  csiMountDir := none
  links := [(["var".toList, "lib".toList, "kubelet".toList, "pods".toList], "/mnt/pods".toList)]
  stat _ := .hidden
  mounts := []

theorem theVault_canonical :
    (SameLocation theVault "/var/lib/kubelet/pods/danny/mount" "/var/lib/kubelet/pods/rusty/mount" →
        ("/var/lib/kubelet/pods/danny/mount" : String) = "/var/lib/kubelet/pods/rusty/mount") ∧
      BelowRoot theVault "/var/lib/kubelet/pods/danny/mount" ∧ NoLinkedParent theVault "/var/lib/kubelet/pods/danny/mount" :=
  (validateTargetPath_canonical_iff theVault _ "/var/lib/kubelet/pods/rusty/mount" _ _ (by decide +kernel)
    (by decide +kernel)).mpr ⟨fun _ => by decide +kernel, fun h => absurd h (by decide +kernel)⟩

/-- Two slashes in front stay. -/
theorem theVault_twoSlashes :
    validateTargetPath theVault "/var/lib/kubelet/pods/danny/mount" = .ok "/var/lib/kubelet/pods/danny/mount" ∧
      validateTargetPath theVault "//var/lib/kubelet/pods/danny/mount" = .ok "//var/lib/kubelet/pods/danny/mount" ∧
      SameLocation theVault "/var/lib/kubelet/pods/danny/mount" "//var/lib/kubelet/pods/danny/mount" ∧
      targetKey "/" "/var/lib/kubelet/pods/danny/mount" ≠ targetKey "/" "//var/lib/kubelet/pods/danny/mount" :=
  ⟨by decide +kernel, by decide +kernel, ⟨["mnt".toList, "pods".toList, "danny".toList, "mount".toList], by decide +kernel,
    by decide +kernel⟩, by decide +kernel⟩

end Kadalu.Node
