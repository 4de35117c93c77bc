import Kadalu.Node.TargetPath
import Kadalu.Pool.Identity
import Kadalu.Volume.PathText

/-!
# The path of a volume on its node

Before a volume is published, the node plugin derives the paths of the volume's ID and type again, and mounts none but these.

* `validateVolumePaths_ok`: what is accepted on a shared pool.
* `validateVolumePaths_own`: the paths of a volume are accepted for it.
* `validateVolumePaths_foreign`: and for no other ID.
-/

namespace Kadalu.Node

open Operator TargetLock Except

/-- `HOSTVOL_MOUNTDIR` -/
def HOSTVOL_MOUNTDIR : List Char := "/mnt".toList

/-- The mount points of a node: those that are mounted, and where paths lead. -/
structure PoolMounts where
  targetPathIsMounted : List Char → Bool
  realpath : List Char → List Char

/-- `mount_root` -/
def mountRoot : List Char := normpath HOSTVOL_MOUNTDIR

/-- `mntdir` -/
def mntdir (hostvol : String) : List Char := join mountRoot hostvol.toList

/-- A pool that is mounted, or whose mount point is not a link. -/
def PoolMounts.InPlace (mounts : PoolMounts) (hostvol : String) : Prop :=
  mounts.targetPathIsMounted (mntdir hostvol) = true ∨
    mounts.realpath (mntdir hostvol) = join (mounts.realpath mountRoot) hostvol.toList

instance (mounts : PoolMounts) (hostvol : String) : Decidable (mounts.InPlace hostvol) := inferInstanceAs (Decidable (_ ∨ _))

/-! ## Mount points -/

theorem plain_of_safe {c : String} (h : SafeComponent c) : Plain c.toList where
  nonempty := fun hc => h.nonempty (String.toList_injective hc)
  notSelf := fun hc => h.notSelf (String.toList_injective hc)
  notParent := fun hc => h.notParent (String.toList_injective hc)
  noSlash := h.noSlash

/-- A mount point lies in the mount root. -/
theorem mntdir_eq {hostvol : String} (h : isSafePathComponent hostvol = true) :
    mntdir hostvol = slashes false ["mnt".toList, hostvol.toList] := by
  have hroot : mountRoot = slashes false ["mnt".toList] := by decide
  rw [mntdir, hroot, join_name (by decide) (plain_of_safe (safeComponent_of_isSafe h))]
  rfl

section

variable [VolnameHash]

/-- The paths that the controller generates, or the root of a dedicated pool. -/
def checkVolumePath (volumeId : String) (pvtype : PvType) (pvpath : String) (singlePvPool : Bool) : Except Err Unit :=
  if pvpath ≠ "" ∧ singlePvPool then throw (.value "single-PV pools require an empty volume path")
  else if pvpath ≠ "" then do
    let expectedPaths := (← canonicalVolumePaths volumeId pvtype).map Path.text
    if pvpath ∉ expectedPaths then throw (.value "path does not match the controller-generated path")
    else pure ()
  else if !singlePvPool then throw (.value "empty path requires an authoritative single-PV pool")
  else pure ()

/-- `_validate_volume_paths`: the paths of the pool and of the volume in it. -/
def validateVolumePaths (mounts : PoolMounts) (volumeId hostvol pvpath : String) (pvtype : PvType) (singlePvPool : Bool) :
    Except Err (List Char × List Char) :=
  if !isSafePathComponent hostvol then throw (.value "hostvol must be a non-empty path component")
  else if !isValidCsiIdentifier volumeId then throw (.value "volume ID does not satisfy the CSI identifier contract")
  else do
    checkVolumePath volumeId pvtype pvpath singlePvPool
    if ¬mounts.InPlace hostvol then throw (.value "hostvol must not resolve through a symbolic link")
    else
      let pvpathFull := normpath (join (mntdir hostvol) pvpath.toList)
      if !isWithin pvpathFull (mntdir hostvol) then throw (.value "path escapes its hosting volume")
      else pure (mntdir hostvol, pvpathFull)

/-! ## The paths of volumes -/

variable {mounts : PoolMounts} {volumeId hostvol : String} {pvtype : PvType} {p : Path}

/-- The paths of volumes lie in their pools. -/
theorem isWithin_volumePath (hhash : ∀ v, HexDigest (getVolnameHash v)) (hhost : isSafePathComponent hostvol = true)
    (hp : p ∈ volumePaths pvtype volumeId) : isWithin (normpath (join (mntdir hostvol) p.text.toList)) (mntdir hostvol) = true := by
  have hpool : ∀ c ∈ ["mnt".toList, hostvol.toList], Plain c := by
    intro c hc
    rcases List.mem_cons.mp hc with rfl | hc
    · decide
    · obtain rfl := List.mem_singleton.mp hc
      exact plain_of_safe (safeComponent_of_isSafe hhost)
  have hpath : ∀ c ∈ p.map String.toList, Plain c := by
    intro c hc
    obtain ⟨d, hd, rfl⟩ := List.mem_map.mp hc
    exact plain_of_safe (volumePaths_safe hhash hp d hd)
  have hall : ∀ c ∈ ["mnt".toList, hostvol.toList] ++ p.map String.toList, Plain c := by
    intro c hc
    rcases List.mem_append.mp hc with hc | hc
    · exact hpool c hc
    · exact hpath c hc
  rw [mntdir_eq hhost, text_toList, normpath_join hall, isWithin, decide_eq_true_eq]
  exact (commonpath_slashes hall hpool).mpr ⟨rfl, List.prefix_append _ _⟩

theorem text_ne_empty (hhash : ∀ v, HexDigest (getVolnameHash v)) (hp : p ∈ volumePaths pvtype volumeId) : p.text ≠ "" := by
  intro h
  have hempty : p.text = Path.text [""] := h
  have hnoSlash : ∀ c ∈ p, '/' ∉ c.toList := fun c hc => (volumePaths_safe hhash hp c hc).noSlash
  obtain rfl := text_injective (volumePaths_ne_nil hp) (List.cons_ne_nil _ _) hnoSlash (by simp) hempty
  exact (volumePaths_safe hhash hp "" (List.mem_singleton_self "")).nonempty rfl

/-- What is accepted on a shared pool: the paths of the volume. -/
theorem validateVolumePaths_ok {pvpath : String} {paths : List Char × List Char}
    (h : validateVolumePaths mounts volumeId hostvol pvpath pvtype false = .ok paths) :
    ∃ p ∈ volumePaths pvtype volumeId, pvpath = p.text := by
  unfold validateVolumePaths at h
  obtain ⟨-, h⟩ := ite_error_ok.mp h
  obtain ⟨hid, h⟩ := ite_error_ok.mp h
  have hvalid : isValidCsiIdentifier volumeId = true := by simpa using hid
  obtain ⟨_, hcheck, -⟩ := bind_ok.mp h
  unfold checkVolumePath at hcheck
  rw [if_neg (by simp)] at hcheck
  by_cases hempty : pvpath = ""
  · rw [if_neg (not_not.mpr hempty)] at hcheck
    cases hcheck
  · rw [if_pos hempty, canonicalVolumePaths_eq hvalid, ok_bind] at hcheck
    obtain ⟨hmem, -⟩ := ite_error_ok.mp hcheck
    obtain ⟨p, hp, htext⟩ := List.mem_map.mp (not_not.mp hmem)
    exact ⟨p, hp, htext.symm⟩

/-- **A node finds the volume.** -/
theorem validateVolumePaths_own (hhash : ∀ v, HexDigest (getVolnameHash v)) (hid : isValidCsiIdentifier volumeId = true)
    (hhost : isSafePathComponent hostvol = true) (hmount : mounts.InPlace hostvol) (hp : p ∈ volumePaths pvtype volumeId) :
    validateVolumePaths mounts volumeId hostvol p.text pvtype false =
      .ok (mntdir hostvol, normpath (join (mntdir hostvol) p.text.toList)) := by
  have hmem : p.text ∈ (volumePaths pvtype volumeId).map Path.text := List.mem_map_of_mem hp
  have hcheck : checkVolumePath volumeId pvtype p.text false = .ok () := by
    rw [checkVolumePath, if_neg (by simp), if_pos (text_ne_empty hhash hp), canonicalVolumePaths_eq hid, ok_bind,
      if_neg (not_not.mpr hmem)]
    rfl
  have hwithin := isWithin_volumePath hhash hhost hp
  rw [validateVolumePaths, hhost, hid, hcheck, ok_bind]
  simp [hmount, hwithin]

/-- **And nobody else does.** -/
theorem validateVolumePaths_foreign (hhash : ∀ v, HexDigest (getVolnameHash v)) {other : String} (hother : other ≠ volumeId)
    (hp : p ∈ volumePaths pvtype volumeId) {t : PvType} {paths : List Char × List Char} :
    validateVolumePaths mounts other hostvol p.text t false ≠ .ok paths := by
  intro h
  obtain ⟨q, hq, htext⟩ := validateVolumePaths_ok h
  have hne : (pvtype, volumeId) ≠ (t, other) := fun he => hother (Prod.mk.inj he).2.symm
  exact (text_apart hhash hp hq hne).1 htext

end

end Kadalu.Node
