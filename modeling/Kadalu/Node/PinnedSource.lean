import Kadalu.Node.VolumePath

/-!
# Pinned sources

Between the check of a path and the mount, whoever writes into a pool may rename its directories and put links in their place. So the
node plugin opens the source directory by directory from the root of the pool, follows no link, and mounts what it has opened
(`_pinned_volume_source`).

A file is known by a number that is never used again, and never changes its kind. Each call sees what the directories have at
its own moment: `Files` has them for every moment, in any order of changes.

* `pin`: the calls before the mount.
* `Leads`: a way through the directories, each name at a later moment. `leads_pin`: a pinned file has one.
* `pinned_contained`: it is a file of the pool, of the kind of the volume, and all descriptors are closed.
-/

namespace Kadalu.Node.Pinned

open Operator TargetLock Except

/-- What `stat` says of a file. -/
inductive Kind where
  | directory
  | regular
  | symlink
  | special
  deriving DecidableEq

/-- The exceptions of the calls, and those that the callers of the plugin know. -/
inductive PinError where
  | fileNotFound
  | notADirectory
  | os
  | value (message : String)
  | volumeSourceNotFound (message : String)
  deriving DecidableEq

/-- The files: what is mounted at the pool and in each directory at each moment, and what errors the calls meet besides. -/
structure Files where
  kind : Nat → Kind
  root : Nat → Option Nat
  entry : Nat → Nat → List Char → Option Nat
  error : Nat → Option PinError

/-- The moment, and the files that the process has opened. -/
structure Calls where
  now : Nat
  opened : List Nat

/-- `os.open` with `O_PATH | O_NOFOLLOW`, and with `O_DIRECTORY` -/
def openat (files : Files) (directory : Bool) (found : Nat → Option Nat) (s : Calls) : Except PinError Nat × Calls :=
  let s' : Calls := ⟨s.now + 1, s.opened⟩
  match files.error s.now with
  | some e => (.error e, s')
  | none =>
    (found s.now).elim (.error .fileNotFound, s') fun file =>
      if directory = true ∧ files.kind file ≠ .directory then (.error .notADirectory, s')
      else (.ok file, { s' with opened := file :: s.opened })

/-- The loop of `_pinned_volume_source` over its components -/
def openComponents (files : Files) (pvtype : PvType) : List (List Char) → Nat → Calls → Except PinError Nat × Calls
  | [], currentFd, s => (.ok currentFd, s)
  | component :: rest, currentFd, s =>
    match openat files (decide (rest ≠ [] ∨ pvtype = .subvol)) (fun now => files.entry now currentFd component) s with
    | (.ok file, s') => openComponents files pvtype rest file s'
    | (.error e, s') => (.error e, s')

/-- `_expected_source_type` -/
def expectedSourceType (pvtype : PvType) (kind : Kind) : Bool :=
  if pvtype = .subvol then kind = .directory else kind = .regular

/-- The tests after `os.fstat` -/
def checkSource (files : Files) (pvtype : PvType) (file : Nat) (s : Calls) : Except PinError Nat × Calls :=
  let s' : Calls := ⟨s.now + 1, s.opened⟩
  match files.error s.now with
  | some e => (.error e, s')
  | none =>
    if files.kind file = .symlink then (.error (.value "path must not contain symbolic links"), s')
    else if !expectedSourceType pvtype (files.kind file) then
      (.error (.value "path has the wrong source type for pvtype"), s')
    else (.ok file, s')

/-- `components` -/
def components (mntdir pvpathFull : List Char) : List (List Char) :=
  let relativePath := relpath pvpathFull mntdir
  if relativePath = ['.'] then [] else splitChars '/' relativePath

/-- `_pinned_volume_source` up to the `yield` -/
def pin (files : Files) (mntdir pvpathFull : List Char) (pvtype : PvType) (s : Calls) : Except PinError Nat × Calls :=
  match openat files true files.root s with
  | (.ok root, s') =>
    match openComponents files pvtype (components mntdir pvpathFull) root s' with
    | (.ok file, s'') => checkSource files pvtype file s''
    | (.error e, s'') => (.error e, s'')
  | (.error e, s') => (.error e, s')

/-- The exceptions that leave `_pinned_volume_source` -/
def translated {α : Type} : Except PinError α → Except PinError α
  | .error .fileNotFound => .error (.volumeSourceNotFound "volume source path does not exist")
  | .error .notADirectory => .error (.value "volume source path has an invalid component")
  | r => r

/-- `_pinned_volume_source` around a body, which knows the source as the file of a descriptor -/
def pinnedVolumeSource {α : Type} (files : Files) (mntdir pvpathFull : List Char) (pvtype : PvType)
    (body : Nat → Calls → Except PinError α × Calls) (s : Calls) : Except PinError α × Calls :=
  let pinned := pin files mntdir pvpathFull pvtype s
  let openedFds := pinned.2.opened.take (pinned.2.opened.length - s.opened.length)
  let ended := match pinned.1 with
    | .ok file => body file pinned.2
    | .error e => (.error e, pinned.2)
  (translated ended.1, { ended.2 with opened := openedFds.foldl List.erase ended.2.opened })

variable {files : Files} {pvtype : PvType} {InPool : Nat → Prop} {s t : Calls}

/-! ## The way to a file -/

/-- A way from a directory, each name at a later moment, through directories only. -/
def Leads (files : Files) : Nat → Nat → List (List Char) → Nat → Prop
  | _, directory, [], file => file = directory
  | now, directory, name :: rest, file => files.kind directory = .directory ∧
    ∃ later ≥ now, ∃ next, files.entry later directory name = some next ∧ Leads files (later + 1) next rest file

/-- The files of a pool: what is mounted, and what its directories lead to, save to their parents. -/
structure Files.Contained (files : Files) (InPool : Nat → Prop) : Prop where
  root : ∀ now file, files.root now = some file → InPool file
  entry : ∀ now directory name file,
    InPool directory → name ≠ ['.', '.'] → files.entry now directory name = some file → InPool file

theorem Leads.contained {names : List (List Char)} {now directory file : Nat} (h : Leads files now directory names file)
    (hfiles : files.Contained InPool) (hnames : ∀ name ∈ names, Plain name) (hdirectory : InPool directory) : InPool file := by
  induction names generalizing now directory with
  | nil =>
    obtain rfl := h
    exact hdirectory
  | cons name rest ih =>
    obtain ⟨-, later, -, next, hnext, hrest⟩ := h
    have hplain := hnames name List.mem_cons_self
    have hinside := hfiles.entry later directory name next hdirectory hplain.notParent hnext
    exact ih hrest (fun c hc => hnames c (List.mem_cons_of_mem _ hc)) hinside

/-! ## The calls -/

/-- The calls so far: files have been opened, and time has passed. -/
structure After (s t : Calls) : Prop where
  opened : s.opened <:+ t.opened
  now : s.now ≤ t.now

theorem After.refl : After s s := ⟨List.suffix_rfl, Nat.le_refl _⟩

theorem After.trans {u : Calls} (h : After s t) (h' : After t u) : After s u :=
  ⟨h.opened.trans h'.opened, Nat.le_trans h.now h'.now⟩

theorem after_openat (directory : Bool) (found : Nat → Option Nat) : After s (openat files directory found s).2 := by
  unfold openat
  cases files.error s.now with
  | some e => exact ⟨List.suffix_rfl, Nat.le_succ _⟩
  | none =>
    cases found s.now with
    | none => exact ⟨List.suffix_rfl, Nat.le_succ _⟩
    | some file =>
      simp only [Option.elim_some]
      split
      · exact ⟨List.suffix_rfl, Nat.le_succ _⟩
      · exact ⟨List.suffix_cons _ _, Nat.le_succ _⟩

/-- A file that a call opens is what the call sees. -/
theorem openat_ok {directory : Bool} {found : Nat → Option Nat} {file : Nat} (h : openat files directory found s = (.ok file, t)) :
    found s.now = some file ∧ (directory = true → files.kind file = .directory) ∧ t = ⟨s.now + 1, file :: s.opened⟩ := by
  unfold openat at h
  cases herror : files.error s.now with
  | some e =>
    rw [herror] at h
    cases h
  | none =>
    rw [herror] at h
    cases hfound : found s.now with
    | none =>
      rw [hfound] at h
      cases h
    | some next =>
      rw [hfound] at h
      by_cases hkind : directory = true ∧ files.kind next ≠ .directory
      · simp only [Option.elim_some, if_pos hkind] at h
        cases h
      · simp only [Option.elim_some, if_neg hkind] at h
        cases h
        refine ⟨rfl, fun hdirectory => ?_, rfl⟩
        by_contra hne
        exact hkind ⟨hdirectory, hne⟩

theorem after_openComponents (names : List (List Char)) (directory : Nat) :
    After s (openComponents files pvtype names directory s).2 := by
  induction names generalizing directory s with
  | nil => exact .refl
  | cons name rest ih =>
    have hopen : After s (openat files (decide (rest ≠ [] ∨ pvtype = .subvol)) (fun now => files.entry now directory name) s).2 :=
      after_openat _ _
    unfold openComponents
    split
    · rename_i file t heq
      rw [heq] at hopen
      exact hopen.trans (ih file)
    · rename_i e t heq
      rwa [heq] at hopen

/-- What the loop has opened at last has a way from where it began. -/
theorem openComponents_ok {names : List (List Char)} {directory file : Nat}
    (h : openComponents files pvtype names directory s = (.ok file, t)) (hkind : names ≠ [] → files.kind directory = .directory)
    (hopen : directory ∈ s.opened) : Leads files s.now directory names file ∧ file ∈ t.opened := by
  induction names generalizing directory s with
  | nil =>
    cases h
    exact ⟨rfl, hopen⟩
  | cons name rest ih =>
    unfold openComponents at h
    split at h
    · rename_i next u heq
      obtain ⟨hfound, hnext, rfl⟩ := openat_ok heq
      have hrest := ih h (fun hne => hnext (by simp [hne])) List.mem_cons_self
      exact ⟨⟨hkind (List.cons_ne_nil _ _), s.now, Nat.le_refl _, next, hfound, hrest.1⟩, hrest.2⟩
    · cases h

theorem after_checkSource (file : Nat) : After s (checkSource files pvtype file s).2 := by
  unfold checkSource
  cases files.error s.now with
  | some e => exact ⟨List.suffix_rfl, Nat.le_succ _⟩
  | none => split_ifs <;> exact ⟨List.suffix_rfl, Nat.le_succ _⟩

theorem checkSource_ok {file file' : Nat} (h : checkSource files pvtype file s = (.ok file', t)) :
    file' = file ∧ expectedSourceType pvtype (files.kind file) = true ∧ t.opened = s.opened := by
  unfold checkSource at h
  cases herror : files.error s.now with
  | some e =>
    rw [herror] at h
    cases h
  | none =>
    simp only [herror] at h
    by_cases hlink : files.kind file = .symlink
    · rw [if_pos hlink] at h
      cases h
    · by_cases htype : expectedSourceType pvtype (files.kind file) = true
      · rw [if_neg hlink, if_neg (by simp [htype])] at h
        cases h
        exact ⟨rfl, htype, rfl⟩
      · rw [if_neg hlink, if_pos (by simpa using htype)] at h
        cases h

theorem after_pin (mntdir pvpathFull : List Char) : After s (pin files mntdir pvpathFull pvtype s).2 := by
  have hopen : After s (openat files true files.root s).2 := after_openat _ _
  unfold pin
  split
  · rename_i root t heq
    rw [heq] at hopen
    have hrest : After t (openComponents files pvtype (components mntdir pvpathFull) root t).2 := after_openComponents _ _
    split
    · rename_i file u heq'
      rw [heq'] at hrest
      exact hopen.trans (hrest.trans (after_checkSource file))
    · rename_i e u heq'
      rw [heq'] at hrest
      exact hopen.trans hrest
  · rename_i e t heq
    rwa [heq] at hopen

/-- A pinned file is open, of the kind of the volume, and has a way from what was mounted. -/
theorem leads_pin {mntdir pvpathFull : List Char} {file : Nat} (h : pin files mntdir pvpathFull pvtype s = (.ok file, t)) :
    ∃ root, files.root s.now = some root ∧ Leads files (s.now + 1) root (components mntdir pvpathFull) file ∧
      expectedSourceType pvtype (files.kind file) = true ∧ file ∈ t.opened := by
  unfold pin at h
  split at h
  · rename_i root u heq
    obtain ⟨hroot, hkind, rfl⟩ := openat_ok heq
    split at h
    · rename_i next u heq'
      obtain ⟨rfl, htype, hopened⟩ := checkSource_ok h
      obtain ⟨hleads, hmem⟩ := openComponents_ok heq' (fun _ => hkind rfl) List.mem_cons_self
      exact ⟨root, hroot, hleads, htype, hopened ▸ hmem⟩
    · cases h
  · cases h

/-! ## Descriptors -/

theorem foldl_erase_append (fds table : List Nat) : fds.foldl List.erase (fds ++ table) = table := by
  induction fds with
  | nil => rfl
  | cons fd fds ih => rw [List.cons_append, List.foldl_cons, List.erase_cons_head, ih]

/-- All descriptors are closed, if the body closes its own. -/
theorem pinnedVolumeSource_opened {α : Type} {mntdir pvpathFull : List Char} {body : Nat → Calls → Except PinError α × Calls}
    (hbody : ∀ file t, (body file t).2.opened = t.opened) :
    (pinnedVolumeSource files mntdir pvpathFull pvtype body s).2.opened = s.opened := by
  have hpinned : After s (pin files mntdir pvpathFull pvtype s).2 := after_pin _ _
  obtain ⟨fds, hfds⟩ := hpinned.opened
  have hlength : (pin files mntdir pvpathFull pvtype s).2.opened.length - s.opened.length = fds.length := by
    rw [← hfds, List.length_append]
    omega
  have htake : (pin files mntdir pvpathFull pvtype s).2.opened.take fds.length = fds := by rw [← hfds, List.take_left]
  unfold pinnedVolumeSource
  simp only [hlength, htake]
  split
  · rw [hbody, ← hfds]
    exact foldl_erase_append fds s.opened
  · rw [← hfds]
    exact foldl_erase_append fds s.opened

/-! ## Paths -/

/-- The components below a pool are those of the path in it. -/
theorem components_slashes {rs rel : List (List Char)} (hcs : ∀ c ∈ rs ++ rel, Plain c) :
    components (slashes false rs) (slashes false (rs ++ rel)) = rel := by
  have hrel : ∀ c ∈ rel, Plain c := fun c hc => hcs c (List.mem_append_right _ hc)
  unfold components
  rw [relpath_slashes hcs]
  by_cases hnil : rel = []
  · rw [if_pos hnil, if_pos rfl, hnil]
  · have hdot : ['/'].intercalate rel ≠ ['.'] := by
      intro hdot
      have hsplit := splitChars_names hrel
      rw [if_neg hnil, hdot] at hsplit
      have hself : rel = [['.']] := hsplit.symm
      exact (hrel ['.'] (hself ▸ List.mem_singleton_self _)).notSelf rfl
    rw [if_neg hnil, if_neg hdot, splitChars_names hrel, if_neg hnil]

section

variable [VolnameHash] {mounts : PoolMounts} {volumeId hostvol pvpath : String} {singlePvPool : Bool}
  {paths : List Char × List Char}

/-- The path in a pool is that of the volume, or the root of a dedicated pool. -/
theorem checkVolumePath_names (hhash : ∀ v, HexDigest (getVolnameHash v)) (hid : isValidCsiIdentifier volumeId = true)
    (h : checkVolumePath volumeId pvtype pvpath singlePvPool = .ok ()) :
    ∃ names : List (List Char), (∀ c ∈ names, Plain c) ∧ pvpath.toList = ['/'].intercalate names := by
  unfold checkVolumePath at h
  obtain ⟨-, h⟩ := ite_error_ok.mp h
  by_cases hempty : pvpath = ""
  · exact ⟨[], by simp, by rw [hempty]; rfl⟩
  · rw [if_pos hempty, canonicalVolumePaths_eq hid, ok_bind] at h
    obtain ⟨hmem, -⟩ := ite_error_ok.mp h
    obtain ⟨p, hp, rfl⟩ := List.mem_map.mp (not_not.mp hmem)
    refine ⟨p.map String.toList, fun c hc => ?_, text_toList p⟩
    obtain ⟨d, hd, rfl⟩ := List.mem_map.mp hc
    exact plain_of_safe (volumePaths_safe hhash hp d hd)

/-- The paths that are accepted are below the pool, and name nothing but files. -/
theorem validateVolumePaths_components (hhash : ∀ v, HexDigest (getVolnameHash v))
    (h : validateVolumePaths mounts volumeId hostvol pvpath pvtype singlePvPool = .ok paths) :
    ∀ c ∈ components paths.1 paths.2, Plain c := by
  unfold validateVolumePaths at h
  obtain ⟨hhost, h⟩ := ite_error_ok.mp h
  obtain ⟨hid, h⟩ := ite_error_ok.mp h
  obtain ⟨_, hcheck, h⟩ := bind_ok.mp h
  obtain ⟨-, h⟩ := ite_error_ok.mp h
  obtain ⟨-, h⟩ := ite_error_ok.mp h
  cases h
  have hsafe : isSafePathComponent hostvol = true := by simpa using hhost
  obtain ⟨names, hnames, htext⟩ := checkVolumePath_names hhash (by simpa using hid) hcheck
  have hpool : ∀ c ∈ ["mnt".toList, hostvol.toList], Plain c := by
    intro c hc
    rcases List.mem_cons.mp hc with rfl | hc
    · decide
    · obtain rfl := List.mem_singleton.mp hc
      exact plain_of_safe (safeComponent_of_isSafe hsafe)
  have hall : ∀ c ∈ ["mnt".toList, hostvol.toList] ++ names, Plain c := by
    intro c hc
    rcases List.mem_append.mp hc with hc | hc
    · exact hpool c hc
    · exact hnames c hc
  rw [mntdir_eq hsafe, htext, normpath_join hall, components_slashes hall]
  exact hnames

/--
Whatever is renamed or linked in the meantime, the source that is mounted is a file of the pool and of the kind of the volume, and it
has been reached through directories alone. However the calls and the mount end, no descriptor stays open.
-/
theorem pinned_contained (hhash : ∀ v, HexDigest (getVolnameHash v))
    (h : validateVolumePaths mounts volumeId hostvol pvpath pvtype singlePvPool = .ok paths) (hfiles : files.Contained InPool) :
    (∀ file t, pin files paths.1 paths.2 pvtype s = (.ok file, t) →
        InPool file ∧ files.kind file = (if pvtype = .subvol then .directory else .regular) ∧ file ∈ t.opened ∧
        ∃ root, files.root s.now = some root ∧ Leads files (s.now + 1) root (components paths.1 paths.2) file) ∧
      ∀ {α : Type} (body : Nat → Calls → Except PinError α × Calls), (∀ file t, (body file t).2.opened = t.opened) →
        (pinnedVolumeSource files paths.1 paths.2 pvtype body s).2.opened = s.opened := by
  refine ⟨fun file t hpin => ?_, fun body hbody => pinnedVolumeSource_opened hbody⟩
  obtain ⟨root, hroot, hleads, htype, hopened⟩ := leads_pin hpin
  have hcontained := hleads.contained hfiles (validateVolumePaths_components hhash h) (hfiles.root _ _ hroot)
  refine ⟨hcontained, ?_, hopened, root, hroot, hleads⟩
  unfold expectedSourceType at htype
  by_cases hsubvol : pvtype = .subvol
  · rw [if_pos hsubvol] at htype ⊢
    exact of_decide_eq_true htype
  · rw [if_neg hsubvol] at htype ⊢
    exact of_decide_eq_true htype

end

/-- Every directory leads on for one moment; after it and before, a link is in its place. -/
def swappedFiles : Files where
  kind file := if file = 9 then .symlink else .directory
  root _ := some 1
  entry now directory _ := some (if now = directory then directory + 1 else 9)
  error _ := none

theorem swappedFiles_contained : swappedFiles.Contained fun file => 0 < file := by
  refine ⟨?_, ?_⟩
  · rintro now _ ⟨⟩
    decide
  · rintro now directory name _ hdirectory - ⟨⟩
    split
    · exact Nat.succ_pos _
    · decide

section

/-- A digest for all names -/
abbrev zeroHash : VolnameHash := ⟨fun _ => "0000000000000000"⟩

attribute [local instance] zeroHash

/-- The source is opened at the moments when it is there. -/
theorem pinned_contained_swapped : ∃ paths t,
    validateVolumePaths ⟨fun _ => false, id⟩ "pvc-1" "pool" "subvol/00/00/pvc-1" .subvol false = .ok paths ∧
      pin swappedFiles paths.1 paths.2 .subvol ⟨0, []⟩ = (.ok 5, t) ∧ 0 < 5 ∧ 5 ∈ t.opened ∧
      (pinnedVolumeSource swappedFiles paths.1 paths.2 .subvol (fun file t => (.ok file, t)) ⟨0, []⟩).2.opened = [] := by
  obtain ⟨paths, hpaths, heq⟩ : ∃ paths,
      validateVolumePaths ⟨fun _ => false, id⟩ "pvc-1" "pool" "subvol/00/00/pvc-1" .subvol false = .ok paths ∧
        decide (paths = ("/mnt/pool".toList, "/mnt/pool/subvol/00/00/pvc-1".toList)) = true := ok_of_test (by decide +kernel)
  have hzero : HexDigest "0000000000000000" := by
    unfold HexDigest
    decide +kernel
  obtain rfl := of_decide_eq_true heq
  obtain ⟨file, hfile, rfl⟩ : ∃ file,
      (pin swappedFiles "/mnt/pool".toList "/mnt/pool/subvol/00/00/pvc-1".toList .subvol ⟨0, []⟩).1 = .ok file ∧ file = 5 :=
    ok_of_test (by decide +kernel)
  have hpin : pin swappedFiles "/mnt/pool".toList "/mnt/pool/subvol/00/00/pvc-1".toList .subvol ⟨0, []⟩ = (.ok 5, _) :=
    Prod.ext hfile rfl
  have hall := pinned_contained (s := ⟨0, []⟩) (fun _ => hzero) hpaths swappedFiles_contained
  have hpinned := hall.1 5 _ hpin
  exact ⟨_, _, hpaths, hpin, hpinned.1, hpinned.2.2.1, hall.2 (fun file t => (.ok file, t)) fun _ _ => rfl⟩

end

end Kadalu.Node.Pinned
