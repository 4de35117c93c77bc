import Kadalu.Node.PathSyntax
import Kadalu.Data.Fields

/-!
# The clients of the pools

The driver mounts a pool by starting a Gluster client. It finds its clients again in two places: in the argument vectors of the
running processes, and in the sources of the mount table, which are the display names that it gave to the clients.

* `glusterVolumeName_displayName`, `glusterMountIdentity_displayName`: what is read off a display name.
* `isGlusterProcess_native`, `isGlusterProcess_external`: the processes that are recognized.
-/

namespace Kadalu.Node.Gluster

open Operator TargetLock

/-! ## Display names -/

/-- `text.split(sep, maxsplit=n)` -/
def splitMax (sep : Char) : Nat → List Char → List (List Char)
  | 0, text => [text]
  | _ + 1, [] => [[]]
  | n + 1, c :: text =>
    if c = sep then [] :: splitMax sep n text
    else (splitMax sep (n + 1) text).modifyHead (c :: ·)

/-- `value or None` -/
def nonemptyText (value : List Char) : Option (List Char) := if value = [] then none else some value

def displayPrefix : List Char := "kadalu:".toList

/-- The display name of the client of a pool, with its mount identity if the pool has one. -/
def displayName (volname : List Char) : Option (List Char) → List Char
  | none => displayPrefix ++ volname
  | some mountIdentity => displayPrefix ++ volname ++ ':' :: mountIdentity

/-- `_gluster_volume_name` -/
def glusterVolumeName (source : List Char) : Option (List Char) :=
  if displayPrefix.isPrefixOf source then (splitMax ':' 2 source)[1]?.bind nonemptyText
  else if ':' ∈ source then nonemptyText ((source.rtakeWhile (· ≠ ':')).dropWhile (· = '/'))
  else none

/-- `_gluster_mount_identity` -/
def glusterMountIdentity (source : List Char) : Option (List Char) :=
  if displayPrefix.isPrefixOf source then (splitMax ':' 2 source)[2]?.bind nonemptyText else none

/-! ## Command lines -/

/-- `GLUSTERFS_CMD` -/
def GLUSTERFS_CMD : List Char := "/opt/sbin/glusterfs".toList

def volfileId : List Char := "--volfile-id".toList

def fsDisplayName : List Char := "--fs-display-name".toList

def volfileServer : List Char := "--volfile-server".toList

def baseArgs : List (List Char) :=
  [GLUSTERFS_CMD, "--process-name".toList, "fuse".toList, "-l".toList, "/var/log/gluster/gluster.log".toList]

/-- The arguments that all clients begin with. -/
def clientArgs (volname : List Char) (mountIdentity : Option (List Char)) : List (List Char) :=
  baseArgs ++ [volfileId, volname, fsDisplayName, displayName volname mountIdentity]

/-- The volfile servers. -/
def serverArgs (hosts : List (List Char)) : List (List Char) := hosts.flatMap fun host => [volfileServer, host]

/-- The command of `mount_glusterfs` -/
def nativeCommand (volname mountpoint : List Char) (mountIdentity : Option (List Char)) (isClient : Bool)
    (hosts : List (List Char)) : List (List Char) :=
  clientArgs volname mountIdentity ++ mountpoint ::
    ((if isClient then [] else ["--client-pid".toList, "-14".toList]) ++ serverArgs hosts)

/-- The options of `mount_glusterfs_with_host` -/
def optionArgs (options : List Char) : List (List Char) :=
  if options = [] then [] else (splitChars ',' options).map ("--".toList ++ ·)

/-- The command of `mount_glusterfs_with_host`, with some options -/
def externalCommand (volname mountpoint hosts : List Char) (mountIdentity : Option (List Char))
    (options : List (List Char)) : List (List Char) :=
  clientArgs volname mountIdentity ++ (serverArgs (splitChars ',' hosts) ++ options ++ [mountpoint])

/-! ## The scan of the processes -/

/-- `args[args.index(flag) + n]` -/
def argAfter (n : Nat) (flag : List Char) (args : List (List Char)) : Option (List Char) :=
  (args.idxOf? flag).bind fun index => args[index + n]?

/-- `_is_gluster_process` -/
def isGlusterProcess (args : List (List Char)) (volname mountpoint : List Char) (mountIdentity : Option (List Char)) : Bool :=
  args.head?.any (basename · = "glusterfs".toList) && argAfter 1 volfileId args = some volname &&
    (mountIdentity = none || argAfter 1 fsDisplayName args = some (displayName volname mountIdentity)) &&
    (args.getLast? = some mountpoint || argAfter 2 fsDisplayName args = some mountpoint)

/-- The arguments of a process as its `cmdline` shows them: empty ones are lost. -/
def cmdline (args : List (List Char)) : List (List Char) := args.filter (· ≠ [])

/-! ## What is read off a display name -/

/-- The name of a Gluster volume. -/
structure VolumeName (volname : List Char) : Prop where
  nonempty : volname ≠ []
  noColon : ':' ∉ volname
  noFlag : volname ≠ fsDisplayName

variable {volname volname' mountpoint mountpoint' identity text : List Char} {mountIdentity mountIdentity' : Option (List Char)}

theorem splitMax_cut {sep : Char} {n : Nat} (rest : List Char) : ∀ {field : List Char}, sep ∉ field →
    splitMax sep (n + 1) (field ++ sep :: rest) = field :: splitMax sep n rest
  | [], _ => by simp [splitMax]
  | c :: field, h => by
    have hc : c ≠ sep := fun hc => h (hc ▸ List.mem_cons_self)
    have hfield : sep ∉ field := fun hf => h (List.mem_cons_of_mem _ hf)
    rw [List.cons_append, splitMax, if_neg hc, splitMax_cut rest hfield, List.modifyHead_cons]

theorem splitMax_whole {sep : Char} {n : Nat} : ∀ {field : List Char}, sep ∉ field → splitMax sep n field = [field]
  | [], _ => by cases n <;> rfl
  | c :: field, h => by
    have hc : c ≠ sep := fun hc => h (hc ▸ List.mem_cons_self)
    have hfield : sep ∉ field := fun hf => h (List.mem_cons_of_mem _ hf)
    cases n with
    | zero => rfl
    | succ n => rw [splitMax, if_neg hc, splitMax_whole hfield, List.modifyHead_cons]

theorem splitMax_begin (text : List Char) : splitMax ':' 2 (displayPrefix ++ text) = "kadalu".toList :: splitMax ':' 1 text := by
  have hbegin : displayPrefix ++ text = "kadalu".toList ++ ':' :: text := rfl
  rw [hbegin]
  exact splitMax_cut text (by decide)

/-- The fields of a display name. -/
theorem splitMax_displayName (h : VolumeName volname) :
    splitMax ':' 2 (displayName volname mountIdentity) = "kadalu".toList :: volname :: mountIdentity.toList := by
  cases mountIdentity with
  | none =>
    unfold displayName
    rw [splitMax_begin, splitMax_whole h.noColon]
    rfl
  | some identity =>
    show splitMax ':' 2 (displayPrefix ++ volname ++ ':' :: identity) = _
    rw [List.append_assoc, splitMax_begin, splitMax_cut identity h.noColon, splitMax]
    rfl

theorem prefix_displayName : displayPrefix.isPrefixOf (displayName volname mountIdentity) = true := by
  rw [List.isPrefixOf_iff_prefix]
  cases mountIdentity with
  | none => exact List.prefix_append _ _
  | some identity => exact ⟨volname ++ ':' :: identity, by rw [displayName, List.append_assoc]⟩

theorem glusterVolumeName_displayName (h : VolumeName volname) :
    glusterVolumeName (displayName volname mountIdentity) = some volname := by
  unfold glusterVolumeName
  rw [if_pos prefix_displayName, splitMax_displayName h]
  exact if_neg h.nonempty

theorem glusterMountIdentity_displayName (h : VolumeName volname) :
    glusterMountIdentity (displayName volname mountIdentity) = mountIdentity.bind nonemptyText := by
  unfold glusterMountIdentity
  rw [if_pos prefix_displayName, splitMax_displayName h]
  cases mountIdentity <;> rfl

/-- Different pools and generations have different display names. -/
theorem displayName_inj (h : VolumeName volname) :
    displayName volname mountIdentity' = displayName volname mountIdentity ↔ mountIdentity' = mountIdentity := by
  refine ⟨fun he => ?_, fun he => he ▸ rfl⟩
  have hfields := congrArg (splitMax ':' 2) he
  rw [splitMax_displayName h, splitMax_displayName h] at hfields
  have htoList : mountIdentity'.toList = mountIdentity.toList := (List.cons.inj (List.cons.inj hfields).2).2
  cases mountIdentity <;> cases mountIdentity' <;> simp_all

/-! ## The processes that are recognized -/

theorem displayName_ne : displayName volname mountIdentity ≠ [] := by
  cases mountIdentity <;> simp [displayName, displayPrefix]

theorem cmdline_clientArgs (h : VolumeName volname) (rest : List (List Char)) :
    cmdline (clientArgs volname mountIdentity ++ rest) = clientArgs volname mountIdentity ++ cmdline rest := by
  have hbase : [] ∉ baseArgs := by decide +kernel
  have hflags : volfileId ≠ [] ∧ fsDisplayName ≠ [] := by decide +kernel
  have hkept : ∀ arg ∈ clientArgs volname mountIdentity, arg ≠ [] := by
    intro arg harg
    rcases List.mem_append.mp harg with harg | harg
    · exact fun hnil => hbase (hnil ▸ harg)
    · simp only [List.mem_cons, List.not_mem_nil, or_false] at harg
      rcases harg with rfl | rfl | rfl | rfl
      · exact hflags.1
      · exact h.nonempty
      · exact hflags.2
      · exact displayName_ne
  unfold cmdline
  rw [List.filter_append, List.filter_eq_self.mpr fun arg harg => decide_eq_true (hkept arg harg)]

theorem argAfter_cut {flag : List Char} {first rest : List (List Char)} {n : Nat} (h : flag ∉ first) :
    argAfter n flag (first ++ flag :: rest) = (flag :: rest)[n]? := by
  have hindex : (first ++ flag :: rest).idxOf? flag = some first.length := by
    induction first with
    | nil => simp [List.idxOf?_cons]
    | cons arg first ih =>
      rw [List.mem_cons, not_or] at h
      have hne : (arg == flag) = false := beq_eq_false_iff_ne.mpr (Ne.symm h.1)
      simp [List.idxOf?_cons, hne, ih h.2]
  rw [argAfter, hindex, Option.bind_some, List.getElem?_append_right (Nat.le_add_right _ _), Nat.add_sub_cancel_left]

theorem argAfter_volfileId (rest : List (List Char)) :
    argAfter 1 volfileId (clientArgs volname mountIdentity ++ rest) = some volname := by
  have hbase : volfileId ∉ baseArgs := by decide +kernel
  rw [clientArgs, List.append_assoc, List.cons_append, argAfter_cut hbase]
  rfl

theorem argAfter_fsDisplayName (h : VolumeName volname) (n : Nat) (rest : List (List Char)) :
    argAfter n fsDisplayName (clientArgs volname mountIdentity ++ rest) =
      (fsDisplayName :: displayName volname mountIdentity :: rest)[n]? := by
  have hbase : fsDisplayName ∉ baseArgs ++ [volfileId] := by decide +kernel
  have hfirst : fsDisplayName ∉ baseArgs ++ [volfileId, volname] := by
    rw [List.append_cons, List.mem_append, not_or]
    exact ⟨hbase, fun hmem => h.noFlag (List.mem_singleton.mp hmem).symm⟩
  have hargs : clientArgs volname mountIdentity ++ rest =
      (baseArgs ++ [volfileId, volname]) ++ fsDisplayName :: displayName volname mountIdentity :: rest := by
    simp only [clientArgs, List.append_assoc, List.cons_append, List.nil_append]
  rw [hargs, argAfter_cut hfirst]

/-- A client of the driver is recognized by its volume, its generation and the place of its mount point. -/
theorem isGlusterProcess_client (h : VolumeName volname) {rest : List (List Char)} (hrest : rest ≠ []) :
    isGlusterProcess (clientArgs volname mountIdentity ++ rest) volname' mountpoint mountIdentity' = true ↔
      volname = volname' ∧ (mountIdentity' = none ∨ mountIdentity = mountIdentity') ∧
        (rest.getLast? = some mountpoint ∨ rest.head? = some mountpoint) := by
  have hhead : (clientArgs volname mountIdentity ++ rest).head?.any (basename · = "glusterfs".toList) = true := by
    rw [List.head?_append_of_ne_nil _ (by simp [clientArgs])]
    show decide (basename GLUSTERFS_CMD = "glusterfs".toList) = true
    decide +kernel
  have hlast : (clientArgs volname mountIdentity ++ rest).getLast? = rest.getLast? := List.getLast?_append_of_ne_nil _ hrest
  have hafter : argAfter 2 fsDisplayName (clientArgs volname mountIdentity ++ rest) = rest.head? := by
    rw [argAfter_fsDisplayName h, List.head?_eq_getElem?]
    rfl
  have hdisplay : argAfter 1 fsDisplayName (clientArgs volname mountIdentity ++ rest) = some (displayName volname mountIdentity) :=
    argAfter_fsDisplayName h 1 rest
  unfold isGlusterProcess
  rw [hhead, hlast, hafter, argAfter_volfileId, hdisplay]
  simp only [Bool.true_and, Bool.and_eq_true, Bool.or_eq_true, decide_eq_true_eq, Option.some.injEq, and_assoc]
  constructor
  · rintro ⟨rfl, hname, hplace⟩
    exact ⟨rfl, hname.imp_right (displayName_inj h).mp, hplace⟩
  · rintro ⟨rfl, hname, hplace⟩
    exact ⟨rfl, hname.imp_right (displayName_inj h).mpr, hplace⟩

theorem cmdline_cons_abs (h : isabs mountpoint = true) (args : List (List Char)) :
    cmdline (mountpoint :: args) = mountpoint :: cmdline args := by
  have hne : mountpoint ≠ [] := by
    rintro rfl
    cases h
  exact List.filter_cons_of_pos (decide_eq_true hne)

theorem not_isabs_serverArgs {hosts : List (List Char)} (hhosts : ∀ host ∈ hosts, isabs host = false) :
    ∀ arg ∈ serverArgs hosts, isabs arg = false := by
  intro arg harg
  obtain ⟨host, hhost, harg⟩ := List.mem_flatMap.mp harg
  simp only [List.mem_cons, List.not_mem_nil, or_false] at harg
  rcases harg with rfl | rfl
  · decide +kernel
  · exact hhosts arg hhost

/-- **Clients of native pools.** A process is recognized as the client of its own volume, mount point and generation alone. -/
theorem isGlusterProcess_native {isClient : Bool} {hosts : List (List Char)} (h : VolumeName volname)
    (habs : isabs mountpoint = true) (hother : isabs mountpoint' = true) (hhosts : ∀ host ∈ hosts, isabs host = false) :
    isGlusterProcess (cmdline (nativeCommand volname mountpoint mountIdentity isClient hosts)) volname' mountpoint'
        mountIdentity' = true ↔
      volname = volname' ∧ (mountIdentity' = none ∨ mountIdentity = mountIdentity') ∧ mountpoint = mountpoint' := by
  have htail : ∀ arg ∈ (if isClient then [] else ["--client-pid".toList, "-14".toList]) ++ serverArgs hosts,
      isabs arg = false := by
    intro arg harg
    rcases List.mem_append.mp harg with harg | harg
    · have hpid : ∀ arg ∈ ["--client-pid".toList, "-14".toList], isabs arg = false := by decide +kernel
      split at harg
      · cases harg
      · exact hpid arg harg
    · exact not_isabs_serverArgs hhosts arg harg
  rw [nativeCommand, cmdline_clientArgs h, isGlusterProcess_client h (by rw [cmdline_cons_abs habs]; exact List.cons_ne_nil _ _),
    cmdline_cons_abs habs]
  refine and_congr_right fun _ => and_congr_right fun _ => ⟨?_, fun he => .inr (congrArg some he)⟩
  rintro (hlast | hhead)
  · rcases List.mem_cons.mp (List.mem_of_getLast? hlast) with hmem | hmem
    · exact hmem.symm
    · have hnot := htail _ (List.mem_of_mem_filter hmem)
      rw [hother] at hnot
      cases hnot
  · exact Option.some.inj hhead

theorem splitChars_cons (sep : Char) : ∀ text : List Char, ∃ field fields, splitChars sep text = field :: fields
  | [] => ⟨[], [], rfl⟩
  | c :: text => by
    obtain ⟨field, fields, hfields⟩ := splitChars_cons sep text
    unfold splitChars
    rw [hfields]
    split_ifs
    · exact ⟨_, _, rfl⟩
    · exact ⟨_, _, rfl⟩

/-- **Clients of External pools.** -/
theorem isGlusterProcess_external {hosts : List Char} {options : List (List Char)} (h : VolumeName volname)
    (habs : isabs mountpoint = true) (hother : isabs mountpoint' = true) :
    isGlusterProcess (cmdline (externalCommand volname mountpoint hosts mountIdentity options)) volname' mountpoint'
        mountIdentity' = true ↔
      volname = volname' ∧ (mountIdentity' = none ∨ mountIdentity = mountIdentity') ∧ mountpoint = mountpoint' := by
  have hend : cmdline [mountpoint] = [mountpoint] := cmdline_cons_abs habs []
  have hrest : cmdline (serverArgs (splitChars ',' hosts) ++ options ++ [mountpoint]) =
      cmdline (serverArgs (splitChars ',' hosts) ++ options) ++ [mountpoint] := by
    conv_rhs => rw [← hend]
    exact List.filter_append _ _
  have hhead : ∀ arg, (cmdline (serverArgs (splitChars ',' hosts) ++ options) ++ [mountpoint]).head? = some arg →
      arg = volfileServer := by
    intro arg harg
    obtain ⟨host, rest, hsplit⟩ := splitChars_cons ',' hosts
    rw [hsplit] at harg
    exact (Option.some.inj harg).symm
  rw [externalCommand, cmdline_clientArgs h, hrest, isGlusterProcess_client h (by simp), List.getLast?_append]
  refine and_congr_right fun _ => and_congr_right fun _ => ⟨?_, fun he => .inl (congrArg some he)⟩
  rintro (hlast | hfirst)
  · exact Option.some.inj hlast
  · have hnot : isabs volfileServer = true := hhead _ hfirst ▸ hother
    exact absurd hnot (by decide +kernel)

/-- **Clients are found again.** Whatever client the driver starts, the processes show it for its own volume, mount point and
generation alone, and the mount table gives back its volume and its generation. -/
theorem clients_recognized {nodes : List (List Char)} (h : VolumeName volname) (hidentity : mountIdentity ≠ some [])
    (habs : isabs mountpoint = true) (hother : isabs mountpoint' = true) (hnodes : ∀ node ∈ nodes, isabs node = false) :
    (∀ volname' mountIdentity' isClient hosts options, ∀ args ∈ [nativeCommand volname mountpoint mountIdentity isClient nodes,
        externalCommand volname mountpoint hosts mountIdentity options],
      (isGlusterProcess (cmdline args) volname' mountpoint' mountIdentity' = true ↔
        volname = volname' ∧ (mountIdentity' = none ∨ mountIdentity = mountIdentity') ∧ mountpoint = mountpoint')) ∧
      glusterVolumeName (displayName volname mountIdentity) = some volname ∧
      glusterMountIdentity (displayName volname mountIdentity) = mountIdentity := by
  refine ⟨fun volname' mountIdentity' isClient hosts options args hargs => ?_, glusterVolumeName_displayName h, ?_⟩
  · simp only [List.mem_cons, List.not_mem_nil, or_false] at hargs
    rcases hargs with rfl | rfl
    · exact isGlusterProcess_native h habs hother hnodes
    · exact isGlusterProcess_external h habs hother
  · rw [glusterMountIdentity_displayName h]
    cases mountIdentity with
    | none => rfl
    | some identity => exact if_neg fun he => hidentity (congrArg some he)

theorem clients_recognized_sample :
    isGlusterProcess (cmdline (nativeCommand "vol".toList "/mnt/vol".toList (some "g1-f1".toList) false ["node".toList]))
      "vol".toList "/mnt/vol".toList (some "g1-f2".toList) = false := by
  have hname : VolumeName "vol".toList := ⟨by decide +kernel, by decide +kernel, by decide +kernel⟩
  have hnodes : ∀ node ∈ ["node".toList], isabs node = false := by decide +kernel
  have hidentity : some "g1-f1".toList ≠ some [] := by decide +kernel
  have habs : isabs "/mnt/vol".toList = true := by decide +kernel
  have hclients := clients_recognized hname hidentity habs habs hnodes
  refine Bool.eq_false_iff.mpr fun hfound => ?_
  rcases ((hclients.1 _ _ false [] [] _ List.mem_cons_self).mp hfound).2.1 with hnone | hsame
  · cases hnone
  · exact absurd hsame (by decide +kernel)

end Kadalu.Node.Gluster
