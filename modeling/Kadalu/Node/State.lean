import Kadalu.Volume.Paths
import Kadalu.Durable.CrashLogic

/-!
# The publish targets of a node

A target is a path that kubelet chooses. The kernel knows what is mounted there, and the node keeps a sidecar beside it:
the publish record, which says for which PV the target was established. The two are changed by different steps, so that a
crash can leave one without the other.

What is mounted at a target is a bind of a directory of a Gluster client, or a loop device over a file of one. A Gluster
client is known by the device number of its mount, and a file by that number and its inode; both name one thing as long as
a target refers to it. A loop device with a mounted file system is busy. One whose node is only bind-mounted is not: once it
is detached, others may attach another file under its number, and the node at the target then shows that one.
-/

namespace Kadalu.Node

/-! ## Hosting mounts -/

/-- A validated token of `mount_identity_token`: the stable UUID of a pool generation and the fingerprint of its
configuration. -/
structure MountIdentity where
  generation : String
  fingerprint : String
  deriving DecidableEq, Repr

/-- `_same_mount_identity_generation` -/
def sameMountIdentityGeneration (first second : MountIdentity) : Bool := first.generation = second.generation

/-- The source of a Gluster mount: the display name of a Kadalu client, or a remote path. -/
inductive HostSource where
  | kadalu (volname : String) (identity : Option MountIdentity)
  | remote (host path : String)
  deriving DecidableEq, Repr

/-- `value or None` -/
def nonempty (value : String) : Option String := if value = "" then none else some value

/-- `_gluster_volume_name` -/
def HostSource.glusterVolumeName : HostSource → Option String
  | kadalu volname _ => nonempty volname
  | remote _ path => nonempty (String.ofList (path.toList.dropWhile (· = '/')))

/-- `_gluster_mount_identity` -/
def HostSource.glusterMountIdentity : HostSource → Option MountIdentity
  | kadalu _ identity => identity
  | remote _ _ => none

/-- A mounted Gluster client: it serves one generation of a pool, and its display name says nothing else. -/
structure Client where
  source : HostSource
  hostVolumeName : String
  generation : String
  named : source.glusterVolumeName = some hostVolumeName
  identified : ∀ i, source.glusterMountIdentity = some i → i.generation = generation

/-- A file: `(st_ino, st_dev)` -/
structure FileNode where
  device : Nat
  inode : Nat
  deriving DecidableEq, Repr

/-! ## Targets -/

/-- A loop device: its number, and the file that it is or was last attached to. -/
structure LoopDevice where
  number : Nat
  file : FileNode
  backFile : String
  deriving DecidableEq, Repr

/-- What a mount entry shows. -/
inductive Fs where
  /-- a bind of the directory `root` of a Gluster client -/
  | gluster (device : Nat) (root : Path)
  /-- a loop device: its file system, which keeps it `busy`, or only its node -/
  | loop (loop : LoopDevice) (busy : Bool)
  | other (fstype : String)
  deriving DecidableEq, Repr

/-- An entry of the mount table. -/
structure MountEntry where
  options : List String
  fs : Fs
  deriving DecidableEq, Repr

def MountEntry.loop (entry : MountEntry) : Option LoopDevice :=
  match entry.fs with
  | .loop loop _ => some loop
  | _ => none

/-- `_loop_device_from_mountinfo` -/
def MountEntry.loopDevice (entry : MountEntry) : Option Nat := entry.loop.map (·.number)

/-- The entry keeps the device with this number busy. -/
def MountEntry.keepsBusy (entry : MountEntry) (number : Nat) : Bool :=
  match entry.fs with
  | .loop loop busy => busy && loop.number = number
  | _ => false

/-- The entry after a device was attached to another file: the node of the device shows that one. -/
def MountEntry.reattach (loop : LoopDevice) (entry : MountEntry) : MountEntry :=
  if entry.loopDevice = some loop.number then { entry with fs := .loop loop false } else entry

/-- The publish record of a target. -/
structure PublishState where
  volumeId : String
  pvtype : PvType
  volumePath : Path
  hostVolumeName : String
  hostMountIdentity : MountIdentity
  deriving DecidableEq, Repr

/-- A target: the entries of the mount table there, the topmost first, its sidecar, and the loop devices that were detached. -/
structure Target where
  mounts : List MountEntry := []
  record : Option PublishState := none
  detached : List Nat := []
  deriving DecidableEq, Repr

/-- The topmost mount. -/
def Target.mount (s : Target) : Option MountEntry := s.mounts.head?

/-- What a mounted loop device is attached to. -/
def Target.backing (s : Target) (number : Nat) : Option LoopDevice :=
  s.mounts.findSome? fun entry => entry.loop.filter (·.number = number)

@[simp] theorem mount_eq_none {s : Target} : s.mount = none ↔ s.mounts = [] := List.head?_eq_none_iff

theorem mem_of_mount {s : Target} {e : MountEntry} (h : s.mount = some e) : e ∈ s.mounts := List.mem_of_mem_head? h

theorem backing_of_mount {s : Target} {e : MountEntry} {loop : LoopDevice} (h : s.mount = some e)
    (hloop : e.loop = some loop) :
    s.backing loop.number = some loop := by
  obtain ⟨below, hmounts⟩ := List.head?_eq_some_iff.mp h
  simp [Target.backing, hmounts, hloop]

/-- A file is attached to a loop device, whose node shows it wherever it is mounted. -/
def Target.attach (s : Target) (loop : LoopDevice) : Target :=
  { s with mounts := s.mounts.map (·.reattach loop), detached := s.detached.filter (· ≠ loop.number) }

/-- What others do to the loop devices of the node. The kernel never picks a number that is attached or busy. -/
inductive Others (s : Target) : Target → Prop
  | detach (number : Nat) : Others s { s with detached := number :: s.detached }
  | attach (loop : LoopDevice) (hdetached : loop.number ∈ s.detached)
    (hbusy : ∀ entry ∈ s.mounts, entry.keepsBusy loop.number = false) : Others s (s.attach loop)

/-- The exceptions of the node, with the class each belongs to. -/
inductive NodeErr where
  /-- an `OSError` with `EIO`, `ENOTCONN` or `ESTALE` -/
  | transient
  /-- `FileNotFoundError`, an `OSError` -/
  | fileNotFound
  /-- `MountTargetConflictError`, an `OSError` without an error number -/
  | conflict (msg : String)
  /-- any other `OSError` -/
  | os
  /-- `CommandException` -/
  | command
  /-- `ValueError` -/
  | value (msg : String)
  deriving DecidableEq, Repr

def NodeErr.isOs : NodeErr → Bool
  | transient | fileNotFound | conflict _ | os => true
  | _ => false

def NodeErr.isCommand : NodeErr → Bool
  | command => true
  | _ => false

/-! ## PVs -/

/-- A PV, as the node sees it. -/
structure Pv where
  volumeId : String
  pvtype : PvType
  path : Path
  hostVolumeName : String
  generation : String
  deriving DecidableEq, Repr

/-- What stands behind the numbers of the kernel, and whose a dedicated pool is: its recorded owner never changes. -/
structure Kernel where
  client : Nat → Client
  path : FileNode → Path
  owner : String → String

variable [VolnameHash] {K : Kernel} {e : MountEntry} {p q : Pv}

/-- A PV has one of the paths of its volume, or it is a whole pool and its volume the owner. -/
def Pv.Valid (K : Kernel) (p : Pv) : Prop :=
  p.path ≠ [] ∧ p.path ∈ volumePaths p.pvtype p.volumeId ∨
    p.path = [] ∧ p.pvtype = .subvol ∧ p.volumeId = K.owner p.generation

instance (K : Kernel) (p : Pv) : Decidable (p.Valid K) := inferInstanceAs (Decidable (_ ∨ _))

/-- The Gluster client with this device number serves the pool of a PV. -/
def Kernel.Serves (K : Kernel) (device : Nat) (p : Pv) : Prop :=
  (K.client device).hostVolumeName = p.hostVolumeName ∧ (K.client device).generation = p.generation

/-- An entry shows the payload of a PV. -/
def Shows (K : Kernel) (e : MountEntry) (p : Pv) : Prop :=
  match e.fs with
  | .gluster device root => root = p.path ∧ K.Serves device p
  | .loop loop _ => K.path loop.file = p.path ∧ K.Serves loop.file.device p
  | .other _ => False

/-- What is mounted belongs to a PV: it is the payload of this one and of no other. The node of a detached loop device counts as
what it was last attached to. -/
def Belongs (K : Kernel) (e : MountEntry) (p : Pv) : Prop := Shows K e p ∧ ∀ q : Pv, q.Valid K → Shows K e q → q = p

omit [VolnameHash] in
theorem Shows.agree (h : Shows K e p) (h' : Shows K e q) :
    p.path = q.path ∧ p.hostVolumeName = q.hostVolumeName ∧ p.generation = q.generation := by
  unfold Shows at h h'
  cases hfs : e.fs with
  | gluster device root =>
    rw [hfs] at h h'
    exact ⟨h.1.symm.trans h'.1, h.2.1.symm.trans h'.2.1, h.2.2.symm.trans h'.2.2⟩
  | loop loop busy =>
    rw [hfs] at h h'
    exact ⟨h.1.symm.trans h'.1, h.2.1.symm.trans h'.2.1, h.2.2.symm.trans h'.2.2⟩
  | other fstype =>
    rw [hfs] at h
    cases h

/-- The payload of a PV determines it. -/
theorem Pv.Valid.eq (h : p.Valid K) (h' : q.Valid K) (hp : Shows K e p) (hq : Shows K e q) : p = q := by
  obtain ⟨hpath, hname, hgen⟩ := hp.agree hq
  have hid : p.pvtype = q.pvtype ∧ p.volumeId = q.volumeId := by
    rcases h with ⟨hne, hmem⟩ | ⟨hnil, ht, hown⟩ <;> rcases h' with ⟨hne', hmem'⟩ | ⟨hnil', ht', hown'⟩
    · exact volumePaths_disjoint hmem (hpath ▸ hmem')
    · exact absurd (hpath.trans hnil') hne
    · exact absurd (hpath.symm.trans hnil) hne'
    · exact ⟨ht.trans ht'.symm, by rw [hown, hown', hgen]⟩
  cases p
  cases q
  simp_all

/-- For the PV of a request it is enough that the entry shows its payload. -/
theorem Pv.Valid.belongs_iff (h : p.Valid K) : Belongs K e p ↔ Shows K e p :=
  ⟨And.left, fun hs => ⟨hs, fun _ hq hqs => hq.eq h hqs hs⟩⟩

end Kadalu.Node
