import Kadalu.Operator.Provisioner

/-!
# The cluster with others at work

`World` is what a handler of the operator shares with everyone else: between two of its requests others may change the
records and the volumes in any way (`Others`). Nobody else scales the CSI provisioner. The API server gives every state of
the ConfigMap a version of its own, and refuses a write that carries an older one.

The requests of the handler are logged with the records just before and after them.
-/

namespace Kadalu.Operator

open Calls Calls.Prog

/-- One request of the handler, with its answer and what it found and left. -/
structure Moment where
  event : Event Call Call.Answer OpErr
  before : Entries
  after : Entries
  fenced : Bool

/-- The cluster. -/
structure World where
  entries : Entries
  /-- the resource version of the ConfigMap -/
  version : Nat
  pvs : PersistentVolumes
  /-- the replicas of the CSI provisioner -/
  replicas : Nat
  /-- the names of the pods -/
  pods : List String
  /-- the readiness of the operator -/
  ready : Bool
  /-- the requests of the handler, the newest first -/
  log : List Moment := []

namespace World

variable {s s' t u : World}

/-- The provisioner is at zero replicas and none of its pods is left. -/
def fenced (s : World) : Bool := s.replicas = 0 && s.pods.filter isProvisionerPod = []

/-- What others may do: everything but scaling the provisioner, which at zero replicas gets no new pods. -/
structure Others (s t : World) : Prop where
  entries : t.version = s.version ∧ t.entries = s.entries ∨ s.version < t.version
  replicas : t.replicas = s.replicas
  fenced : s.fenced → t.fenced
  ready : t.ready = s.ready
  log : t.log = s.log

/-- A write that is refused, or that happens with or without an answer. -/
def Writes (s written : World) (a : Except OpErr Unit) (s' : World) : Prop :=
  (a = .ok () ∧ s' = written) ∨ ∃ e, a = .error e ∧ (s' = s ∨ s' = written)

/-- A write of the ConfigMap, which is refused when another one came in between. -/
def WritesEntries (s : World) (resourceVersion : Option String) (entries : Entries) (a : Except OpErr Unit) (s' : World) :
    Prop :=
  if resourceVersion.all (· = s.version.repr) then
    Writes s { s with entries := entries, version := s.version + 1 } a s'
  else s' = s ∧ ∃ e, a = .error e

/-- The patch of the replicas; a StatefulSet that does not exist has none. -/
def Scales (s : World) (replicas : Nat) (a : Except OpErr Unit) (s' : World) : Prop :=
  Writes s { s with replicas := replicas } a s' ∧ (a = .error (.api (some 404)) → s'.replicas = 0)

/-- What a request does. -/
def Does : (r : Call) → World → Except OpErr r.Answer → World → Prop
  | .readConfigMap, s, a, s' =>
    s' = s ∧ ∀ config, a = .ok config → config.data = s.entries ∧ config.resourceVersion = some s.version.repr
  | .patchConfigMap patch version, s, a, s' => WritesEntries s version (patch.apply s.entries) a s'
  | .replaceConfigMap data version, s, a, s' => WritesEntries s version data a s'
  | .listPersistentVolumes, s, a, s' => s' = s ∧ ∀ pvs, a = .ok pvs → pvs = s.pvs
  | .patchPersistentVolume _ _, s, _, s' => ∃ pvs, s' = { s with pvs := pvs }
  | .setReplicas replicas, s, a, s' => Scales s replicas a s'
  | .listPods, s, a, s' => s' = s ∧ ∀ pods, a = .ok pods → pods = s.pods
  | .clearReady, s, a, s' => Writes s { s with ready := false } a s'
  | .markReady, s, a, s' => Writes s { s with ready := true } a s'
  | _, s, _, s' => s' = s

/-- One request: others come first, and it is logged. -/
def sem (r : Call) (s : World) (a : Except OpErr r.Answer) (s' : World) : Prop :=
  ∃ t u, Others s t ∧ Does r t a u ∧
    s' = { u with log := ⟨⟨r, a⟩, t.entries, u.entries, t.fenced⟩ :: s.log }

/-! ## What a request leaves -/

theorem Others.refl (s : World) : Others s s := ⟨.inl ⟨rfl, rfl⟩, rfl, id, rfl, rfl⟩

theorem fenced_iff : s.fenced = true ↔ s.replicas = 0 ∧ s.pods.filter isProvisionerPod = [] := by
  simp [fenced]

/-- A request adds one moment to the log. -/
theorem sem_log {r : Call} {a : Except OpErr r.Answer} (h : sem r s a s') :
    ∃ m, m.event = ⟨r, a⟩ ∧ s'.log = m :: s.log := by
  obtain ⟨t, u, -, -, rfl⟩ := h
  exact ⟨_, rfl, rfl⟩

/-- Only a scaling changes the replicas. -/
theorem does_replicas {r : Call} {a : Except OpErr r.Answer} (hr : ∀ n, r ≠ .setReplicas n) (h : Does r s a s') :
    s'.replicas = s.replicas ∧ s'.pods = s.pods := by
  have hwrites {written : World} {a : Except OpErr Unit} (hw : Writes s written a s')
      (hsame : written.replicas = s.replicas ∧ written.pods = s.pods) : s'.replicas = s.replicas ∧ s'.pods = s.pods := by
    rcases hw with ⟨-, rfl⟩ | ⟨-, -, rfl | rfl⟩
    · exact hsame
    · exact ⟨rfl, rfl⟩
    · exact hsame
  have hentries {version : Option String} {entries : Entries} {a : Except OpErr Unit}
      (hw : WritesEntries s version entries a s') : s'.replicas = s.replicas ∧ s'.pods = s.pods := by
    unfold WritesEntries at hw
    split at hw
    · exact hwrites hw ⟨rfl, rfl⟩
    · rw [hw.1]
      exact ⟨rfl, rfl⟩
  cases r with
  | setReplicas n => exact absurd rfl (hr n)
  | patchConfigMap patch version => exact hentries h
  | replaceConfigMap data version => exact hentries h
  | clearReady => exact hwrites h ⟨rfl, rfl⟩
  | markReady => exact hwrites h ⟨rfl, rfl⟩
  | readConfigMap => rw [h.1]; exact ⟨rfl, rfl⟩
  | listPersistentVolumes => rw [h.1]; exact ⟨rfl, rfl⟩
  | listPods => rw [h.1]; exact ⟨rfl, rfl⟩
  | patchPersistentVolume name policy => obtain ⟨pvs, rfl⟩ := h; exact ⟨rfl, rfl⟩
  | _ => rw [show s' = s from h]; exact ⟨rfl, rfl⟩

/-- Nothing but a scaling ends a fence. -/
theorem sem_fenced {r : Call} {a : Except OpErr r.Answer} (hr : ∀ n, r ≠ .setReplicas n) (h : sem r s a s')
    (hf : s.fenced = true) : s'.fenced = true := by
  obtain ⟨t, u, ho, hd, rfl⟩ := h
  obtain ⟨hrep, hpods⟩ := does_replicas hr hd
  have ht := fenced_iff.mp (ho.fenced hf)
  exact fenced_iff.mpr ⟨hrep.trans ht.1, by rw [show u.pods = t.pods from hpods]; exact ht.2⟩

theorem sem_replicas {r : Call} {a : Except OpErr r.Answer} (hr : ∀ n, r ≠ .setReplicas n) (h : sem r s a s') :
    s'.replicas = s.replicas := by
  obtain ⟨t, u, ho, hd, rfl⟩ := h
  exact (does_replicas hr hd).1.trans ho.replicas

/-! ## Reads of the ConfigMap -/

theorem version_injective {m n : Nat} (h : m.repr = n.repr) : m = n := by
  have hdigits := congrArg String.toList h
  rw [Nat.toList_repr, Nat.toList_repr] at hdigits
  rw [← Nat.ofDigitChars_ten_toDigits (n := m), hdigits, Nat.ofDigitChars_ten_toDigits]

/-- The ConfigMap was read as `config` at some earlier time; at its version it is still the same. -/
def ReadAt (config : ConfigMap) (s : World) : Prop :=
  ∃ n, config.resourceVersion = some n.repr ∧ n ≤ s.version ∧ (s.version = n → s.entries = config.data)

theorem does_version {r : Call} {a : Except OpErr r.Answer} (h : Does r s a s') :
    s'.version = s.version ∧ s'.entries = s.entries ∨ s.version < s'.version := by
  have hsame {written : World} {a : Except OpErr Unit} (hw : Writes s written a s')
      (hsame : written.version = s.version ∧ written.entries = s.entries ∨ s.version < written.version) :
      s'.version = s.version ∧ s'.entries = s.entries ∨ s.version < s'.version := by
    rcases hw with ⟨-, rfl⟩ | ⟨-, -, rfl | rfl⟩
    · exact hsame
    · exact .inl ⟨rfl, rfl⟩
    · exact hsame
  have hentries {version : Option String} {entries : Entries} {a : Except OpErr Unit}
      (hw : WritesEntries s version entries a s') :
      s'.version = s.version ∧ s'.entries = s.entries ∨ s.version < s'.version := by
    unfold WritesEntries at hw
    split at hw
    · exact hsame hw (.inr (Nat.lt_succ_self _))
    · rw [hw.1]
      exact .inl ⟨rfl, rfl⟩
  cases r with
  | setReplicas n => exact hsame h.1 (.inl ⟨rfl, rfl⟩)
  | patchConfigMap patch version => exact hentries h
  | replaceConfigMap data version => exact hentries h
  | clearReady => exact hsame h (.inl ⟨rfl, rfl⟩)
  | markReady => exact hsame h (.inl ⟨rfl, rfl⟩)
  | readConfigMap => rw [h.1]; exact .inl ⟨rfl, rfl⟩
  | listPersistentVolumes => rw [h.1]; exact .inl ⟨rfl, rfl⟩
  | listPods => rw [h.1]; exact .inl ⟨rfl, rfl⟩
  | patchPersistentVolume name policy => obtain ⟨pvs, rfl⟩ := h; exact .inl ⟨rfl, rfl⟩
  | _ => rw [show s' = s from h]; exact .inl ⟨rfl, rfl⟩

theorem ReadAt.later {config : ConfigMap} (h : ReadAt config s)
    (hv : t.version = s.version ∧ t.entries = s.entries ∨ s.version < t.version) : ReadAt config t := by
  obtain ⟨n, hn, hle, hsame⟩ := h
  rcases hv with ⟨hv, he⟩ | hlt
  · exact ⟨n, hn, hv ▸ hle, fun h => he.trans (hsame (hv ▸ h))⟩
  · exact ⟨n, hn, by omega, fun h => absurd h (by omega)⟩

theorem ReadAt.sem {config : ConfigMap} {r : Call} {a : Except OpErr r.Answer} (h : ReadAt config s)
    (hs : sem r s a s') : ReadAt config s' := by
  obtain ⟨t, u, ho, hd, rfl⟩ := hs
  have hv := does_version hd
  exact (h.later ho.entries).later hv

/-- A write that carries the version of a read finds what was read. -/
theorem ReadAt.found {config : ConfigMap} (h : ReadAt config s)
    (hv : config.resourceVersion.all (· = s.version.repr)) : s.entries = config.data := by
  obtain ⟨n, hn, -, hsame⟩ := h
  rw [hn] at hv
  exact hsame (version_injective (by simpa using hv)).symm

/-! ## What a request answers -/

/-- A read shows the records as they are. -/
theorem sem_read {a : Except OpErr ConfigMap} (h : sem .readConfigMap s a s') :
    ∃ m, m.event = ⟨.readConfigMap, a⟩ ∧ s'.log = m :: s.log ∧ m.after = m.before ∧
      ∀ config, a = .ok config → m.before = config.data ∧ ReadAt config s' := by
  obtain ⟨t, u, ho, ⟨rfl, hconfig⟩, rfl⟩ := h
  refine ⟨_, rfl, rfl, rfl, fun config hc => ?_⟩
  obtain ⟨hdata, hversion⟩ := hconfig config hc
  exact ⟨hdata.symm, u.version, hversion, le_refl _, fun _ => hdata.symm⟩

theorem WritesEntries.found {config : ConfigMap} {entries : Entries} {a : Except OpErr Unit} (hc : ReadAt config s)
    (h : WritesEntries s config.resourceVersion entries a s') :
    s'.entries = s.entries ∧ a ≠ .ok () ∨ s.entries = config.data ∧ s'.entries = entries := by
  unfold WritesEntries at h
  split at h
  · next hv =>
    rcases h with ⟨-, rfl⟩ | ⟨e, rfl, rfl | rfl⟩
    · exact .inr ⟨hc.found hv, rfl⟩
    · exact .inl ⟨rfl, nofun⟩
    · exact .inr ⟨hc.found hv, rfl⟩
  · obtain ⟨rfl, e, rfl⟩ := h
    exact .inl ⟨rfl, nofun⟩

/-- A patch that carries the version of a read changes what was read, if anything. -/
theorem sem_patch {config : ConfigMap} {patch : Patch} {a : Except OpErr Unit} (hc : ReadAt config s)
    (h : sem (.patchConfigMap patch config.resourceVersion) s a s') :
    ∃ m, m.event = ⟨.patchConfigMap patch config.resourceVersion, a⟩ ∧ s'.log = m :: s.log ∧
      (s.fenced = true → m.fenced = true) ∧
      (m.after = m.before ∧ a ≠ .ok () ∨ m.before = config.data ∧ m.after = patch.apply config.data) := by
  obtain ⟨t, u, ho, hd, rfl⟩ := h
  refine ⟨_, rfl, rfl, ho.fenced, ?_⟩
  rcases (WritesEntries.found (hc.later ho.entries) hd) with h | ⟨ht, hu⟩
  · exact .inl h
  · exact .inr ⟨ht, hu.trans (by rw [ht])⟩

theorem sem_replace {config : ConfigMap} {data : Entries} {a : Except OpErr Unit} (hc : ReadAt config s)
    (h : sem (.replaceConfigMap data config.resourceVersion) s a s') :
    ∃ m, m.event = ⟨.replaceConfigMap data config.resourceVersion, a⟩ ∧ s'.log = m :: s.log ∧
      (m.after = m.before ∧ a ≠ .ok () ∨ m.before = config.data ∧ m.after = data) := by
  obtain ⟨t, u, ho, hd, rfl⟩ := h
  exact ⟨_, rfl, rfl, WritesEntries.found (hc.later ho.entries) hd⟩

/-- Other requests leave the records alone. -/
def Quiet : Call → Prop
  | .patchConfigMap _ _ | .replaceConfigMap _ _ => False
  | _ => True

theorem sem_quiet {r : Call} {a : Except OpErr r.Answer} (hr : Quiet r) (h : sem r s a s') :
    ∃ m, m.event = ⟨r, a⟩ ∧ s'.log = m :: s.log ∧ m.after = m.before ∧ (s.fenced = true → m.fenced = true) := by
  obtain ⟨t, u, ho, hd, rfl⟩ := h
  refine ⟨_, rfl, rfl, ?_, ho.fenced⟩
  have hwrites {written : World} {a : Except OpErr Unit} (hw : Writes t written a u)
      (hsame : written.entries = t.entries) : u.entries = t.entries := by
    rcases hw with ⟨-, rfl⟩ | ⟨-, -, rfl | rfl⟩
    · exact hsame
    · rfl
    · exact hsame
  cases r with
  | setReplicas n => exact hwrites hd.1 rfl
  | patchConfigMap patch version => exact hr.elim
  | replaceConfigMap data version => exact hr.elim
  | clearReady => exact hwrites hd rfl
  | markReady => exact hwrites hd rfl
  | readConfigMap => rw [hd.1]
  | listPersistentVolumes => rw [hd.1]
  | listPods => rw [hd.1]
  | patchPersistentVolume name policy => obtain ⟨pvs, rfl⟩ := hd; rfl
  | _ => rw [show u = t from hd]

/-- A list of the pods shows them as they are. -/
theorem sem_pods {pods : List String} (h : sem .listPods s (.ok pods) s') : s'.pods = pods := by
  obtain ⟨t, u, -, ⟨rfl, hpods⟩, rfl⟩ := h
  exact (hpods pods rfl).symm

/-- A scaling to zero that succeeds, or that finds no StatefulSet. -/
theorem sem_scaled {a : Except OpErr Unit} (h : sem (.setReplicas 0) s a s')
    (ha : a = .ok () ∨ a = .error (.api (some 404))) : s'.replicas = 0 := by
  obtain ⟨t, u, -, ⟨hw, hnone⟩, rfl⟩ := h
  rcases ha with rfl | rfl
  · rcases hw with ⟨-, rfl⟩ | ⟨e, he, -⟩
    · rfl
    · cases he
  · exact hnone rfl

/-! ## A cluster without others -/

/-- What a request does when it succeeds and nobody interferes. -/
def respond : (r : Call) → World → Except OpErr r.Answer × World
  | .readConfigMap, s => (.ok { data := s.entries, resourceVersion := some s.version.repr }, s)
  | .patchConfigMap patch version, s =>
    if version.all (· = s.version.repr) then
      (.ok (), { s with entries := patch.apply s.entries, version := s.version + 1 })
    else (.error (.api (some 409)), s)
  | .listPersistentVolumes, s => (.ok s.pvs, s)
  | .setReplicas replicas, s => (.ok (), { s with replicas := replicas })
  | .listPods, s => (.ok s.pods, s)
  | .clearReady, s => (.ok (), { s with ready := false })
  | .markReady, s => (.ok (), { s with ready := true })
  | .deleteClass _ _ _, s => (.ok (), s)
  | .deleteServer _, s => (.ok (), s)
  | .deleteService _, s => (.ok (), s)
  | .replaceConfigMap _ _, s => (.error .other, s)
  | _, s => (.error .other, s)

/-- The same, logged. -/
def answer (r : Call) (s : World) : Except OpErr r.Answer × World :=
  ((respond r s).1, { (respond r s).2 with
    log := ⟨⟨r, (respond r s).1⟩, s.entries, (respond r s).2.entries, s.fenced⟩ :: s.log })

theorem respond_does (r : Call) (s : World) : Does r s (respond r s).1 (respond r s).2 := by
  cases r with
  | readConfigMap => exact ⟨rfl, fun _ h => by cases h; exact ⟨rfl, rfl⟩⟩
  | patchConfigMap patch version =>
    show WritesEntries s version _ _ _
    unfold WritesEntries
    by_cases hv : version.all (· = s.version.repr)
    · rw [if_pos hv, show respond (.patchConfigMap patch version) s = (.ok (), _) from if_pos hv]
      exact .inl ⟨rfl, rfl⟩
    · rw [if_neg hv, show respond (.patchConfigMap patch version) s = (.error _, s) from if_neg hv]
      exact ⟨rfl, _, rfl⟩
  | replaceConfigMap data version =>
    show WritesEntries s version _ _ _
    unfold WritesEntries
    split
    · exact .inr ⟨_, rfl, .inl rfl⟩
    · exact ⟨rfl, _, rfl⟩
  | listPersistentVolumes => exact ⟨rfl, fun _ h => by cases h; rfl⟩
  | patchPersistentVolume name policy => exact ⟨s.pvs, rfl⟩
  | setReplicas replicas => exact ⟨.inl ⟨rfl, rfl⟩, nofun⟩
  | listPods => exact ⟨rfl, fun _ h => by cases h; rfl⟩
  | clearReady => exact .inl ⟨rfl, rfl⟩
  | markReady => exact .inl ⟨rfl, rfl⟩
  | _ => rfl

theorem answer_sem (r : Call) (s : World) : sem r s (answer r s).1 (answer r s).2 :=
  ⟨s, (respond r s).2, .refl s, respond_does r s, rfl⟩

end World

end Kadalu.Operator
