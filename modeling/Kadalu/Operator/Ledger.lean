import Kadalu.Calls.Asks
import Kadalu.Operator.Migration
import Kadalu.Operator.MissingRecord
import Kadalu.Operator.World

/-!
# The records over time

The `Ledger` is the ConfigMap of the records together with its earlier contents. Nobody but the operator writes it, and every
write may fail, with or without an effect. The records are `Kept` if every reader accepts them, and if each content of the
ConfigMap was made of the one before by what may happen to a record (`Succeeds`).

* `Keeps`: programs that keep the records, wherever their run is cut.
* `wp_still`: programs that write nothing.
-/

namespace Kadalu.Runtime

open Calls Calls.Prog Operator WatchCall

/-- The contents of the ConfigMap, and the earlier ones, the newest first. -/
structure Ledger where
  entries : Entries
  past : List Entries := []

namespace Ledger

def written (s : Ledger) (entries : Entries) : Ledger := ⟨entries, s.entries :: s.past⟩

@[simp] theorem entries_written (s : Ledger) (entries : Entries) : (s.written entries).entries = entries := rfl

/-- A write that is refused, or that happens with or without an answer. -/
def Writes (s : Ledger) (entries : Entries) (a : Except OpErr Unit) (s' : Ledger) : Prop :=
  (a = .ok () ∧ s' = s.written entries) ∨ ∃ e, a = .error e ∧ (s' = s ∨ s' = s.written entries)

/-- What a request of the pool handlers does. -/
def poolRecords : (c : Call) → Ledger → Except OpErr c.Answer → Ledger → Prop
  | .readConfigMap, s, a, s' => s' = s ∧ ∀ config, a = .ok config → config.data = s.entries
  | .patchConfigMap patch _, s, a, s' => s.Writes (patch.apply s.entries) a s'
  | .replaceConfigMap data _, s, a, s' => s.Writes data a s'
  | .newUuid, s, a, s' => s' = s ∧ ∀ uuid, a = .ok uuid → isCanonicalUuid uuid = true
  | _, s, _, s' => s' = s

/-- What a request of `migrateLegacySinglePvClaims` does. -/
def migrationRecords : (r : WatchCall) → Ledger → Except OpErr r.Answer → Ledger → Prop
  | .pool c, s, a, s' => poolRecords c s a s'
  | _, s, _, s' => s' = s

variable [ConfigHash]

/-- What a request does. The migration may be cut anywhere; a missing identity is recovered from what is left of its pool. -/
def records : (r : WatchCall) → Ledger → Except OpErr r.Answer → Ledger → Prop
  | .pool c, s, a, s' => poolRecords c s a s'
  | .migrateClaims, s, _, s' => ∃ p, Exec migrationRecords migrateLegacySinglePvClaims s p s'
  | .recoverIdentity obj, s, a, s' => s' = s ∧ ∀ id, a = .ok id → ∃ NAMESPACE evidence uuid4,
      isCanonicalUuid uuid4 = true ∧ MissingRecord.recoverMissingPoolIdentity NAMESPACE obj evidence uuid4 = .ok id
  | _, s, _, s' => s' = s

/-- Every reader accepts the records, and only what may happen to them has happened. -/
structure Kept (s : Ledger) : Prop where
  sound : ∀ volname data, s.entries.lookup volname = some (.record data) → Sound volname data
  chain : (s.entries :: s.past).IsChain fun new old => Succeeds old new

end Ledger

open Ledger

section

variable [ConfigHash] {s s' : Ledger} {entries : Entries}

/-! ## Writes -/

/-- One entry is changed. -/
theorem Ledger.Kept.update (hs : s.Kept) (volname : String) (entry : Option Serialized)
    (hlookup : ∀ w, entries.lookup w = if w = volname then entry else s.entries.lookup w)
    (hchange : Change (s.entries.lookup volname) entry) (hsound : ∀ data, entry = some (.record data) → Sound volname data) :
    (s.written entries).Kept := by
  refine ⟨fun w data hw => ?_, List.isChain_cons_cons.mpr ⟨fun w => ?_, hs.chain⟩⟩
  · rw [entries_written, hlookup] at hw
    split at hw
    · next h => exact h ▸ hsound data hw
    · exact hs.sound w data hw
  · rw [entries_written, hlookup]
    split
    · next h => exact h ▸ hchange
    · exact .same _

theorem Ledger.Kept.writes {a : Except OpErr Unit} (hs : s.Kept) (hw : (s.written entries).Kept) (h : s.Writes entries a s') :
    s'.Kept := by
  rcases h with ⟨-, rfl⟩ | ⟨e, -, rfl | rfl⟩
  · exact hw
  · exact hs
  · exact hw

end

/-! ## Programs that keep the records -/

section

variable [ConfigHash] {ρ : Type} {ans : ρ → Type} {α β : Type} {S : (r : ρ) → Ledger → Except OpErr (ans r) → Ledger → Prop}
  {p : Prog ρ ans OpErr α} {s : Ledger}

/-- The records are kept after every request, and in the end. -/
def Keeps (S : (r : ρ) → Ledger → Except OpErr (ans r) → Ledger → Prop) (p : Prog ρ ans OpErr α) : Prop :=
  ∀ s, s.Kept → wp S Kept (fun _ t => t.Kept) p s

theorem keeps_pure (a : α) : Keeps S (pure a) := fun _ hs => wp_pure hs

theorem keeps_cut : Keeps S (.cut : Prog ρ ans OpErr α) := fun _ _ => trivial

theorem keeps_throw (e : OpErr) : Keeps S (throw e : Prog ρ ans OpErr α) := fun _ hs => wp_throw hs

theorem keeps_andThen {g : Except OpErr α → Prog ρ ans OpErr β} (hp : Keeps S p) (hg : ∀ r, Keeps S (g r)) :
    Keeps S (p.andThen g) := fun s hs => wp_andThen.mpr (wp_mono (fun r t ht => hg r t ht) (hp s hs))

theorem keeps_bind {g : α → Prog ρ ans OpErr β} (hp : Keeps S p) (hg : ∀ a, Keeps S (g a)) : Keeps S (p >>= g) := by
  refine keeps_andThen hp fun r => ?_
  cases r with
  | ok a => exact hg a
  | error e => exact keeps_throw e

/-- The rest of a program may rely on what its first part is known to result in. -/
theorem keeps_bind_of {g : α → Prog ρ ans OpErr β} {F : α → Prop} (hp : Keeps S p)
    (hF : Asks (fun _ => True) (fun r => ∀ a, r = .ok a → F a) p) (hg : ∀ a, F a → Keeps S (g a)) : Keeps S (p >>= g) := by
  refine fun s hs => wp_bind (wp_mono ?_ (hF.wp_and (hp s hs)))
  rintro r t ⟨ht, hr⟩
  cases r with
  | ok a => exact hg a (hr a rfl) t ht
  | error e => exact ht

theorem keeps_tryCatch {h : OpErr → Prog ρ ans OpErr α} (hp : Keeps S p) (hh : ∀ e, Keeps S (h e)) :
    Keeps S (tryCatch p h) := by
  refine keeps_andThen hp fun r => ?_
  cases r with
  | ok a => exact keeps_pure a
  | error e => exact hh e

theorem keeps_ite {c : Prop} {_ : Decidable c} {p q : Prog ρ ans OpErr α} (hp : c → Keeps S p) (hq : ¬c → Keeps S q) :
    Keeps S (if c then p else q) := fun s hs => wp_ite (fun h => hp h s hs) fun h => hq h s hs

theorem keeps_finally {last : Prog ρ ans OpErr Unit} (hp : Keeps S p) (hl : Keeps S last) : Keeps S (p.finally' last) := by
  refine keeps_andThen hp fun r => keeps_andThen hl fun r' => ?_
  cases r' with
  | ok a => exact fun s hs => wp_ofExcept.mpr hs
  | error e => exact keeps_throw e

/-- Whatever a program does with requests that keep the records, it keeps them. -/
theorem keeps_expand {ρ' : Type} {ans' : ρ' → Type} {f : (r : ρ') → Prog ρ ans OpErr (ans' r)} (hf : ∀ r, Keeps S (f r))
    (p : Prog ρ' ans' OpErr α) : Keeps S (p.expand f) := by
  induction p with
  | ret a => exact keeps_pure a
  | raise e => exact keeps_throw e
  | cut => exact keeps_cut
  | call r k ih => exact keeps_andThen (hf r) ih

/-- A program keeps the records if its requests leave them as they are. -/
theorem wp_still {P : ρ → Prop} {Q : Except OpErr α → Prop} (hP : ∀ r, P r → ∀ s a s', S r s a s' → s' = s) (h : Asks P Q p)
    (hs : s.Kept) : wp S Kept (fun r t => t = s ∧ Q r) p s := by
  refine h.wp (fun r hr t a t' ht hsem => ?_) rfl
  obtain rfl := ht
  obtain rfl := hP r hr t a t' hsem
  exact ⟨hs, rfl⟩

end

/-! ## Requests -/

section

variable {α β : Type} {s s' : Ledger}

theorem poolRecords_quiet {c : Call} {a : Except OpErr c.Answer} (hc : World.Quiet c) (h : poolRecords c s a s') : s' = s := by
  cases c with
  | patchConfigMap patch version => exact hc.elim
  | replaceConfigMap data version => exact hc.elim
  | readConfigMap => exact h.1
  | newUuid => exact h.1
  | _ => exact h

/-- The request changes nothing of a pool: neither its record, nor its volumes, its StorageClass and its servers. -/
def Spares : Call → Prop
  | .patchConfigMap _ _ | .replaceConfigMap _ _ | .patchPersistentVolume _ _ | .reconcileClass _ _ | .deleteClass _ _ _
  | .deleteServer _ | .deleteService _ => False
  | _ => True

theorem quiet_of_spares {Q : Except OpErr α → Prop} {p : PoolHandler α} (h : Asks Spares Q p) : Asks World.Quiet Q p := by
  refine h.imp fun c hc => ?_
  cases c with
  | patchConfigMap patch version => exact hc.elim
  | replaceConfigMap data version => exact hc.elim
  | _ => trivial

/-- The request writes nothing. -/
def Readonly : WatchCall → Prop
  | .pool c => World.Quiet c
  | .migrateClaims => False
  | _ => True

variable [ConfigHash]

theorem records_readonly {r : WatchCall} {a : Except OpErr r.Answer} (hr : Readonly r) (h : records r s a s') : s' = s := by
  cases r with
  | pool c => exact poolRecords_quiet hr h
  | migrateClaims => exact hr.elim
  | recoverIdentity obj => exact h.1
  | _ => exact h

theorem wp_quiet {p : PoolHandler α} {Q : Except OpErr α → Prop} (h : Asks World.Quiet Q p) (hs : s.Kept) :
    wp poolRecords Kept (fun r t => t = s ∧ Q r) p s := wp_still (fun _ hr _ _ _ => poolRecords_quiet hr) h hs

theorem wp_readonly {p : WatchProg α} {Q : Except OpErr α → Prop} (h : Asks Readonly Q p) (hs : s.Kept) :
    wp records Kept (fun r t => t = s ∧ Q r) p s := wp_still (fun _ hr _ _ _ => records_readonly hr) h hs

theorem keeps_quiet {p : PoolHandler α} (h : Only World.Quiet p) : Keeps poolRecords p := by
  refine fun s hs => wp_mono ?_ (wp_quiet h hs)
  rintro r t ⟨rfl, -⟩
  exact hs

theorem keeps_readonly {p : WatchProg α} (h : Only Readonly p) : Keeps records p := by
  refine fun s hs => wp_mono ?_ (wp_readonly h hs)
  rintro r t ⟨rfl, -⟩
  exact hs

/-- After a part that writes nothing the rest starts from the same records. -/
theorem wp_quiet_bind {p : PoolHandler α} {g : α → PoolHandler β} {Q : Except OpErr β → Ledger → Prop} {R : α → Prop}
    (h : Asks World.Quiet (fun r => ∀ a, r = .ok a → R a) p) (hs : s.Kept) (he : ∀ e, Q (.error e) s)
    (hg : ∀ a, R a → wp poolRecords Kept Q (g a) s) : wp poolRecords Kept Q (p >>= g) s := by
  refine wp_bind (wp_mono ?_ (wp_quiet h hs))
  rintro r t ⟨rfl, hr⟩
  cases r with
  | ok a => exact hg a (hr a rfl)
  | error e => exact he e

theorem wp_readonly_bind {p : WatchProg α} {g : α → WatchProg β} {Q : Except OpErr β → Ledger → Prop} {R : α → Prop}
    (h : Asks Readonly (fun r => ∀ a, r = .ok a → R a) p) (hs : s.Kept) (he : ∀ e, Q (.error e) s)
    (hg : ∀ a, R a → wp records Kept Q (g a) s) : wp records Kept Q (p >>= g) s := by
  refine wp_bind (wp_mono ?_ (wp_readonly h hs))
  rintro r t ⟨rfl, hr⟩
  cases r with
  | ok a => exact hg a (hr a rfl)
  | error e => exact he e

/-- A read shows the records as they are. -/
theorem wp_readConfig {g : ConfigMap → PoolHandler β} {Q : Except OpErr β → Ledger → Prop} (hs : s.Kept)
    (he : ∀ e, Q (.error e) s) (hg : ∀ config, config.data = s.entries → wp poolRecords Kept Q (g config) s) :
    wp poolRecords Kept Q (Call.readConfig >>= g) s := by
  refine wp_bind (wp_request ?_)
  rintro a t ⟨rfl, ha⟩
  refine ⟨hs, ?_⟩
  cases a with
  | ok config => exact hg config (ha config rfl)
  | error e => exact he e

/-- A write that keeps the records, if it happens. -/
theorem wp_patch {patch : Patch} {version : Option String} {Q : Except OpErr Unit → Ledger → Prop} (hs : s.Kept)
    (hw : (s.written (patch.apply s.entries)).Kept) (hQ : ∀ a s', s'.Kept → Q a s') :
    wp poolRecords Kept Q (Call.patchConfig patch version) s := by
  refine wp_request fun a s' h => ?_
  have hs' := hs.writes hw h
  exact ⟨hs', hQ a s' hs'⟩

theorem wp_replace {data : Entries} {version : Option String} {Q : Except OpErr Unit → Ledger → Prop} (hs : s.Kept)
    (hw : (s.written data).Kept) (hQ : ∀ a s', s'.Kept → Q a s') :
    wp poolRecords Kept Q (Call.replaceConfig data version) s := by
  refine wp_request fun a s' h => ?_
  have hs' := hs.writes hw h
  exact ⟨hs', hQ a s' hs'⟩

/-- A program of the pool handlers, among other requests. -/
theorem wp_onPool_kept {S : (r : WatchCall) → Ledger → Except OpErr r.Answer → Ledger → Prop}
    (hS : ∀ c s a s', S (pool c) s a s' → poolRecords c s a s') {p : PoolHandler α} {Q : Except OpErr α → Ledger → Prop}
    (h : wp poolRecords Kept Q p s) : wp S Kept Q (onPool p) s := by
  refine wp_expand_of (f := fun c => ask (pool c)) (fun c _ hC => wp_request fun a s' hs => ?_) h
  exact ⟨hC a s' (hS c _ a s' hs), hS c _ a s' hs⟩

theorem keeps_onPool {p : PoolHandler α} (h : Keeps poolRecords p) : Keeps records (onPool p) := fun s hs =>
  wp_onPool_kept (fun _ _ _ _ h => h) (h s hs)

omit [ConfigHash] in
theorem only_onPool {p : PoolHandler α} (h : Only World.Quiet p) : Only Readonly (onPool p) :=
  asks_expand (f := fun c => ask (pool c)) (fun _ hc => only_request hc) h

end

end Kadalu.Runtime
