import Kadalu.Operator.Runtime

/-!
# What is seen of the operator at work

Others see the replicas of the CSI provisioner that are asked for, and the readiness of the operator (`Surface`). While the
operator serves, both are set; a fence takes them away for a time.

* `calm`: what a request does, when no error that only starts the next pass comes under a fence.
* `Quiet`: programs that leave the surface as it is. `Low`: those that do so with the readiness alone, under a fence.
* `Safe`: programs that leave an operator that serves, or end the process. `Recovers`: those that do so from under a fence.
-/

namespace Kadalu.Runtime

open Calls Calls.Prog Operator Fingerprint Snapshot WatchCall

/-! ## What is seen of the operator -/

/-- The replicas of the CSI provisioner that are asked for, the readiness of the operator, and the clock. -/
structure Surface where
  replicas : Nat
  ready : Bool
  time : Int
  deriving DecidableEq, Repr

namespace Surface

variable {s t u : Surface}

/-- The provisioner is wanted, and the operator is ready. -/
def Serving (s : Surface) : Prop := s.replicas = 1 ∧ s.ready = true

instance (s : Surface) : Decidable s.Serving := inferInstanceAs (Decidable (_ ∧ _))

/-- The operator is not ready. -/
def Down (s : Surface) : Prop := s.ready = false

/-- Only time has passed. -/
structure Same (s t : Surface) : Prop where
  replicas : t.replicas = s.replicas
  ready : t.ready = s.ready

theorem Same.refl (s : Surface) : Same s s := ⟨rfl, rfl⟩

theorem Same.trans (h : Same s t) (h' : Same t u) : Same s u := ⟨h'.replicas.trans h.replicas, h'.ready.trans h.ready⟩

theorem Same.serving (h : Same s t) (hs : s.Serving) : t.Serving := ⟨h.replicas.trans hs.1, h.ready.trans hs.2⟩

theorem Same.down (h : Same s t) (hs : s.Down) : t.Down := h.ready.trans hs

theorem Down.not_serving (h : s.Down) : ¬s.Serving := fun hs => by
  rw [Serving, show s.ready = false from h] at hs
  exact absurd hs.2 (by decide)

end Surface

open Surface

/-- A write that is refused, or that happens with or without an answer. -/
def Writes (s written : Surface) (a : Except OpErr Unit) (s' : Surface) : Prop :=
  (a = .ok () ∧ s' = written) ∨ ∃ e, a = .error e ∧ (s' = s ∨ s' = written)

/-- The readiness is a file: its errors are not those of the API server. -/
def Marks (s written : Surface) (a : Except OpErr Unit) (s' : Surface) : Prop :=
  (a = .ok () ∧ s' = written) ∨ a = .error .other ∧ (s' = s ∨ s' = written)

/-- What a request does. -/
def Does : (r : WatchCall) → Surface → Except OpErr r.Answer → Surface → Prop
  | .pool (.setReplicas replicas), s, a, s' => Writes s { s with replicas := replicas } a s'
  | .pool .clearReady, s, a, s' => Marks s { s with ready := false } a s'
  | .pool .markReady, s, a, s' => Marks s { s with ready := true } a s'
  | .pool .monotonic, s, a, s' => s' = s ∧ ∀ now, a = .ok now → now = s.time
  | .deployCsiPods replicas _, s, a, s' => Writes s { s with replicas := replicas } a s'
  | _, s, _, s' => s' = s

/-- Time passes with every request. -/
def sem (r : WatchCall) (s : Surface) (a : Except OpErr r.Answer) (s' : Surface) : Prop :=
  ∃ u time, Does r s a u ∧ s.time ≤ time ∧ s' = { u with time := time }

/-- The retirement of a StorageClass may be put off, whatever its error is. -/
def Deferred : WatchCall → Prop
  | .pool (.deleteClass _ (some _) _) => True
  | _ => False

/-- What a request does when no error that only starts the next pass comes while the provisioner is fenced. -/
def calm (r : WatchCall) (s : Surface) (a : Except OpErr r.Answer) (s' : Surface) : Prop :=
  sem r s a s' ∧ (¬s.Serving → ¬Deferred r → ∀ e, a = .error e → restartsWatch e = false)

/-- The same of the requests of the pool handlers. -/
def poolCalm (c : Call) : Surface → Except OpErr c.Answer → Surface → Prop := calm (pool c)

/-! ## Programs that leave the surface as it is -/

section

variable {ρ : Type} {ans : ρ → Type} {α β : Type} {S : (r : ρ) → Surface → Except OpErr (ans r) → Surface → Prop}

/-- An error of this kind ends the process. -/
def Stops (r : Except OpErr α) : Prop := ∀ e, r = .error e → restartsWatch e = false

theorem stops_ok (a : α) : Stops (.ok a : Except OpErr α) := nofun

theorem stops_error {e : OpErr} (h : restartsWatch e = false) : Stops (.error e : Except OpErr α) := by
  rintro e' ⟨⟩
  exact h

theorem stops_runtime (msg : String) : Stops (.error (.runtime msg) : Except OpErr α) := stops_error rfl

theorem stops_bind {r : Except OpErr α} {g : α → Except OpErr β} (hr : Stops r) (hg : ∀ a, Stops (g a)) :
    Stops (r >>= g) := by
  cases r with
  | ok a => exact hg a
  | error e =>
    rintro e' ⟨⟩
    exact hr e rfl

theorem stops_ite {r r' : Except OpErr α} {c : Prop} {_ : Decidable c} (hr : Stops r) (hr' : Stops r') :
    Stops (if c then r else r') := by
  split
  · exact hr
  · exact hr'

/-- The program leaves the surface as it is, and while the operator is not ready its errors end the process. -/
def Quiet (S : (r : ρ) → Surface → Except OpErr (ans r) → Surface → Prop) (down : Prop) (p : Prog ρ ans OpErr α) : Prop :=
  ∀ s, (down → s.Down) → wp S (fun _ => True) (fun r t => Same s t ∧ (down → Stops r)) p s

variable {d : Prop} {p : Prog ρ ans OpErr α} {g : α → Prog ρ ans OpErr β}

theorem quiet_pure (a : α) : Quiet S d (pure a) := fun s _ => wp_pure ⟨.refl s, fun _ => stops_ok a⟩

theorem quiet_cut : Quiet S d (.cut : Prog ρ ans OpErr α) := fun _ _ => trivial

theorem quiet_throw {e : OpErr} (h : d → restartsWatch e = false) : Quiet S d (throw e : Prog ρ ans OpErr α) :=
  fun s _ => wp_throw ⟨.refl s, fun hd => stops_error (h hd)⟩

theorem quiet_ofExcept {r : Except OpErr α} (h : Stops r) : Quiet S d (Prog.ofExcept r) :=
  fun s _ => wp_ofExcept.mpr ⟨.refl s, fun _ => h⟩

theorem quiet_bind (hp : Quiet S d p) (hg : ∀ a, Quiet S d (g a)) : Quiet S d (p >>= g) := by
  intro s hs
  refine wp_bind (wp_mono ?_ (hp s hs))
  rintro r t ⟨hst, hr⟩
  cases r with
  | ok a =>
    refine wp_mono ?_ (hg a t fun hd => hst.down (hs hd))
    rintro r u ⟨htu, hr⟩
    exact ⟨hst.trans htu, hr⟩
  | error e => exact ⟨hst, fun hd => stops_error (hr hd e rfl)⟩

theorem quiet_tryCatch {h : OpErr → Prog ρ ans OpErr α} (hp : Quiet S d p)
    (hh : ∀ e, (d → restartsWatch e = false) → Quiet S d (h e)) : Quiet S d (tryCatch p h) := by
  intro s hs
  refine wp_tryCatch (wp_mono ?_ (hp s hs))
  rintro r t ⟨hst, hr⟩
  cases r with
  | ok a => exact ⟨hst, fun _ => stops_ok a⟩
  | error e =>
    refine wp_mono ?_ (hh e (fun hd => hr hd e rfl) t fun hd => hst.down (hs hd))
    rintro r u ⟨htu, hr⟩
    exact ⟨hst.trans htu, hr⟩

theorem quiet_ite {c : Prop} {_ : Decidable c} {p q : Prog ρ ans OpErr α} (hp : Quiet S d p) (hq : Quiet S d q) :
    Quiet S d (if c then p else q) := by
  split
  · exact hp
  · exact hq

theorem quiet_map (f : α → β) (hp : Quiet S d p) : Quiet S d (f <$> p) := quiet_bind hp fun a => quiet_pure (f a)

/-- What the results of the program satisfy. -/
def Gives (S : (r : ρ) → Surface → Except OpErr (ans r) → Surface → Prop) (P : α → Prop) (p : Prog ρ ans OpErr α) : Prop :=
  ∀ s, wp S (fun _ => True) (fun r _ => ∀ a, r = .ok a → P a) p s

theorem gives_pure {P : α → Prop} {a : α} (h : P a) : Gives S P (pure a) := fun _ => wp_pure fun b hb => by cases hb; exact h

theorem gives_throw {P : α → Prop} {e : OpErr} : Gives S P (throw e : Prog ρ ans OpErr α) := fun _ => wp_throw nofun

theorem gives_any (p : Prog ρ ans OpErr α) : Gives S (fun _ => True) p := by
  intro s
  induction p generalizing s with
  | ret a => exact fun _ _ => trivial
  | raise e => exact fun _ _ => trivial
  | cut => trivial
  | call r k ih => exact fun a s' _ => ⟨trivial, ih a s'⟩

theorem gives_bind {P : β → Prop} (hg : ∀ a, Gives S P (g a)) : Gives S P (p >>= g) := by
  refine fun s => wp_bind (wp_mono ?_ (gives_any p s))
  rintro r t -
  cases r with
  | ok a => exact hg a t
  | error e => exact nofun

theorem gives_ite {P : α → Prop} {c : Prop} {_ : Decidable c} {p q : Prog ρ ans OpErr α} (hp : c → Gives S P p)
    (hq : ¬c → Gives S P q) : Gives S P (if c then p else q) := by
  split
  · exact hp ‹_›
  · exact hq ‹_›

theorem quiet_bind_gives {P : α → Prop} (hp : Quiet S d p) (hP : Gives S P p) (hg : ∀ a, P a → Quiet S d (g a)) :
    Quiet S d (p >>= g) := by
  intro s hs
  refine wp_bind (wp_mono ?_ (wp_and (hp s hs) (hP s)))
  rintro r t ⟨⟨hst, hr⟩, hresult⟩
  cases r with
  | ok a =>
    refine wp_mono ?_ (hg a (hresult a rfl) t fun hd => hst.down (hs hd))
    rintro r u ⟨htu, hr⟩
    exact ⟨hst.trans htu, hr⟩
  | error e => exact ⟨hst, fun hd => stops_error (hr hd e rfl)⟩

theorem quiet_request {r : ρ} (h : ∀ s a s', S r s a s' → Same s s' ∧ (s.Down → Stops a)) :
    Quiet S d (request r : Prog ρ ans OpErr (ans r)) := fun s hs =>
  wp_request fun a s' hsem => ⟨trivial, (h s a s' hsem).1, fun hd => (h s a s' hsem).2 (hs hd)⟩

end

/-! ## Programs that come back to serving -/

section

variable {ρ : Type} {ans : ρ → Type} {α β : Type} {S : (r : ρ) → Surface → Except OpErr (ans r) → Surface → Prop}

/-- The operator serves, or else the process ends: by an error, or by a result that is a failure. -/
def Serves (F : α → Prop) (r : Except OpErr α) (t : Surface) : Prop := t.Serving ∨ Stops r ∧ ∀ a, r = .ok a → F a

/-- While it serves, the program leaves it so. -/
def Safe (S : (r : ρ) → Surface → Except OpErr (ans r) → Surface → Prop) (F : α → Prop) (p : Prog ρ ans OpErr α) : Prop :=
  ∀ s, s.Serving → wp S (fun _ => True) (Serves F) p s

/-- The program ends a fence. -/
def Recovers (S : (r : ρ) → Surface → Except OpErr (ans r) → Surface → Prop) (F : α → Prop) (p : Prog ρ ans OpErr α) :
    Prop :=
  ∀ s, s.Down → wp S (fun _ => True) (Serves F) p s

variable {F : α → Prop} {F' : β → Prop} {p : Prog ρ ans OpErr α} {g : α → Prog ρ ans OpErr β}

theorem serves_error {e : OpErr} {t : Surface} (h : restartsWatch e = false) : Serves F (.error e) t :=
  .inr ⟨stops_error h, nofun⟩

theorem serves_throw {e : OpErr} (h : restartsWatch e = false) (s : Surface) :
    wp S (fun _ => True) (Serves F) (throw e : Prog ρ ans OpErr α) s := wp_throw (serves_error h)

theorem serves_fails {a : α} (h : F a) (s : Surface) : wp S (fun _ => True) (Serves F) (pure a : Prog ρ ans OpErr α) s :=
  wp_pure (.inr ⟨stops_ok a, fun b hb => by cases hb; exact h⟩)

theorem safe_of_quiet (h : Quiet S False p) : Safe S F p :=
  fun s hs => wp_mono (fun _ _ ht => .inl (ht.1.serving hs)) (h s False.elim)

theorem safe_pure (a : α) : Safe S F (pure a) := safe_of_quiet (quiet_pure a)

theorem safe_ite {c : Prop} {_ : Decidable c} {p q : Prog ρ ans OpErr α} (hp : Safe S F p) (hq : Safe S F q) :
    Safe S F (if c then p else q) := by
  split
  · exact hp
  · exact hq

/-- After a failure the rest of the program fails, too. -/
theorem safe_bind (hp : Safe S F p) (hg : ∀ a, Safe S F' (g a))
    (hfail : ∀ a, F a → ∀ s, wp S (fun _ => True) (Serves F') (g a) s) : Safe S F' (p >>= g) := by
  intro s hs
  refine wp_bind (wp_mono ?_ (hp s hs))
  rintro r t (ht | ⟨hstops, hresult⟩)
  · cases r with
    | ok a => exact hg a t ht
    | error e => exact .inl ht
  · cases r with
    | ok a => exact hfail a (hresult a rfl) t
    | error e => exact serves_error (hstops e rfl)

theorem safe_quiet_bind (hp : Quiet S False p) (hg : ∀ a, Safe S F' (g a)) : Safe S F' (p >>= g) :=
  safe_bind (F := fun _ => False) (safe_of_quiet hp) hg fun _ => False.elim

/-- The program keeps the operator not ready, and its errors end the process. -/
def Low (S : (r : ρ) → Surface → Except OpErr (ans r) → Surface → Prop) (p : Prog ρ ans OpErr α) : Prop :=
  ∀ s, s.Down → wp S (fun _ => True) (fun r t => t.Down ∧ Stops r) p s

theorem low_of_quiet (h : Quiet S True p) : Low S p :=
  fun s hs => wp_mono (fun _ _ ht => ⟨ht.1.down hs, ht.2 trivial⟩) (h s fun _ => hs)

theorem low_bind (hp : Low S p) (hg : ∀ a, Low S (g a)) : Low S (p >>= g) := by
  refine fun s hs => wp_bind (wp_mono ?_ (hp s hs))
  rintro r t ⟨ht, hr⟩
  cases r with
  | ok a => exact hg a t ht
  | error e => exact ⟨ht, stops_error (hr e rfl)⟩

theorem low_tryCatch {h : OpErr → Prog ρ ans OpErr α} (hp : Low S p) (hh : ∀ e, restartsWatch e = false → Low S (h e)) :
    Low S (tryCatch p h) := by
  refine fun s hs => wp_tryCatch (wp_mono ?_ (hp s hs))
  rintro r t ⟨ht, hr⟩
  cases r with
  | ok a => exact ⟨ht, stops_ok a⟩
  | error e => exact hh e (hr e rfl) t ht

theorem recovers_bind (hp : Low S p) (hg : ∀ a, Recovers S F' (g a)) : Recovers S F' (p >>= g) := by
  intro s hs
  refine wp_bind (wp_mono ?_ (hp s hs))
  rintro r t ⟨ht, hr⟩
  cases r with
  | ok a => exact hg a t ht
  | error e => exact serves_error (hr e rfl)

theorem recovers_ite {c : Prop} {_ : Decidable c} {p q : Prog ρ ans OpErr α} (hp : Recovers S F p)
    (hq : Recovers S F q) : Recovers S F (if c then p else q) := by
  split
  · exact hp
  · exact hq

end

/-- The request has no part in the fence. -/
def Passive (r : WatchCall) : Prop := ¬Deferred r ∧ ∀ s a s', Does r s a s' → s' = s

theorem calm_passive {r : WatchCall} {s s' : Surface} {a : Except OpErr r.Answer} (hr : Passive r) (h : calm r s a s') :
    Same s s' ∧ (s.Down → Stops a) := by
  obtain ⟨⟨u, time, hdoes, -, rfl⟩, hcalm⟩ := h
  obtain rfl := hr.2 s a u hdoes
  exact ⟨⟨rfl, rfl⟩, fun hd => hcalm hd.not_serving hr.1⟩

variable {d : Prop} {α : Type}

theorem quiet_ask {r : WatchCall} (hr : Passive r) : Quiet calm d (ask r) := quiet_request fun _ _ _ => calm_passive hr

/-- The requests with which the handlers set and end a fence. -/
def Fences : Call → Prop
  | .setReplicas _ | .clearReady | .markReady => True
  | _ => False

theorem quiet_call {c : Call} (hc : ¬Fences c) (hd : ¬Deferred (pool c)) : Quiet poolCalm d (request c) := by
  refine quiet_request fun s a s' => calm_passive ⟨hd, ?_⟩
  rintro s a s' h
  cases c with
  | setReplicas n => exact absurd trivial hc
  | clearReady => exact absurd trivial hc
  | markReady => exact absurd trivial hc
  | monotonic => exact h.1
  | _ => exact h

/-- A program of the pool handlers does the same in the operator. -/
theorem wp_onPool {p : PoolHandler α} {Q : Except OpErr α → Surface → Prop} {s : Surface}
    (h : wp poolCalm (fun _ => True) Q p s) : wp calm (fun _ => True) Q (onPool p) s :=
  wp_expand (f := fun c => ask (pool c)) (fun _ _ => wp_request fun _ _ hs => ⟨trivial, hs⟩) h

theorem quiet_onPool {p : PoolHandler α} (h : Quiet poolCalm d p) : Quiet calm d (onPool p) := fun s hs => wp_onPool (h s hs)

end Kadalu.Runtime
