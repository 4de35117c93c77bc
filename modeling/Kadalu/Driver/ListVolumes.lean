import Mathlib.Data.List.Count
import Mathlib.Data.Set.Insert
import Mathlib.Logic.Function.Basic
import Mathlib.Logic.Relation

/-!
# Listing volumes in pages

`ListVolumes` keeps one generator for all its clients: a request without a token makes a new one, any other request
continues the one that is there. Every request advances the generator, sends it its token, and then reads the list that the
generator has given and goes on to use; the threads of other requests may do so in between. The generator walks over the pools
while it is asked, so that every part of the walk may find another state of the pools.

* `Pulls`, `Collects`, `Resume`: the next volume, the next page, and the generator as it is advanced or sent a token.
* `Step`: a step of the request of some client.
* `page_counts`: what is in a page, what is held back and what is still to be visited add up.
* `listing_complete`: a listing that ends is complete if nobody else has created or resumed its generator in between.
* `listing_mixed`: two clients that take turns, or whose requests overlap, miss volumes.
-/

namespace Kadalu.ListVolumes

/-! ## The walk -/

/-- What the walk finds at a path below `info`: a directory with something in it, the metadata of a volume or of none that
is listed, or something else. -/
inductive Node where
  | dir (children : List String)
  | metadata (volume : Option String)
  | other
  deriving DecidableEq, Repr

/-- The pools as the walk finds them. -/
structure Store where
  /-- `get_pv_hosting_volumes` -/
  hostvols : List String
  /-- whether the pool can be mounted -/
  mounted : String → Bool
  singlePvPerPool : String → Bool
  /-- the volume of a dedicated pool, if it is active -/
  claim : String → Option String
  /-- what is at a path below the `info` directory of a pool -/
  node : String → List String → Option Node

/-- A pool, or a path below its `info` directory, that the walk has still to visit. -/
inductive Place where
  | pool (hvol : String)
  | path (hvol : String) (p : List String)
  deriving DecidableEq, Repr

def isJson (p : List String) : Bool := p.getLast?.any fun name => ['n', 'o', 's', 'j'].isPrefixOf name.toList.reverse

def childrenOf (hvol : String) (p children : List String) : List Place :=
  children.map fun child => .path hvol (p ++ [child])

/-- One step of `yield_pvc_from_hostvol` and `yield_pvc_from_mntdir`: the volume that is yielded, if one is, and what is to
be visited next. Metadata that has vanished or cannot be read is an error. -/
def visit (st : Store) : Place → Except Unit (Option String × List Place)
  | .pool hvol =>
    if !st.mounted hvol then .ok (none, [])
    else if st.singlePvPerPool hvol then .ok (st.claim hvol, [])
    else match st.node hvol [] with
      | some (.dir children) => .ok (none, childrenOf hvol [] children)
      | _ => .ok (none, [])
  | .path hvol p => match st.node hvol p with
    | some (.dir children) => .ok (none, childrenOf hvol p children)
    | some (.metadata volume) => if isJson p then .ok (volume, []) else .ok (none, [])
    | _ => if isJson p then .error () else .ok (none, [])

/-- The next volume of the walk, which may find any of the states `S` of the pools at each of its steps. -/
inductive Pulls (S : Set Store) : List Place → Except Unit (Option String) → List Place → Prop
  | done : Pulls S [] (.ok none) []
  | skip {st x xs rest r rest'} (hst : st ∈ S) (hv : visit st x = .ok (none, xs)) (h : Pulls S (xs ++ rest) r rest') :
    Pulls S (x :: rest) r rest'
  | found {st x v xs rest} (hst : st ∈ S) (hv : visit st x = .ok (some v, xs)) :
    Pulls S (x :: rest) (.ok (some v)) (xs ++ rest)
  | fail {st x rest} (hst : st ∈ S) (hv : visit st x = .error ()) : Pulls S (x :: rest) (.error ()) []

/-! ## Pages -/

/-- `wrap_pvc` is one volume ahead, to know the last one. -/
inductive Wrap where
  | more (prev : String) (pending : List Place)
  | ended
  deriving DecidableEq

/-- A page with the index of its last volume. -/
structure Page where
  pvcs : List String
  idx : Int
  wrap : Wrap
  deriving DecidableEq

/-- The loop of `yield_list_of_pvcs` up to its next page; without one it leaves what it has collected. -/
inductive Collects (S : Set Store) (maxEntries : Nat) : List String → Int → Wrap → Except (List String) Page → Prop
  | ended {pvcs idx} : Collects S maxEntries pvcs idx .ended (.error pvcs)
  | fail {pvcs idx prev pending rest} (h : Pulls S pending (.error ()) rest) :
    Collects S maxEntries pvcs idx (.more prev pending) (.error pvcs)
  | last {pvcs idx prev pending rest} (h : Pulls S pending (.ok none) rest) :
    Collects S maxEntries pvcs idx (.more prev pending) (.ok ⟨pvcs ++ [prev], idx + 1, .ended⟩)
  | full {pvcs idx prev pending v rest} (h : Pulls S pending (.ok (some v)) rest)
    (hlen : (pvcs ++ [prev]).length = maxEntries) :
    Collects S maxEntries pvcs idx (.more prev pending) (.ok ⟨pvcs ++ [prev], idx + 1, .more v rest⟩)
  | more {pvcs idx prev pending v rest page} (h : Pulls S pending (.ok (some v)) rest)
    (hlen : (pvcs ++ [prev]).length ≠ maxEntries) (hc : Collects S maxEntries (pvcs ++ [prev]) (idx + 1) (.more v rest) page) :
    Collects S maxEntries pvcs idx (.more prev pending) page

/-- The token of a page, none after the last volume. -/
def Page.token (page : Page) : Option Int := if page.wrap = .ended then none else some page.idx

/-- The check of the token that is sent for a page. -/
def Page.refuses (page : Page) (maxEntries : Nat) (token : Int) : Bool :=
  token ≠ 0 && page.wrap ≠ .ended && token ≠ page.idx - maxEntries

/-! ## The generator -/

/-- The generator of `yield_list_of_pvcs`: made, at `next_token = yield` with a page, at `yield pvcs, token`, or ended. -/
inductive Gen where
  | fresh (maxEntries : Nat)
  | waiting (maxEntries : Nat) (page : Page)
  | given (maxEntries : Nat) (page : Page)
  | finished (pvcs : List String)
  deriving DecidableEq

/-- The list `pvcs`, which the generator clears and fills again after it has given it. -/
def Gen.pvcs : Gen → List String
  | fresh _ => []
  | waiting _ page | given _ page => page.pvcs
  | finished pvcs => pvcs

/-- What a resumed generator comes to: it waits for a token, gives a page with its token, or ends or raises. -/
inductive Result where
  | ready
  | page (token : Option Int)
  | failed
  deriving DecidableEq, Repr

/-- `next(GEN)`, or `GEN.send(token)`. -/
inductive Resume (S : Set Store) : Gen → Option Int → Result → Gen → Prop
  | empty {m st rest} (hst : st ∈ S) (h : Pulls S (st.hostvols.map .pool) (.ok none) rest) :
    Resume S (.fresh m) none .failed (.finished [])
  | broken {m st rest} (hst : st ∈ S) (h : Pulls S (st.hostvols.map .pool) (.error ()) rest) :
    Resume S (.fresh m) none .failed (.finished [])
  | noPage {m st v rest pvcs} (hst : st ∈ S) (h : Pulls S (st.hostvols.map .pool) (.ok (some v)) rest)
    (hc : Collects S m [] (-1) (.more v rest) (.error pvcs)) : Resume S (.fresh m) none .failed (.finished pvcs)
  | first {m st v rest page} (hst : st ∈ S) (h : Pulls S (st.hostvols.map .pool) (.ok (some v)) rest)
    (hc : Collects S m [] (-1) (.more v rest) (.ok page)) : Resume S (.fresh m) none .ready (.waiting m page)
  /-- a generator that has not begun takes no value -/
  | unstarted {m t} : Resume S (.fresh m) (some t) .failed (.fresh m)
  | refused {m page t} (ht : page.refuses m t = true) : Resume S (.waiting m page) (some t) .failed (.finished page.pvcs)
  /-- nothing is checked when it is advanced without a token -/
  | gives {m page sent} (ht : ∀ t, sent = some t → page.refuses m t = false) :
    Resume S (.waiting m page) sent (.page page.token) (.given m page)
  | collects {m page sent page'} (hc : Collects S m [] page.idx page.wrap (.ok page')) :
    Resume S (.given m page) sent .ready (.waiting m page')
  | noMore {m page sent pvcs} (hc : Collects S m [] page.idx page.wrap (.error pvcs)) :
    Resume S (.given m page) sent .failed (.finished pvcs)
  | finished {pvcs sent} : Resume S (.finished pvcs) sent .failed (.finished pvcs)

/-! ## Requests -/

/-- The default of `LIMIT` -/
def LIMIT : Nat := 30

/-- `max_entries` of a first request -/
def pageSize (maxEntries : Nat) : Nat := if maxEntries = 0 then LIMIT else maxEntries

/-- The listing of a client, and its request: before `next(GEN)`, before `GEN.send`, or with a page of the generator of this number. -/
inductive Status where
  | idle
  | entered (token : Int)
  | advanced (token : Int)
  | answered (gen : Nat) (token : Option Int)
  | open (token : Int)
  | complete
  deriving DecidableEq, Repr

/-- No request of the client is being served. -/
def Status.atRest : Status → Bool
  | idle | .open _ | complete => true
  | _ => false

/-- What a client has received since its listing began, and the states of the pools that this found. -/
structure Session where
  received : List String := []
  status : Status := .idle
  seen : Set Store := ∅

/-- The entries of a page. -/
def Session.receive (s : Session) (pvcs : List String) (token : Option Int) : Session :=
  { s with received := s.received ++ pvcs, status := token.elim .complete .open }

/-- The request goes on after a part of the walk, or ends with an error status in it. -/
def Session.proceed (s : Session) (S : Set Store) (status : Status) : Session := { s with status, seen := s.seen ∪ S }

/-- The controller process and its clients: the generators in the order in which they were made, `GEN` as the last one, each with
the client whose request made or resumed it last. -/
structure World (C : Type) where
  gens : List (C × Gen) := []
  clients : C → Session := fun _ => {}

variable {C : Type} [DecidableEq C]

def World.set (w : World C) (c : C) (s : Session) : World C := { w with clients := Function.update w.clients c s }

/-- `GEN` has been resumed. -/
def World.resume (w : World C) (c : C) (g : Gen) : World C := { w with gens := w.gens.dropLast ++ [(c, g)] }

/-- The steps of a request. -/
inductive Act where
  | enter
  | next
  | send
  | read (gen : Nat)
  | raise
  deriving DecidableEq, Repr

/-- After `next(GEN)` -/
def Result.afterNext (token : Int) : Result → Status
  | .failed => .idle
  | _ => .advanced token

/-- After `GEN.send`; what is not a page cannot be unpacked. -/
def Result.afterSend (gen : Nat) : Result → Status
  | .page token => .answered gen token
  | _ => .idle

/-- A step of the request of a client, `ListVolumes`. -/
inductive Step (w : World C) : C → Act → World C → Prop
  | start (c : C) (m : Nat) (hrest : (w.clients c).status.atRest = true) :
    Step w c .enter (World.set ⟨w.gens ++ [(c, .fresh (pageSize m))], w.clients⟩ c { status := .entered 0 })
  | follow (c : C) (token : Int) (hopen : (w.clients c).status = .open token) :
    Step w c .enter (w.set c { w.clients c with status := .entered token })
  | next (c d : C) (token : Int) (g g' : Gen) (S : Set Store) (r : Result) (hs : (w.clients c).status = .entered token)
    (hgen : w.gens.getLast? = some (d, g)) (h : Resume S g none r g') :
    Step w c .next ((w.resume c g').set c ((w.clients c).proceed S (r.afterNext token)))
  | send (c d : C) (token : Int) (g g' : Gen) (S : Set Store) (r : Result) (hs : (w.clients c).status = .advanced token)
    (hgen : w.gens.getLast? = some (d, g)) (h : Resume S g (some token) r g') :
    Step w c .send ((w.resume c g').set c ((w.clients c).proceed S (r.afterSend (w.gens.length - 1))))
  | read (c d : C) (i : Nat) (token : Option Int) (g : Gen) (hs : (w.clients c).status = .answered i token)
    (hgen : w.gens[i]? = some (d, g)) : Step w c (.read i) (w.set c ((w.clients c).receive g.pvcs token))
  /-- no pool yet, no generator yet, or one that another thread is executing -/
  | raise (c : C) : Step w c .raise (w.set c { w.clients c with status := .idle })

/-- Some step of some client. -/
def AnyStep (w w' : World C) : Prop := ∃ d act, Step w d act w'

/-- The generator of the step is one that `c` has made or resumed last. -/
def Owns (w : World C) (c : C) : Act → Prop
  | .next | .send => ∃ g, w.gens.getLast? = some (c, g)
  | .read i => ∃ g, w.gens[i]? = some (c, g)
  | _ => True

/-- A step of another client, or one of `c` on a generator that nobody else has made or resumed since its own last step on it. -/
def OwnStep (c : C) (w w' : World C) : Prop := ∃ d act, Step w d act w' ∧ (d = c → Owns w c act)

/-! ## Volumes -/

/-- The volume is where the walk finds it, and nowhere else: in a pool that can be mounted, as its claim or in a metadata
file whose directories list each name once. -/
structure Present (v : String) (x : Place) (st : Store) : Prop where
  only : ∀ y xs, visit st y = .ok (some v, xs) → y = x
  place : match x with
    | .pool h => st.hostvols.count h = 1 ∧ st.mounted h = true ∧ st.singlePvPerPool h = true ∧ st.claim h = some v
    | .path h p => p ≠ [] ∧ isJson p = true ∧ st.hostvols.count h = 1 ∧ st.mounted h = true ∧ st.singlePvPerPool h = false ∧
        st.node h p = some (.metadata (some v)) ∧
        ∀ q name tail, p = q ++ name :: tail → ∃ children, st.node h q = some (.dir children) ∧ children.count name = 1

/-- Whether the walk comes from `y` to `x`. -/
def leads : Place → Place → Bool
  | .pool h, .pool h' => h = h'
  | .pool h, .path h' _ => h = h'
  | .path h q, .path h' p => h = h' && q.isPrefixOf p
  | .path _ _, .pool _ => false

variable {S : Set Store} {st : Store} {v : String} {x y : Place}

theorem leads_self (x : Place) : leads x x = true := by
  cases x <;> simp [leads]

/-- The children of a directory on the way: exactly one goes on. -/
theorem countP_children {h : String} {q children tail : List String} {name : String} :
    (childrenOf h q children).countP (leads · (.path h (q ++ name :: tail))) = children.count name := by
  unfold childrenOf
  rw [List.countP_map, List.count]
  refine List.countP_congr fun child _ => ?_
  simp only [Function.comp_apply, leads, decide_true, Bool.true_and, List.isPrefixOf_iff_prefix, beq_iff_eq,
    List.prefix_append_right_inj, List.cons_prefix_cons, List.nil_prefix, and_true]

/-- The children of a directory elsewhere. -/
theorem countP_elsewhere {h : String} {q children : List String} (hx : leads (.path h q) x = false) :
    (childrenOf h q children).countP (leads · x) = 0 := by
  unfold childrenOf
  rw [List.countP_eq_zero]
  intro z hz hlead
  obtain ⟨child, -, rfl⟩ := List.mem_map.mp hz
  cases x with
  | pool h' => cases hlead
  | path h' p =>
    simp only [leads, Bool.and_eq_true, decide_eq_true_eq, List.isPrefixOf_iff_prefix] at hlead
    have hq : q <+: p := (List.prefix_append q [child]).trans hlead.2
    rw [leads, hlead.1, List.isPrefixOf_iff_prefix.mpr hq] at hx
    simp at hx

/-- A visit ends, or opens a directory. -/
theorem visit_cases {w : Option String} {xs : List Place} (hv : visit st y = .ok (w, xs)) :
    xs = [] ∨ ∃ h q children, xs = childrenOf h q children ∧ st.node h q = some (.dir children) ∧
      (y = .path h q ∨ y = .pool h ∧ q = [] ∧ st.mounted h = true ∧ st.singlePvPerPool h = false) := by
  cases y with
  | pool h =>
    simp only [visit] at hv
    split at hv
    · cases hv; exact .inl rfl
    · next hm =>
      split at hv
      · cases hv; exact .inl rfl
      · next hs =>
        split at hv
        · next children hn =>
          cases hv
          exact .inr ⟨h, [], children, rfl, hn, .inr ⟨rfl, rfl, by simpa using hm, by simpa using hs⟩⟩
        · cases hv; exact .inl rfl
  | path h q =>
    simp only [visit] at hv
    split at hv
    · next children hn =>
      cases hv
      exact .inr ⟨h, q, children, rfl, hn, .inl rfl⟩
    · split at hv <;> cases hv <;> exact .inl rfl
    · split at hv
      · cases hv
      · cases hv; exact .inl rfl

theorem visit_self (h : Present v x st) : visit st x = .ok (some v, []) := by
  cases x with
  | pool h' =>
    obtain ⟨-, hm, hs, hc⟩ := h.place
    simp [visit, hm, hs, hc]
  | path h' p =>
    obtain ⟨-, hj, -, -, -, hn, -⟩ := h.place
    simp [visit, hn, hj]

/-- On the way to a volume every visit opens the next directory. -/
theorem visit_way (h : Present v x st) (hyx : y ≠ x) (hlead : leads y x = true) {w : Option String} {xs : List Place}
    (hv : visit st y = .ok (w, xs)) : xs.countP (leads · x) = 1 := by
  cases x with
  | pool h' =>
    cases y with
    | pool k => exact absurd (by simpa [leads] using hlead) hyx
    | path k q => cases hlead
  | path h' p =>
    obtain ⟨hp, -, -, hm, hs, -, hdirs⟩ := h.place
    cases y with
    | pool k =>
      obtain rfl : k = h' := by simpa [leads] using hlead
      obtain ⟨name, tail, rfl⟩ := List.exists_cons_of_ne_nil hp
      obtain ⟨children, hnode, hcount⟩ := hdirs [] name tail rfl
      simp only [visit, hm, hs, hnode, Bool.not_true, Bool.false_eq_true, if_false] at hv
      cases hv
      exact (countP_children (q := [])).trans hcount
    | path k q =>
      simp only [leads, Bool.and_eq_true, decide_eq_true_eq, List.isPrefixOf_iff_prefix] at hlead
      obtain ⟨rfl, ⟨tail, rfl⟩⟩ := hlead
      have htail : tail ≠ [] := by
        rintro rfl
        exact hyx (by simp)
      obtain ⟨name, tail, rfl⟩ := List.exists_cons_of_ne_nil htail
      obtain ⟨children, hnode, hcount⟩ := hdirs q name tail rfl
      simp only [visit, hnode] at hv
      cases hv
      exact countP_children.trans hcount

/-- **One step of the walk.** What it yields of a volume and what it still leads to is what led to it. -/
theorem visit_counts {w : Option String} {xs : List Place} (h : Present v x st) (hv : visit st y = .ok (w, xs)) :
    xs.countP (leads · x) + (if w = some v then 1 else 0) = if leads y x then 1 else 0 := by
  by_cases hyx : y = x
  · subst hyx
    rw [visit_self h] at hv
    cases hv
    simp [leads_self]
  · have hw : w ≠ some v := by
      rintro rfl
      exact hyx (h.only y xs hv)
    rw [if_neg hw, Nat.add_zero]
    by_cases hlead : leads y x = true
    · rw [visit_way h hyx hlead hv, if_pos hlead]
    · rw [if_neg hlead]
      rcases visit_cases hv with rfl | ⟨k, q, children, rfl, -, rfl | ⟨rfl, rfl, -⟩⟩
      · rfl
      · exact countP_elsewhere (by simpa using hlead)
      · refine countP_elsewhere ?_
        cases x with
        | pool h' => rfl
        | path h' p => simpa [leads] using hlead

/-- **The next volume.** -/
theorem pulls_counts {pending rest : List Place} {r : Except Unit (Option String)} (h : ∀ st ∈ S, Present v x st)
    (hp : Pulls S pending r rest) (w : Option String) (hr : r = .ok w) :
    rest.countP (leads · x) + (if w = some v then 1 else 0) = pending.countP (leads · x) := by
  induction hp with
  | done => cases hr; rfl
  | skip hst hv _ ih =>
    have hvisit := visit_counts (h _ hst) hv
    have := ih hr
    simp only [List.countP_append, List.countP_cons] at *
    simp only [reduceCtorEq, if_false, Nat.add_zero] at hvisit
    omega
  | found hst hv =>
    cases hr
    have hvisit := visit_counts (h _ hst) hv
    simp only [List.countP_append, List.countP_cons] at *
    omega
  | fail => cases hr

theorem pulls_end {pending rest : List Place} {r : Except Unit (Option String)} (hp : Pulls S pending r rest)
    (hr : r = .ok none) : rest = [] := by
  induction hp with
  | done => rfl
  | skip _ _ _ ih => exact ih hr
  | found => cases hr
  | fail => cases hr

/-! ## Pages -/

/-- What a generator that has given a page still holds of a volume. -/
def Wrap.held (v : String) (x : Place) : Wrap → Nat
  | .more prev pending => [prev].count v + pending.countP (leads · x)
  | .ended => 0

/-- **A page.** Together with what is still held it has what was held before. -/
theorem page_counts {m : Nat} {pvcs : List String} {idx : Int} {w : Wrap} {r : Except (List String) Page}
    (h : ∀ st ∈ S, Present v x st) (hc : Collects S m pvcs idx w r) (page : Page) (hr : r = .ok page) :
    page.pvcs.count v + page.wrap.held v x = pvcs.count v + w.held v x := by
  induction hc with
  | ended => cases hr
  | fail => cases hr
  | last hp =>
    cases hr
    have := pulls_counts h hp none rfl
    rw [pulls_end hp rfl] at this
    simp only [List.countP_nil, reduceCtorEq, if_false] at this
    simp only [Wrap.held, List.count_append, ← this]
    omega
  | @full pvcs idx prev pending v' rest hp hlen =>
    cases hr
    have := pulls_counts h hp (some v') rfl
    simp only [Option.some.injEq] at this
    simp only [Wrap.held, List.count_append, ← this, List.count_singleton, beq_iff_eq]
    omega
  | @more pvcs idx prev pending v' rest page' hp hlen hc ih =>
    have := pulls_counts h hp (some v') rfl
    simp only [Option.some.injEq] at this
    rw [ih hr]
    simp only [Wrap.held, List.count_append, ← this, List.count_singleton, beq_iff_eq]
    omega

/-- A listing begins with every volume still to come. -/
theorem hostvols_counts (h : Present v x st) : (st.hostvols.map Place.pool).countP (leads · x) = 1 := by
  rw [List.countP_map]
  cases x with
  | pool h' =>
    rw [← h.place.1, List.count]
    exact List.countP_congr fun k _ => by simp [leads]
  | path h' p =>
    rw [← h.place.2.2.1, List.count]
    exact List.countP_congr fun k _ => by simp [leads]

theorem token_none {page : Page} (h : page.token = none) : page.wrap = .ended := by
  unfold Page.token at h
  by_contra hne
  rw [if_neg hne] at h
  cases h

/-! ## Sessions -/

/-- The volumes that were there whenever the listing looked. -/
def Session.Throughout (s : Session) (v : String) (x : Place) : Prop := ∀ st ∈ s.seen, Present v x st

/-- Every volume is in what the client has received, in this list, or in what the generator still holds. -/
def Session.Accounts (s : Session) (pvcs : List String) (wrap : Wrap) : Prop :=
  ∀ v x, s.Throughout v x → s.received.count v + pvcs.count v + wrap.held v x = 1

/-- The generator of a listing that has received its pages. -/
def Session.Holds (s : Session) : Gen → Prop
  | .given _ page => s.Accounts [] page.wrap
  | _ => False

/-- What is true of a listing as long as nobody else has resumed its generator: each volume is received once, or still to come. -/
def Session.Sound (s : Session) (c : C) (gens : List (C × Gen)) : Prop :=
  match s.status with
  | .idle => True
  | .entered _ => ∀ g, gens.getLast? = some (c, g) → (∃ n, g = .fresh n) ∧ s.received = [] ∨ s.Holds g
  | .advanced _ => ∀ g, gens.getLast? = some (c, g) → ∃ n page, g = .waiting n page ∧ s.Accounts page.pvcs page.wrap
  | .answered i token =>
    (∀ g, gens[i]? = some (c, g) → ∃ n page, g = .given n page ∧ token = page.token ∧ s.Accounts page.pvcs page.wrap) ∧
      ∀ g, gens.getLast? = some (c, g) → gens[i]? = some (c, g)
  | .open _ => ∀ g, gens.getLast? = some (c, g) → s.Holds g
  | .complete => s.Accounts [] .ended

/-- **A first page**, or the next one. -/
theorem accounts_next {s : Session} {g g' : Gen} {r : Result}
    (h : (∃ n, g = .fresh n) ∧ s.received = [] ∨ s.Holds g) (hr : Resume S g none r g') (hne : r ≠ .failed) (status : Status) :
    ∃ n page, g' = .waiting n page ∧ (s.proceed S status).Accounts page.pvcs page.wrap := by
  rcases h with ⟨⟨n, rfl⟩, hreceived⟩ | hholds
  · cases hr with
    | @first _ st first rest page hst hpull hc =>
      refine ⟨_, _, rfl, fun v x hthere => ?_⟩
      have hseen : ∀ st ∈ S, Present v x st := fun st hst => hthere st (.inr hst)
      have hpage := page_counts hseen hc page rfl
      have hpull := pulls_counts hseen hpull (some first) rfl
      rw [hostvols_counts (hseen st hst)] at hpull
      show s.received.count v + page.pvcs.count v + page.wrap.held v x = 1
      rw [hreceived, List.count_nil, Nat.zero_add, hpage]
      simp only [Wrap.held, List.count_nil, List.count_singleton, beq_iff_eq, Option.some.injEq] at hpull ⊢
      omega
    | _ => exact absurd rfl hne
  · cases g with
    | given n page =>
      cases hr with
      | @collects _ _ _ page' hc =>
        refine ⟨_, _, rfl, fun v x hthere => ?_⟩
        have hpage := page_counts (fun st hst => hthere st (.inr hst)) hc page' rfl
        have hheld := hholds v x fun st hst => hthere st (.inl hst)
        show s.received.count v + page'.pvcs.count v + page'.wrap.held v x = 1
        rw [Nat.add_assoc, hpage, ← Nat.add_assoc]
        exact hheld
      | noMore hc => exact absurd rfl hne
    | _ => exact hholds.elim

variable {c d : C} {w w' : World C} {s : Session} {gens gens' : List (C × Gen)}

@[simp] theorem clients_set : (w.set c s).clients c = s := Function.update_self ..

@[simp] theorem gens_set : (w.set c s).gens = w.gens := rfl

theorem clients_set_ne (h : c ≠ d) : (w.set d s).clients c = w.clients c := Function.update_of_ne h ..

omit [DecidableEq C] in
/-- What the requests of others do to the generators leaves the listing, or it has lost its generator. -/
theorem Session.Sound.other (h : s.Sound c gens)
    (hgens : gens' = gens ∨ ∃ old d g, d ≠ c ∧ old <+: gens ∧ gens' = old ++ [(d, g)]) : s.Sound c gens' := by
  rcases hgens with rfl | ⟨old, d, g', hne, ⟨tail, htail⟩, rfl⟩
  · exact h
  · have hlost : ∀ g, (old ++ [(d, g')]).getLast? ≠ some (c, g) := by
      intro g hg
      rw [List.getLast?_concat] at hg
      exact hne (congrArg Prod.fst (Option.some.inj hg))
    have hentry : ∀ (i : Nat) (g : Gen), (old ++ [(d, g')])[i]? = some (c, g) → gens[i]? = some (c, g) := by
      intro i g hg
      rw [← htail]
      rw [List.getElem?_append] at hg ⊢
      split at hg
      · next hi => rw [if_pos hi]; exact hg
      · have hmem := List.mem_singleton.mp (List.mem_of_getElem? hg)
        exact absurd (congrArg Prod.fst hmem).symm hne
    unfold Session.Sound at h ⊢
    split
    · trivial
    · exact fun g hg => absurd hg (hlost g)
    · exact fun g hg => absurd hg (hlost g)
    · next i token hstatus =>
      rw [hstatus] at h
      exact ⟨fun g hg => h.1 g (hentry i g hg), fun g hg => absurd hg (hlost g)⟩
    · exact fun g hg => absurd hg (hlost g)
    · next hstatus =>
      rw [hstatus] at h
      exact h

/-- A step of another client. -/
theorem sound_other {act : Act} (h : (w.clients c).Sound c w.gens) (hstep : Step w d act w') (hdc : d ≠ c) :
    (w'.clients c).Sound c w'.gens := by
  cases hstep with
  | start m hrest =>
    rw [clients_set_ne hdc.symm]
    exact h.other (.inr ⟨_, d, _, hdc, List.prefix_refl _, rfl⟩)
  | next _ token g g' S r hs hgen hr =>
    rw [clients_set_ne hdc.symm]
    exact h.other (.inr ⟨_, d, _, hdc, List.dropLast_prefix _, rfl⟩)
  | send _ token g g' S r hs hgen hr =>
    rw [clients_set_ne hdc.symm]
    exact h.other (.inr ⟨_, d, _, hdc, List.dropLast_prefix _, rfl⟩)
  | _ =>
    rw [clients_set_ne hdc.symm]
    exact h.other (.inl rfl)

/-- A step of the client itself, on a generator of its own. -/
theorem sound_own {act : Act} (h : (w.clients c).Sound c w.gens) (hstep : Step w c act w') (hown : Owns w c act) :
    (w'.clients c).Sound c w'.gens := by
  unfold Session.Sound at h
  cases hstep with
  | start m hrest =>
    rw [clients_set]
    intro g hg
    rw [gens_set, List.getLast?_concat] at hg
    cases hg
    exact .inl ⟨⟨_, rfl⟩, rfl⟩
  | follow token hopen =>
    rw [clients_set, gens_set]
    rw [hopen] at h
    exact fun g hg => .inr (h g hg)
  | next d token g g' S r hs hgen hr =>
    obtain ⟨mine, hmine⟩ := hown
    obtain ⟨rfl, rfl⟩ : c = d ∧ mine = g := by simpa using hmine.symm.trans hgen
    rw [hs] at h
    have hnext (hne : r ≠ .failed) := accounts_next (h mine hmine) hr hne (r.afterNext token)
    rw [clients_set]
    have hadvanced (hne : r ≠ .failed) : ∀ g, (w.gens.dropLast ++ [(c, g')]).getLast? = some (c, g) →
        ∃ n page, g = .waiting n page ∧ ((w.clients c).proceed S (r.afterNext token)).Accounts page.pvcs page.wrap := by
      intro g hg
      rw [List.getLast?_concat] at hg
      cases hg
      exact hnext hne
    cases r with
    | failed => trivial
    | ready => exact hadvanced (by rintro ⟨⟩)
    | page t => exact hadvanced (by rintro ⟨⟩)
  | send d token g g' S r hs hgen hr =>
    obtain ⟨mine, hmine⟩ := hown
    obtain ⟨rfl, rfl⟩ : c = d ∧ mine = g := by simpa using hmine.symm.trans hgen
    rw [hs] at h
    obtain ⟨n, page, rfl, haccounts⟩ := h mine hmine
    rw [clients_set]
    cases hr with
    | refused ht => trivial
    | gives ht =>
      have hlast : (w.gens.dropLast ++ [(c, Gen.given n page)])[w.gens.length - 1]? = some (c, .given n page) := by
        rw [← List.length_dropLast, List.getElem?_concat_length]
      refine ⟨fun g hg => ?_, fun g hg => ?_⟩
      · obtain rfl : Gen.given n page = g := by simpa using hlast.symm.trans hg
        exact ⟨n, page, rfl, rfl, fun v x hthere => haccounts v x fun st hst => hthere st (.inl hst)⟩
      · rw [gens_set, World.resume, List.getLast?_concat] at hg
        cases hg
        exact hlast
  | read d i token g hs hgen =>
    obtain ⟨mine, hmine⟩ := hown
    obtain ⟨rfl, rfl⟩ : c = d ∧ mine = g := by simpa using hmine.symm.trans hgen
    rw [hs] at h
    obtain ⟨n, page, rfl, rfl, haccounts⟩ := h.1 mine hmine
    have hreceived : ∀ v x, (w.clients c).Throughout v x →
        ((w.clients c).received ++ page.pvcs).count v + page.wrap.held v x = 1 := fun v x hthere => by
      rw [List.count_append]
      exact haccounts v x hthere
    rw [clients_set, gens_set]
    cases htoken : page.token with
    | none =>
      intro v x hthere
      have := hreceived v x hthere
      rwa [token_none htoken] at this
    | some t =>
      intro g hg
      obtain rfl : Gen.given n page = g := by simpa using hmine.symm.trans (h.2 g hg)
      exact hreceived
  | raise =>
    rw [clients_set]
    trivial

/-- **One step** keeps it, for the client whose generator is its own. -/
theorem sound_step (hstep : OwnStep c w w') (h : (w.clients c).Sound c w.gens) : (w'.clients c).Sound c w'.gens := by
  obtain ⟨d, act, hstep, hown⟩ := hstep
  by_cases hdc : d = c
  · subst hdc
    exact sound_own h hstep (hown rfl)
  · exact sound_other h hstep hdc

theorem sound_run (hrun : Relation.ReflTransGen (OwnStep c) {} w) : (w.clients c).Sound c w.gens := by
  induction hrun with
  | refl => trivial
  | tail _ hstep ih => exact sound_step hstep ih

/-- **A listing of its own is complete.** A client whose generator no other client's request makes anew or resumes has received
every volume that was there throughout, exactly once, when its listing ends. -/
theorem listing_complete (c : C) (w : World C) (hrun : Relation.ReflTransGen (OwnStep c) {} w)
    (hdone : (w.clients c).status = .complete) (v : String) (x : Place) (hv : ∀ st ∈ (w.clients c).seen, Present v x st) :
    (w.clients c).received.count v = 1 := by
  have hsound := sound_run hrun
  unfold Session.Sound at hsound
  rw [hdone] at hsound
  exact hsound v x hv

/-! ## Sample pools -/

/-- Three pools with one volume each. -/
def threePools : Store where
  hostvols := ["a", "b", "c"]
  mounted := fun _ => true
  singlePvPerPool := fun _ => true
  claim := fun hvol => if hvol = "a" then some "v1" else if hvol = "b" then some "v2" else if hvol = "c" then some "v3" else none
  node := fun _ _ => none

theorem threePools_present {hvol : String} (hh : threePools.hostvols.count hvol = 1) (hc : threePools.claim hvol = some v)
    (hv : ∀ h, threePools.claim h = some v → h = hvol) : Present v (.pool hvol) threePools := by
  refine ⟨fun y xs hvisit => ?_, hh, rfl, rfl, hc⟩
  cases y with
  | pool h =>
    have : threePools.claim h = some v := by
      simp only [visit, threePools, Bool.not_true, Bool.false_eq_true, if_false, if_true, Except.ok.injEq,
        Prod.mk.injEq] at hvisit
      exact hvisit.1
    rw [hv h this]
  | path h p =>
    simp only [visit, threePools] at hvisit
    split at hvisit <;> cases hvisit

theorem v1_present : Present "v1" (.pool "a") threePools := by
  refine threePools_present (by decide) (by decide) fun h hc => ?_
  simp only [threePools] at hc
  split_ifs at hc with ha hb hc'
  · exact ha
  · exact absurd hc (by decide)
  · exact absurd hc (by decide)

theorem v2_present : Present "v2" (.pool "b") threePools := by
  refine threePools_present (by decide) (by decide) fun h hc => ?_
  simp only [threePools] at hc
  split_ifs at hc with ha hb hc'
  · exact absurd hc (by decide)
  · exact hb
  · exact absurd hc (by decide)

/-- The next volume is the one of the next pool. -/
theorem pulls_pool (hvol v : String) (hc : threePools.claim hvol = some v) (rest : List Place) :
    Pulls {threePools} (.pool hvol :: rest) (.ok (some v)) rest := by
  have hvisit : visit threePools (.pool hvol) = .ok (some v, []) := congrArg (fun c => Except.ok (c, [])) hc
  exact .found (Set.mem_singleton _) hvisit

def page₁ : Page := ⟨["v1"], 0, .more "v2" [.pool "c"]⟩

def page₂ : Page := ⟨["v2"], 1, .more "v3" []⟩

def page₃ : Page := ⟨["v3"], 2, .ended⟩

theorem collects₁ : Resume {threePools} (.fresh 1) none .ready (.waiting 1 page₁) :=
  .first (Set.mem_singleton _) (pulls_pool "a" "v1" (by decide) [.pool "b", .pool "c"])
    (.full (pulls_pool "b" "v2" (by decide) [.pool "c"]) rfl)

theorem collects₂ (sent : Option Int) : Resume {threePools} (.given 1 page₁) sent .ready (.waiting 1 page₂) :=
  .collects (.full (pulls_pool "c" "v3" (by decide) []) rfl)

theorem collects₃ : Resume {threePools} (.given 1 page₂) none .ready (.waiting 1 page₃) :=
  .collects (.last .done)

/-- The token is not checked if it is 0. -/
theorem gives₁ (sent : Option Int) (h : sent.getD 0 = 0) :
    Resume {threePools} (.waiting 1 page₁) sent (.page (some 0)) (.given 1 page₁) :=
  .gives fun t ht => by
    obtain rfl : t = 0 := by simpa [ht] using h
    rfl

theorem gives₂ : Resume {threePools} (.waiting 1 page₂) (some 0) (.page (some 1)) (.given 1 page₂) :=
  .gives fun t ht => by
    obtain rfl : 0 = t := by simpa using ht
    rfl

/-- Nor is it with the last page. -/
theorem gives₃ (t : Int) : Resume {threePools} (.waiting 1 page₃) (some t) (.page none) (.given 1 page₃) :=
  .gives fun t _ => by simp [Page.refuses, page₃]

section Requests

variable {R : World C → World C → Prop} {old : List (C × Gen)} {token : Int} {t : Option Int} {g₁ g₂ : Gen} {n : Nat} {page : Page}

/-- The steps of a request with nobody else in between. -/
theorem request_served (hR : ∀ w act w', Step w c act w' → (d = c → Owns w c act) → R w w') (hgens : w.gens = old ++ [(d, g₁)])
    (hs : (w.clients c).status = .entered token) (h₁ : Resume {st} g₁ none .ready g₂)
    (h₂ : Resume {st} g₂ (some token) (.page t) (.given n page)) :
    Relation.ReflTransGen R w ⟨old ++ [(c, .given n page)], Function.update w.clients c
      ⟨(w.clients c).received ++ page.pvcs, t.elim .complete .open, (w.clients c).seen ∪ {st} ∪ {st}⟩⟩ := by
  have hlast : w.gens.getLast? = some (d, g₁) := by rw [hgens, List.getLast?_concat]
  let w₁ := (w.resume c g₂).set c ((w.clients c).proceed {st} (.advanced token))
  have hnext : Step w c .next w₁ := .next c d token g₁ g₂ {st} .ready hs hlast h₁
  have hlast₁ : w₁.gens = old ++ [(c, g₂)] := by
    show w.gens.dropLast ++ [(c, g₂)] = _
    rw [hgens, List.dropLast_concat]
  let w₂ := (w₁.resume c (.given n page)).set c ((w₁.clients c).proceed {st} (.answered (w₁.gens.length - 1) t))
  have hown₁ : w₁.gens.getLast? = some (c, g₂) := by rw [hlast₁, List.getLast?_concat]
  have hadvanced : (w₁.clients c).status = .advanced token := congrArg Session.status clients_set
  have hsend : Step w₁ c .send w₂ := .send c c token g₂ _ {st} (.page t) hadvanced hown₁ h₂
  have hgens₂ : w₂.gens = old ++ [(c, .given n page)] := by
    show w₁.gens.dropLast ++ [(c, .given n page)] = _
    rw [hlast₁, List.dropLast_concat]
  have hown₂ : w₂.gens[w₁.gens.length - 1]? = some (c, .given n page) := by
    rw [hgens₂, hlast₁, List.length_append, List.length_singleton, Nat.add_sub_cancel, List.getElem?_concat_length]
  have hanswered : (w₂.clients c).status = .answered (w₁.gens.length - 1) t := congrArg Session.status clients_set
  have hread := Step.read c c _ t _ hanswered hown₂
  have hclients₁ : w₁.clients c = (w.clients c).proceed {st} (.advanced token) := clients_set
  have hclients : w₂.clients c = (w₁.clients c).proceed {st} (.answered (w₁.gens.length - 1) t) := clients_set
  have hrun := ((Relation.ReflTransGen.single (hR _ _ _ hnext fun hdc => ⟨g₁, hdc ▸ hlast⟩)).tail
    (hR _ _ _ hsend fun _ => ⟨g₂, hown₁⟩)).tail (hR _ _ _ hread fun _ => ⟨_, hown₂⟩)
  convert hrun using 1
  rw [hclients, hclients₁, World.set, hgens₂]
  simp only [w₂, w₁, World.set, World.resume, Function.update_idem]
  rfl

theorem start_served (hR : ∀ w act w', Step w c act w' → (c = c → Owns w c act) → R w w')
    (hrest : (w.clients c).status.atRest = true) (h₁ : Resume {st} (.fresh 1) none .ready g₂)
    (h₂ : Resume {st} g₂ (some 0) (.page t) (.given n page)) :
    Relation.ReflTransGen R w ⟨w.gens ++ [(c, .given n page)], Function.update w.clients c
      ⟨page.pvcs, t.elim .complete .open, ∅ ∪ {st} ∪ {st}⟩⟩ := by
  let w₁ := World.set ⟨w.gens ++ [(c, .fresh 1)], w.clients⟩ c { status := .entered 0 }
  have hstart : Step w c .enter w₁ := .start c 1 hrest
  have hclients : w₁.clients c = { status := .entered 0 } := clients_set
  have hserved := request_served (d := c) (w := w₁) hR rfl (congrArg Session.status hclients) h₁ h₂
  convert (Relation.ReflTransGen.single (hR _ _ _ hstart fun _ => trivial)).trans hserved using 1
  rw [hclients]
  simp only [w₁, World.set, Function.update_idem, List.nil_append]

theorem follow_served (old : List (C × Gen)) (hR : ∀ w act w', Step w c act w' → (d = c → Owns w c act) → R w w')
    (hopen : (w.clients c).status = .open token) (hgens : w.gens = old ++ [(d, g₁)]) (h₁ : Resume {st} g₁ none .ready g₂)
    (h₂ : Resume {st} g₂ (some token) (.page t) (.given n page)) :
    Relation.ReflTransGen R w ⟨old ++ [(c, .given n page)], Function.update w.clients c
      ⟨(w.clients c).received ++ page.pvcs, t.elim .complete .open, (w.clients c).seen ∪ {st} ∪ {st}⟩⟩ := by
  let w₁ := w.set c { w.clients c with status := .entered token }
  have hfollow : Step w c .enter w₁ := .follow c token hopen
  have hclients : w₁.clients c = { w.clients c with status := .entered token } := clients_set
  have hserved := request_served (w := w₁) hR hgens (congrArg Session.status hclients) h₁ h₂
  convert (Relation.ReflTransGen.single (hR _ _ _ hfollow fun _ => trivial)).trans hserved using 1
  rw [hclients]
  simp only [w₁, World.set, Function.update_idem]

end Requests

/-- A listing of one client is complete. -/
theorem own_complete : ∃ w : World Bool, (w.clients true).received = ["v1", "v2", "v3"] ∧
    (w.clients true).received.count "v2" = 1 := by
  have hR : ∀ (w : World Bool) act w', Step w true act w' → (true = true → Owns w true act) → OwnStep true w w' :=
    fun w act w' hstep hown => ⟨true, act, hstep, hown⟩
  have hrun := ((start_served (w := {}) hR rfl collects₁ (gives₁ _ rfl)).trans
    (follow_served [] hR rfl rfl (collects₂ none) gives₂)).trans
    (follow_served [] hR rfl rfl collects₃ (gives₃ 1))
  refine ⟨_, rfl, listing_complete true _ hrun rfl "v2" (.pool "b") fun st hst => ?_⟩
  have hst : st = threePools := by simpa using hst
  exact hst ▸ v2_present

/-- **Two clients that take turns, or whose requests overlap.** One of them ends without an error and without a volume: the
first listing goes on where the other client left the generator, the second one is sent the page after the one that the
other client's request has passed over. -/
theorem listing_mixed :
    (∃ w : World Bool, Relation.ReflTransGen AnyStep {} w ∧ (w.clients false).status = .complete ∧
      (∀ st ∈ (w.clients false).seen, Present "v2" (.pool "b") st) ∧ (w.clients false).received.count "v2" = 0) ∧
    ∃ w : World Bool, Relation.ReflTransGen AnyStep {} w ∧ (w.clients false).status = .complete ∧
      (∀ st ∈ (w.clients false).seen, Present "v1" (.pool "a") st) ∧ (w.clients false).received.count "v1" = 0 := by
  have hR (c d : Bool) : ∀ (w : World Bool) act w', Step w c act w' → (d = c → Owns w c act) → AnyStep w w' :=
    fun w act w' hstep _ => ⟨c, act, hstep⟩
  have hfirst := start_served (w := {}) (hR true true) rfl collects₁ (gives₁ _ rfl)
  constructor
  · have hrun := ((hfirst.trans (start_served (hR false false) rfl collects₁ (gives₁ _ rfl))).trans
      (follow_served [(true, .given 1 page₁)] (hR true false) rfl rfl (collects₂ none) gives₂)).trans
      (follow_served [(true, .given 1 page₁)] (hR false true) rfl rfl collects₃ (gives₃ 0))
    refine ⟨_, hrun, rfl, fun st hst => ?_, by decide⟩
    have hst : st = threePools := by simpa using hst
    exact hst ▸ v2_present
  · have hstart := hfirst.tail ⟨false, _, .start false 1 rfl⟩
    have hadvanced := (hstart.tail ⟨false, _, .next false false 0 _ _ {threePools} _ rfl rfl collects₁⟩).tail
      ⟨true, _, .follow true 0 rfl⟩
    have hpassed := (hadvanced.tail
      ⟨true, _, .next true false 0 _ _ {threePools} (.page (some 0)) rfl rfl (gives₁ none rfl)⟩).tail
      ⟨true, _, .send true true 0 _ _ {threePools} _ rfl rfl (collects₂ (some 0))⟩
    have hsent := (hpassed.tail ⟨false, _, .send false true 0 _ _ {threePools} _ rfl rfl gives₂⟩).tail
      ⟨false, _, .read false false 1 (some 1) _ rfl rfl⟩
    have hrun := hsent.trans (follow_served [(true, .given 1 page₁)] (hR false false) rfl rfl collects₃ (gives₃ 1))
    refine ⟨_, hrun, rfl, fun st hst => ?_, by decide⟩
    have hst : st = threePools := by
      simpa [World.set, World.resume, Session.proceed, Session.receive] using hst
    exact hst ▸ v1_present

end Kadalu.ListVolumes
