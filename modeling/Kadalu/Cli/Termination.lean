import Kadalu.Cli.Layout

/-!
# Whether the parser ends

Two kinds of arguments take the parser beyond a request or an `InvalidVolumeCreateRequest`. `skip_token_next` is set when a keyword
ends another one, and never reset, so that the loop stays at the next number (`stalls`). And the list of storage units is split with
a step of zero when the counts add up to no size (`NoSize`), which raises a `ValueError`.

* `parserLoop_ends`, `parserLoop_stays`: the loop ends within a round for each token, or never.
* `parsed_iff`: the parser does what it should for all other arguments, and for none of these.
-/

namespace Kadalu.Cli

/-! ## How parsing ends -/

inductive Parsed where
  | request (groups : List DistributeGroup)
  | invalidVolumeCreateRequest
  | otherException
  deriving DecidableEq, Repr

/-- `parser` and `validate` of the parser module. -/
def parsed (fuel : Nat) (tokens : List Token) : Option Parsed :=
  (parser fuel tokens).map fun
    | .error _ => .otherException
    | .ok groups => if groups.any (!validGroup ·) then .invalidVolumeCreateRequest else .request groups

def Token.isNumber : Token → Bool
  | .number _ => true
  | _ => false

/-- A number comes after a keyword that ends another one; `behind` says whether the first tokens are behind a keyword. -/
def stalls (behind : Bool) : List Token → Bool
  | [] => false
  | .keyword _ :: rest => if behind then rest.any Token.isNumber else stalls true rest
  | .number _ :: rest => stalls false rest
  | .unit _ :: rest => stalls behind rest

/-- The counts give a subvolume no brick: an arbiter count that takes away all replicas, or one of `disperse-data` and
`redundancy` without any other count. -/
def NoSize (counts : Counts) : Prop :=
  if counts .replica > 0 ∨ counts .mirror > 0 then counts .replica + counts .mirror + counts .arbiter = 0
  else counts .disperse = 0 ∧ ((counts .disperseData > 0 ∧ counts .redundancy ≤ 0) ∨
    (counts .disperseData ≤ 0 ∧ counts .redundancy > 0))

instance (counts : Counts) : Decidable (NoSize counts) := by unfold NoSize; infer_instance

/-! ## The loop -/

section

variable {fuel : Nat} {tokens rest : List Token} {p : Parsing}

theorem stalls_leading (rest : List Token) : stalls true rest = stalls true (leadingUnits rest).2 := by
  induction rest with
  | nil => rfl
  | cons token rest ih =>
    cases token with
    | keyword k => rfl
    | number n => rfl
    | unit name => exact ih

theorem numbers_leading (rest : List Token) :
    rest.any Token.isNumber = (leadingUnits rest).2.any Token.isNumber := by
  induction rest with
  | nil => rfl
  | cons token rest ih =>
    cases token with
    | keyword k => rfl
    | number n => rfl
    | unit name => exact ih

theorem leadingUnits_length (rest : List Token) : (leadingUnits rest).2.length ≤ rest.length := by
  induction rest with
  | nil => exact Nat.le_refl _
  | cons token rest ih =>
    cases token with
    | keyword k => exact Nat.le_refl _
    | number n => exact Nat.le_refl _
    | unit name => exact Nat.le_succ_of_le ih

/-- What can be left behind a keyword and its units. -/
theorem leadingUnits_cases (rest : List Token) : (leadingUnits rest).2 = [] ∨
    (∃ n rest', (leadingUnits rest).2 = .number n :: rest') ∨ ∃ k rest', (leadingUnits rest).2 = .keyword k :: rest' := by
  cases hrest : (leadingUnits rest).2 with
  | nil => exact .inl rfl
  | cons token rest' =>
    cases token with
    | number n => exact .inr (.inl ⟨n, rest', rfl⟩)
    | keyword k => exact .inr (.inr ⟨k, rest', rfl⟩)
    | unit name => exact absurd hrest (leadingUnits_rest rest name rest')

/-- With `skip_token_next` set, the loop ends if only keywords and their units are left. -/
theorem parserLoop_ends_skip {k : Keyword} (hskip : p.skipTokenNext = true) (hfuel : rest.length + 1 < fuel)
    (hnumbers : rest.any Token.isNumber = false) : ∃ p', parserLoop fuel (.keyword k :: rest) p = some p' := by
  induction fuel generalizing rest p k with
  | zero => omega
  | succ fuel ih =>
    rw [numbers_leading] at hnumbers
    have hlen := leadingUnits_length rest
    rw [parserLoop]
    dsimp only
    rcases leadingUnits_cases rest with hrest | ⟨n, rest', hrest⟩ | ⟨k', rest', hrest⟩
    · rw [hrest]
      obtain ⟨fuel, rfl⟩ : ∃ m, fuel = m + 1 := ⟨fuel - 1, by omega⟩
      exact ⟨_, rfl⟩
    · rw [hrest] at hnumbers
      cases hnumbers
    · rw [hrest] at hnumbers hlen ⊢
      rw [List.length_cons] at hlen
      exact ih rfl (by omega) hnumbers

/-- With `skip_token_next` set, the loop stays at a number that is left. -/
theorem parserLoop_stays_skip {k : Keyword} (hskip : p.skipTokenNext = true) (hnumbers : rest.any Token.isNumber = true) :
    parserLoop fuel (.keyword k :: rest) p = none := by
  induction fuel generalizing rest p k with
  | zero => rfl
  | succ fuel ih =>
    rw [numbers_leading] at hnumbers
    rw [parserLoop]
    dsimp only
    rcases leadingUnits_cases rest with hrest | ⟨n, rest', hrest⟩ | ⟨k', rest', hrest⟩
    · rw [hrest] at hnumbers
      cases hnumbers
    · rw [hrest]
      dsimp only
      rw [if_pos hskip]
      exact Option.eq_none_iff_forall_ne_some.mpr fun p' => parserLoop_stuck fuel n rest' hskip
    · rw [hrest] at hnumbers ⊢
      exact ih rfl hnumbers

/-- **The loop ends** within a round for each token if it never stays at a number. -/
theorem parserLoop_ends (hskip : p.skipTokenNext = false) (hfuel : tokens.length < fuel) (hstalls : stalls false tokens = false) :
    ∃ p', parserLoop fuel tokens p = some p' := by
  induction fuel generalizing tokens p with
  | zero => omega
  | succ fuel ih =>
    cases tokens with
    | nil => exact ⟨p, rfl⟩
    | cons token rest =>
      rw [List.length_cons] at hfuel
      cases token with
      | unit name =>
        rw [parserLoop]
        dsimp only
        rw [if_neg (by simp [hskip])]
        exact ih hskip (by omega) hstalls
      | number n =>
        rw [parserLoop, if_neg (by simp [hskip])]
        exact ih hskip (by omega) hstalls
      | keyword k =>
        rw [stalls, if_neg Bool.false_ne_true, stalls_leading] at hstalls
        have hlen := leadingUnits_length rest
        rw [parserLoop]
        dsimp only
        rcases leadingUnits_cases rest with hrest | ⟨n, rest', hrest⟩ | ⟨k', rest', hrest⟩
        · rw [hrest]
          exact ih hskip (by simp; omega) rfl
        · rw [hrest] at hstalls hlen ⊢
          rw [List.length_cons] at hlen
          dsimp only
          rw [if_neg (by simp [hskip])]
          exact ih hskip (by omega) hstalls
        · rw [hrest] at hstalls hlen ⊢
          rw [List.length_cons] at hlen
          rw [stalls, if_pos rfl] at hstalls
          exact parserLoop_ends_skip rfl (by omega) hstalls

/-- **The loop stays** at a number after a keyword that ends another one. -/
theorem parserLoop_stays (hskip : p.skipTokenNext = false) (hstalls : stalls false tokens = true) :
    parserLoop fuel tokens p = none := by
  induction fuel generalizing tokens p with
  | zero => rfl
  | succ fuel ih =>
    cases tokens with
    | nil => cases hstalls
    | cons token rest =>
      cases token with
      | unit name =>
        rw [parserLoop]
        dsimp only
        rw [if_neg (by simp [hskip])]
        exact ih hskip hstalls
      | number n =>
        rw [parserLoop, if_neg (by simp [hskip])]
        exact ih hskip hstalls
      | keyword k =>
        rw [stalls, if_neg Bool.false_ne_true, stalls_leading] at hstalls
        rw [parserLoop]
        dsimp only
        rcases leadingUnits_cases rest with hrest | ⟨n, rest', hrest⟩ | ⟨k', rest', hrest⟩
        · rw [hrest] at hstalls
          cases hstalls
        · rw [hrest] at hstalls ⊢
          dsimp only
          rw [if_neg (by simp [hskip])]
          exact ih hskip hstalls
        · rw [hrest] at hstalls ⊢
          rw [stalls, if_pos rfl] at hstalls
          exact parserLoop_stays_skip rfl hstalls

/-- More rounds change nothing when the loop has ended. -/
theorem parserLoop_succ {p' : Parsing} (h : parserLoop fuel tokens p = some p') : parserLoop (fuel + 1) tokens p = some p' := by
  induction fuel generalizing tokens p with
  | zero => cases h
  | succ fuel ih =>
    cases tokens with
    | nil => exact h
    | cons token rest =>
      cases token with
      | unit name =>
        rw [parserLoop] at h ⊢
        dsimp only at h ⊢
        split at h
        · rw [if_pos ‹_›]
          exact ih h
        · rw [if_neg ‹_›]
          exact ih h
      | number n =>
        rw [parserLoop] at h ⊢
        split at h
        · rw [if_pos ‹_›]
          exact ih h
        · rw [if_neg ‹_›]
          exact ih h
      | keyword k =>
        rw [parserLoop] at h ⊢
        dsimp only at h ⊢
        rcases leadingUnits_cases rest with hrest | ⟨n, rest', hrest⟩ | ⟨k', rest', hrest⟩
        · rw [hrest] at h ⊢
          exact ih h
        · rw [hrest] at h ⊢
          dsimp only at h ⊢
          split at h
          · rw [if_pos ‹_›]
            exact ih h
          · rw [if_neg ‹_›]
            exact ih h
        · rw [hrest] at h ⊢
          exact ih h

theorem parserLoop_mono {fuel' : Nat} {p' : Parsing} (hle : fuel ≤ fuel') (h : parserLoop fuel tokens p = some p') :
    parserLoop fuel' tokens p = some p' := by
  induction hle with
  | refl => exact h
  | step _ ih => exact parserLoop_succ ih

/-! ## The split -/

theorem getSubvolSize_zero (counts : Counts) : getSubvolSize counts = 0 ↔ NoSize counts := by
  unfold getSubvolSize NoSize
  split
  · exact Iff.rfl
  · split
    · unfold disperseAndRedundancyCount
      split
      · dsimp only
        omega
      split
      · dsimp only
        omega
      · dsimp only
        omega
    · omega

/-- The parser raises a `ValueError` exactly when it splits a list into parts of no size. -/
theorem finishParser_error : (∃ e, finishParser p = .error e) ↔ p.all ≠ [] ∧ NoSize p.counts := by
  rw [← getSubvolSize_zero]
  unfold finishParser distributeGroupCountBased splitList
  by_cases hall : p.all = []
  · rw [if_pos hall]
    refine ⟨fun ⟨e, he⟩ => ?_, fun h => absurd hall h.1⟩
    cases he
  · rw [if_neg hall]
    by_cases hzero : getSubvolSize p.counts = 0
    · rw [if_pos hzero]
      exact ⟨fun _ => ⟨hall, hzero⟩, fun _ => ⟨_, rfl⟩⟩
    · rw [if_neg hzero]
      refine ⟨fun ⟨e, he⟩ => ?_, fun h => absurd h.2 hzero⟩
      split at he <;> cases he

/-- The end of parsing is an exception of its own exactly when the parser raised one. -/
theorem parsed_other (h : parserLoop fuel tokens {} = some p) :
    parsed fuel tokens = some .otherException ↔ ∃ e, finishParser p = .error e := by
  rw [parsed, parser, h, Option.map_some, Option.map_some, Option.some.injEq]
  cases hfinish : finishParser p with
  | error e => exact ⟨fun _ => ⟨e, rfl⟩, fun _ => rfl⟩
  | ok groups =>
    refine ⟨fun hother => ?_, fun ⟨e, he⟩ => by cases he⟩
    dsimp only at hother
    split at hother <;> cases hother

end

/-- **When the parser ends as it should.** With a round for each token and one more, it ends in a request or in an
`InvalidVolumeCreateRequest` if and only if no number comes after a keyword that ends another one, and the counts give a size if
they split a list. -/
theorem parsed_iff (int : String → Option Int) (args : List String) :
    (∃ result, result ≠ .otherException ∧
      ∀ fuel, args.length < fuel → parsed fuel (tokenizer int args) = some result) ↔
      stalls false (tokenizer int args) = false ∧
        (looseUnits false (tokenizer int args) = [] ∨ ¬NoSize (readCounts none (tokenizer int args) noCounts)) := by
  have hlen : (tokenizer int args).length = args.length := by simp [tokenizer]
  generalize tokenizer int args = tokens at *
  rw [← hlen]
  constructor
  · rintro ⟨result, hresult, hends⟩
    have hend := hends (tokens.length + 1) (Nat.lt_succ_self _)
    obtain ⟨request, hparser, -⟩ := Option.map_eq_some_iff.mp hend
    obtain ⟨p, hp, -⟩ := Option.map_eq_some_iff.mp hparser
    refine ⟨?_, ?_⟩
    · by_contra hstalls
      rw [parserLoop_stays rfl (by simpa using hstalls)] at hp
      cases hp
    · have hread := parserLoop_reads hp
      have hnone : ¬∃ e, finishParser p = .error e := by
        rw [← parsed_other hp, hend]
        exact fun h => hresult (Option.some.inj h)
      rw [finishParser_error, hread.all, hread.counts] at hnone
      exact Decidable.not_and_iff_not_or_not.mp hnone |>.imp (fun h => by simpa using h) id
  · rintro ⟨hstalls, hsize⟩
    obtain ⟨p, hp⟩ := parserLoop_ends (p := {}) rfl (Nat.lt_succ_self tokens.length) hstalls
    have hread := parserLoop_reads hp
    have hok : ¬∃ e, finishParser p = .error e := by
      rw [finishParser_error, hread.all, hread.counts]
      rintro ⟨hloose, hnosize⟩
      rcases hsize with h | h
      · exact hloose (by simpa using h)
      · exact h hnosize
    have hall (fuel : Nat) (hfuel : tokens.length < fuel) : parserLoop fuel tokens {} = some p := parserLoop_mono hfuel hp
    have hsame (fuel : Nat) (hfuel : tokens.length < fuel) : parsed fuel tokens = parsed (tokens.length + 1) tokens := by
      rw [parsed, parsed, parser, parser, hall fuel hfuel, hp]
    obtain ⟨result, hresult⟩ : ∃ result, parsed (tokens.length + 1) tokens = some result := by
      rw [parsed, parser, hp]
      exact ⟨_, rfl⟩
    refine ⟨result, ?_, fun fuel hfuel => (hsame fuel hfuel).trans hresult⟩
    rintro rfl
    exact hok ((parsed_other hp).mp hresult)

/-! ## Two commands -/

theorem replicaArbiter_parsed (fuel : Nat) : parsed fuel (tokenizer decimal ["replica", "arbiter", "1"]) = none := by
  have hstalls : stalls false (tokenizer decimal ["replica", "arbiter", "1"]) = true := by decide +kernel
  rw [parsed, parser, parserLoop_stays rfl hstalls]
  rfl

/-- The parser of `storage-add pool replica arbiter 1` never ends, and that of `storage-add pool redundancy 2 n:/a` ends in an
exception that is no invalid request. -/
theorem replicaArbiter_stays : (∀ fuel, parsed fuel (tokenizer decimal ["replica", "arbiter", "1"]) = none) ∧
    parsed 4 (tokenizer decimal ["redundancy", "2", "n:/a"]) = some .otherException :=
  ⟨replicaArbiter_parsed, by decide +kernel⟩

end Kadalu.Cli
