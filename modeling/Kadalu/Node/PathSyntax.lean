import Kadalu.Data.Fields
import Kadalu.Node.TargetLock

/-!
# Path strings

The functions of `os.path` that the node plugin uses, on the characters of a path, and what they do to the paths that
normalization leaves as they are: a slash, or two, and components that are names.

* `normpath_eq`: what a normalized path looks like.
* `dirname_slashes`, `commonpath_slashes`, `relpath_slashes`: the functions on such paths.
-/

namespace Kadalu.Node

open Operator TargetLock Fields

/-! ## Functions -/

/-- `os.path.isabs` -/
def isabs (path : List Char) : Bool := ['/'].isPrefixOf path

/-- `os.path.abspath` in the working directory `cwd` -/
def abspath (cwd path : List Char) : List Char := normpath (join cwd path)

/-- `os.path.dirname` -/
def dirname (path : List Char) : List Char :=
  let head := path.rdropWhile (· ≠ '/')
  if head.all (· = '/') then head else head.rdropWhile (· = '/')

/-- `os.path.basename` -/
def basename (path : List Char) : List Char := path.rtakeWhile (· ≠ '/')

/-- The components of a path that lead somewhere. -/
def pathComponents (path : List Char) : List (List Char) := (splitChars '/' path).filter fun c => c ≠ [] && c ≠ ['.']

/-- The common beginning of two lists. -/
def commonPrefix : List (List Char) → List (List Char) → List (List Char)
  | a :: as, b :: bs => if a = b then a :: commonPrefix as bs else []
  | _, _ => []

/-- `os.path.commonpath` of two absolute paths -/
def commonpath (a b : List Char) : List Char := '/' :: ['/'].intercalate (commonPrefix (pathComponents a) (pathComponents b))

/-- `os.path.relpath` of a path below the root, from one below it -/
def relpath (path start : List Char) : List Char :=
  let startList := (splitChars '/' (normpath start)).filter (· ≠ [])
  let pathList := (splitChars '/' (normpath path)).filter (· ≠ [])
  let common := (commonPrefix startList pathList).length
  let relList := List.replicate (startList.length - common) ['.', '.'] ++ pathList.drop common
  if relList = [] then ['.'] else ['/'].intercalate relList

/-! ## Names -/

/-- A component that normalization keeps. -/
structure Plain (c : List Char) : Prop where
  nonempty : c ≠ []
  notSelf : c ≠ ['.']
  notParent : c ≠ ['.', '.']
  noSlash : '/' ∉ c

theorem plain_iff {c : List Char} : Plain c ↔ c ≠ [] ∧ c ≠ ['.'] ∧ c ≠ ['.', '.'] ∧ '/' ∉ c :=
  ⟨fun h => ⟨h.nonempty, h.notSelf, h.notParent, h.noSlash⟩, fun ⟨hne, hself, hparent, hslash⟩ => ⟨hne, hself, hparent, hslash⟩⟩

instance (c : List Char) : Decidable (Plain c) := decidable_of_iff _ plain_iff.symm

theorem not_mem_of_mem_splitChars {sep : Char} {path c : List Char} (h : c ∈ splitChars sep path) : sep ∉ c := by
  induction path generalizing c with
  | nil =>
    obtain rfl := List.mem_singleton.mp h
    exact List.not_mem_nil
  | cons d path ih =>
    unfold splitChars at h
    by_cases hd : d = sep
    · rw [if_pos hd] at h
      rcases List.mem_cons.mp h with rfl | h
      · exact List.not_mem_nil
      · exact ih h
    · rw [if_neg hd] at h
      cases hfields : splitChars sep path with
      | nil =>
        rw [hfields] at h
        obtain rfl := List.mem_singleton.mp h
        exact fun hc => hd (List.mem_singleton.mp hc).symm
      | cons field fields =>
        rw [hfields] at h ih
        rcases List.mem_cons.mp h with rfl | h
        · rintro (_ | ⟨_, hc⟩)
          · exact hd rfl
          · exact ih List.mem_cons_self hc
        · exact ih (List.mem_cons_of_mem _ h)

/-- Normalization leaves names. -/
theorem plain_foldl {cs acc : List (List Char)} (hacc : ∀ c ∈ acc, Plain c) (hcs : ∀ c ∈ cs, '/' ∉ c) :
    ∀ c ∈ cs.foldl normComponent acc, Plain c := by
  induction cs generalizing acc with
  | nil => exact hacc
  | cons c cs ih =>
    refine ih ?_ fun d hd => hcs d (List.mem_cons_of_mem _ hd)
    unfold normComponent
    by_cases hself : c = [] ∨ c = ['.']
    · rwa [if_pos hself]
    · rw [if_neg hself]
      by_cases hparent : c = ['.', '.']
      · rw [if_pos hparent]
        exact fun d hd => hacc d (List.mem_of_mem_dropLast hd)
      · rw [if_neg hparent]
        obtain ⟨hne, hdot⟩ := not_or.mp hself
        intro d hd
        rcases List.mem_append.mp hd with hd | hd
        · exact hacc d hd
        · obtain rfl := List.mem_singleton.mp hd
          exact ⟨hne, hdot, hparent, hcs d List.mem_cons_self⟩

theorem foldl_normComponent {cs : List (List Char)} (hcs : ∀ c ∈ cs, Plain c) (acc : List (List Char)) :
    cs.foldl normComponent acc = acc ++ cs := by
  induction cs generalizing acc with
  | nil => simp
  | cons c cs ih =>
    have hc := hcs c List.mem_cons_self
    have hstep : normComponent acc c = acc ++ [c] := by
      rw [normComponent, if_neg (not_or.mpr ⟨hc.nonempty, hc.notSelf⟩), if_neg hc.notParent]
    rw [List.foldl_cons, hstep, ih fun d hd => hcs d (List.mem_cons_of_mem _ hd), List.append_assoc, List.singleton_append]

/-! ## Paths that are normalized -/

/-- A normalized path: one slash, or two, and names. -/
def slashes (double : Bool) (cs : List (List Char)) : List Char :=
  (if double then ['/', '/'] else ['/']) ++ ['/'].intercalate cs

theorem slashes_false (cs : List (List Char)) : slashes false cs = '/' :: ['/'].intercalate cs := rfl

theorem slashes_true (cs : List (List Char)) : slashes true cs = '/' :: slashes false cs := rfl

/-- What an absolute path is normalized to. -/
theorem normpath_eq (path : List Char) : ∃ double cs, (∀ c ∈ cs, Plain c) ∧ normpath path = slashes double cs := by
  have hplain : ∀ c ∈ (splitChars '/' path).foldl normComponent [], Plain c :=
    plain_foldl nofun fun c hc => not_mem_of_mem_splitChars hc
  by_cases hdouble : (['/', '/'].isPrefixOf path && !(['/', '/', '/'].isPrefixOf path)) = true
  · refine ⟨true, _, hplain, ?_⟩
    rw [normpath, rootSlashes, if_pos hdouble]
    rfl
  · refine ⟨false, _, hplain, ?_⟩
    rw [normpath, rootSlashes, if_neg hdouble]
    rfl

variable {double : Bool} {cs : List (List Char)}

theorem head_intercalate (hcs : ∀ c ∈ cs, Plain c) : ['/'].intercalate cs = [] ∨ ∃ d l, d ≠ '/' ∧ ['/'].intercalate cs = d :: l := by
  cases cs with
  | nil => exact .inl rfl
  | cons c cs =>
    obtain ⟨hne, -, -, hslash⟩ := hcs c List.mem_cons_self
    cases c with
    | nil => exact absurd rfl hne
    | cons d l =>
      have hd : d ≠ '/' := fun hd => hslash (hd ▸ List.mem_cons_self)
      cases cs with
      | nil => exact .inr ⟨d, l, hd, List.intercalate_singleton⟩
      | cons c' cs =>
        refine .inr ⟨d, l ++ ['/'] ++ ['/'].intercalate (c' :: cs), hd, ?_⟩
        rw [List.intercalate_cons_cons, List.cons_append, List.cons_append]

/-- The text between the slashes of a normalized path; at the root there is only the empty text. -/
theorem splitChars_names (hcs : ∀ c ∈ cs, Plain c) : splitChars '/' (['/'].intercalate cs) = if cs = [] then [[]] else cs := by
  by_cases hne : cs = []
  · rw [if_pos hne, hne]
    rfl
  · rw [if_neg hne, splitChars_intercalate hne fun c hc => (hcs c hc).noSlash]

theorem splitChars_slashes (hcs : ∀ c ∈ cs, Plain c) :
    splitChars '/' (slashes double cs) = (if double then [[], []] else [[]]) ++ if cs = [] then [[]] else cs := by
  have hslash : ∀ path, splitChars '/' ('/' :: path) = [] :: splitChars '/' path := fun path => by rw [splitChars, if_pos rfl]
  cases double
  · rw [slashes_false, hslash, splitChars_names hcs]
    rfl
  · rw [slashes_true, slashes_false, hslash, hslash, splitChars_names hcs]
    rfl

theorem filter_names {p : List Char → Bool} (hempty : p [] = false) (hp : ∀ c, Plain c → p c = true) (hcs : ∀ c ∈ cs, Plain c) :
    (splitChars '/' (slashes double cs)).filter p = cs := by
  have hall : cs.filter p = cs := List.filter_eq_self.mpr fun c hc => hp c (hcs c hc)
  rw [splitChars_slashes hcs, List.filter_append]
  by_cases hne : cs = [] <;> cases double <;> simp [hne, hempty, hall]

theorem pathComponents_slashes (hcs : ∀ c ∈ cs, Plain c) : pathComponents (slashes double cs) = cs :=
  filter_names rfl (fun c hc => by simp [hc.nonempty, hc.notSelf]) hcs

/-- The text of a normalized path determines its names. -/
theorem slashes_injective {double' : Bool} {cs' : List (List Char)} (hcs : ∀ c ∈ cs, Plain c) (hcs' : ∀ c ∈ cs', Plain c)
    (h : slashes double cs = slashes double' cs') : double = double' ∧ cs = cs' := by
  have hnames : cs = cs' := calc
    cs = pathComponents (slashes double cs) := (pathComponents_slashes hcs).symm
    _ = pathComponents (slashes double' cs') := by rw [h]
    _ = cs' := pathComponents_slashes hcs'
  subst hnames
  refine ⟨?_, rfl⟩
  have hlength := congrArg List.length h
  cases double <;> cases double' <;> simp_all [slashes]

/-- A normalized path stays as it is. -/
theorem normpath_slashes (hcs : ∀ c ∈ cs, Plain c) : normpath (slashes double cs) = slashes double cs := by
  have hfold : (splitChars '/' (slashes double cs)).foldl normComponent [] = cs := by
    have hnames : cs.foldl normComponent [] = cs := foldl_normComponent hcs []
    have hnil : normComponent [] [] = [] := rfl
    rw [splitChars_slashes hcs, List.foldl_append]
    by_cases hne : cs = []
    · subst hne
      cases double <;> rfl
    · rw [if_neg hne]
      cases double
      · exact hnames
      · exact hnames
  have hroot : rootSlashes (slashes double cs) = if double then ['/', '/'] else ['/'] := by
    unfold rootSlashes slashes
    rcases head_intercalate hcs with h | ⟨d, l, hd, h⟩
    · rw [h]
      cases double <;> rfl
    · rw [h]
      cases double <;> simp [hd.symm]
  rw [normpath, hfold, hroot]
  rfl

/-! ## Directories -/

theorem intercalate_snoc (c : List Char) (cs : List (List Char)) :
    ['/'].intercalate (cs ++ [c]) = ['/'].intercalate cs ++ (if cs = [] then [] else ['/']) ++ c := by
  rw [intercalate_append (List.cons_ne_nil c []), List.intercalate_singleton]

/-- Names do not end in a slash. -/
theorem last_intercalate (hcs : ∀ c ∈ cs, Plain c) : cs = [] ∨ ∃ l d, d ≠ '/' ∧ ['/'].intercalate cs = l ++ [d] := by
  rcases List.eq_nil_or_concat cs with rfl | ⟨cs, c, rfl⟩
  · exact .inl rfl
  · obtain ⟨hne, -, -, hslash⟩ := hcs c (by simp)
    obtain ⟨c, d, rfl⟩ := (List.eq_nil_or_concat c).resolve_left hne
    refine .inr ⟨['/'].intercalate cs ++ (if cs = [] then [] else ['/']) ++ c, d, ?_, ?_⟩
    · rintro rfl
      simp at hslash
    · rw [List.concat_eq_append, List.concat_eq_append, intercalate_snoc]
      simp

section Lead

variable {lead : List Char} (hlead : ∀ d ∈ lead, d = '/')

include hlead

/-- A path up to its last slash. -/
theorem rdropWhile_names {c : List Char} (hc : '/' ∉ c) (cs : List (List Char)) :
    (lead ++ ['/'].intercalate (cs ++ [c])).rdropWhile (· ≠ '/') =
      lead ++ ['/'].intercalate cs ++ if cs = [] then [] else ['/'] := by
  have hdrop : ∀ x : List Char, (x ++ c).rdropWhile (· ≠ '/') = x.rdropWhile (· ≠ '/') := fun x => by
    rw [List.rdropWhile, List.reverse_append, List.dropWhile_append_of_pos, ← List.rdropWhile]
    intro d hd
    simp only [ne_eq, decide_not, Bool.not_eq_true', decide_eq_false_iff_not]
    rintro rfl
    exact hc (List.mem_reverse.mp hd)
  rw [intercalate_snoc, ← List.append_assoc, ← List.append_assoc, hdrop]
  refine List.rdropWhile_eq_self_iff.mpr fun hl => ?_
  by_cases hne : cs = []
  · subst hne
    have hlast := hlead _ (List.getLast_mem (l := lead) (by simpa [List.intercalate] using hl))
    simpa [List.intercalate] using hlast
  · simp [hne]

theorem dirname_names {c : List Char} (hc : '/' ∉ c) (hcs : ∀ c ∈ cs, Plain c) :
    dirname (lead ++ ['/'].intercalate (cs ++ [c])) = lead ++ ['/'].intercalate cs := by
  unfold dirname
  rw [rdropWhile_names hlead hc]
  rcases last_intercalate hcs with rfl | ⟨l, d, hd, hl⟩
  · have hall : (lead ++ ['/'].intercalate ([] : List (List Char)) ++ (if ([] : List (List Char)) = [] then [] else ['/'])).all
        (· = '/') = true := by
      simpa [List.intercalate] using hlead
    dsimp only
    rw [if_pos hall]
    simp
  · have hne : cs ≠ [] := by
      rintro rfl
      simp [List.intercalate] at hl
    have hall : ¬(lead ++ ['/'].intercalate cs ++ (if cs = [] then [] else ['/'])).all (· = '/') = true := by
      rw [hl]
      simp [hd]
    dsimp only
    rw [if_neg hall, if_neg hne, List.rdropWhile_concat_pos _ _ _ (by simp), hl, ← List.append_assoc,
      List.rdropWhile_concat_neg _ _ _ (by simpa using hd)]

end Lead

theorem dirname_slashes {c : List Char} (hcs : ∀ d ∈ cs ++ [c], Plain d) :
    dirname (slashes double (cs ++ [c])) = slashes double cs := by
  refine dirname_names (fun d hd => ?_) (hcs c (by simp)).noSlash fun d hd => hcs d (List.mem_append_left _ hd)
  cases double <;> simp_all

theorem basename_slashes {c : List Char} (hc : Plain c) (cs : List (List Char)) : basename (slashes double (cs ++ [c])) = c := by
  have hlead : ∀ d ∈ (if double then ['/', '/'] else ['/'] : List Char), d = '/' := fun d hd => by
    cases double <;> simp_all
  have happend := List.rdropWhile_append_rtakeWhile (p := (· ≠ '/')) (l := slashes double (cs ++ [c]))
  conv at happend =>
    rhs
    rw [slashes, intercalate_snoc, ← List.append_assoc, ← List.append_assoc]
  rw [slashes, rdropWhile_names hlead hc.noSlash] at happend
  exact List.append_cancel_left happend

/-! ## Joining -/

theorem isabs_cons (d : Char) (l : List Char) : ['/'].isPrefixOf (d :: l) = decide (d = '/') := by
  rw [List.isPrefixOf, List.isPrefixOf_nil_left, Bool.and_true]
  by_cases hd : d = '/'
  · rw [hd]
    rfl
  · rw [beq_eq_false_iff_ne.mpr (Ne.symm hd), decide_eq_false hd]

/-- A slash behind a normalized path is dropped. -/
theorem normpath_trailing (hcs : ∀ c ∈ cs, Plain c) (hne : cs ≠ []) : normpath (slashes false cs ++ ['/']) = slashes false cs := by
  have htext : slashes false cs ++ ['/'] = '/' :: ['/'].intercalate (cs ++ [[]]) := by
    rw [intercalate_snoc, if_neg hne, List.append_nil]
    rfl
  have hsep : ∀ c ∈ cs ++ [[]], '/' ∉ c := fun c hc => by
    rcases List.mem_append.mp hc with hc | hc
    · exact (hcs c hc).noSlash
    · exact List.mem_singleton.mp hc ▸ List.not_mem_nil
  have hfold : (splitChars '/' (slashes false cs ++ ['/'])).foldl normComponent [] = cs := by
    have hnames : cs.foldl normComponent [] = cs := foldl_normComponent hcs []
    rw [htext, splitChars, if_pos rfl, splitChars_intercalate (by simp) hsep, List.foldl_cons, List.foldl_append]
    exact hnames.symm ▸ rfl
  have hroot : rootSlashes (slashes false cs ++ ['/']) = ['/'] := by
    unfold rootSlashes slashes
    rcases head_intercalate hcs with h | ⟨d, l, hd, h⟩
    · exact absurd h fun h => by
        rcases last_intercalate hcs with hnil | ⟨l, d, -, hl⟩
        · exact hne hnil
        · rw [h] at hl
          simp at hl
    · rw [h]
      simp [hd.symm]
  rw [normpath, hfold, hroot]
  rfl

theorem last_slashes (hcs : ∀ c ∈ cs, Plain c) : (slashes double cs).getLast? = some '/' ↔ cs = [] := by
  unfold slashes
  rcases last_intercalate hcs with rfl | ⟨l, d, hd, hl⟩
  · cases double <;> simp [List.intercalate]
  · have hne : cs ≠ [] := by
      rintro rfl
      simp [List.intercalate] at hl
    rw [hl, ← List.append_assoc, List.getLast?_concat]
    simp [hne, hd]

/-- A path that does not begin with a slash is joined to a normalized one. -/
theorem join_slashes {path : List Char} (hcs : ∀ c ∈ cs, Plain c) (hpath : ['/'].isPrefixOf path = false) :
    join (slashes double cs) path = slashes double cs ++ (if cs = [] then [] else ['/']) ++ path := by
  have hne : slashes double cs ≠ [] := by cases double <;> simp [slashes]
  unfold join
  by_cases hempty : cs = []
  · have hlast : (slashes double cs).getLast? = some '/' := (last_slashes hcs).mpr hempty
    rw [hlast, hpath, hempty]
    simp
  · have hlast : (slashes double cs).getLast? ≠ some '/' := fun h => hempty ((last_slashes hcs).mp h)
    simp [hpath, hne, hlast, hempty]

theorem join_name {c : List Char} (hcs : ∀ c ∈ cs, Plain c) (hc : Plain c) :
    join (slashes double cs) c = slashes double (cs ++ [c]) := by
  have hslash : ['/'].isPrefixOf c = false := by
    obtain ⟨hne, -, -, hslash⟩ := hc
    cases c with
    | nil => exact absurd rfl hne
    | cons d c =>
      rw [isabs_cons]
      exact decide_eq_false fun hd => hslash (hd ▸ List.mem_cons_self)
  rw [join_slashes hcs hslash, slashes, slashes, intercalate_snoc]
  simp only [List.append_assoc]

/-- Names are joined to a normalized path, and the path is normalized. -/
theorem normpath_join {names : List (List Char)} (hcs : ∀ c ∈ cs ++ names, Plain c) :
    normpath (join (slashes false cs) (['/'].intercalate names)) = slashes false (cs ++ names) := by
  have hpath : ∀ c ∈ cs, Plain c := fun c hc => hcs c (List.mem_append_left _ hc)
  have hnames : ∀ c ∈ names, Plain c := fun c hc => hcs c (List.mem_append_right _ hc)
  have hslash : ['/'].isPrefixOf (['/'].intercalate names) = false := by
    rcases head_intercalate hnames with h | ⟨d, l, hd, h⟩
    · rw [h]
      rfl
    · rw [h, isabs_cons]
      exact decide_eq_false hd
  rw [join_slashes hpath hslash]
  by_cases hempty : names = []
  · subst hempty
    rw [List.append_nil, List.intercalate_nil, List.append_nil]
    by_cases hroot : cs = []
    · rw [if_pos hroot, List.append_nil, normpath_slashes hpath]
    · rw [if_neg hroot, normpath_trailing hpath hroot]
  · rw [← normpath_slashes hcs, slashes, slashes, intercalate_append hempty]
    simp only [List.append_assoc]

/-! ## Paths below others -/

theorem commonPrefix_leads : ∀ as bs : List (List Char), commonPrefix as bs <+: as
  | [], _ => List.nil_prefix
  | _ :: _, [] => List.nil_prefix
  | a :: as, b :: bs => by
    unfold commonPrefix
    split
    · exact (List.prefix_cons_inj a).mpr (commonPrefix_leads as bs)
    · exact List.nil_prefix

theorem commonPrefix_eq_right_iff : ∀ {as bs : List (List Char)}, commonPrefix as bs = bs ↔ bs <+: as
  | [], bs => by simp [commonPrefix, eq_comm]
  | _ :: _, [] => by simp [commonPrefix]
  | a :: as, b :: bs => by
    rw [commonPrefix, List.cons_prefix_cons]
    by_cases h : a = b
    · subst h
      simp [commonPrefix_eq_right_iff]
    · simp [h, Ne.symm h]

theorem commonPrefix_append : ∀ as bs : List (List Char), commonPrefix as (as ++ bs) = as
  | [], _ => rfl
  | a :: as, bs => by rw [List.cons_append, commonPrefix, if_pos rfl, commonPrefix_append as bs]

theorem commonpath_slashes {double' : Bool} {rs : List (List Char)} (hcs : ∀ c ∈ cs, Plain c) (hrs : ∀ c ∈ rs, Plain c) :
    commonpath (slashes double cs) (slashes double' rs) = slashes double' rs ↔ double' = false ∧ rs <+: cs := by
  rw [commonpath, pathComponents_slashes hcs, pathComponents_slashes hrs, ← slashes_false]
  have hcommon : ∀ c ∈ commonPrefix cs rs, Plain c := fun c hc => hcs c ((commonPrefix_leads cs rs).subset hc)
  constructor
  · intro h
    obtain ⟨hdouble, hprefix⟩ := slashes_injective hcommon hrs h
    exact ⟨hdouble.symm, commonPrefix_eq_right_iff.mp hprefix⟩
  · rintro ⟨rfl, hprefix⟩
    rw [commonPrefix_eq_right_iff.mpr hprefix]

theorem relpath_slashes {double' : Bool} {rs rel : List (List Char)} (hcs : ∀ c ∈ rs ++ rel, Plain c) :
    relpath (slashes double (rs ++ rel)) (slashes double' rs) = if rel = [] then ['.'] else ['/'].intercalate rel := by
  have hrs : ∀ c ∈ rs, Plain c := fun c hc => hcs c (List.mem_append_left _ hc)
  have hfilter : ∀ {double : Bool} {cs : List (List Char)}, (∀ c ∈ cs, Plain c) →
      (splitChars '/' (slashes double cs)).filter (· ≠ []) = cs := fun hcs =>
    filter_names rfl (fun c hc => by simp [hc.nonempty]) hcs
  unfold relpath
  rw [normpath_slashes hcs, normpath_slashes hrs, hfilter hcs, hfilter hrs]
  dsimp only
  rw [commonPrefix_append, Nat.sub_self, List.replicate_zero, List.nil_append, List.drop_left]

end Kadalu.Node
