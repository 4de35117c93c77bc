import Kadalu.Operator.Rollout
import Mathlib.Data.List.DropRight
import Mathlib.Data.List.Dedup
import Mathlib.Data.List.Sort

/-!
# Names of the operator's resources

The checks of Kubernetes names, UUIDs and Gluster endpoints, on the characters of a string.
-/

namespace Kadalu.Operator

/-! ## Characters -/

/-- `value.strip()` for ASCII whitespace -/
def strip (value : List Char) : List Char := (value.dropWhile Char.isWhitespace).rdropWhile Char.isWhitespace

/-- `value.split(sep)` -/
def splitChars (sep : Char) : List Char → List (List Char)
  | [] => [[]]
  | c :: cs =>
    if c = sep then [] :: splitChars sep cs
    else
      match splitChars sep cs with
      | [] => [[c]]
      | field :: fields => (c :: field) :: fields

/-- A control character. -/
def isControl (c : Char) : Bool := c.toNat < 32 || c.toNat == 127

/-- `[a-z0-9]` -/
def isDnsChar (c : Char) : Bool := ('a' ≤ c && c ≤ 'z') || ('0' ≤ c && c ≤ '9')

/-- A nonempty word over `inner` that begins and ends in `outer`. -/
def isName (outer inner : Char → Bool) (value : List Char) : Bool :=
  value.head?.any outer && value.getLast?.any outer && value.all inner

/-- `DNS_LABEL_RE` -/
def isDnsLabel (value : List Char) : Bool := isName isDnsChar (fun c => isDnsChar c || c = '-') value

/-- `DNS_SUBDOMAIN_RE` -/
def isDnsSubdomain (value : List Char) : Bool := (splitChars '.' value).all isDnsLabel

/-- `LABEL_NAME_RE` -/
def isLabelName (value : List Char) : Bool :=
  isName Char.isAlphanum (fun c => c.isAlphanum || c ∈ ['-', '_', '.']) value

/-- `_valid_label_value` -/
def validLabelValue (value : String) : Bool := value = "" || (value.length ≤ 63 && isLabelName value.toList)

/-! ## UUIDs -/

/-- `value.replace(pattern, "")`; `skip` characters of a match are still to be dropped. -/
def removeAll (pattern : List Char) : Nat → List Char → List Char
  | _, [] => []
  | skip + 1, _ :: cs => removeAll pattern skip cs
  | 0, c :: cs =>
    if pattern.isPrefixOf (c :: cs) then removeAll pattern (pattern.length - 1) cs else c :: removeAll pattern 0 cs

def isHexDigit (c : Char) : Bool := ('0' ≤ c && c ≤ '9') || ('a' ≤ c && c ≤ 'f')

/-- `str(uuid.UUID(value))` -/
def canonicalUuid (value : String) : Option String :=
  let hex := removeAll ['u', 'u', 'i', 'd', ':'] 0 (removeAll ['u', 'r', 'n', ':'] 0 value.toList)
  let isBrace := fun c => c = '{' || c = '}'
  let hex := (((hex.dropWhile isBrace).rdropWhile isBrace).filter (· ≠ '-')).map Char.toLower
  if hex.length = 32 && hex.all isHexDigit then
    some (String.ofList (hex.take 8 ++ ['-'] ++ (hex.drop 8).take 4 ++ ['-'] ++ (hex.drop 12).take 4 ++ ['-'] ++
      (hex.drop 16).take 4 ++ ['-'] ++ hex.drop 20))
  else none

/-- A string that is a UUID in the form that `str` gives it. -/
def isCanonicalUuid (value : String) : Bool := canonicalUuid value = some value

/-- `_canonical_gluster_hosts`: endpoints without order and repetition. -/
def canonicalGlusterHosts (hosts : List String) : List String :=
  (((hosts.map fun host => String.ofList (strip host.toList)).filter (· ≠ "")).dedup).insertionSort (· ≤ ·)

/-! ## Splitting -/

theorem splitChars_of_not_mem {sep : Char} {field : List Char} (h : sep ∉ field) : splitChars sep field = [field] := by
  induction field with
  | nil => rfl
  | cons c cs ih =>
    obtain ⟨hc, hcs⟩ := List.ne_and_not_mem_of_not_mem_cons h
    rw [splitChars, if_neg (Ne.symm hc), ih hcs]

theorem splitChars_append {sep : Char} {field rest : List Char} (h : sep ∉ field) :
    splitChars sep (field ++ sep :: rest) = field :: splitChars sep rest := by
  induction field with
  | nil => rw [List.nil_append, splitChars, if_pos rfl]
  | cons c cs ih =>
    obtain ⟨hc, hcs⟩ := List.ne_and_not_mem_of_not_mem_cons h
    rw [List.cons_append, splitChars, if_neg (Ne.symm hc), ih hcs]

/-- Splitting undoes joining. -/
theorem splitChars_intercalate {sep : Char} : ∀ {fields : List (List Char)}, fields ≠ [] → (∀ f ∈ fields, sep ∉ f) →
    splitChars sep ([sep].intercalate fields) = fields
  | [], h, _ => absurd rfl h
  | [field], _, hsep => by
    have : [sep].intercalate [field] = field := by simp [List.intercalate]
    rw [this]
    exact splitChars_of_not_mem (hsep field (by simp))
  | field :: next :: fields, _, hsep => by
    have : [sep].intercalate (field :: next :: fields) = field ++ sep :: [sep].intercalate (next :: fields) := by
      simp [List.intercalate]
    rw [this, splitChars_append (hsep field (by simp)),
      splitChars_intercalate (by simp) fun f hf => hsep f (List.mem_cons_of_mem _ hf)]

/-! ## Canonical forms -/

/-- A pattern with a character that the text does not have. -/
theorem removeAll_of_not_mem {pattern : List Char} {c : Char} (hc : c ∈ pattern) {value : List Char} (h : c ∉ value) :
    removeAll pattern 0 value = value := by
  induction value with
  | nil => rfl
  | cons d ds ih =>
    have hprefix : ¬pattern.isPrefixOf (d :: ds) = true := fun hp =>
      h ((List.isPrefixOf_iff_prefix.mp hp).subset hc)
    rw [removeAll, if_neg hprefix, ih fun hm => h (List.mem_cons_of_mem _ hm)]

theorem isHexDigit_toLower {c : Char} (h : isHexDigit c = true) : c.toLower = c := by
  simp only [isHexDigit, Bool.or_eq_true, Bool.and_eq_true, decide_eq_true_eq, Char.le_def, UInt32.le_iff_toNat_le] at h
  have h9 : '9'.val.toNat = 57 := rfl
  have ha : 'a'.val.toNat = 97 := rfl
  have hA : 'A'.val.toNat = 65 := rfl
  have hZ : 'Z'.val.toNat = 90 := rfl
  unfold Char.toLower
  rw [dif_neg]
  rintro ⟨hl, hu⟩
  rw [ge_iff_le, UInt32.le_iff_toNat_le] at hl
  rw [UInt32.le_iff_toNat_le] at hu
  omega

/-- The groups of a UUID. -/
def hyphenate (hex : List Char) : List Char :=
  hex.take 8 ++ ['-'] ++ (hex.drop 8).take 4 ++ ['-'] ++ (hex.drop 12).take 4 ++ ['-'] ++ (hex.drop 16).take 4 ++ ['-'] ++
    hex.drop 20

theorem mem_hyphenate {hex : List Char} {c : Char} (h : c ∈ hyphenate hex) : c ∈ hex ∨ c = '-' := by
  simp only [hyphenate, List.mem_append, List.mem_singleton] at h
  rcases h with (((((((h | h) | h) | h) | h) | h) | h) | h) | h
  · exact .inl (List.mem_of_mem_take h)
  · exact .inr h
  · exact .inl (List.mem_of_mem_drop (List.mem_of_mem_take h))
  · exact .inr h
  · exact .inl (List.mem_of_mem_drop (List.mem_of_mem_take h))
  · exact .inr h
  · exact .inl (List.mem_of_mem_drop (List.mem_of_mem_take h))
  · exact .inr h
  · exact .inl (List.mem_of_mem_drop h)

theorem filter_hyphenate {hex : List Char} (h : '-' ∉ hex) : (hyphenate hex).filter (· ≠ '-') = hex := by
  have hpart : ∀ part : List Char, part.Sublist hex → part.filter (· ≠ '-') = part := fun part hp =>
    List.filter_eq_self.mpr fun c hc => decide_eq_true fun he => h (he ▸ hp.subset hc)
  have hdash : ['-'].filter (· ≠ '-') = [] := rfl
  unfold hyphenate
  simp only [List.filter_append, hdash, List.append_nil]
  rw [hpart _ (List.take_sublist 8 hex), hpart _ ((List.take_sublist 4 _).trans (List.drop_sublist 8 hex)),
    hpart _ ((List.take_sublist 4 _).trans (List.drop_sublist 12 hex)),
    hpart _ ((List.take_sublist 4 _).trans (List.drop_sublist 16 hex)), hpart _ (List.drop_sublist 20 hex)]
  have hjoin : ∀ n, hex.take n ++ (hex.drop n).take 4 = hex.take (n + 4) := fun n => List.take_add.symm
  rw [hjoin 8, hjoin 12, hjoin 16, List.take_append_drop]

/-- The canonical form of a UUID is its own. -/
theorem isCanonicalUuid_canonicalUuid {value canonical : String} (h : canonicalUuid value = some canonical) :
    isCanonicalUuid canonical = true := by
  obtain ⟨hex, hlen, hall, rfl⟩ : ∃ hex : List Char, hex.length = 32 ∧ (∀ c ∈ hex, isHexDigit c = true) ∧
      canonical = String.ofList (hyphenate hex) := by
    unfold canonicalUuid at h
    dsimp only at h
    split at h
    · next hc =>
      simp only [Bool.and_eq_true, decide_eq_true_eq, List.all_eq_true] at hc
      exact ⟨_, hc.1, hc.2, (Option.some.inj h).symm⟩
    · cases h
  have hdash : '-' ∉ hex := fun hm => absurd (hall _ hm) (by decide)
  have hplain : ∀ c ∈ hyphenate hex, isHexDigit c = true ∨ c = '-' := fun c hc => (mem_hyphenate hc).imp_left (hall c)
  have hcolon : ':' ∉ hyphenate hex := fun hm => by rcases hplain _ hm with h | h <;> revert h <;> decide
  have hbrace : ∀ c ∈ hyphenate hex, ¬(c = '{' || c = '}') = true := fun c hc hb => by
    rcases hplain c hc with hx | rfl
    · simp only [Bool.or_eq_true, decide_eq_true_eq] at hb
      rcases hb with rfl | rfl <;> revert hx <;> decide
    · revert hb
      decide
  have hstrip : ((hyphenate hex).dropWhile fun c => c = '{' || c = '}').rdropWhile (fun c => c = '{' || c = '}') =
      hyphenate hex := by
    rw [List.dropWhile_eq_self_iff.mpr fun hl => hbrace _ (List.getElem_mem _),
      List.rdropWhile_eq_self_iff.mpr fun hl => hbrace _ (List.getLast_mem _)]
  have hlower : hex.map Char.toLower = hex := by
    conv_rhs => rw [← List.map_id hex]
    exact List.map_congr_left fun c hc => isHexDigit_toLower (hall c hc)
  have hcanon : canonicalUuid (String.ofList (hyphenate hex)) = some (String.ofList (hyphenate hex)) := by
    unfold canonicalUuid
    simp only [String.toList_ofList]
    rw [removeAll_of_not_mem (c := ':') (by decide) hcolon, removeAll_of_not_mem (c := ':') (by decide) hcolon, hstrip,
      filter_hyphenate hdash, hlower, if_pos]
    · rfl
    · simp only [hlen, Bool.and_eq_true, decide_eq_true_eq, List.all_eq_true]
      exact ⟨trivial, hall⟩
  exact decide_eq_true hcanon

/-- The canonical endpoints are the ones that are given, trimmed. -/
theorem mem_canonicalGlusterHosts {hosts : List String} {host : String} : host ∈ canonicalGlusterHosts hosts ↔
    host ≠ "" ∧ ∃ given ∈ hosts, String.ofList (strip given.toList) = host := by
  unfold canonicalGlusterHosts
  rw [(List.perm_insertionSort _ _).mem_iff, List.mem_dedup, List.mem_filter, decide_eq_true_eq, List.mem_map, and_comm]

/-- Endpoints that are trimmed stay as they are. -/
theorem canonicalGlusterHosts_of_trimmed {hosts : List String}
    (h : ∀ host ∈ hosts, strip host.toList = host.toList ∧ host ≠ "") :
    canonicalGlusterHosts hosts = hosts.dedup.insertionSort (· ≤ ·) := by
  have hmap : hosts.map (fun host => String.ofList (strip host.toList)) = hosts := by
    conv_rhs => rw [← List.map_id hosts]
    exact List.map_congr_left fun host hh => by rw [(h host hh).1, String.ofList_toList, id]
  unfold canonicalGlusterHosts
  rw [hmap, List.filter_eq_self.mpr fun host hh => decide_eq_true (h host hh).2]

theorem mem_canonicalGlusterHosts_of_trimmed {hosts : List String}
    (h : ∀ host ∈ hosts, strip host.toList = host.toList ∧ host ≠ "") {host : String} :
    host ∈ canonicalGlusterHosts hosts ↔ host ∈ hosts := by
  rw [canonicalGlusterHosts_of_trimmed h, (List.perm_insertionSort _ _).mem_iff, List.mem_dedup]

/-- Canonical endpoints are their own canonical form. -/
theorem canonicalGlusterHosts_idem {hosts : List String}
    (h : ∀ host ∈ hosts, strip host.toList = host.toList ∧ host ≠ "") :
    canonicalGlusterHosts (canonicalGlusterHosts hosts) = canonicalGlusterHosts hosts := by
  rw [canonicalGlusterHosts_of_trimmed fun host hh => h host ((mem_canonicalGlusterHosts_of_trimmed h).mp hh),
    canonicalGlusterHosts_of_trimmed h]
  have hnodup : (hosts.dedup.insertionSort (· ≤ ·)).Nodup :=
    (List.perm_insertionSort _ _).nodup_iff.mpr (List.nodup_dedup _)
  rw [hnodup.dedup]
  exact (List.pairwise_insertionSort _ _).insertionSort_eq

end Kadalu.Operator
