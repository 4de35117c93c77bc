import Kadalu.Volume.Paths

/-!
# Paths as strings

`Path.text` is the string that the source writes for a path, `InfoFile.text` the name of a file below `info` that belongs to
it. The components of a volume path have no slash and are no directory links (`volumePaths_safe`), whatever the ID is, so the
string determines the path: different volumes have payloads apart from each other (`text_apart`) and files of their own below
`info` (`infoFile_injective`).
-/

namespace Kadalu

/-! ## Strings -/

/-- The path as a string. -/
def Path.text (p : Path) : String := "/".intercalate p

/-- `path` lies below the directory `parent`. -/
def IsBelow (parent path : String) : Prop := (parent ++ "/").toList <+: path.toList

/-- The files below `info` that belong to a path. -/
inductive InfoFile where
  | metadata
  | creationIntent
  | expansionIntent
  deriving DecidableEq, Repr

def InfoFile.suffix : InfoFile → String
  | metadata => ".json"
  | creationIntent => ".create-intent"
  | expansionIntent => ".expand-intent"

/-- The name of the file below `info`: that of the metadata, of `_creation_intent_path` or of `_expansion_intent_path`. -/
def InfoFile.text (file : InfoFile) (volpath : Path) : String := volpath.text ++ file.suffix

/-- A component that leads down by one directory. -/
structure SafeComponent (c : String) : Prop where
  noSlash : '/' ∉ c.toList
  nonempty : c ≠ ""
  notSelf : c ≠ "."
  notParent : c ≠ ".."

variable {p q : Path}

theorem text_toList (p : Path) : p.text.toList = ['/'].intercalate (p.map String.toList) := by
  simp [Path.text]

theorem splitOn_text (hp : p ≠ []) (hs : ∀ c ∈ p, '/' ∉ c.toList) : p.text.toList.splitOn '/' = p.map String.toList := by
  rw [text_toList]
  refine List.splitOn_intercalate '/' (fun l hl => ?_) (by simpa using hp)
  obtain ⟨c, hc, rfl⟩ := List.mem_map.mp hl
  exact hs c hc

theorem map_toList_injective (h : p.map String.toList = q.map String.toList) : p = q :=
  List.map_injective_iff.mpr (fun _ _ => String.toList_injective) h

/-- The string determines the components. -/
theorem text_injective (hp : p ≠ []) (hq : q ≠ []) (hps : ∀ c ∈ p, '/' ∉ c.toList) (hqs : ∀ c ∈ q, '/' ∉ c.toList)
    (h : p.text = q.text) : p = q := by
  refine map_toList_injective ?_
  rw [← splitOn_text hp hps, ← splitOn_text hq hqs, h]

/-- A path below another one begins with its components. -/
theorem prefix_of_isBelow (hp : p ≠ []) (hq : q ≠ []) (hps : ∀ c ∈ p, '/' ∉ c.toList) (hqs : ∀ c ∈ q, '/' ∉ c.toList)
    (h : IsBelow p.text q.text) : ∃ rest, rest ≠ [] ∧ q = p ++ rest := by
  obtain ⟨rest, hrest⟩ := h
  have hsplit : q.map String.toList = p.map String.toList ++ rest.splitOn '/' := by
    rw [← splitOn_text hq hqs, ← hrest, ← splitOn_text hp hps]
    simp [List.splitOn_append_cons_self]
  obtain ⟨q₁, q₂, rfl, h₁, h₂⟩ := List.map_eq_append_iff.mp hsplit
  refine ⟨q₂, ?_, by rw [map_toList_injective h₁]⟩
  rintro rfl
  exact List.splitOn_ne_nil '/' rest h₂.symm

theorem suffix_injective {a b : String} {f g : InfoFile} (h : a ++ f.suffix = b ++ g.suffix) : f = g ∧ a = b := by
  have hl : a.toList ++ f.suffix.toList = b.toList ++ g.suffix.toList := by
    rw [← String.toList_append, h, String.toList_append]
  have hfg : f = g := by
    have hrev := congrArg List.reverse hl
    simp only [List.reverse_append] at hrev
    cases f <;> cases g <;> first | rfl | (simp [InfoFile.suffix] at hrev)
  subst hfg
  exact ⟨rfl, String.toList_injective (List.append_cancel_right hl)⟩

/-! ## The components of volume paths -/

/-- What `xxh64_hexdigest` returns. -/
def HexDigest (digest : String) : Prop := digest.length = 16 ∧ ∀ c ∈ digest.toList, c ∈ "0123456789abcdef".toList

theorem hashDir_safe {digest : String} {i : Nat} (h : HexDigest digest) (hi : i + 2 ≤ 16) : SafeComponent (hashDir digest i) := by
  have hmem : ∀ c ∈ (hashDir digest i).toList, c ∈ "0123456789abcdef".toList := by
    intro c hc
    rw [hashDir, String.toList_ofList] at hc
    exact h.2 c (List.mem_of_mem_drop (List.mem_of_mem_take hc))
  have hlen : (hashDir digest i).toList.length = 2 := by
    have hl : digest.toList.length = 16 := by rw [String.length_toList]; exact h.1
    rw [hashDir, String.toList_ofList, List.length_take, List.length_drop, hl]
    omega
  refine ⟨fun hc => absurd (hmem _ hc) (by decide), fun he => ?_, fun he => ?_, fun he => ?_⟩
  · rw [he] at hlen
    exact absurd hlen (by decide)
  · rw [he] at hlen
    exact absurd hlen (by decide)
  · rw [he] at hmem
    exact absurd (hmem '.' (by decide)) (by decide)

theorem safeComponent_of_isSafe {v : String} (h : isSafePathComponent v = true) : SafeComponent v := by
  simp only [isSafePathComponent, Bool.and_eq_true, decide_eq_true_eq, ne_eq, List.all_eq_true] at h
  obtain ⟨⟨⟨⟨hne, hself⟩, hparent⟩, -⟩, hall⟩ := h
  exact ⟨fun hc => (hall _ hc).1 rfl, hne, hself, hparent⟩

theorem encode_noSlash (l : List UInt8) : '/' ∉ Base64.encode l := by
  intro h
  obtain ⟨n, hn, hc⟩ := List.mem_map.mp h
  have hall : ∀ n < 64, Base64.char n ≠ '/' := by decide +kernel
  exact hall n (Base64.sextets_lt l n hn) hc

theorem component_safe (v : String) : SafeComponent (component v) := by
  unfold component
  split
  · exact safeComponent_of_isSafe (by assumption : IsRaw v).1
  · have hhead : (VOLUME_COMPONENT_ENCODING_PREFIX ++ urlsafeBase64 v).toList =
        ".kadalu~".toList ++ Base64.encode v.toUTF8.data.toList := by
      rw [String.toList_append, urlsafeBase64, String.toList_ofList]
      rfl
    have hne (c : String) (hc : c.toList.length < 8) : VOLUME_COMPONENT_ENCODING_PREFIX ++ urlsafeBase64 v ≠ c := by
      intro he
      rw [he] at hhead
      rw [hhead, List.length_append] at hc
      have : ".kadalu~".toList.length = 8 := by decide
      omega
    refine ⟨fun hc => ?_, hne _ (by decide), hne _ (by decide), hne _ (by decide)⟩
    rw [hhead] at hc
    exact (List.mem_append.mp hc).elim (by decide) (encode_noSlash _)

theorem hashDir_ne_layout (digest : String) (i : Nat) : hashDir digest i ≠ VOLUME_LAYOUT_V2_DIR := by
  intro h
  have hlen : (hashDir digest i).toList.length ≤ 2 := by
    rw [hashDir, String.toList_ofList]
    exact List.length_take_le ..
  rw [h] at hlen
  exact absurd hlen (by decide)

theorem PvType.name_safe (t : PvType) : SafeComponent t.name := by
  cases t <;> exact ⟨by decide, by decide, by decide, by decide⟩

theorem layout_safe : SafeComponent VOLUME_LAYOUT_V2_DIR := ⟨by decide, by decide, by decide, by decide⟩

section Volumes

variable [VolnameHash] {t u : PvType} {v w : String}

/-- A volume path is in the old layout, or in the one for encoded components. -/
theorem volumePaths_form (h : p ∈ volumePaths t v) : ∃ c, SafeComponent c ∧
    (p = [t.name, hashDir (getVolnameHash v) 0, hashDir (getVolnameHash v) 2, c] ∨
      p = [t.name, VOLUME_LAYOUT_V2_DIR, hashDir (getVolnameHash v) 0, hashDir (getVolnameHash v) 2, c]) := by
  rcases mem_volumePaths.mp h with rfl | ⟨hs, rfl⟩
  · refine ⟨component v, component_safe v, ?_⟩
    unfold canon
    split
    · exact .inl rfl
    · exact .inr rfl
  · exact ⟨v, safeComponent_of_isSafe hs, .inl rfl⟩

/-- No volume path lies below another one. -/
theorem volumePaths_notBelow {rest : Path} (hp : p ∈ volumePaths t v) (hq : q ∈ volumePaths u w) (h : q = p ++ rest) :
    rest = [] := by
  obtain ⟨c, -, rfl | rfl⟩ := volumePaths_form hp
  · obtain ⟨d, -, rfl | rfl⟩ := volumePaths_form hq
    · simp only [List.cons_append, List.nil_append, List.cons.injEq] at h
      exact h.2.2.2.2.symm
    · simp only [List.cons_append, List.cons.injEq] at h
      exact absurd h.2.1.symm (hashDir_ne_layout _ _)
  · obtain ⟨d, -, rfl | rfl⟩ := volumePaths_form hq
    · simp at h
    · simp only [List.cons_append, List.nil_append, List.cons.injEq] at h
      exact h.2.2.2.2.2.symm

theorem volumePaths_ne_nil (h : p ∈ volumePaths t v) : p ≠ [] := by
  obtain ⟨c, -, rfl | rfl⟩ := volumePaths_form h
  · simp
  · simp

/-- **No component of a volume path leads elsewhere.** -/
theorem volumePaths_safe (hhash : ∀ v, HexDigest (getVolnameHash v)) (h : p ∈ volumePaths t v) : ∀ c ∈ p, SafeComponent c := by
  have h₀ := hashDir_safe (i := 0) (hhash v) (by omega)
  have h₂ := hashDir_safe (i := 2) (hhash v) (by omega)
  obtain ⟨c, hc, rfl | rfl⟩ := volumePaths_form h
  · simp [PvType.name_safe, h₀, h₂, hc]
  · simp [PvType.name_safe, layout_safe, h₀, h₂, hc]

/-- The payloads of different volumes: neither is the other one, nor lies in it. -/
theorem text_apart (hhash : ∀ v, HexDigest (getVolnameHash v)) (hp : p ∈ volumePaths t v) (hq : q ∈ volumePaths u w)
    (hne : (t, v) ≠ (u, w)) : p.text ≠ q.text ∧ ¬IsBelow p.text q.text := by
  have hps := volumePaths_safe hhash hp
  have hqs := volumePaths_safe hhash hq
  constructor
  · intro h
    obtain rfl := text_injective (volumePaths_ne_nil hp) (volumePaths_ne_nil hq) (fun c hc => (hps c hc).noSlash)
      (fun c hc => (hqs c hc).noSlash) h
    obtain ⟨rfl, rfl⟩ := volumePaths_disjoint hp hq
    exact hne rfl
  · intro h
    obtain ⟨rest, hrest, heq⟩ := prefix_of_isBelow (volumePaths_ne_nil hp) (volumePaths_ne_nil hq)
      (fun c hc => (hps c hc).noSlash) (fun c hc => (hqs c hc).noSlash) h
    exact hrest (volumePaths_notBelow hp hq heq)

/-- A payload is apart from a directory of the pool root that is not named by a volume type. -/
theorem text_apart_dir (hhash : ∀ v, HexDigest (getVolnameHash v)) (hp : p ∈ volumePaths t v) {dir : String}
    (hdir : SafeComponent dir) (hname : ∀ t : PvType, dir ≠ t.name) :
    p.text ≠ dir ∧ ¬IsBelow p.text dir ∧ ¬IsBelow dir p.text := by
  have hps := volumePaths_safe hhash hp
  have hhead : ∃ rest, rest ≠ [] ∧ p = t.name :: rest := by
    obtain ⟨c, -, rfl | rfl⟩ := volumePaths_form hp
    · exact ⟨_, by simp, rfl⟩
    · exact ⟨_, by simp, rfl⟩
  obtain ⟨rest, hrest, rfl⟩ := hhead
  have hdtext : dir = Path.text [dir] := by simp [Path.text]
  have hds : ∀ c ∈ [dir], '/' ∉ c.toList := by simpa using hdir.noSlash
  have hps' : ∀ c ∈ t.name :: rest, '/' ∉ c.toList := fun c hc => (hps c hc).noSlash
  refine ⟨fun h => ?_, fun h => ?_, fun h => ?_⟩
  · have := text_injective (by simp) (by simp) hps' hds (h.trans hdtext)
    exact hrest (List.cons.inj this).2
  · rw [hdtext] at h
    obtain ⟨more, -, heq⟩ := prefix_of_isBelow (by simp) (by simp) hps' hds h
    exact hname t (List.cons.inj heq).1
  · rw [hdtext] at h
    obtain ⟨more, -, heq⟩ := prefix_of_isBelow (by simp) (by simp) hds hps' h
    exact hname t (List.cons.inj heq).1.symm

/-- A file below `info` belongs to one path, and is of one kind. -/
theorem infoFile_injective (hhash : ∀ v, HexDigest (getVolnameHash v)) (hp : p ∈ volumePaths t v) (hq : q ∈ volumePaths u w)
    {f g : InfoFile} (h : f.text p = g.text q) : f = g ∧ t = u ∧ v = w := by
  obtain ⟨hfg, htext⟩ := suffix_injective h
  obtain rfl := text_injective (volumePaths_ne_nil hp) (volumePaths_ne_nil hq)
    (fun c hc => (volumePaths_safe hhash hp c hc).noSlash) (fun c hc => (volumePaths_safe hhash hq c hc).noSlash) htext
  exact ⟨hfg, volumePaths_disjoint hp hq⟩

end Volumes

end Kadalu
