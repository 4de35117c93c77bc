import Kadalu.Data.Result
import Kadalu.Volume.Ident

/-!
# Paths determine volumes

`canon t v` and `rawPath t v` are the canonical and the legacy path of a volume, as total functions: the source raises
only for an invalid ID (`canonicalPath_ok`, `legacyPath_ok`). A path of one volume determines its type and its ID
(`volumePaths_disjoint`). The two paths of a volume differ only for IDs that begin with the encoding prefix
(`rawPath_eq_canon_iff`).
-/

namespace Kadalu

open Except

/-! ## Components -/

theorem startsWith_append (a b : String) : startsWith a (a ++ b) = true := by
  rw [startsWith, String.toList_append]
  exact List.isPrefixOf_iff_prefix.mpr (List.prefix_append _ _)

theorem dropStart_append (a b : String) : dropStart a (a ++ b) = b := by
  rw [dropStart, String.toList_append, ← String.length_toList, List.drop_left, String.ofList_toList]

theorem urlsafeBase64_injective {v w : String} (h : urlsafeBase64 v = urlsafeBase64 w) : v = w := by
  have h₁ : Base64.encode v.toUTF8.data.toList = Base64.encode w.toUTF8.data.toList := String.ofList_injective h
  have h₂ := Base64.encode_injective h₁
  have h₃ : v.toUTF8 = w.toUTF8 := by
    cases hv : v.toUTF8 with
    | mk a =>
      cases hw : w.toUTF8 with
      | mk b =>
        rw [hv, hw] at h₂
        exact congrArg ByteArray.mk (Array.toList_inj.mp h₂)
  exact String.toByteArray_inj.mp h₃

/-- An ID that is its own path component. -/
def IsRaw (v : String) : Prop :=
  isSafePathComponent v = true ∧ startsWith VOLUME_COMPONENT_ENCODING_PREFIX v = false

instance (v : String) : Decidable (IsRaw v) := inferInstanceAs (Decidable (_ ∧ _))

/-- The path component of a valid ID. -/
def component (v : String) : String := if IsRaw v then v else VOLUME_COMPONENT_ENCODING_PREFIX ++ urlsafeBase64 v

theorem volumeNameComponent_ok {v c : String} :
    volumeNameComponent v = .ok c ↔ isValidCsiIdentifier v = true ∧ c = component v := by
  have hraw : (isSafePathComponent v && !startsWith VOLUME_COMPONENT_ENCODING_PREFIX v) = true ↔ IsRaw v := by
    simp [IsRaw]
  unfold volumeNameComponent component
  rw [throw_eq_error, ite_error_ok, Bool.not_eq_true, Bool.not_eq_false']
  refine and_congr_right fun _ => ?_
  by_cases h : IsRaw v
  · rw [if_pos (hraw.mpr h), if_pos h, pure_eq_ok, Except.ok.injEq, eq_comm]
  · rw [if_neg (mt hraw.mp h), if_neg h, pure_eq_ok, Except.ok.injEq, eq_comm]

theorem startsWith_component (v : String) :
    startsWith VOLUME_COMPONENT_ENCODING_PREFIX (component v) = !decide (IsRaw v) := by
  unfold component
  split
  · rename_i h
    rw [h.2, decide_eq_true h]
    rfl
  · rename_i h
    rw [startsWith_append, decide_eq_false h]
    rfl

theorem component_injective {v w : String} (h : component v = component w) : v = w := by
  have hraw : IsRaw v ↔ IsRaw w := by
    have := congrArg (startsWith VOLUME_COMPONENT_ENCODING_PREFIX) h
    rw [startsWith_component, startsWith_component] at this
    simpa using this
  by_cases hv : IsRaw v
  · rwa [component, component, if_pos hv, if_pos (hraw.mp hv)] at h
  · rw [component, component, if_neg hv, if_neg (mt hraw.mpr hv)] at h
    have := congrArg (dropStart VOLUME_COMPONENT_ENCODING_PREFIX) h
    rw [dropStart_append, dropStart_append] at this
    exact urlsafeBase64_injective this

/-! ## Paths -/

variable [VolnameHash] {t u : PvType} {v w : String} {p : Path}

/-- The canonical path of a valid ID. -/
def canon (t : PvType) (v : String) : Path :=
  if IsRaw v then [t.name, hashDir (getVolnameHash v) 0, hashDir (getVolnameHash v) 2, component v]
  else [t.name, VOLUME_LAYOUT_V2_DIR, hashDir (getVolnameHash v) 0, hashDir (getVolnameHash v) 2, component v]

/-- The path that old releases gave a safe ID. -/
def rawPath (t : PvType) (v : String) : Path :=
  [t.name, hashDir (getVolnameHash v) 0, hashDir (getVolnameHash v) 2, v]

/-- The paths of a valid ID. -/
def volumePaths (t : PvType) (v : String) : List Path :=
  if isSafePathComponent v = true ∧ rawPath t v ≠ canon t v then [canon t v, rawPath t v] else [canon t v]

theorem canonicalPath_ok : canonicalPath t v = .ok p ↔ isValidCsiIdentifier v = true ∧ p = canon t v := by
  simp only [canonicalPath, getVolumePath, bind_ok, volumeNameComponent_ok]
  constructor
  · rintro ⟨_, ⟨hv, rfl⟩, h⟩
    refine ⟨hv, ?_⟩
    rw [startsWith_component] at h
    by_cases hr : IsRaw v
    · rw [decide_eq_true hr, if_neg (by decide)] at h
      cases h
      rw [canon, if_pos hr]
    · rw [decide_eq_false hr, if_pos (by decide)] at h
      cases h
      rw [canon, if_neg hr]
  · rintro ⟨hv, rfl⟩
    refine ⟨_, ⟨hv, rfl⟩, ?_⟩
    rw [startsWith_component]
    by_cases hr : IsRaw v
    · rw [decide_eq_true hr, if_neg (by decide), canon, if_pos hr, pure_eq_ok]
    · rw [decide_eq_false hr, if_pos (by decide), canon, if_neg hr, pure_eq_ok]

theorem canonicalPath_eq (h : isValidCsiIdentifier v = true) : canonicalPath t v = .ok (canon t v) :=
  canonicalPath_ok.mpr ⟨h, rfl⟩

theorem legacyPath_eq (h : isValidCsiIdentifier v = true) :
    legacyPath t v = .ok (if isSafePathComponent v then some (rawPath t v) else none) := by
  rw [legacyPath, getLegacyVolumePath, h]
  cases isSafePathComponent v <;> rfl

theorem canonicalVolumePaths_eq (h : isValidCsiIdentifier v = true) :
    canonicalVolumePaths v t = .ok (volumePaths t v) := by
  rw [canonicalVolumePaths, canonicalPath_eq h, ok_bind, legacyPath_eq h, ok_bind, volumePaths]
  by_cases hs : isSafePathComponent v = true
  · by_cases hc : rawPath t v = canon t v
    · simp [hs, hc]
    · simp [hs, hc]
  · simp [hs]

theorem canonicalVolumePaths_ok {l : List Path} :
    canonicalVolumePaths v t = .ok l ↔ isValidCsiIdentifier v = true ∧ l = volumePaths t v := by
  refine ⟨fun h => ?_, fun ⟨hv, hl⟩ => hl ▸ canonicalVolumePaths_eq hv⟩
  obtain ⟨p, hp, -⟩ := bind_ok.mp h
  have hv := (canonicalPath_ok.mp hp).1
  rw [canonicalVolumePaths_eq hv] at h
  cases h
  exact ⟨hv, rfl⟩

theorem mem_volumePaths : p ∈ volumePaths t v ↔ p = canon t v ∨ isSafePathComponent v = true ∧ p = rawPath t v := by
  unfold volumePaths
  by_cases hs : isSafePathComponent v = true
  · by_cases hc : rawPath t v = canon t v
    · simp [hs, hc]
    · simp [hs, hc]
  · simp [hs]

theorem canon_mem : canon t v ∈ volumePaths t v := mem_volumePaths.mpr (.inl rfl)

/-! ## Injectivity -/

theorem canon_injective (h : canon t v = canon u w) : t = u ∧ v = w := by
  unfold canon at h
  split at h <;> split at h <;> simp only [List.cons.injEq, reduceCtorEq, and_false, and_true] at h
  · exact ⟨PvType.name_injective h.1, component_injective h.2.2.2⟩
  · exact ⟨PvType.name_injective h.1, component_injective h.2.2.2.2⟩

theorem rawPath_injective (h : rawPath t v = rawPath u w) : t = u ∧ v = w := by
  simp only [rawPath, List.cons.injEq, and_true] at h
  exact ⟨PvType.name_injective h.1, h.2.2.2⟩

/-- The canonical path is the raw one exactly for the IDs that are their own component. -/
theorem rawPath_eq_canon_iff : rawPath u w = canon t v ↔ IsRaw v ∧ u = t ∧ w = v := by
  unfold canon rawPath
  split
  · rename_i h
    simp only [component, h, if_true, List.cons.injEq, and_true, true_and]
    constructor
    · rintro ⟨ht, -, -, hv⟩
      exact ⟨PvType.name_injective ht, hv⟩
    · rintro ⟨rfl, rfl⟩
      exact ⟨rfl, rfl, rfl, rfl⟩
  · rename_i h
    simp [h]

/-- **Disjointness.** A path of one volume is no path of another one. -/
theorem volumePaths_disjoint (h : p ∈ volumePaths t v) (h' : p ∈ volumePaths u w) : t = u ∧ v = w := by
  rcases mem_volumePaths.mp h with rfl | ⟨-, rfl⟩ <;> rcases mem_volumePaths.mp h' with h' | ⟨-, h'⟩
  · exact canon_injective h'
  · obtain ⟨-, rfl, rfl⟩ := rawPath_eq_canon_iff.mp h'.symm
    exact ⟨rfl, rfl⟩
  · obtain ⟨-, rfl, rfl⟩ := rawPath_eq_canon_iff.mp h'
    exact ⟨rfl, rfl⟩
  · exact rawPath_injective h'

/-! ## Parents -/

omit [VolnameHash] in
@[simp] theorem dirname_concat (q : Path) (n : String) : Path.dirname (q ++ [n]) = q := List.dropLast_concat

omit [VolnameHash] in
@[simp] theorem basename_concat (q : Path) (n : String) : Path.basename (q ++ [n]) = n := by
  simp [Path.basename]

/-- The parent of the canonical path. -/
def canonDir (t : PvType) (v : String) : Path :=
  if IsRaw v then [t.name, hashDir (getVolnameHash v) 0, hashDir (getVolnameHash v) 2]
  else [t.name, VOLUME_LAYOUT_V2_DIR, hashDir (getVolnameHash v) 0, hashDir (getVolnameHash v) 2]

theorem canon_eq_concat : canon t v = canonDir t v ++ [component v] := by unfold canon canonDir; split <;> rfl

theorem rawPath_eq_concat :
    rawPath t v = [t.name, hashDir (getVolnameHash v) 0, hashDir (getVolnameHash v) 2] ++ [v] := rfl

@[simp] theorem dirname_canon : (canon t v).dirname = canonDir t v := by rw [canon_eq_concat, dirname_concat]

@[simp] theorem basename_canon : (canon t v).basename = component v := by rw [canon_eq_concat, basename_concat]

theorem canonDir_ne_archive : canonDir t v ≠ ["archive"] := by unfold canonDir; split <;> simp

theorem canonDir_type (h : canonDir t v = canonDir u w) : t = u := by
  unfold canonDir at h
  split at h <;> split at h <;> simp only [List.cons.injEq, reduceCtorEq, and_false, and_true] at h
  · exact PvType.name_injective h.1
  · exact PvType.name_injective h.1

theorem dirname_volumePaths_ne_archive (h : p ∈ volumePaths t v) : p.dirname ≠ ["archive"] := by
  rcases mem_volumePaths.mp h with rfl | ⟨-, rfl⟩
  · rw [dirname_canon]
    exact canonDir_ne_archive
  · rw [rawPath_eq_concat, dirname_concat]
    simp

/-- The two paths of a volume have different parents, unless they are one. -/
theorem dirname_volumePaths {q : Path} (h : p ∈ volumePaths t v) (h' : q ∈ volumePaths u v)
    (hd : p.dirname = q.dirname) : p = q := by
  rcases mem_volumePaths.mp h with rfl | ⟨-, rfl⟩ <;> rcases mem_volumePaths.mp h' with rfl | ⟨-, rfl⟩
  · rw [dirname_canon, dirname_canon] at hd
    rw [canonDir_type hd]
  · rw [dirname_canon, rawPath_eq_concat, dirname_concat] at hd
    unfold canonDir at hd
    split at hd
    · rename_i hr
      simp only [List.cons.injEq, and_true] at hd
      obtain rfl := PvType.name_injective hd
      exact (rawPath_eq_canon_iff.mpr ⟨hr, rfl, rfl⟩).symm
    · simp at hd
  · rw [dirname_canon, rawPath_eq_concat, dirname_concat] at hd
    unfold canonDir at hd
    split at hd
    · rename_i hr
      simp only [List.cons.injEq, and_true] at hd
      obtain rfl := PvType.name_injective hd
      exact rawPath_eq_canon_iff.mpr ⟨hr, rfl, rfl⟩
    · simp at hd
  · simp only [rawPath_eq_concat, dirname_concat, List.cons.injEq, and_true] at hd
    rw [PvType.name_injective hd]

/-! ## Round trip -/

omit [VolnameHash]

theorem urlsafeBase64Decode_encode (v : String) : urlsafeBase64Decode (urlsafeBase64 v) = some v := by
  rw [urlsafeBase64Decode, urlsafeBase64, String.toList_ofList, Base64.decode_encode, Option.bind_some,
    Array.toArray_toList]
  exact dif_pos v.isValidUTF8

/-- The ID read back from an encoded component is the ID it encodes. -/
theorem volumeNameFromComponent_component (hv : isValidCsiIdentifier v = true) (hr : ¬IsRaw v) :
    volumeNameFromComponent (component v) = .ok v := by
  have hne : urlsafeBase64 v ≠ "" := by
    intro h
    have h₂ := urlsafeBase64Decode_encode v
    rw [h] at h₂
    have : v = "" := by
      have : urlsafeBase64Decode "" = urlsafeBase64Decode (urlsafeBase64 "") := rfl
      rw [this, urlsafeBase64Decode_encode] at h₂
      exact (Option.some.inj h₂).symm
    rw [this] at hv
    exact absurd hv (by decide)
  have hc : component v = VOLUME_COMPONENT_ENCODING_PREFIX ++ urlsafeBase64 v := if_neg hr
  rw [volumeNameFromComponent, startsWith_component, decide_eq_false hr, if_neg (by decide), hc]
  simp only [dropStart_append, hne, if_false, urlsafeBase64Decode_encode]
  rw [volumeNameComponent_ok.mpr ⟨hv, rfl⟩, ← hc]
  exact if_neg (not_not.mpr rfl)

end Kadalu
