import Mathlib.Algebra.Order.Ring.Int
import Kadalu.Volume.PathText

/-!
# The file names of a volume

A volume has a payload and files below `info`, all named after the component of its ID, and writes of the latter go to a
temporary file first.

* `component_size`: the component of an ID of 128 bytes has at most 179 bytes.
* `volumeNameComponent_codec`: encoding and decoding are inverse to each other, and every name fits in a directory entry.
-/

namespace Kadalu

open Except

/-! ## Sizes -/

/-- An ASCII string has one byte for each character. -/
theorem utf8ByteSize_ascii : ∀ {l : List Char}, (∀ c ∈ l, c.toNat < 128) → (String.ofList l).utf8ByteSize = l.length
  | [], _ => rfl
  | c :: l, h => by
    obtain ⟨hc, hl⟩ := List.forall_mem_cons.mp h
    have hsize : c.utf8Size = 1 := Char.utf8Size_eq_one_iff.mpr (by
      rw [UInt32.le_iff_toNat_le]
      exact Nat.le_of_lt_succ hc)
    rw [String.ofList_cons, String.utf8ByteSize_append, String.utf8ByteSize_singleton, hsize, utf8ByteSize_ascii hl,
      List.length_cons]
    omega

theorem urlsafeBase64_size (v : String) : (urlsafeBase64 v).utf8ByteSize = (4 * v.utf8ByteSize + 2) / 3 := by
  rw [urlsafeBase64, utf8ByteSize_ascii fun _ hc => Base64.encode_ascii hc, Base64.length_encode]
  rfl

theorem valid_size {v : String} (h : isValidCsiIdentifier v = true) : v.utf8ByteSize ≤ 128 := by
  simp only [isValidCsiIdentifier, Bool.and_eq_true, decide_eq_true_eq] at h
  exact h.1.2

/-- Base64 makes four characters of three bytes, and the prefix has eight. -/
theorem component_size {v : String} (h : isValidCsiIdentifier v = true) : (component v).utf8ByteSize ≤ 179 := by
  have hv := valid_size h
  unfold component
  split
  · omega
  · have hprefix : VOLUME_COMPONENT_ENCODING_PREFIX.utf8ByteSize = 8 := by decide
    rw [String.utf8ByteSize_append, urlsafeBase64_size, hprefix]
    omega

-- the bound is reached
example : (component (String.ofList (List.replicate 128 '/'))).utf8ByteSize = 179 := by decide +kernel

/-! ## File names -/

/-- `uuid.uuid4().hex` -/
def hex (uuid : BitVec 128) : String :=
  String.ofList ((List.range 32).map fun i => Nat.digitChar (uuid.toNat / 16 ^ (31 - i) % 16))

/-- The temporary file that `_atomic_write_json` and `_atomic_create_json` write in the place of `basename`. -/
def temporaryName (basename : String) (pid : Nat) (uuid : BitVec 128) : String :=
  "." ++ basename ++ "." ++ toString pid ++ "." ++ hex uuid ++ ".tmp"

/-- The name of a file below `info` for a component. -/
def InfoFile.basename (file : InfoFile) (component : String) : String := component ++ file.suffix

/-- The names derived from a component: that of the payload, and those below `info`. -/
def fileNames (component : String) : List String :=
  component :: [InfoFile.metadata, .creationIntent, .expansionIntent].map fun file => file.basename component

/-- The file of a path bears the name of the path's last component. -/
theorem infoFile_text_concat (file : InfoFile) {q : Path} (hq : q ≠ []) (c : String) :
    file.text (q ++ [c]) = q.text ++ "/" ++ file.basename c := by
  have htext : Path.text (q ++ [c]) = q.text ++ "/" ++ c := by
    rw [Path.text, Path.text, String.intercalate_append_of_ne_nil hq (by simp), String.intercalate_singleton]
  rw [InfoFile.text, InfoFile.basename, htext, String.append_assoc]

theorem hex_size (uuid : BitVec 128) : (hex uuid).utf8ByteSize = 32 := by
  have hdigit : ∀ n < 16, (Nat.digitChar n).toNat < 128 := by decide
  rw [hex, utf8ByteSize_ascii, List.length_map, List.length_range]
  intro c hc
  obtain ⟨i, -, rfl⟩ := List.mem_map.mp hc
  exact hdigit _ (Nat.mod_lt _ (by decide))

theorem pid_size {pid : Nat} (h : pid < 10 ^ 7) : (toString pid).utf8ByteSize ≤ 7 := by
  have hlength : pid.repr.length ≤ 7 := (Nat.length_repr_le_iff (by decide)).mpr h
  have hdigits : ∀ c ∈ Nat.toDigits 10 pid, c.toNat < 128 := by
    intro c hc
    have hdigit := Nat.isDigit_of_mem_toDigits (by decide) (by decide) hc
    simp only [Char.isDigit, Bool.and_eq_true, decide_eq_true_eq, UInt32.le_iff_toNat_le] at hdigit
    exact Nat.lt_of_le_of_lt hdigit.2 (by decide)
  rw [Nat.repr_eq_ofList_toDigits, String.length_ofList] at hlength
  show pid.repr.utf8ByteSize ≤ 7
  rwa [Nat.repr_eq_ofList_toDigits, utf8ByteSize_ascii hdigits]

theorem suffix_size (file : InfoFile) : file.suffix.utf8ByteSize ≤ 14 := by cases file <;> decide

theorem fileNames_size {c name : String} (hc : c.utf8ByteSize ≤ 179) (h : name ∈ fileNames c) : name.utf8ByteSize ≤ 193 := by
  rcases List.mem_cons.mp h with rfl | h
  · omega
  · obtain ⟨file, -, rfl⟩ := List.mem_map.mp h
    have hsuffix := suffix_size file
    rw [InfoFile.basename, String.utf8ByteSize_append]
    omega

theorem temporaryName_size (basename : String) {pid : Nat} (uuid : BitVec 128) (h : pid < 10 ^ 7) :
    (temporaryName basename pid uuid).utf8ByteSize ≤ basename.utf8ByteSize + 46 := by
  have hpid := pid_size h
  have hdot : ".".utf8ByteSize = 1 := by decide
  have htmp : ".tmp".utf8ByteSize = 4 := by decide
  simp only [temporaryName, String.utf8ByteSize_append, hex_size, hdot, htmp]
  omega

/-! ## The codec -/

/-- A component with the prefix that the decoder accepts is the component of its ID. -/
theorem volumeNameFromComponent_ok {c v : String} (hc : startsWith VOLUME_COMPONENT_ENCODING_PREFIX c = true)
    (h : volumeNameFromComponent c = .ok v) : volumeNameComponent v = .ok c := by
  rw [volumeNameFromComponent, hc, if_neg (by decide)] at h
  dsimp only at h
  split at h
  · cases h
  · split at h
    · cases h
    · obtain ⟨hcanonical, h⟩ := ite_error_ok.mp h
      cases h
      rw [not_not] at hcanonical
      cases hcomponent : volumeNameComponent v with
      | error e =>
        rw [hcomponent] at hcanonical
        cases hcanonical
      | ok d =>
        rw [hcomponent] at hcanonical
        cases hcanonical
        rfl

/-- The component of a valid ID decodes to the ID, encoded or not. -/
theorem volumeNameFromComponent_self {v : String} (hv : isValidCsiIdentifier v = true) :
    volumeNameFromComponent (component v) = .ok v := by
  by_cases hr : IsRaw v
  · have hself : component v = v := if_pos hr
    rw [hself, volumeNameFromComponent, hr.2]
    rfl
  · exact volumeNameFromComponent_component hv hr

/-- **The codec of volume names.** -/
theorem volumeNameComponent_codec :
    (∀ v, isValidCsiIdentifier v = true → ∃ c, volumeNameComponent v = .ok c ∧ volumeNameFromComponent c = .ok v ∧
      '/' ∉ c.toList ∧ c ≠ "." ∧ c ≠ ".." ∧
      ∀ name ∈ fileNames c, name.utf8ByteSize ≤ 255 ∧
        ∀ pid < 10 ^ 7, ∀ uuid, (temporaryName name pid uuid).utf8ByteSize ≤ 255) ∧
    (∀ c v, startsWith VOLUME_COMPONENT_ENCODING_PREFIX c = true → volumeNameFromComponent c = .ok v →
      volumeNameComponent v = .ok c) ∧
    ∀ c d v, startsWith VOLUME_COMPONENT_ENCODING_PREFIX c = true → startsWith VOLUME_COMPONENT_ENCODING_PREFIX d = true →
      volumeNameFromComponent c = .ok v → volumeNameFromComponent d = .ok v → c = d := by
  refine ⟨fun v hv => ?_, fun c v => volumeNameFromComponent_ok, fun c d v hc hd hcv hdv => ?_⟩
  · have hsafe := component_safe v
    refine ⟨component v, volumeNameComponent_ok.mpr ⟨hv, rfl⟩, volumeNameFromComponent_self hv, hsafe.noSlash, hsafe.notSelf,
      hsafe.notParent, fun name hname => ?_⟩
    have hsize := fileNames_size (component_size hv) hname
    refine ⟨by omega, fun pid hpid uuid => ?_⟩
    have htemporary := temporaryName_size name uuid hpid
    omega
  · have hcomponent := (volumeNameFromComponent_ok hc hcv).symm.trans (volumeNameFromComponent_ok hd hdv)
    exact ok.inj hcomponent

end Kadalu
