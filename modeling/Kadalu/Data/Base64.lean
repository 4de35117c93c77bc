import Mathlib.Data.List.GetD
import Mathlib.Data.List.Nodup

/-!
# Base64 without padding

Bytes are grouped by three into four sextets, the last group of one or two bytes into two or three (`sextets`); `bytes`
is the inverse. `encode` writes the sextets in the URL-safe alphabet, `decode` reads them back (`decode_encode`), so two
byte sequences with the same encoding are equal (`encode_injective`). The encoding is ASCII, a third longer than the bytes
(`length_encode`).
-/

namespace Base64

/-- The sextets of a byte sequence. -/
def sextets : List UInt8 → List Nat
  | a :: b :: c :: rest =>
    (a.toNat / 4) :: (a.toNat % 4 * 16 + b.toNat / 16) :: (b.toNat % 16 * 4 + c.toNat / 64) :: (c.toNat % 64) ::
      sextets rest
  | [a, b] => [a.toNat / 4, a.toNat % 4 * 16 + b.toNat / 16, b.toNat % 16 * 4]
  | [a] => [a.toNat / 4, a.toNat % 4 * 16]
  | [] => []

/-- The bytes of a sextet sequence; a single last sextet carries none. -/
def bytes : List Nat → List UInt8
  | p :: q :: r :: s :: rest =>
    UInt8.ofNat (p * 4 + q / 16) :: UInt8.ofNat (q % 16 * 16 + r / 4) :: UInt8.ofNat (r % 4 * 64 + s) :: bytes rest
  | [p, q, r] => [UInt8.ofNat (p * 4 + q / 16), UInt8.ofNat (q % 16 * 16 + r / 4)]
  | [p, q] => [UInt8.ofNat (p * 4 + q / 16)]
  | _ => []

theorem sextets_lt : ∀ (l : List UInt8), ∀ n ∈ sextets l, n < 64
  | a :: b :: c :: rest, n, hn => by
    have ha := a.toNat_lt
    have hb := b.toNat_lt
    have hc := c.toNat_lt
    simp only [sextets, List.mem_cons] at hn
    rcases hn with rfl | rfl | rfl | rfl | hn
    · omega
    · omega
    · omega
    · omega
    · exact sextets_lt rest n hn
  | [a, b], n, hn => by
    have ha := a.toNat_lt
    have hb := b.toNat_lt
    simp only [sextets, List.mem_cons, List.not_mem_nil, or_false] at hn
    rcases hn with rfl | rfl | rfl <;> omega
  | [a], n, hn => by
    have ha := a.toNat_lt
    simp only [sextets, List.mem_cons, List.not_mem_nil, or_false] at hn
    rcases hn with rfl | rfl <;> omega
  | [], n, hn => by cases hn

/-- Three bytes make four sextets. -/
theorem length_sextets : ∀ l : List UInt8, (sextets l).length = (4 * l.length + 2) / 3
  | a :: b :: c :: rest => by
    simp only [sextets, List.length_cons, length_sextets rest]
    omega
  | [a, b] => by simp [sextets]
  | [a] => by simp [sextets]
  | [] => rfl

theorem ofNat_eq {a : UInt8} {n : Nat} (h : n = a.toNat) : UInt8.ofNat n = a := by
  subst h
  exact UInt8.ofNat_toNat

/-- **The sextets determine the bytes.** -/
theorem bytes_sextets : ∀ l : List UInt8, bytes (sextets l) = l
  | a :: b :: c :: rest => by
    have ha := a.toNat_lt
    have hb := b.toNat_lt
    have hc := c.toNat_lt
    simp only [sextets, bytes, bytes_sextets rest]
    rw [ofNat_eq (a := a) (by omega), ofNat_eq (a := b) (by omega), ofNat_eq (a := c) (by omega)]
  | [a, b] => by
    have ha := a.toNat_lt
    have hb := b.toNat_lt
    simp only [sextets, bytes]
    rw [ofNat_eq (a := a) (by omega), ofNat_eq (a := b) (by omega)]
  | [a] => by
    have ha := a.toNat_lt
    simp only [sextets, bytes]
    rw [ofNat_eq (a := a) (by omega)]
  | [] => rfl

/-- The URL-safe alphabet. -/
def alphabet : List Char := "ABCDEFGHIJKLMNOPQRSTUVWXYZabcdefghijklmnopqrstuvwxyz0123456789-_".toList

/-- The character of a sextet. -/
def char (n : Nat) : Char := alphabet.getD n 'A'

/-- The encoding of a byte sequence. -/
def encode (l : List UInt8) : List Char := (sextets l).map char

theorem length_encode (l : List UInt8) : (encode l).length = (4 * l.length + 2) / 3 := by
  rw [encode, List.length_map, length_sextets]

theorem char_ascii {n : Nat} (hn : n < 64) : (char n).toNat < 128 := by
  have hall : ∀ n < 64, (char n).toNat < 128 := by decide +kernel
  exact hall n hn

/-- The encoding is ASCII. -/
theorem encode_ascii {l : List UInt8} {c : Char} (hc : c ∈ encode l) : c.toNat < 128 := by
  obtain ⟨n, hn, rfl⟩ := List.mem_map.mp hc
  exact char_ascii (sextets_lt l n hn)

/-- The sextet of a character. -/
def value (c : Char) : Option Nat := alphabet.idxOf? c

theorem value_char {n : Nat} (hn : n < 64) : value (char n) = some n := by
  have hall : ∀ n < 64, value (char n) = some n := by decide
  exact hall n hn

/-- The byte sequence of an encoding. -/
def decode (l : List Char) : Option (List UInt8) := (l.mapM value).map bytes

theorem mapM_value_char : ∀ {l : List Nat}, (∀ n ∈ l, n < 64) → (l.map char).mapM value = some l
  | [], _ => rfl
  | a :: l, h => by
    obtain ⟨ha, hl⟩ := List.forall_mem_cons.mp h
    rw [List.map_cons, List.mapM_cons, value_char ha, mapM_value_char hl]
    rfl

/-- **Round trip.** -/
theorem decode_encode (l : List UInt8) : decode (encode l) = some l := by
  rw [decode, encode, mapM_value_char (sextets_lt l), Option.map_some, bytes_sextets]

theorem encode_injective {l m : List UInt8} (h : encode l = encode m) : l = m := by
  have := decode_encode l
  rw [h, decode_encode] at this
  exact (Option.some.inj this).symm

end Base64
