import Mooncache.Common.Ids
import Mathlib.Data.Vector.Basic

/-! The SHA-256 digest, which a third-party crate computes, and its hexadecimal text. -/
namespace Mooncache

class Sha256 where
  sha256 : List UInt8 → Vector UInt8 32

export Sha256 (sha256)

def hexDigit (n : Nat) : Char := Char.ofNat (if n < 10 then 48 + n else 87 + n)

/-- The two lowercase digits of a byte. -/
def hexByte (byte : UInt8) : List Char := [hexDigit (byte.toNat / 16), hexDigit (byte.toNat % 16)]

/-- The formatting `{digest:x}`. -/
def lowerHex (digest : Vector UInt8 32) : String := String.ofList (digest.toList.flatMap hexByte)

theorem hexDigit_injective : ∀ m < 16, ∀ n < 16, hexDigit m = hexDigit n → m = n := by decide

theorem hexDigit_isLowerHex : ∀ n < 16, isLowerHex (hexDigit n) = true := by decide

theorem hexByte_injective {a b : UInt8} (h : hexByte a = hexByte b) : a = b := by
  have ha := a.toNat_lt
  have hb := b.toNat_lt
  simp only [hexByte, List.cons.injEq, and_true] at h
  have high := hexDigit_injective _ (by omega) _ (by omega) h.1
  have low := hexDigit_injective _ (by omega) _ (by omega) h.2
  exact UInt8.toNat_inj.mp (by omega)

theorem length_flatMap_hexByte (bytes : List UInt8) : (bytes.flatMap hexByte).length = 2 * bytes.length := by
  induction bytes with
  | nil => rfl
  | cons byte rest ih =>
    rw [List.flatMap_cons, List.length_append, ih, List.length_cons]
    simp only [hexByte, List.length_cons, List.length_nil]
    omega

theorem flatMap_hexByte_injective {a b : List UInt8} (h : a.flatMap hexByte = b.flatMap hexByte) : a = b := by
  induction a generalizing b with
  | nil =>
    have length := congrArg List.length h
    rw [length_flatMap_hexByte, length_flatMap_hexByte] at length
    simp only [List.length_nil] at length
    exact (List.length_eq_zero_iff.mp (by omega)).symm
  | cons x xs ih =>
    cases b with
    | nil =>
      have length := congrArg List.length h
      rw [length_flatMap_hexByte, length_flatMap_hexByte] at length
      simp at length
    | cons y ys =>
      rw [List.flatMap_cons, List.flatMap_cons] at h
      obtain ⟨first, rest⟩ := List.append_inj h rfl
      rw [hexByte_injective first, ih rest]

theorem lowerHex_injective {a b : Vector UInt8 32} (h : lowerHex a = lowerHex b) : a = b := by
  have chars := flatMap_hexByte_injective (String.ofList_injective h)
  exact Vector.toList_inj.mp chars

/-- The text of a digest is always accepted as a cache key. -/
theorem fromHex_lowerHex (digest : Vector UInt8 32) :
    CacheKey.fromHex (lowerHex digest) = .ok ⟨lowerHex digest⟩ := by
  have length : (lowerHex digest).toList.length = 64 := by
    simp only [lowerHex, String.toList_ofList, length_flatMap_hexByte, Vector.length_toList]
  have digits : (lowerHex digest).toList.all isLowerHex = true := by
    simp only [lowerHex, String.toList_ofList, List.all_flatMap, List.all_eq_true]
    intro byte _ c hc
    have bound := byte.toNat_lt
    simp only [hexByte, List.mem_cons, List.not_mem_nil, or_false] at hc
    rcases hc with rfl | rfl
    · exact hexDigit_isLowerHex _ (by omega)
    · exact hexDigit_isLowerHex _ (by omega)
  rw [CacheKey.fromHex, if_pos ⟨length, digits⟩]

end Mooncache
