import Mathlib.Data.List.Basic

/-! Base64 over the standard alphabet, padded. Every three bytes give four characters. -/
namespace Mooncache.Base64

def alphabet : List Char := "ABCDEFGHIJKLMNOPQRSTUVWXYZabcdefghijklmnopqrstuvwxyz0123456789+/".toList

def symbol (n : Nat) : Char := alphabet.getD n '='

/-- The six bits a character stands for. The padding stands for none. -/
def bits (c : Char) : Option Nat := alphabet.idxOf? c

theorem bits_symbol : ∀ n < 64, bits (symbol n) = some n := by decide

theorem bits_padding : bits '=' = none := by decide

def encodeBytes : List UInt8 → List Char
  | [] => []
  | [a] => [symbol (a.toNat / 4), symbol (a.toNat % 4 * 16), '=', '=']
  | [a, b] => [symbol (a.toNat / 4), symbol (a.toNat % 4 * 16 + b.toNat / 16), symbol (b.toNat % 16 * 4), '=']
  | a :: b :: c :: rest =>
    symbol (a.toNat / 4) :: symbol (a.toNat % 4 * 16 + b.toNat / 16) ::
      symbol (b.toNat % 16 * 4 + c.toNat / 64) :: symbol (c.toNat % 64) :: encodeBytes rest

/-- Padding ends the text, and the bits it cuts off are zero. -/
def decodeChars : List Char → Option (List UInt8)
  | [] => some []
  | w :: x :: y :: z :: rest =>
    match bits w, bits x, bits y, bits z with
    | some a, some b, some c, some d =>
      (decodeChars rest).map fun bytes =>
        .ofNat (a * 4 + b / 16) :: .ofNat (b % 16 * 16 + c / 4) :: .ofNat (c % 4 * 64 + d) :: bytes
    | some a, some b, some c, none =>
      if z = '=' ∧ rest = [] ∧ c % 4 = 0 then some [.ofNat (a * 4 + b / 16), .ofNat (b % 16 * 16 + c / 4)] else none
    | some a, some b, none, none =>
      if y = '=' ∧ z = '=' ∧ rest = [] ∧ b % 16 = 0 then some [.ofNat (a * 4 + b / 16)] else none
    | _, _, _, _ => none
  | _ => none

private theorem ofNat_eq (byte : UInt8) {n : Nat} (h : n = byte.toNat) : UInt8.ofNat n = byte := by
  rw [h, UInt8.ofNat_toNat]

theorem decode_encodeBytes (bytes : List UInt8) : decodeChars (encodeBytes bytes) = some bytes := by
  induction bytes using encodeBytes.induct with
  | case1 => rfl
  | case2 a =>
    have small := a.toNat_lt
    simp only [encodeBytes, decodeChars, bits_padding]
    rw [bits_symbol _ (by omega), bits_symbol _ (by omega)]
    simp only [true_and]
    rw [if_pos (by omega), ofNat_eq a (by omega)]
  | case3 a b =>
    have small := a.toNat_lt
    have small' := b.toNat_lt
    simp only [encodeBytes, decodeChars, bits_padding]
    rw [bits_symbol _ (by omega), bits_symbol _ (by omega), bits_symbol _ (by omega)]
    simp only [true_and]
    rw [if_pos (by omega), ofNat_eq a (by omega), ofNat_eq b (by omega)]
  | case4 a b c rest ih =>
    have small := a.toNat_lt
    have small' := b.toNat_lt
    have small'' := c.toNat_lt
    simp only [encodeBytes, decodeChars]
    rw [bits_symbol _ (by omega), bits_symbol _ (by omega), bits_symbol _ (by omega), bits_symbol _ (by omega)]
    simp only [ih, Option.map_some]
    rw [ofNat_eq a (by omega), ofNat_eq b (by omega), ofNat_eq c (by omega)]

def encode (bytes : ByteArray) : String := String.ofList (encodeBytes bytes.data.toList)

def decode (text : String) : Option ByteArray := (decodeChars text.toList).map fun bytes => ⟨bytes.toArray⟩

theorem decode_encode (bytes : ByteArray) : decode (encode bytes) = some bytes := by
  simp [decode, encode, decode_encodeBytes]

end Mooncache.Base64
