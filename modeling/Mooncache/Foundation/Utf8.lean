import Mathlib.Data.List.Basic

/-! UTF-8 bytes read back as characters, with a replacement for what is not a character. -/
namespace Mooncache
open String (utf8EncodeChar)

/-- The character that the bytes start with. -/
def firstChar? (bytes : List UInt8) : Option Char := bytes.toByteArray.utf8DecodeChar? 0

/-- The bytes that can follow `first` in a character of three or four bytes. -/
def secondBytes (first : Nat) : Nat × Nat :=
  (if first = 0xE0 then 0xA0 else if first = 0xF0 then 0x90 else 0x80,
    if first = 0xED then 0x9F else if first = 0xF4 then 0x8F else 0xBF)

def mayFollow (first second : UInt8) : Bool :=
  0xE0 ≤ first.toNat && first.toNat ≤ 0xF4 && (secondBytes first.toNat).1 ≤ second.toNat &&
    second.toNat ≤ (secondBytes first.toNat).2

/-- How many of the bytes after `first` start a character with it that they do not complete. -/
def brokenTail (first : UInt8) : List UInt8 → Nat
  | [] => 0
  | second :: rest =>
    if mayFollow first second then
      if 0xF0 ≤ first.toNat ∧ ∃ third ∈ rest.head?, 0x80 ≤ third.toNat ∧ third.toNat ≤ 0xBF then 2 else 1
    else 0

def replacement : Char := Char.ofNat 0xFFFD

/-- `String::from_utf8_lossy`. -/
def fromUtf8Lossy : List UInt8 → List Char
  | [] => []
  | first :: rest =>
    match firstChar? (first :: rest) with
    | some c => c :: fromUtf8Lossy (rest.drop (c.utf8Size - 1))
    | none => replacement :: fromUtf8Lossy (rest.drop (brokenTail first rest))
termination_by bytes => bytes.length
decreasing_by all_goals simp only [List.length_drop, List.length_cons]; omega

theorem firstChar?_encode (c : Char) (rest : List UInt8) : firstChar? (utf8EncodeChar c ++ rest) = some c := by
  rw [firstChar?, List.toByteArray_append]
  exact ByteArray.utf8DecodeChar?_utf8EncodeChar_append

theorem fromUtf8Lossy_encode (c : Char) (rest : List UInt8) :
    fromUtf8Lossy (utf8EncodeChar c ++ rest) = c :: fromUtf8Lossy rest := by
  have found := firstChar?_encode c rest
  cases encoded : utf8EncodeChar c with
  | nil => exact absurd encoded String.utf8EncodeChar_ne_nil
  | cons first tail =>
    have size : tail.length = c.utf8Size - 1 := by
      have whole := String.length_utf8EncodeChar c
      rw [encoded, List.length_cons] at whole
      omega
    rw [encoded, List.cons_append] at found
    rw [List.cons_append, fromUtf8Lossy, found]
    simp only [List.drop_left' size]

/-- What was encoded is read back. -/
theorem fromUtf8Lossy_flatMap (text : List Char) : fromUtf8Lossy (text.flatMap utf8EncodeChar) = text := by
  induction text with
  | nil => rw [List.flatMap_nil, fromUtf8Lossy]
  | cons c rest ih => rw [List.flatMap_cons, fromUtf8Lossy_encode, ih]

private theorem isFirst_of_range : ∀ n < 256, 0xE0 ≤ n → n ≤ 0xF4 → (UInt8.ofNat n).IsUTF8FirstByte := by
  decide +kernel

private theorem not_isFirst_of_range : ∀ n < 256, 0x80 ≤ n → n ≤ 0xBF → ¬ (UInt8.ofNat n).IsUTF8FirstByte := by
  decide +kernel

theorem not_isFirst_of_continuation {b : UInt8} (low : 0x80 ≤ b.toNat) (high : b.toNat ≤ 0xBF) :
    ¬ b.IsUTF8FirstByte := by
  have range := not_isFirst_of_range b.toNat b.toNat_lt low high
  rwa [UInt8.ofNat_toNat] at range

theorem secondBytes_range (first : Nat) : 0x80 ≤ (secondBytes first).1 ∧ (secondBytes first).2 ≤ 0xBF := by
  unfold secondBytes
  constructor
  · split_ifs <;> decide
  · split_ifs <;> decide

theorem mayFollow_eq_true {first second : UInt8} (h : mayFollow first second = true) :
    first.IsUTF8FirstByte ∧ ¬ second.IsUTF8FirstByte := by
  simp only [mayFollow, Bool.and_eq_true, decide_eq_true_eq] at h
  obtain ⟨⟨⟨low, high⟩, above⟩, below⟩ := h
  have range := isFirst_of_range first.toNat first.toNat_lt low high
  rw [UInt8.ofNat_toNat] at range
  obtain ⟨least, most⟩ := secondBytes_range first.toNat
  exact ⟨range, not_isFirst_of_continuation (Nat.le_trans least above) (Nat.le_trans below most)⟩

/-- A byte that starts no character is replaced alone. -/
theorem fromUtf8Lossy_of_not_isFirst {b : UInt8} (h : ¬ b.IsUTF8FirstByte) (rest : List UInt8) :
    fromUtf8Lossy (b :: rest) = replacement :: fromUtf8Lossy rest := by
  have missing : firstChar? (b :: rest) = none := by
    by_contra found
    have first := ByteArray.isUTF8FirstByte_of_isSome_utf8DecodeChar? (Option.isSome_iff_ne_none.mpr found)
    rw [List.getElem_toByteArray] at first
    exact h first
  have alone : brokenTail b rest = 0 := by
    cases rest with
    | nil => rfl
    | cons second more =>
      rw [brokenTail, if_neg fun follows => h (mayFollow_eq_true follows).1]
  rw [fromUtf8Lossy, missing]
  simp only [alone, List.drop_zero]

/-- Bytes that start no character are replaced one by one. -/
theorem length_fromUtf8Lossy_drop {bytes : List UInt8} {n : Nat} (h : ∀ b ∈ bytes.take n, ¬ b.IsUTF8FirstByte) :
    (fromUtf8Lossy (bytes.drop n)).length ≤ (fromUtf8Lossy bytes).length := by
  induction n generalizing bytes with
  | zero => exact Nat.le_refl _
  | succ n ih =>
    cases bytes with
    | nil => exact Nat.le_refl _
    | cons b rest =>
      rw [List.take_succ_cons, List.forall_mem_cons] at h
      rw [List.drop_succ_cons, fromUtf8Lossy_of_not_isFirst h.1, List.length_cons]
      exact Nat.le_succ_of_le (ih h.2)

theorem tail_of_firstChar? {first : UInt8} {rest : List UInt8} {c : Char} (h : firstChar? (first :: rest) = some c) :
    ∀ b ∈ rest.take (c.utf8Size - 1), ¬ b.IsUTF8FirstByte := by
  obtain ⟨after, whole⟩ := ByteArray.exists_of_utf8DecodeChar?_eq_some h
  have bytes : first :: rest = utf8EncodeChar c ++ after.data.toList := by
    simpa using congrArg (·.data.toList) whole
  have size := String.length_utf8EncodeChar c
  intro b member
  obtain ⟨i, bound, rfl⟩ := List.getElem_of_mem member
  rw [List.length_take] at bound
  have inside : i + 1 < (utf8EncodeChar c).length := by omega
  have found : (first :: rest)[i + 1]? = some (utf8EncodeChar c)[i + 1] := by
    rw [bytes, List.getElem?_append_left inside, List.getElem?_eq_getElem inside]
  rw [List.getElem?_cons_succ, List.getElem?_eq_getElem (by omega), Option.some.injEq] at found
  rw [List.getElem_take, found, UInt8.isUTF8FirstByte_getElem_utf8EncodeChar]
  exact Nat.succ_ne_zero i

theorem tail_of_broken (first : UInt8) (rest : List UInt8) :
    ∀ b ∈ rest.take (brokenTail first rest), ¬ b.IsUTF8FirstByte := by
  cases rest with
  | nil => simp [brokenTail]
  | cons second more =>
    cases follows : mayFollow first second with
    | false => simp [brokenTail, follows]
    | true =>
      have broken := (mayFollow_eq_true follows).2
      rw [brokenTail, if_pos follows]
      split
      · rename_i longer
        obtain ⟨_, third, next, low, high⟩ := longer
        obtain ⟨rest, rfl⟩ : ∃ rest, more = third :: rest := ⟨more.tail, List.eq_cons_of_mem_head? next⟩
        simpa [broken] using not_isFirst_of_continuation low high
      · simpa using broken

/-- One more byte in front makes at most one more character. -/
theorem length_fromUtf8Lossy_cons (first : UInt8) (rest : List UInt8) :
    (fromUtf8Lossy (first :: rest)).length ≤ (fromUtf8Lossy rest).length + 1 := by
  rw [fromUtf8Lossy]
  split
  · rename_i c found
    exact Nat.succ_le_succ (length_fromUtf8Lossy_drop (tail_of_firstChar? found))
  · exact Nat.succ_le_succ (length_fromUtf8Lossy_drop (tail_of_broken first rest))

/-- A character is one ASCII byte, or bytes beyond ASCII. -/
theorem utf8EncodeChar_cases (c : Char) :
    (c.toNat < 0x80 ∧ utf8EncodeChar c = [UInt8.ofNat c.toNat]) ∨
      (0x80 ≤ c.toNat ∧ ∀ b ∈ utf8EncodeChar c, 0x80 ≤ b.toNat) := by
  have value : c.val.toNat = c.toNat := rfl
  unfold utf8EncodeChar
  rw [value]
  by_cases ascii : c.toNat ≤ 0x7F
  · exact .inl ⟨by omega, if_pos ascii⟩
  · refine .inr ⟨by omega, fun b member => ?_⟩
    simp only [ascii, ↓reduceIte] at member
    split_ifs at member <;> simp only [List.mem_cons, List.not_mem_nil, or_false] at member <;>
      rcases member with rfl | rfl | rfl | rfl <;> simp <;> omega

theorem mem_utf8EncodeChar {a c : Char} (ascii : a.toNat < 0x80) :
    UInt8.ofNat a.toNat ∈ utf8EncodeChar c ↔ c = a := by
  have small : (UInt8.ofNat a.toNat).toNat = a.toNat := UInt8.toNat_ofNat_of_lt' (Nat.lt_trans ascii (by decide))
  rcases utf8EncodeChar_cases c with ⟨short, bytes⟩ | ⟨long, beyond⟩
  · have same : (UInt8.ofNat c.toNat).toNat = c.toNat := UInt8.toNat_ofNat_of_lt' (Nat.lt_trans short (by decide))
    rw [bytes, List.mem_singleton, ← UInt8.toNat_inj, small, same, Char.toNat_inj, eq_comm]
  · refine ⟨fun member => ?_, fun same => ?_⟩
    · have large := beyond _ member
      omega
    · subst same
      omega

theorem toUTF8_eq (text : String) : text.toUTF8.data.toList = text.toList.flatMap utf8EncodeChar := by
  rw [String.toUTF8, ← String.utf8Encode_toList]
  simp [List.utf8Encode]

end Mooncache
