import Mooncache.Foundation.Utf8
import Mooncache.Store.Ssd
import Mathlib.Data.List.FinRange

/-! The key of the SSD tier, as a store node reads it: the inverse of lowercase hexadecimal. -/
namespace Mooncache

def keyFormatError : String := "SSD key must be 64 lowercase hex characters"

def hexNibble (byte : UInt8) : Except String UInt8 :=
  if 48 ≤ byte ∧ byte ≤ 57 then .ok (byte - 48)
  else if 97 ≤ byte ∧ byte ≤ 102 then .ok (byte - 97 + 10)
  else .error keyFormatError

/-- What the loop computes for one slot of the key; nothing where an index is out of range. -/
def slotByte (bytes : List UInt8) (index : Nat) : Option (Except String UInt8) :=
  match bytes[index * 2]? with
  | none => none
  | some first =>
    match hexNibble first with
    | .error err => some (.error err)
    | .ok high =>
      match bytes[index * 2 + 1]? with
      | none => none
      | some second =>
        match hexNibble second with
        | .error err => some (.error err)
        | .ok low => some (.ok ((high <<< 4) ||| low))

/-- The loop over the slots that are left. -/
def fillSlots (bytes : List UInt8) : List (Fin 32) → Vector UInt8 32 → Option (Except String (Vector UInt8 32))
  | [], out => some (.ok out)
  | index :: rest, out =>
    match slotByte bytes index with
    | none => none
    | some (.error err) => some (.error err)
    | some (.ok byte) => fillSlots bytes rest (out.set index byte)

/-- The length is that of the UTF-8 text. Nothing stands for a panic. -/
def parse32ByteHex (value : String) : Option (Except String (Vector UInt8 32)) :=
  let bytes := value.toUTF8.data.toList
  if bytes.length ≠ 64 then some (.error keyFormatError)
  else fillSlots bytes (List.finRange 32) (Vector.replicate 32 0)

def hexTable : List Char := "0123456789abcdef".toList

/-- `hex_lower` with its indexes into the table; nothing where one is out of range. -/
def hexLowerSteps : List UInt8 → Option (List Char)
  | [] => some []
  | byte :: rest =>
    match hexTable[(byte >>> 4).toNat]?, hexTable[(byte &&& 0x0f).toNat]?, hexLowerSteps rest with
    | some high, some low, some out => some (high :: low :: out)
    | _, _, _ => none

/-- The byte of a lowercase hexadecimal digit. -/
def digitByte (n : Nat) : UInt8 := UInt8.ofNat (if n < 10 then 48 + n else 87 + n)

private theorem hexNibble_cases : ∀ n < 256,
    (∃ digit < 16, UInt8.ofNat n = digitByte digit ∧ hexNibble (UInt8.ofNat n) = .ok (UInt8.ofNat digit)) ∨
    ((∀ digit < 16, UInt8.ofNat n ≠ digitByte digit) ∧ hexNibble (UInt8.ofNat n) = .error keyFormatError) := by
  decide +kernel

private theorem hexNibble_digitByte : ∀ n < 16, hexNibble (digitByte n) = .ok (UInt8.ofNat n) := by decide

private theorem utf8_hexDigit : ∀ n < 16, String.utf8EncodeChar (hexDigit n) = [digitByte n] := by decide

private theorem nibbles : ∀ high < 16, ∀ low < 16,
    (UInt8.ofNat high <<< 4) ||| UInt8.ofNat low = UInt8.ofNat (16 * high + low) := by decide

/-- A byte is a digit, of one value, or is refused. -/
theorem hexNibble_digit (byte : UInt8) :
    (∃ digit < 16, byte = digitByte digit ∧ hexNibble byte = .ok (UInt8.ofNat digit)) ∨
    ((∀ digit < 16, byte ≠ digitByte digit) ∧ hexNibble byte = .error keyFormatError) := by
  simpa using hexNibble_cases byte.toNat byte.toNat_lt

/-- A slot is filled with the byte whose two digits stand at its place. -/
theorem slotByte_eq_ok {bytes : List UInt8} {index : Nat} {byte : UInt8} :
    slotByte bytes index = some (.ok byte) ↔
      bytes[index * 2]? = some (digitByte (byte.toNat / 16)) ∧
        bytes[index * 2 + 1]? = some (digitByte (byte.toNat % 16)) := by
  constructor
  · intro filled
    unfold slotByte at filled
    cases first : bytes[index * 2]? with
    | none => simp [first] at filled
    | some high =>
      cases second : bytes[index * 2 + 1]? with
      | none => cases read : hexNibble high <;> simp [first, second, read] at filled
      | some low =>
        rcases hexNibble_digit high with ⟨upper, upperBound, rfl, readHigh⟩ | ⟨_, refused⟩
        · rcases hexNibble_digit low with ⟨lower, lowerBound, rfl, readLow⟩ | ⟨_, refused⟩
          · simp only [first, second, readHigh, readLow, nibbles _ upperBound _ lowerBound, Option.some.injEq,
              Except.ok.injEq] at filled
            have value : byte.toNat = 16 * upper + lower := by
              rw [← filled, UInt8.toNat_ofNat']
              omega
            have quotient : byte.toNat / 16 = upper := by omega
            have remainder : byte.toNat % 16 = lower := by omega
            rw [quotient, remainder]
            exact ⟨rfl, rfl⟩
          · simp [first, second, readHigh, refused] at filled
        · simp [first, refused] at filled
  · rintro ⟨first, second⟩
    have bound := byte.toNat_lt
    have joined := nibbles (byte.toNat / 16) (by omega) (byte.toNat % 16) (by omega)
    rw [Nat.div_add_mod, UInt8.ofNat_toNat] at joined
    simp only [slotByte, first, second, hexNibble_digitByte _ (by omega : byte.toNat / 16 < 16),
      hexNibble_digitByte _ (by omega : byte.toNat % 16 < 16), joined]

/-- Within the text a slot is filled or refused. -/
theorem slotByte_cases {bytes : List UInt8} {index : Nat} (within : index * 2 + 1 < bytes.length) :
    slotByte bytes index = some (.error keyFormatError) ∨ ∃ byte, slotByte bytes index = some (.ok byte) := by
  have first := List.getElem?_eq_getElem (l := bytes) (i := index * 2) (by omega)
  have second := List.getElem?_eq_getElem within
  rcases hexNibble_digit bytes[index * 2] with ⟨upper, _, _, high⟩ | ⟨_, refused⟩
  · rcases hexNibble_digit bytes[index * 2 + 1] with ⟨lower, _, _, low⟩ | ⟨_, refused⟩
    · exact .inr ⟨(UInt8.ofNat upper <<< 4) ||| UInt8.ofNat lower, by simp only [slotByte, first, second, high, low]⟩
    · exact .inl (by simp only [slotByte, first, second, high, refused])
  · exact .inl (by simp only [slotByte, first, refused])

/-- The loop fills the slots it has left, each once, and leaves the others. -/
theorem fillSlots_eq_ok {bytes : List UInt8} {indexes : List (Fin 32)} (nodup : indexes.Nodup)
    {out key : Vector UInt8 32} :
    fillSlots bytes indexes out = some (.ok key) ↔
      ∀ index, if index ∈ indexes then slotByte bytes index = some (.ok key[index]) else key[index] = out[index] := by
  induction indexes generalizing out with
  | nil =>
    simp only [fillSlots, Option.some.injEq, Except.ok.injEq, List.not_mem_nil, ↓reduceIte]
    constructor
    · rintro rfl index
      rfl
    · exact fun same => Vector.ext fun i bound => (same ⟨i, bound⟩).symm
  | cons first rest ih =>
    obtain ⟨fresh, nodup⟩ := List.nodup_cons.mp nodup
    have others : ∀ index : Fin 32, index ≠ first → ∀ byte, (out.set first byte)[index] = out[index] :=
      fun index other byte => Vector.getElem_set_ne _ _ fun same => other (Fin.ext same.symm)
    rw [fillSlots]
    rcases filled : slotByte bytes first with _ | err | byte
    · simp only [reduceCtorEq, false_iff, not_forall]
      exact ⟨first, by simp [filled]⟩
    · simp only [Option.some.injEq, reduceCtorEq, false_iff, not_forall]
      exact ⟨first, by simp [filled]⟩
    · rw [ih nodup]
      refine forall_congr' fun index => ?_
      by_cases here : index = first
      · subst here
        simp [fresh, filled, eq_comm]
      · simp [here, others index here]

/-- While every slot is within the text, the loop fills the key or refuses it. -/
theorem fillSlots_cases {bytes : List UInt8} (within : bytes.length = 64) (indexes : List (Fin 32))
    (out : Vector UInt8 32) : fillSlots bytes indexes out = some (.error keyFormatError) ∨
      ∃ key, fillSlots bytes indexes out = some (.ok key) := by
  induction indexes generalizing out with
  | nil => exact .inr ⟨out, rfl⟩
  | cons first rest ih =>
    have bound := first.isLt
    rw [fillSlots]
    rcases slotByte_cases (by omega : first.val * 2 + 1 < bytes.length) with refused | ⟨byte, filled⟩
    · rw [refused]
      exact .inl rfl
    · rw [filled]
      exact ih _

private theorem hexTable_getElem : ∀ n < 256, hexTable[(UInt8.ofNat n >>> 4).toNat]? = some (hexDigit (n / 16)) ∧
    hexTable[(UInt8.ofNat n &&& 0x0f).toNat]? = some (hexDigit (n % 16)) := by decide +kernel

/-- The halves of a byte are its quotient and its remainder, and within the table. -/
theorem hexLowerSteps_eq (bytes : List UInt8) : hexLowerSteps bytes = some (hexLower bytes).toList := by
  rw [hexLower, String.toList_ofList]
  induction bytes with
  | nil => rfl
  | cons byte rest ih =>
    obtain ⟨high, low⟩ := hexTable_getElem byte.toNat byte.toNat_lt
    rw [UInt8.ofNat_toNat] at high low
    simp only [hexLowerSteps, high, low, ih, List.flatMap_cons, hexByte, List.cons_append, List.nil_append]

/-- The two digits of a byte, as the bytes of their text. -/
def digitBytes (byte : UInt8) : List UInt8 := [digitByte (byte.toNat / 16), digitByte (byte.toNat % 16)]

theorem toUTF8_hexLower (bytes : List UInt8) : (hexLower bytes).toUTF8.data.toList = bytes.flatMap digitBytes := by
  have digits : ∀ byte : UInt8, (hexByte byte).flatMap String.utf8EncodeChar = digitBytes byte := fun byte => by
    have bound := byte.toNat_lt
    simp [hexByte, digitBytes, utf8_hexDigit _ (by omega : byte.toNat / 16 < 16),
      utf8_hexDigit _ (by omega : byte.toNat % 16 < 16)]
  rw [toUTF8_eq, hexLower, String.toList_ofList, List.flatMap_assoc]
  exact congrArg (bytes.flatMap ·) (funext digits)

/-- Digits are those of a list of bytes exactly if each pair of them is that of its byte. -/
theorem eq_flatMap_digitBytes {digits bytes : List UInt8} :
    digits = bytes.flatMap digitBytes ↔ digits.length = bytes.length * 2 ∧
      ∀ (index : Nat) (within : index < bytes.length),
        digits[index * 2]? = some (digitByte (bytes[index].toNat / 16)) ∧
          digits[index * 2 + 1]? = some (digitByte (bytes[index].toNat % 16)) := by
  induction bytes generalizing digits with
  | nil => simp
  | cons byte rest ih =>
    constructor
    · rintro rfl
      obtain ⟨length, pairs⟩ := ih.mp rfl
      refine ⟨by simp [digitBytes, length, Nat.add_mul], fun index within => ?_⟩
      cases index with
      | zero => exact ⟨rfl, rfl⟩
      | succ index =>
        rw [Nat.succ_mul]
        exact pairs index (Nat.lt_of_succ_lt_succ within)
    · rintro ⟨length, pairs⟩
      rcases digits with _ | ⟨high, _ | ⟨low, more⟩⟩
      · simp at length
      · simp only [List.length_cons, List.length_nil] at length
        omega
      · obtain ⟨first, second⟩ := pairs 0 (Nat.zero_lt_succ _)
        have later : more = rest.flatMap digitBytes := by
          refine ih.mpr ⟨by simpa [Nat.add_mul] using length, fun index within => ?_⟩
          have pair := pairs (index + 1) (Nat.succ_lt_succ within)
          rw [Nat.succ_mul] at pair
          exact pair
        cases first
        cases second
        rw [later]
        rfl

/-- A key is read from a text exactly if the text is its lowercase hexadecimal; any other text is
refused, and no index is out of range. -/
theorem parse32ByteHex_exact (value : String) :
    (∀ key, parse32ByteHex value = some (.ok key) ↔ value = hexLower key.toList) ∧
    (parse32ByteHex value = some (.error keyFormatError) ↔ ∀ key : Vector UInt8 32, value ≠ hexLower key.toList) ∧
    ∀ bytes, hexLowerSteps bytes = some (hexLower bytes).toList := by
  have text : ∀ key : Vector UInt8 32,
      value = hexLower key.toList ↔ value.toUTF8.data.toList = key.toList.flatMap digitBytes := fun key => by
    rw [← toUTF8_hexLower]
    exact ⟨fun same => same ▸ rfl, fun same => String.toByteArray_inj.mp (ByteArray.ext (Array.toList_inj.mp same))⟩
  have reads : ∀ key, parse32ByteHex value = some (.ok key) ↔ value = hexLower key.toList := fun key => by
    rw [text, eq_flatMap_digitBytes, parse32ByteHex]
    simp only [Vector.length_toList, Vector.getElem_toList]
    by_cases length : value.toUTF8.data.toList.length = 64
    · rw [if_neg (not_not.mpr length), fillSlots_eq_ok (List.nodup_finRange 32)]
      simp only [List.mem_finRange, ↓reduceIte, slotByte_eq_ok, length, true_and]
      exact ⟨fun filled index within => by simpa using filled ⟨index, within⟩,
        fun pairs index => by simpa using pairs index.val index.isLt⟩
    · rw [if_pos length]
      exact ⟨nofun, fun same => absurd same.1 length⟩
  refine ⟨reads, ⟨fun refused key same => ?_, fun none => ?_⟩, hexLowerSteps_eq⟩
  · rw [(reads key).mpr same] at refused
    cases refused
  · rw [parse32ByteHex]
    split
    · rfl
    · rename_i length
      rcases fillSlots_cases (not_not.mp length) (List.finRange 32) (Vector.replicate 32 0) with refused | ⟨key, filled⟩
      · exact refused
      · refine absurd ((reads key).mp ?_) (none key)
        rw [parse32ByteHex, if_neg length]
        exact filled

/-- Text of 64 bytes that are not ASCII is refused as well. -/
example : parse32ByteHex (String.ofList (List.replicate 32 'é')) = some (.error keyFormatError) := by decide +kernel

end Mooncache
