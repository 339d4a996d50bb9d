import Mooncache.Foundation.Utf8
import Mathlib.Data.List.TakeWhile

/-! Query strings: how a URL parser encodes one, and how a form decoder reads its pairs. -/
namespace Mooncache
open String (utf8EncodeChar)

/-- The value of a hexadecimal digit of either case. -/
def hexValue (b : UInt8) : Option Nat :=
  let n := b.toNat
  if 0x30 ≤ n ∧ n ≤ 0x39 then some (n - 0x30)
  else if 0x41 ≤ n ∧ n ≤ 0x46 then some (n - 0x37)
  else if 0x61 ≤ n ∧ n ≤ 0x66 then some (n - 0x57)
  else none

/-- The byte that two hexadecimal digits at the front stand for, and the bytes after them. -/
def hexPair : List UInt8 → Option (UInt8 × List UInt8)
  | high :: low :: rest =>
    match hexValue high, hexValue low with
    | some x, some y => some (UInt8.ofNat (16 * x + y), rest)
    | _, _ => none
  | _ => none

theorem length_of_hexPair {bytes rest : List UInt8} {b : UInt8} (h : hexPair bytes = some (b, rest)) :
    rest.length < bytes.length := by
  unfold hexPair at h
  split at h
  · split at h
    · cases h
      simp only [List.length_cons]
      omega
    · cases h
  · cases h

/-- A percent sign (`0x25`) without two digits after it stands for itself. -/
def percentDecode : List UInt8 → List UInt8
  | [] => []
  | b :: rest =>
    if b = 0x25 then
      match _h : hexPair rest with
      | some (decoded, more) => decoded :: percentDecode more
      | none => b :: percentDecode rest
    else b :: percentDecode rest
termination_by bytes => bytes.length
decreasing_by
  · exact Nat.lt_succ_of_lt (length_of_hexPair _h)
  · exact Nat.lt_succ_self _
  · exact Nat.lt_succ_self _

def upperHexDigit (n : Nat) : UInt8 := UInt8.ofNat (if n < 10 then 0x30 + n else 0x37 + n)

/-- The bytes that a query cannot hold: controls, the space, the double quote, `#`, the single quote,
`<`, `>` and all beyond ASCII. -/
def encodedInQuery (b : UInt8) : Bool :=
  let n := b.toNat
  n ≤ 0x20 || n == 0x22 || n == 0x23 || n == 0x27 || n == 0x3C || n == 0x3E || 0x7F ≤ n

def encodeByte (b : UInt8) : List UInt8 :=
  if encodedInQuery b then [0x25, upperHexDigit (b.toNat / 16), upperHexDigit (b.toNat % 16)] else [b]

def encodeQuery (text : List Char) : List UInt8 := (text.flatMap utf8EncodeChar).flatMap encodeByte

/-- The query of a URL as it is sent. The parser drops tabs and line ends, and a number sign ends the query. -/
def urlQuery (text : List Char) : List UInt8 :=
  encodeQuery ((text.filter fun c => c ≠ '\t' ∧ c ≠ '\n' ∧ c ≠ '\r').takeWhile (· ≠ '#'))

def plusToSpace (b : UInt8) : UInt8 := if b = 0x2B then 0x20 else b

def formDecode (bytes : List UInt8) : List Char := fromUtf8Lossy (percentDecode (bytes.map plusToSpace))

/-- The pairs of an `application/x-www-form-urlencoded` text. -/
def formPairs (bytes : List UInt8) : List (List Char × List Char) :=
  ((bytes.splitOn 0x26).filter (· ≠ [])).map fun piece =>
    (formDecode (piece.takeWhile (· ≠ 0x3D)), formDecode ((piece.dropWhile (· ≠ 0x3D)).drop 1))

theorem percentDecode_nil : percentDecode [] = [] := by rw [percentDecode]

theorem percentDecode_cons {b : UInt8} (h : b ≠ 0x25) (rest : List UInt8) :
    percentDecode (b :: rest) = b :: percentDecode rest := by
  rw [percentDecode, if_neg h]

theorem percentDecode_percent {rest more : List UInt8} {b : UInt8} (h : hexPair rest = some (b, more)) :
    percentDecode (0x25 :: rest) = b :: percentDecode more := by
  rw [percentDecode, if_pos rfl]
  split
  · rename_i decoded more' found
    rw [h] at found
    cases found
    rfl
  · rename_i found
    rw [h] at found
    cases found

theorem percentDecode_percent_alone {rest : List UInt8} (h : hexPair rest = none) :
    percentDecode (0x25 :: rest) = 0x25 :: percentDecode rest := by
  rw [percentDecode, if_pos rfl]
  split
  · rename_i found
    rw [h] at found
    cases found
  · rfl

theorem percentDecode_append {bytes : List UInt8} (h : 0x25 ∉ bytes) (rest : List UInt8) :
    percentDecode (bytes ++ rest) = bytes ++ percentDecode rest := by
  induction bytes with
  | nil => rfl
  | cons b more ih =>
    rw [List.cons_append, percentDecode_cons (fun same => h (same ▸ List.mem_cons_self)),
      ih fun member => h (List.mem_cons_of_mem _ member), List.cons_append]

/-- What a query encodes and a form decoder makes of the plus sign, byte by byte. -/
def wireByte (b : UInt8) : List UInt8 := (encodeByte b).map plusToSpace

private theorem upperHexDigit_spec : ∀ n < 16, hexValue (upperHexDigit n) = some n ∧
    plusToSpace (upperHexDigit n) = upperHexDigit n := by decide

theorem wireByte_of_encoded {b : UInt8} (h : encodedInQuery b = true) (rest : List UInt8) :
    hexPair (wireByte b ++ rest) = none ∧ percentDecode (wireByte b ++ rest) = b :: percentDecode rest := by
  have bound := b.toNat_lt
  obtain ⟨high, plainHigh⟩ := upperHexDigit_spec (b.toNat / 16) (by omega)
  obtain ⟨low, plainLow⟩ := upperHexDigit_spec (b.toNat % 16) (by omega)
  have bytes : wireByte b = [0x25, upperHexDigit (b.toNat / 16), upperHexDigit (b.toNat % 16)] := by
    rw [wireByte, encodeByte, if_pos h, List.map_cons, List.map_cons, List.map_cons, plainHigh, plainLow]
    rfl
  have pair : hexPair (upperHexDigit (b.toNat / 16) :: upperHexDigit (b.toNat % 16) :: rest) = some (b, rest) := by
    rw [hexPair, high, low]
    have value : 16 * (b.toNat / 16) + b.toNat % 16 = b.toNat := by omega
    simp only [value, UInt8.ofNat_toNat]
  rw [bytes]
  exact ⟨rfl, percentDecode_percent pair⟩

theorem wireByte_of_plain {b : UInt8} (h : encodedInQuery b = false) : wireByte b = [plusToSpace b] := by
  rw [wireByte, encodeByte, h]
  rfl

private theorem digit_plain : ∀ n < 256, (hexValue (UInt8.ofNat n)).isSome = true →
    encodedInQuery (UInt8.ofNat n) = false ∧ plusToSpace (UInt8.ofNat n) = UInt8.ofNat n := by decide +kernel

private theorem other_plain : ∀ n < 256, hexValue (UInt8.ofNat n) = none →
    hexValue (plusToSpace (UInt8.ofNat n)) = none := by decide +kernel

/-- A rewriting of bytes that keeps the hexadecimal digits and makes no others at the front of a byte. -/
structure KeepsDigits (wire : UInt8 → List UInt8) : Prop where
  digit : ∀ {b n}, hexValue b = some n → wire b = [b]
  other : ∀ {b}, hexValue b = none → ∃ first more, wire b = first :: more ∧ hexValue first = none

theorem plusToSpace_keepsDigits : KeepsDigits fun b => [plusToSpace b] where
  digit {b n} h := by
    have plain := digit_plain b.toNat b.toNat_lt (by rw [UInt8.ofNat_toNat, h]; rfl)
    rw [UInt8.ofNat_toNat] at plain
    rw [plain.2]
  other {b} h := by
    have none := other_plain b.toNat b.toNat_lt (by rwa [UInt8.ofNat_toNat])
    rw [UInt8.ofNat_toNat] at none
    exact ⟨_, [], rfl, none⟩

theorem wireByte_keepsDigits : KeepsDigits wireByte where
  digit {b n} h := by
    have plain := digit_plain b.toNat b.toNat_lt (by rw [UInt8.ofNat_toNat, h]; rfl)
    rw [UInt8.ofNat_toNat] at plain
    rw [wireByte_of_plain plain.1, plain.2]
  other {b} h := by
    cases encoded : encodedInQuery b with
    | true => exact ⟨_, _, by rw [wireByte, encodeByte, if_pos encoded, List.map_cons], rfl⟩
    | false =>
      rw [wireByte_of_plain encoded]
      exact plusToSpace_keepsDigits.other h

theorem hexPair_of_first {b : UInt8} (h : hexValue b = none) (rest : List UInt8) : hexPair (b :: rest) = none := by
  cases rest with
  | nil => rfl
  | cons low more => simp only [hexPair, h]

theorem hexPair_of_second {b : UInt8} (h : hexValue b = none) (first : UInt8) (rest : List UInt8) :
    hexPair (first :: b :: rest) = none := by
  simp only [hexPair, h]
  split
  · contradiction
  · rfl

/-- Two digits stand at the front afterwards exactly if they stood there before. -/
theorem KeepsDigits.hexPair {wire : UInt8 → List UInt8} (h : KeepsDigits wire) (bytes : List UInt8) :
    hexPair (bytes.flatMap wire) = (hexPair bytes).map fun (b, rest) => (b, rest.flatMap wire) := by
  cases bytes with
  | nil => rfl
  | cons first rest =>
    cases high : hexValue first with
    | none =>
      obtain ⟨b, more, sent, other⟩ := h.other high
      rw [List.flatMap_cons, sent, List.cons_append, hexPair_of_first other, hexPair_of_first high]
      rfl
    | some x =>
      rw [List.flatMap_cons, h.digit high, List.singleton_append]
      cases rest with
      | nil => rfl
      | cons second rest =>
        cases low : hexValue second with
        | none =>
          obtain ⟨b, more, sent, other⟩ := h.other low
          rw [List.flatMap_cons, sent, List.cons_append, hexPair_of_second other, hexPair_of_second low]
          rfl
        | some y =>
          rw [List.flatMap_cons, h.digit low, List.singleton_append]
          simp only [Mooncache.hexPair, high, low, Option.map_some]

private theorem plusToSpace_encoded : ∀ n < 256, encodedInQuery (UInt8.ofNat n) = true →
    plusToSpace (UInt8.ofNat n) = UInt8.ofNat n := by decide +kernel

/-- What is encoded for the query is decoded again: the decoder sees the bytes as they were. -/
theorem percentDecode_wire (bytes : List UInt8) :
    percentDecode (bytes.flatMap wireByte) = percentDecode (bytes.map plusToSpace) := by
  match bytes with
  | [] => rfl
  | b :: rest =>
    have next := percentDecode_wire rest
    by_cases percent : b = 0x25
    · subst percent
      have plain : wireByte 0x25 = [0x25] := rfl
      have kept : plusToSpace 0x25 = 0x25 := rfl
      have sent := wireByte_keepsDigits.hexPair rest
      have read := plusToSpace_keepsDigits.hexPair rest
      simp only [← List.map_eq_flatMap] at read
      rw [List.flatMap_cons, List.map_cons, plain, kept, List.singleton_append]
      cases pair : hexPair rest with
      | none =>
        rw [pair, Option.map_none] at sent read
        rw [percentDecode_percent_alone sent, percentDecode_percent_alone read, next]
      | some found =>
        obtain ⟨decoded, more⟩ := found
        have shorter := length_of_hexPair pair
        rw [pair, Option.map_some] at sent read
        rw [percentDecode_percent sent, percentDecode_percent read, percentDecode_wire more]
    · have other : plusToSpace b ≠ 0x25 := by
        unfold plusToSpace
        split
        · decide
        · exact percent
      rw [List.flatMap_cons, List.map_cons, percentDecode_cons other, ← next]
      cases encoded : encodedInQuery b with
      | true =>
        have kept := plusToSpace_encoded b.toNat b.toNat_lt (by rwa [UInt8.ofNat_toNat])
        rw [UInt8.ofNat_toNat] at kept
        rw [(wireByte_of_encoded encoded _).2, kept]
      | false => rw [wireByte_of_plain encoded, List.singleton_append, percentDecode_cons other]
termination_by bytes.length

/-! The same for characters. -/

def utf8 (text : List Char) : List UInt8 := text.flatMap utf8EncodeChar

theorem utf8_cons (c : Char) (rest : List Char) : utf8 (c :: rest) = utf8EncodeChar c ++ utf8 rest := List.flatMap_cons

def isHexDigit (c : Char) : Bool := c.toNat < 0x80 && (hexValue (UInt8.ofNat c.toNat)).isSome

/-- Whether two hexadecimal digits stand at the front. -/
def startsEscape : List Char → Bool
  | high :: low :: _ => isHexDigit high && isHexDigit low
  | _ => false

/-- Whether a percent sign has two hexadecimal digits after it. -/
def hasEscape : List Char → Bool
  | [] => false
  | c :: rest => c == '%' && startsEscape rest || hasEscape rest

private theorem hexValue_beyond : ∀ n < 256, 0x80 ≤ n → hexValue (UInt8.ofNat n) = none := by decide +kernel

theorem head_utf8EncodeChar (c : Char) : ∃ first more, utf8EncodeChar c = first :: more ∧
    (hexValue first).isSome = isHexDigit c ∧ (isHexDigit c = true → more = []) := by
  rcases utf8EncodeChar_cases c with ⟨short, bytes⟩ | ⟨long, beyond⟩
  · exact ⟨_, [], bytes, by simp [isHexDigit, short], fun _ => rfl⟩
  · have other : isHexDigit c = false := by simp [isHexDigit, Nat.not_lt.mpr long]
    cases bytes : utf8EncodeChar c with
    | nil => exact absurd bytes String.utf8EncodeChar_ne_nil
    | cons first more =>
      have none := hexValue_beyond first.toNat first.toNat_lt (beyond first (bytes ▸ List.mem_cons_self))
      rw [UInt8.ofNat_toNat] at none
      exact ⟨first, more, rfl, by rw [none, other]; rfl, by simp [other]⟩

theorem hexPair_of_digits {high low : Char} (h : isHexDigit high = true) (h' : isHexDigit low = true)
    (rest : List Char) : ∃ b, hexPair (utf8 (high :: low :: rest)) = some (b, utf8 rest) := by
  obtain ⟨first, more, bytes, digit, alone⟩ := head_utf8EncodeChar high
  obtain ⟨second, more', bytes', digit', alone'⟩ := head_utf8EncodeChar low
  obtain rfl := alone h
  obtain rfl := alone' h'
  rw [h, Option.isSome_iff_exists] at digit
  rw [h', Option.isSome_iff_exists] at digit'
  obtain ⟨x, value⟩ := digit
  obtain ⟨y, value'⟩ := digit'
  rw [utf8_cons, utf8_cons, bytes, bytes', List.singleton_append, List.singleton_append, hexPair, value, value']
  exact ⟨_, rfl⟩

theorem hexPair_of_not_startsEscape {text : List Char} (h : startsEscape text = false) : hexPair (utf8 text) = none := by
  cases text with
  | nil => rfl
  | cons high rest =>
    obtain ⟨first, more, bytes, digit, alone⟩ := head_utf8EncodeChar high
    rw [utf8_cons, bytes]
    cases isDigit : isHexDigit high with
    | false =>
      rw [isDigit, Option.isSome_eq_false_iff, Option.isNone_iff_eq_none] at digit
      exact hexPair_of_first digit _
    | true =>
      obtain rfl := alone isDigit
      cases rest with
      | nil => rfl
      | cons low rest =>
        have other : isHexDigit low = false := by simpa [startsEscape, isDigit] using h
        obtain ⟨second, more', bytes', digit', _⟩ := head_utf8EncodeChar low
        rw [other, Option.isSome_eq_false_iff, Option.isNone_iff_eq_none] at digit'
        rw [utf8_cons, bytes', List.cons_append, List.nil_append, List.cons_append]
        exact hexPair_of_second digit' _ _

theorem percent_not_mem {c : Char} (h : c ≠ '%') : 0x25 ∉ utf8EncodeChar c := fun member =>
  h ((mem_utf8EncodeChar (by decide : '%'.toNat < 0x80)).mp member)

theorem percentDecode_utf8_cons {c : Char} {rest : List Char} (h : (c == '%' && startsEscape rest) = false) :
    percentDecode (utf8 (c :: rest)) = utf8EncodeChar c ++ percentDecode (utf8 rest) := by
  rw [utf8_cons]
  by_cases percent : c = '%'
  · subst percent
    exact percentDecode_percent_alone (hexPair_of_not_startsEscape (by simpa using h))
  · exact percentDecode_append (percent_not_mem percent) _

/-- A text without an escape is decoded to itself. -/
theorem percentDecode_utf8 {text : List Char} (h : hasEscape text = false) : percentDecode (utf8 text) = utf8 text := by
  induction text with
  | nil => exact percentDecode_nil
  | cons c rest ih =>
    rw [hasEscape, Bool.or_eq_false_iff] at h
    rw [percentDecode_utf8_cons h.1, ih h.2, utf8_cons]

theorem percentDecode_escape {rest : List Char} (h : startsEscape rest = true) :
    ∃ b more, more.length + 2 = rest.length ∧
      percentDecode (utf8 ('%' :: rest)) = b :: percentDecode (utf8 more) := by
  match rest, h with
  | high :: low :: more, h =>
    rw [startsEscape, Bool.and_eq_true] at h
    obtain ⟨b, pair⟩ := hexPair_of_digits h.1 h.2 more
    exact ⟨b, more, rfl, percentDecode_percent pair⟩

/-- A text is decoded to no more characters than it has, and to fewer where it has an escape. -/
theorem length_decoded (text : List Char) : (fromUtf8Lossy (percentDecode (utf8 text))).length ≤ text.length ∧
    (hasEscape text = true → (fromUtf8Lossy (percentDecode (utf8 text))).length < text.length) := by
  cases text with
  | nil =>
    have empty : fromUtf8Lossy (percentDecode (utf8 [])) = [] := by
      rw [show utf8 [] = [] from rfl, percentDecode_nil, fromUtf8Lossy]
    rw [empty]
    exact ⟨Nat.le_refl _, fun has => absurd has (by decide)⟩
  | cons c rest =>
    cases escape : c == '%' && startsEscape rest with
    | true =>
      rw [Bool.and_eq_true, beq_iff_eq] at escape
      obtain ⟨rfl, starts⟩ := escape
      obtain ⟨b, more, size, decoded⟩ := percentDecode_escape starts
      have one := length_fromUtf8Lossy_cons b (percentDecode (utf8 more))
      have later := (length_decoded more).1
      rw [decoded, List.length_cons]
      omega
    | false =>
      have later := length_decoded rest
      rw [percentDecode_utf8_cons escape, fromUtf8Lossy_encode, hasEscape, escape, Bool.false_or, List.length_cons,
        List.length_cons]
      exact ⟨Nat.succ_le_succ later.1, fun has => Nat.succ_lt_succ (later.2 has)⟩
termination_by text.length

/-- The plus sign is a space. -/
def spaced (c : Char) : Char := if c = '+' then ' ' else c

theorem map_plusToSpace_utf8 (text : List Char) : (utf8 text).map plusToSpace = utf8 (text.map spaced) := by
  induction text with
  | nil => rfl
  | cons c rest ih =>
    rw [utf8_cons, List.map_append, ih, List.map_cons, utf8_cons]
    congr 1
    by_cases plus : c = '+'
    · subst plus
      rfl
    · have other : ∀ b ∈ utf8EncodeChar c, plusToSpace b = b := fun b member => by
        rw [plusToSpace, if_neg]
        rintro rfl
        exact plus ((mem_utf8EncodeChar (by decide : '+'.toNat < 0x80)).mp member)
      rw [List.map_congr_left other, List.map_id', spaced, if_neg plus]

/-- What a form decoder reads of a text that a query encoded. -/
def formText (text : List Char) : List Char := fromUtf8Lossy (percentDecode (utf8 (text.map spaced)))

theorem formDecode_encodeQuery (text : List Char) : formDecode (encodeQuery text) = formText text := by
  have sent : (encodeQuery text).map plusToSpace = (utf8 text).flatMap wireByte := by
    rw [encodeQuery, List.map_flatMap]
    rfl
  rw [formDecode, sent, percentDecode_wire, map_plusToSpace_utf8, formText]

theorem formText_of_plain {text : List Char} (escape : hasEscape (text.map spaced) = false) :
    formText text = text.map spaced := by
  rw [formText, percentDecode_utf8 escape]
  exact fromUtf8Lossy_flatMap _

theorem map_spaced_eq_self {text : List Char} : text.map spaced = text ↔ '+' ∉ text := by
  have plain {c : Char} : spaced c = c ↔ c ≠ '+' := by
    refine ⟨fun same plus => ?_, fun other => if_neg other⟩
    subst plus
    exact absurd same (by decide)
  have each := List.map_inj_left (l := text) (f := spaced) (g := id)
  rw [List.map_id] at each
  rw [each]
  refine ⟨fun same member => plain.mp (same _ member) rfl, fun absent c member => plain.mpr ?_⟩
  rintro rfl
  exact absent member

/-- A text is read back exactly if it has no escape and no plus sign. -/
theorem formText_eq_self {text : List Char} : formText text = text ↔ hasEscape text = false ∧ '+' ∉ text := by
  refine ⟨fun same => ?_, fun ⟨escape, absent⟩ => ?_⟩
  · have plain : hasEscape (text.map spaced) = false := by
      by_contra has
      have shorter := (length_decoded (text.map spaced)).2 (by simpa using has)
      rw [List.length_map] at shorter
      exact absurd (congrArg List.length same) (Nat.ne_of_lt shorter)
    rw [formText_of_plain plain] at same
    exact ⟨same ▸ plain, map_spaced_eq_self.mp same⟩
  · have kept := map_spaced_eq_self.mpr absent
    rw [formText_of_plain (by rwa [kept]), kept]

theorem length_formText (text : List Char) : (formText text).length ≤ text.length := by
  have shorter := (length_decoded (text.map spaced)).1
  rwa [List.length_map] at shorter

theorem encodeQuery_append (text rest : List Char) : encodeQuery (text ++ rest) = encodeQuery text ++ encodeQuery rest := by
  simp only [encodeQuery, List.flatMap_append]

theorem encodeQuery_eq_nil {text : List Char} : encodeQuery text = [] ↔ text = [] := by
  refine ⟨fun empty => ?_, fun empty => empty ▸ rfl⟩
  cases text with
  | nil => rfl
  | cons c rest =>
    obtain ⟨first, more, bytes, _⟩ := head_utf8EncodeChar c
    rw [encodeQuery, List.flatMap_cons, bytes, List.cons_append, List.flatMap_cons, encodeByte] at empty
    split at empty <;> simp at empty

private theorem encodeByte_separators : ∀ n < 256, (0x26 ∈ encodeByte (UInt8.ofNat n) → n = 0x26) ∧
    (0x3D ∈ encodeByte (UInt8.ofNat n) → n = 0x3D) := by decide +kernel

private theorem cut_at {α : Type*} [DecidableEq α] {a : α} {before : List α} (absent : a ∉ before) (after : List α) :
    (before ++ a :: after).takeWhile (· ≠ a) = before ∧ (before ++ a :: after).dropWhile (· ≠ a) = a :: after := by
  have others : ∀ b ∈ before, decide (b ≠ a) = true := fun b member =>
    decide_eq_true fun same => absent (same ▸ member)
  rw [List.takeWhile_append_of_pos others, List.dropWhile_append_of_pos others]
  simp

private theorem cut_nowhere {α : Type*} [DecidableEq α] {a : α} {text : List α} (absent : a ∉ text) :
    text.takeWhile (· ≠ a) = text ∧ text.dropWhile (· ≠ a) = [] := by
  have others : ∀ b ∈ text, decide (b ≠ a) = true := fun b member => decide_eq_true fun same => absent (same ▸ member)
  exact ⟨List.takeWhile_eq_self_iff.mpr others, List.dropWhile_eq_nil_iff.mpr others⟩

/-- The byte is sent as it is, and nothing else is sent as it. -/
def Separator (b : UInt8) : Prop := encodeByte b = [b] ∧ ∀ other, b ∈ encodeByte other → other = b

theorem ampersand_separator : Separator 0x26 := by
  refine ⟨rfl, fun other member => UInt8.toNat_inj.mp ?_⟩
  exact (encodeByte_separators other.toNat other.toNat_lt).1 (by rwa [UInt8.ofNat_toNat])

theorem equals_separator : Separator 0x3D := by
  refine ⟨rfl, fun other member => UInt8.toNat_inj.mp ?_⟩
  exact (encodeByte_separators other.toNat other.toNat_lt).2 (by rwa [UInt8.ofNat_toNat])

namespace Separator
variable {c : Char}

theorem encodeQuery_cons (h : Separator (UInt8.ofNat c.toNat)) (ascii : c.toNat < 0x80) (rest : List Char) :
    encodeQuery (c :: rest) = UInt8.ofNat c.toNat :: encodeQuery rest := by
  have bytes : utf8EncodeChar c = [UInt8.ofNat c.toNat] := by
    rcases utf8EncodeChar_cases c with ⟨_, bytes⟩ | ⟨long, _⟩
    · exact bytes
    · omega
  rw [encodeQuery, List.flatMap_cons, bytes, List.singleton_append, List.flatMap_cons, h.1]
  rfl

theorem mem_encodeQuery (h : Separator (UInt8.ofNat c.toNat)) (ascii : c.toNat < 0x80) {text : List Char}
    (member : UInt8.ofNat c.toNat ∈ encodeQuery text) : c ∈ text := by
  obtain ⟨b, inside, sent⟩ := List.mem_flatMap.mp member
  obtain ⟨other, present, encoded⟩ := List.mem_flatMap.mp inside
  rw [h.2 b sent, mem_utf8EncodeChar ascii] at encoded
  exact encoded ▸ present

/-- Cutting what is sent is sending what is cut. -/
theorem splitOn_encodeQuery (h : Separator (UInt8.ofNat c.toNat)) (ascii : c.toNat < 0x80) (text : List Char) :
    (encodeQuery text).splitOn (UInt8.ofNat c.toNat) = (text.splitOn c).map encodeQuery := by
  by_cases present : c ∈ text
  · obtain ⟨before, after, whole, absent⟩ := List.eq_append_cons_of_mem present
    have shorter : after.length < text.length := by
      rw [whole, List.length_append, List.length_cons]
      omega
    rw [whole, encodeQuery_append, h.encodeQuery_cons ascii, List.splitOn_append_cons_self,
      List.splitOn_append_cons_self, List.splitOn_eq_singleton absent,
      List.splitOn_eq_singleton fun member => absent (h.mem_encodeQuery ascii member),
      h.splitOn_encodeQuery ascii after]
    rfl
  · rw [List.splitOn_eq_singleton present, List.splitOn_eq_singleton fun member =>
      present (h.mem_encodeQuery ascii member)]
    rfl
termination_by text.length

theorem cut_encodeQuery (h : Separator (UInt8.ofNat c.toNat)) (ascii : c.toNat < 0x80) (text : List Char) :
    (encodeQuery text).takeWhile (· ≠ UInt8.ofNat c.toNat) = encodeQuery (text.takeWhile (· ≠ c)) ∧
    ((encodeQuery text).dropWhile (· ≠ UInt8.ofNat c.toNat)).drop 1 =
      encodeQuery ((text.dropWhile (· ≠ c)).drop 1) := by
  by_cases present : c ∈ text
  · obtain ⟨before, after, rfl, absent⟩ := List.eq_append_cons_of_mem present
    have away : UInt8.ofNat c.toNat ∉ encodeQuery before := fun member => absent (h.mem_encodeQuery ascii member)
    rw [encodeQuery_append, h.encodeQuery_cons ascii, (cut_at away _).1, (cut_at away _).2, (cut_at absent _).1,
      (cut_at absent _).2]
    exact ⟨rfl, rfl⟩
  · have away : UInt8.ofNat c.toNat ∉ encodeQuery text := fun member => present (h.mem_encodeQuery ascii member)
    rw [(cut_nowhere away).1, (cut_nowhere away).2, (cut_nowhere present).1, (cut_nowhere present).2]
    exact ⟨rfl, rfl⟩

end Separator

/-- The name and the value of a piece of a form. -/
def pieceName (piece : List Char) : List Char := piece.takeWhile (· ≠ '=')

def pieceValue (piece : List Char) : List Char := (piece.dropWhile (· ≠ '=')).drop 1

/-- The pairs of a query that was encoded, read off its text. -/
theorem formPairs_encodeQuery (text : List Char) : formPairs (encodeQuery text) =
    ((text.splitOn '&').filter (· ≠ [])).map fun piece => (formText (pieceName piece), formText (pieceValue piece)) := by
  have pieces : (encodeQuery text).splitOn 0x26 = (text.splitOn '&').map encodeQuery :=
    ampersand_separator.splitOn_encodeQuery (c := '&') (by decide) text
  have kept : ((fun piece : List UInt8 => decide (piece ≠ [])) ∘ encodeQuery) = fun piece => decide (piece ≠ []) := by
    funext piece
    simp [encodeQuery_eq_nil]
  rw [formPairs, pieces, List.filter_map, List.map_map, kept]
  refine List.map_congr_left fun piece _ => ?_
  obtain ⟨name, value⟩ := equals_separator.cut_encodeQuery (c := '=') (by decide) piece
  rw [pieceName, pieceValue, ← formDecode_encodeQuery, ← formDecode_encodeQuery, ← name, ← value]
  rfl

/-! A query of pairs that were put together without encoding them. -/

/-- The characters that such a query loses, besides the escapes. -/
def lostInQuery (c : Char) : Bool := c = '\t' ∨ c = '\n' ∨ c = '\r' ∨ c = '#' ∨ c = '&' ∨ c = '+'

/-- A text that reaches the server with all its characters. -/
def Intact (text : List Char) : Prop := ∀ c ∈ text, lostInQuery c = false

instance (text : List Char) : Decidable (Intact text) := List.decidableBAll _ text

/-- A text that is read as it is. -/
def SurvivesQuery (text : List Char) : Prop := Intact text ∧ hasEscape text = false

instance (text : List Char) : Decidable (SurvivesQuery text) := inferInstanceAs (Decidable (_ ∧ _))

/-- The name of a field. -/
def FieldName (name : List Char) : Prop := Intact name ∧ '%' ∉ name ∧ '=' ∉ name

instance (name : List Char) : Decidable (FieldName name) := inferInstanceAs (Decidable (_ ∧ _))

/-- What is left of a value when the parser has dropped characters and a number sign or a separator has ended it. -/
def carried (value : List Char) : List Char :=
  (value.filter fun c => c ≠ '\t' ∧ c ≠ '\n' ∧ c ≠ '\r').takeWhile fun c => c ≠ '&' ∧ c ≠ '#'

theorem carried_sublist (value : List Char) : (carried value).Sublist value :=
  (List.takeWhile_sublist _).trans List.filter_sublist

theorem lostInQuery_eq_false {c : Char} : lostInQuery c = false ↔
    (c ≠ '\t' ∧ c ≠ '\n' ∧ c ≠ '\r') ∧ (c ≠ '&' ∧ c ≠ '#') ∧ c ≠ '+' := by
  simp only [lostInQuery, decide_eq_false_iff_not, not_or]
  tauto

theorem hasEscape_of_no_percent {text : List Char} (h : '%' ∉ text) : hasEscape text = false := by
  induction text with
  | nil => rfl
  | cons c rest ih =>
    rw [List.mem_cons, not_or] at h
    rw [hasEscape, ih h.2, Bool.or_false, beq_eq_false_iff_ne.mpr fun same => h.1 same.symm, Bool.false_and]

theorem FieldName.survives {name : List Char} (h : FieldName name) : SurvivesQuery name :=
  ⟨h.1, hasEscape_of_no_percent h.2.1⟩

namespace Intact
variable {text : List Char}

theorem filter (h : Intact text) : (text.filter fun c => c ≠ '\t' ∧ c ≠ '\n' ∧ c ≠ '\r') = text :=
  List.filter_eq_self.mpr fun c member => decide_eq_true (lostInQuery_eq_false.mp (h c member)).1

theorem not_hash (h : Intact text) : ∀ c ∈ text, decide (c ≠ '#') = true :=
  fun c member => decide_eq_true (lostInQuery_eq_false.mp (h c member)).2.1.2

theorem not_ampersand (h : Intact text) : '&' ∉ text := fun member => (lostInQuery_eq_false.mp (h _ member)).2.1.1 rfl

theorem not_plus (h : Intact text) : '+' ∉ text := fun member => (lostInQuery_eq_false.mp (h _ member)).2.2 rfl

theorem carried (h : Intact text) : carried text = text := by
  rw [Mooncache.carried, h.filter]
  exact List.takeWhile_eq_self_iff.mpr fun c member => decide_eq_true (lostInQuery_eq_false.mp (h c member)).2.1

end Intact

theorem SurvivesQuery.formText {text : List Char} (h : SurvivesQuery text) : formText text = text :=
  formText_eq_self.mpr ⟨h.2, h.1.not_plus⟩

/-- What is read is the value exactly if nothing of it is lost. -/
theorem formText_carried {value : List Char} : formText (carried value) = value ↔ SurvivesQuery value := by
  refine ⟨fun same => ?_, fun survives => by rw [survives.1.carried, survives.formText]⟩
  have long := length_formText (carried value)
  rw [same] at long
  have whole : carried value = value := (carried_sublist value).eq_of_length_le long
  rw [whole] at same
  obtain ⟨escape, plus⟩ := formText_eq_self.mp same
  refine ⟨fun c member => lostInQuery_eq_false.mpr ?_, escape⟩
  have inside := member
  rw [← whole, carried] at inside
  have kept := List.of_mem_filter ((List.takeWhile_sublist _).subset inside)
  have passed := List.mem_takeWhile_imp inside
  exact ⟨of_decide_eq_true kept, of_decide_eq_true passed, fun same => plus (same ▸ member)⟩

private theorem exists_splitOn {α : Type*} [DecidableEq α] (text : List α) (a : α) :
    ∃ rest, text.splitOn a = text.takeWhile (· ≠ a) :: rest := by
  by_cases present : a ∈ text
  · obtain ⟨before, after, rfl, absent⟩ := List.eq_append_cons_of_mem present
    exact ⟨after.splitOn a, by
      rw [List.splitOn_append_cons_self, List.splitOn_eq_singleton absent, (cut_at absent after).1]
      rfl⟩
  · exact ⟨[], by rw [List.splitOn_eq_singleton present, (cut_nowhere present).1]⟩

/-- The text of a pair. -/
def pairText (name value : List Char) : List Char := name ++ '=' :: value

theorem pieceName_pairText {name : List Char} (h : FieldName name) (value : List Char) :
    pieceName (pairText name value) = name := (cut_at h.2.2 value).1

theorem pieceValue_pairText {name : List Char} (h : FieldName name) (value : List Char) :
    pieceValue (pairText name value) = value := by
  rw [pieceValue, pairText, (cut_at h.2.2 value).2]
  rfl

/-- What the parser leaves of a text that starts with a pair. -/
theorem urlQuery_pairText {name : List Char} (h : FieldName name) (rest : List Char) : urlQuery (pairText name rest) =
    encodeQuery (pairText name ((rest.filter fun c => c ≠ '\t' ∧ c ≠ '\n' ∧ c ≠ '\r').takeWhile (· ≠ '#'))) := by
  have kept : (['='].filter fun c => c ≠ '\t' ∧ c ≠ '\n' ∧ c ≠ '\r') = ['='] := rfl
  rw [urlQuery, pairText, List.append_cons, List.filter_append, List.filter_append, h.1.filter, kept,
    List.append_assoc, List.takeWhile_append_of_pos h.1.not_hash, List.singleton_append, pairText]
  rfl

private theorem takeWhile_append_stop {α : Type*} {p : α → Bool} {a : α} (h : p a = false) (before after : List α) :
    (before ++ a :: after).takeWhile p = before.takeWhile p := by
  rw [List.takeWhile_append, List.takeWhile_cons, h]
  split
  · rename_i whole
    rw [(List.takeWhile_prefix p).eq_of_length whole]
    exact List.append_nil before
  · rfl

/-- The value of the first pair ends at its separator. -/
theorem takeWhile_first (value more : List Char) :
    (((value ++ '&' :: more).filter fun c => c ≠ '\t' ∧ c ≠ '\n' ∧ c ≠ '\r').takeWhile (· ≠ '#')).takeWhile
      (· ≠ '&') = carried value := by
  have both : (fun c : Char => decide (decide (c ≠ '&') = true ∧ decide (c ≠ '#') = true)) =
      fun c => decide (c ≠ '&' ∧ c ≠ '#') := by simp only [decide_eq_true_eq]
  have kept : (('&' :: more).filter fun c => c ≠ '\t' ∧ c ≠ '\n' ∧ c ≠ '\r') =
      '&' :: more.filter fun c => c ≠ '\t' ∧ c ≠ '\n' ∧ c ≠ '\r' := rfl
  rw [List.takeWhile_takeWhile, both, List.filter_append, kept, takeWhile_append_stop (by decide)]
  rfl

/-- The first pair is read as far as it is carried. -/
theorem formPairs_urlQuery_first {name : List Char} (h : FieldName name) (value more : List Char) :
    ∃ rest, formPairs (urlQuery (pairText name (value ++ '&' :: more))) =
      (name, formText (carried value)) :: rest := by
  obtain ⟨rest, pieces⟩ := exists_splitOn (pairText name (((value ++ '&' :: more).filter fun c =>
    c ≠ '\t' ∧ c ≠ '\n' ∧ c ≠ '\r').takeWhile (· ≠ '#'))) '&'
  have others : ∀ c ∈ name ++ ['='], decide (c ≠ '&') = true := by
    intro c member
    refine decide_eq_true fun same => ?_
    rcases List.mem_append.mp member with inside | equals
    · exact h.1.not_ampersand (same ▸ inside)
    · rw [same] at equals
      exact absurd equals (by decide)
  have first : (pairText name (((value ++ '&' :: more).filter fun c =>
      c ≠ '\t' ∧ c ≠ '\n' ∧ c ≠ '\r').takeWhile (· ≠ '#'))).takeWhile (· ≠ '&') = pairText name (carried value) := by
    rw [pairText, List.append_cons, List.takeWhile_append_of_pos others, takeWhile_first, ← List.append_cons, pairText]
  have present : decide (pairText name (carried value) ≠ []) = true := by simp [pairText]
  rw [urlQuery_pairText h, formPairs_encodeQuery, pieces, first, List.filter_cons, if_pos present, List.map_cons,
    pieceName_pairText h, pieceValue_pairText h, h.survives.formText]
  exact ⟨_, rfl⟩

theorem Intact.pairText {name value : List Char} (h : Intact name) (h' : Intact value) : Intact (pairText name value) := by
  intro c member
  rcases List.mem_append.mp member with inside | after
  · exact h c inside
  · rcases List.mem_cons.mp after with rfl | inside
    · rfl
    · exact h' c inside

/-- Two pairs whose values survive are read as they are. -/
theorem formPairs_urlQuery_two {name other value text : List Char} (h : FieldName name) (h' : FieldName other)
    (hv : SurvivesQuery value) (ht : SurvivesQuery text) :
    formPairs (urlQuery (pairText name (value ++ '&' :: pairText other text))) = [(name, value), (other, text)] := by
  have second : Intact (pairText other text) := h'.1.pairText ht.1
  have dropped : ((value ++ '&' :: pairText other text).filter fun c => c ≠ '\t' ∧ c ≠ '\n' ∧ c ≠ '\r') =
      value ++ '&' :: pairText other text := by
    rw [List.filter_append, hv.1.filter, List.filter_cons_of_pos (by decide), second.filter]
  have ended : (value ++ '&' :: pairText other text).takeWhile (· ≠ '#') = value ++ '&' :: pairText other text := by
    rw [List.takeWhile_append_of_pos hv.1.not_hash, List.takeWhile_cons_of_pos (by decide),
      List.takeWhile_eq_self_iff.mpr second.not_hash]
  have pieces : (pairText name (value ++ '&' :: pairText other text)).splitOn '&' =
      [pairText name value, pairText other text] := by
    have whole : pairText name (value ++ '&' :: pairText other text) =
        pairText name value ++ '&' :: pairText other text := by
      simp only [pairText, List.append_assoc, List.cons_append]
    rw [whole, List.splitOn_append_cons_self, List.splitOn_eq_singleton (h.1.pairText hv.1).not_ampersand,
      List.splitOn_eq_singleton second.not_ampersand]
    rfl
  have present : [pairText name value, pairText other text].filter (· ≠ []) =
      [pairText name value, pairText other text] := by simp [pairText]
  rw [urlQuery_pairText h, dropped, ended, formPairs_encodeQuery, pieces, present, List.map_cons, List.map_cons, List.map_nil,
    pieceName_pairText h, pieceValue_pairText h, pieceName_pairText h', pieceValue_pairText h', h.survives.formText,
    h'.survives.formText, hv.formText, ht.formText]

end Mooncache
