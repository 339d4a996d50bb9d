/-! Identifiers and errors shared by every crate. -/
namespace Mooncache

inductive CacheError where
  | emptyTenantId
  | invalidCacheKey
  | invalidId (message : String)
  | notFound
  | conflict (message : String)
  | quotaExceeded (message : String)
  | upstreamUnavailable (message : String)
  deriving DecidableEq, Repr

/-- The error's display text. -/
def CacheError.text : CacheError → String
  | .emptyTenantId => "tenant id must not be empty"
  | .invalidCacheKey => "cache key must be 64 lowercase hex characters"
  | .invalidId message => "invalid id: " ++ message
  | .notFound => "not found"
  | .conflict message => "conflict: " ++ message
  | .quotaExceeded message => "quota exceeded: " ++ message
  | .upstreamUnavailable message => "upstream unavailable: " ++ message

abbrev CacheResult := Except CacheError

/-- Unicode `White_Space`, the class that `str::trim` strips. -/
def isWhiteSpace (c : Char) : Bool :=
  let n := c.toNat
  (0x9 ≤ n && n ≤ 0xD) || n == 0x20 || n == 0x85 || n == 0xA0 || n == 0x1680 ||
    (0x2000 ≤ n && n ≤ 0x200A) || n == 0x2028 || n == 0x2029 || n == 0x202F ||
    n == 0x205F || n == 0x3000

/-- A tenant name. Deserialisation builds one without the check of `parse`,
so the type carries no condition. -/
structure TenantId where
  value : String
  deriving DecidableEq, Repr

def TenantId.parse (value : String) : CacheResult TenantId :=
  if value.toList.all isWhiteSpace then .error .emptyTenantId else .ok ⟨value⟩

structure CacheKey where
  value : String
  deriving DecidableEq, Repr

def isLowerHex (c : Char) : Bool := ('0' ≤ c && c ≤ '9') || ('a' ≤ c && c ≤ 'f')

/-- The source counts and checks UTF-8 bytes; a character outside the accepted
ranges has a byte outside them, so checking characters accepts the same strings. -/
def CacheKey.fromHex (value : String) : CacheResult CacheKey :=
  if value.toList.length = 64 ∧ value.toList.all isLowerHex then .ok ⟨value⟩
  else .error .invalidCacheKey

/-- The characters before and after this byte of their UTF-8 text; nothing if the text ends before it or the
byte lies inside a character. -/
def splitAtByte : Nat → List Char → Option (List Char × List Char)
  | 0, text => some ([], text)
  | _ + 1, [] => none
  | n + 1, c :: rest =>
    if c.utf8Size ≤ n + 1 then (splitAtByte (n + 1 - c.utf8Size) rest).map fun (front, back) => (c :: front, back)
    else none

/-- Nothing stands for a panic of `&self.0[..8]` or `&self.0[60..]`: a key that was deserialised
may have any text. -/
def CacheKey.redacted (key : CacheKey) : Option String := do
  let (front, _) ← splitAtByte 8 key.value.toList
  let (_, back) ← splitAtByte 60 key.value.toList
  return String.ofList front ++ "…" ++ String.ofList back

theorem TenantId.parse_eq_ok {value : String} {tenant : TenantId} (h : parse value = .ok tenant) :
    tenant = ⟨value⟩ := by
  unfold parse at h
  split at h
  · cases h
  · cases h; rfl

theorem CacheKey.fromHex_eq_ok {value : String} {key : CacheKey} : fromHex value = .ok key ↔
    (value.toList.length = 64 ∧ value.toList.all isLowerHex = true) ∧ key = ⟨value⟩ := by
  unfold fromHex
  split
  · rename_i hex
    rw [Except.ok.injEq, eq_comm]
    exact (and_iff_right hex).symm
  · rename_i other
    refine ⟨fun h => ?_, fun h => absurd h.1 other⟩
    cases h

theorem utf8Size_of_isLowerHex {c : Char} (h : isLowerHex c = true) : c.utf8Size = 1 := by
  rw [Char.utf8Size_eq_one_iff]
  simp only [isLowerHex, Bool.or_eq_true, Bool.and_eq_true, decide_eq_true_eq] at h
  rcases h with ⟨_, above⟩ | ⟨_, above⟩
  · exact Nat.le_trans above (by decide)
  · exact Nat.le_trans above (by decide)

/-- Where every character is one byte, bytes are counted as characters. -/
theorem splitAtByte_of_single {text : List Char} (single : ∀ c ∈ text, c.utf8Size = 1) {n : Nat} (within : n ≤ text.length) :
    splitAtByte n text = some (text.take n, text.drop n) := by
  induction text generalizing n with
  | nil =>
    obtain rfl := Nat.le_zero.mp within
    rfl
  | cons c rest ih =>
    cases n with
    | zero => rfl
    | succ n =>
      have size := single c List.mem_cons_self
      have tail := ih (fun d member => single d (List.mem_cons_of_mem c member)) (Nat.le_of_succ_le_succ within)
      rw [splitAtByte, size, if_pos (Nat.le_add_left 1 n), Nat.add_sub_cancel, tail]
      rfl

/-- A key that `from_hex` has accepted is redacted without a panic. -/
theorem CacheKey.redacted_of_hex {key : CacheKey} (hex : fromHex key.value = .ok key) :
    key.redacted = some (String.ofList (key.value.toList.take 8) ++ "…" ++ String.ofList (key.value.toList.drop 60)) := by
  obtain ⟨⟨length, digits⟩, _⟩ := fromHex_eq_ok.mp hex
  have single (c : Char) (member : c ∈ key.value.toList) : c.utf8Size = 1 :=
    utf8Size_of_isLowerHex (List.all_eq_true.mp digits c member)
  have front := splitAtByte_of_single single (n := 8) (by omega)
  have back := splitAtByte_of_single single (n := 60) (by omega)
  simp only [redacted, front, back]
  rfl

example : CacheKey.redacted ⟨"0123456789abcdef0123456789abcdef0123456789abcdef0123456789abcdef"⟩ =
    some "01234567…cdef" := by decide

example : CacheKey.redacted ⟨"0123"⟩ = none := by decide

end Mooncache
