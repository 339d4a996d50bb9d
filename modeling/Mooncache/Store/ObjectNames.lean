import Mooncache.Foundation.Utf8
import Mooncache.Store.SealedFiles

/-! The names of the SSD tier: where an object and its temporary file stand, and the data that
bind an object to its name. -/
namespace Mooncache

/-- `byte.is_ascii_alphanumeric() || matches!(byte, b'-' | b'_' | b'.')`. -/
def isSegmentByte (byte : UInt8) : Bool :=
  (48 ≤ byte && byte ≤ 57) || (65 ≤ byte && byte ≤ 90) || (97 ≤ byte && byte ≤ 122) ||
    byte == 45 || byte == 95 || byte == 46

/-- A path component that names an entry of its directory. -/
def IsNormal (component : String) : Prop :=
  component ≠ "" ∧ component ≠ "." ∧ component ≠ ".." ∧ '/' ∉ component.toList ∧ '\\' ∉ component.toList ∧
    '\x00' ∉ component.toList

instance (component : String) : Decidable (IsNormal component) := inferInstanceAs (Decidable (_ ∧ _))

private theorem isSegmentByte_ascii : ∀ n < 128, isSegmentByte (UInt8.ofNat n) = isSegmentChar (Char.ofNat n) := by
  decide +kernel

private theorem isSegmentByte_beyond : ∀ n < 256, 0x80 ≤ n → isSegmentByte (UInt8.ofNat n) = false := by
  decide +kernel

private theorem isSegmentChar_beyond {c : Char} (beyond : 0x80 ≤ c.toNat) : isSegmentChar c = false := by
  have value : c.val.toNat = c.toNat := rfl
  refine Bool.eq_false_iff.mpr fun accepted => ?_
  rw [isSegmentChar, Bool.or_eq_true, Bool.or_eq_true, Bool.or_eq_true, beq_iff_eq, beq_iff_eq, beq_iff_eq] at accepted
  rcases accepted with ((plain | rfl) | rfl) | rfl
  · change ((decide (c.val ≥ 65 ∧ c.val ≤ 90) || decide (c.val ≥ 97) && decide (c.val ≤ 122)) ||
      (decide (c.val ≥ 48) && decide (c.val ≤ 57))) = true at plain
    simp only [Bool.or_eq_true, Bool.and_eq_true, decide_eq_true_eq, ge_iff_le, UInt32.le_iff_toNat_le, value,
      UInt32.reduceToNat] at plain
    omega
  all_goals exact absurd beyond (by decide)

/-- A character is accepted exactly if its bytes are. -/
theorem all_isSegmentByte (c : Char) : (String.utf8EncodeChar c).all isSegmentByte = isSegmentChar c := by
  rcases utf8EncodeChar_cases c with ⟨ascii, bytes⟩ | ⟨beyond, bytes⟩
  · rw [bytes, List.all_cons, List.all_nil, Bool.and_true, isSegmentByte_ascii _ ascii, Char.ofNat_toNat]
  · rw [isSegmentChar_beyond beyond]
    obtain ⟨first, rest, whole⟩ := List.exists_cons_of_ne_nil (String.utf8EncodeChar_ne_nil (c := c))
    have large := bytes first (whole ▸ List.mem_cons_self)
    have refused := isSegmentByte_beyond first.toNat first.toNat_lt large
    rw [UInt8.ofNat_toNat] at refused
    rw [whole, List.all_cons, refused, Bool.false_and]

/-- The bytes of an accepted text are letters, digits, hyphens, underscores and dots. -/
theorem validatePathSegment_bytes (kind value : String) : validatePathSegment kind value = .ok value ↔
    value ≠ "" ∧ value ≠ "." ∧ value ≠ ".." ∧ value.toUTF8.data.toList.all isSegmentByte := by
  have bytes : value.toUTF8.data.toList.all isSegmentByte = value.toList.all isSegmentChar := by
    rw [toUTF8_eq, List.all_flatMap]
    exact congrArg _ (funext all_isSegmentByte)
  rw [bytes, validatePathSegment]
  split <;> simp_all

theorem isNormal_of_segment {component : String} (present : component ≠ "") (dot : component ≠ ".")
    (dots : component ≠ "..") (chars : ∀ c ∈ component.toList, isSegmentChar c = true) : IsNormal component :=
  ⟨present, dot, dots, fun member => absurd (chars _ member) (by decide), fun member => absurd (chars _ member) (by decide),
    fun member => absurd (chars _ member) (by decide)⟩

namespace SsdStore

/-- An accepted name stands two entries below the root. -/
theorem objectPath_normal {store : SsdStore} {tenantId cacheKey : String} {path : PathBuf}
    (h : store.objectPath tenantId cacheKey = .ok path) :
    path = ⟨store.root.absolute, store.root.components ++ [tenantId, cacheKey ++ "." ++ objectExtension]⟩ ∧
      IsNormal tenantId ∧ IsNormal (cacheKey ++ "." ++ objectExtension) := by
  have chars := objectPath_segments h
  refine ⟨(objectPath_eq_ok h).1, ?_, ?_⟩
  · unfold objectPath at h
    cases tenant : validatePathSegment "tenant_id" tenantId with
    | error err => simp [tenant, bind, Except.bind] at h
    | ok segment =>
      obtain ⟨rfl, _⟩ := validatePathSegment_eq_ok tenant
      obtain ⟨present, dot, dots, _⟩ := (validatePathSegment_bytes _ _).mp tenant
      exact isNormal_of_segment present dot dots fun c member => chars c (List.mem_append_left _ member)
  · -- The extension makes the name longer than the two that stand for directories.
    have long : 3 ≤ (cacheKey ++ "." ++ objectExtension).toList.length := by simp [objectExtension]
    have longer (short : String) (size : short.toList.length < 3) : cacheKey ++ "." ++ objectExtension ≠ short := by
      rintro same
      rw [same] at long
      omega
    refine isNormal_of_segment (longer _ (by decide)) (longer _ (by decide)) (longer _ (by decide)) fun c member => ?_
    have extension : ∀ c ∈ ('.' :: objectExtension.toList), isSegmentChar c = true := List.all_eq_true.mp (by decide)
    simp only [String.toList_append, List.append_assoc] at member
    exact (List.mem_append.mp member).elim (fun key => chars c (List.mem_append_right _ key)) (extension c)

/-- Names are safe: accepted bytes only, two components below the root, no two objects in one place or
under one associated data, and no temporary file where an object stands. -/
theorem object_names_safe (store : SsdStore) :
    (∀ kind value, validatePathSegment kind value = .ok value ↔
      value ≠ "" ∧ value ≠ "." ∧ value ≠ ".." ∧ value.toUTF8.data.toList.all isSegmentByte) ∧
    (∀ tenantId cacheKey path, store.objectPath tenantId cacheKey = .ok path →
      ∃ tenantDir object, path = ⟨store.root.absolute, store.root.components ++ [tenantDir, object]⟩ ∧
        IsNormal tenantDir ∧ IsNormal object) ∧
    (∀ tenantId cacheKey path tenant key other, store.objectPath tenantId cacheKey = .ok path →
      store.objectPath tenant key = .ok other → (tenantId, cacheKey) ≠ (tenant, key) →
        path ≠ other ∧ aad tenantId cacheKey ≠ aad tenant key) ∧
    ∀ tenantId cacheKey path tenantDir suffix tenant key other, store.objectPath tenantId cacheKey = .ok path →
      path.parent = some tenantDir → store.objectPath tenant key = .ok other →
        tempPath tenantDir cacheKey suffix ≠ other := by
  refine ⟨validatePathSegment_bytes, fun tenantId cacheKey path named => ⟨_, _, objectPath_normal named⟩, ?_, ?_⟩
  · intro tenantId cacheKey path tenant key other named othered distinct
    refine ⟨?_, fun same => ?_⟩
    · rintro rfl
      obtain ⟨rfl, rfl⟩ := objectPath_injective named othered
      exact distinct rfl
    · obtain ⟨rfl, rfl⟩ := aad_injective named same
      exact distinct rfl
  · intro tenantId cacheKey path tenantDir suffix tenant key other named _ othered
    exact tempPath_ne_objectPath othered tenantDir (objectPath_eq_ok named).2 suffix

/-- Two tenants keep the same key apart, and a name that climbs is refused. -/
theorem tenants_apart : ∃ path other, sampleSsd.objectPath "tenant-a" "abc" = .ok path ∧
    sampleSsd.objectPath "tenant-b" "abc" = .ok other ∧ path ≠ other ∧ aad "tenant-a" "abc" ≠ aad "tenant-b" "abc" ∧
    sampleSsd.objectPath "../tenant" "abc" = .error (.invalidPathSegment "tenant_id" "../tenant") := by
  have named : sampleSsd.objectPath "tenant-a" "abc" = .ok ⟨true, ["ssd", "tenant-a", "abc.mcobj"]⟩ := by decide
  have othered : sampleSsd.objectPath "tenant-b" "abc" = .ok ⟨true, ["ssd", "tenant-b", "abc.mcobj"]⟩ := by decide
  obtain ⟨_, _, apart, _⟩ := object_names_safe sampleSsd
  obtain ⟨paths, bound⟩ := apart _ _ _ _ _ _ named othered (by decide)
  exact ⟨_, _, named, othered, paths, bound, by decide⟩

end SsdStore
end Mooncache
