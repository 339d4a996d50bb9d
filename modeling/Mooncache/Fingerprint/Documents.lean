import Mooncache.Fingerprint.Canonical
import Mooncache.Foundation.Table

/-! Typed values in documents. A reader recovers what a writer wrote from every document that
holds the same members, in whatever order. -/
namespace Mooncache
namespace Value
variable {value other : Value}

theorem Same.of_string {text : String} (h : Same value (string text)) : value = string text := by
  cases value <;> simp_all [Same]

theorem Same.of_null (h : Same value null) : value = null := by
  cases value <;> simp_all [Same]

theorem Same.of_bool {b : Bool} (h : Same value (bool b)) : value = bool b := by
  cases value <;> simp_all [Same]

theorem Same.of_number {n : Number} (h : Same value (number n)) : value = number n := by
  cases value <;> simp_all [Same]

theorem Same.of_array {others : List Value} (h : Same value (array others)) :
    ∃ items, value = array items ∧ SameItems items others := by
  cases value with
  | array items => exact ⟨items, rfl, h⟩
  | _ => exact absurd h (by simp [Same])

theorem Same.of_object {others : List (String × Value)} (h : Same value (object others)) :
    ∃ members, value = object members ∧ members.length = others.length ∧ SameMembers members others := by
  cases value with
  | object members => exact ⟨members, rfl, h⟩
  | _ => exact absurd h (by simp [Same])

theorem SameMembers.mem {members others : List (String × Value)} (h : SameMembers members others) {name : String}
    {value : Value} (member : (name, value) ∈ members) : ∃ other, (name, other) ∈ others ∧ Same value other := by
  induction members with
  | nil => simp at member
  | cons first rest ih =>
    rcases List.mem_cons.mp member with rfl | later
    · exact h.1
    · exact ih h.2 later

/-- A member of the one is a member of the other. -/
theorem Same.lookup {members others : List (String × Value)} (h : Same (object members) (object others))
    (names : (members.map Prod.fst).Nodup) (otherNames : (others.map Prod.fst).Nodup) (name : String) {other : Value}
    (found : others.lookup name = some other) : ∃ value, members.lookup name = some value ∧ Same value other := by
  have sub : members.map Prod.fst ⊆ others.map Prod.fst := by
    intro name listed
    obtain ⟨⟨_, value⟩, member, rfl⟩ := List.mem_map.mp listed
    obtain ⟨other, counterpart, _⟩ := SameMembers.mem h.2 member
    exact List.mem_map.mpr ⟨_, counterpart, rfl⟩
  -- as many names on both sides, so none is missing on the left
  have perm : (members.map Prod.fst).Perm (others.map Prod.fst) :=
    (List.subperm_of_subset names sub).perm_of_length_le (by simp [h.1])
  obtain ⟨before, after, rfl, _⟩ := List.lookup_eq_some_iff.mp found
  have listed : name ∈ members.map Prod.fst := perm.mem_iff.mpr (by simp)
  obtain ⟨⟨_, value⟩, member, rfl⟩ := List.mem_map.mp listed
  obtain ⟨counterpart, held, same⟩ := SameMembers.mem h.2 member
  have only := lookup_of_mem otherNames held
  rw [found, Option.some.injEq] at only
  exact ⟨value, lookup_of_mem names member, only ▸ same⟩

theorem Same.symm (h : Same value other) (formed : value.wellFormed = true) (otherFormed : other.wellFormed = true) :
    Same other value :=
  (canonicalize_eq_iff other value otherFormed formed).mp ((canonicalize_eq_iff value other formed otherFormed).mpr h).symm

theorem Same.refl (formed : value.wellFormed = true) : Same value value :=
  (canonicalize_eq_iff value value formed formed).mp rfl

theorem names_nodup {members : List (String × Value)} (formed : (object members).wellFormed = true) :
    (members.map Prod.fst).Nodup := by
  simp only [wellFormed, Bool.and_eq_true, decide_eq_true_eq] at formed
  exact formed.1

theorem Same.of_perm {members others : List (String × Value)} (formed : (object members).wellFormed = true)
    (otherFormed : (object others).wellFormed = true) (perm : members.Perm others) :
    Same (object members) (object others) := by
  refine (canonicalize_eq_iff _ _ formed otherFormed).mp ?_
  have names : ((canonicalizeMembers members).map Prod.fst).Nodup := by
    rw [canonicalizeMembers_eq, List.map_map]
    exact names_nodup formed
  rw [canonicalize, canonicalize, object.injEq, sortMembers_eq_iff names, canonicalizeMembers_eq, canonicalizeMembers_eq]
  exact perm.map _

end Value

/-- The reader gives back what the writer was given, up to the order of members. -/
def RoundTrips [JsonWriter] [JsonReader] (value : Value) : Prop :=
  ∃ found, fromSlice (toVec value) = .ok found ∧ found.wellFormed = true ∧ found.Same value

namespace Value
variable {α : Type}

/-- A member that a type requires. -/
def field (value : Value) (name : String) (read : Value → Option α) : Option α := (value.get name).bind read

/-- A member that may be missing or `null`. -/
def optionalField (value : Value) (name : String) (read : Value → Option α) : Option (Option α) :=
  match value.get name with
  | none | some null => some none
  | some found => (read found).map some

def asArray (read : Value → Option α) : Value → Option (List α)
  | array items => items.mapM read
  | _ => none

/-- The writer of a value that may be missing. -/
def ofOption (write : α → Value) : Option α → Value
  | none => null
  | some a => write a

/-- In whatever order its members stand, what is written for the value reads as it. -/
structure ReadsBack (write : α → Value) (read : Value → Option α) (a : α) : Prop where
  formed : (write a).wellFormed = true
  reads : ∀ {value : Value}, value.wellFormed = true → value.Same (write a) → read value = some a

/-- The document is an object with these members in some order. -/
structure Lists (value : Value) (others : List (String × Value)) : Prop where
  formed : value.wellFormed = true
  same : value.Same (object others)
  names : (others.map Prod.fst).Nodup

namespace ReadsBack

theorem string (text : String) : ReadsBack .string asStr text :=
  ⟨rfl, fun _ same => by rw [same.of_string]; rfl⟩

theorem bool (b : Bool) : ReadsBack .bool asBool b := ⟨rfl, fun _ same => by rw [same.of_bool]; rfl⟩

theorem unsigned (n : Nat) : ReadsBack (fun n => .number (.posInt n)) asUnsigned n :=
  ⟨rfl, fun _ same => by rw [same.of_number]; rfl⟩

private theorem items_formed {write : α → Value} {read : Value → Option α} {as : List α}
    (each : ∀ a ∈ as, ReadsBack write read a) : wellFormedItems (as.map write) = true := by
  induction as with
  | nil => rfl
  | cons a as ih =>
    rw [List.forall_mem_cons] at each
    rw [List.map_cons, wellFormedItems, each.1.formed, ih each.2]
    rfl

private theorem items_read {write : α → Value} {read : Value → Option α} {as : List α}
    (each : ∀ a ∈ as, ReadsBack write read a) {items : List Value} (formed : wellFormedItems items = true)
    (same : SameItems items (as.map write)) : items.mapM read = some as := by
  induction as generalizing items with
  | nil =>
    cases items with
    | nil => rfl
    | cons => cases same
  | cons a as ih =>
    cases items with
    | nil => cases same
    | cons item items =>
      rw [List.forall_mem_cons] at each
      simp only [wellFormedItems, Bool.and_eq_true] at formed
      simp [each.1.reads formed.1 same.1, ih each.2 formed.2 same.2]

theorem array {write : α → Value} {read : Value → Option α} {as : List α} (each : ∀ a ∈ as, ReadsBack write read a) :
    ReadsBack (fun as => .array (as.map write)) (asArray read) as := by
  refine ⟨items_formed each, fun formed same => ?_⟩
  obtain ⟨items, rfl, sameItems⟩ := same.of_array
  exact items_read each formed sameItems

end ReadsBack

namespace Lists
variable {value : Value} {others : List (String × Value)} (h : value.Lists others) {write : α → Value}
  {read : Value → Option α} {a : α}
include h

private theorem found (name : String) {other : Value} (written : others.lookup name = some other) :
    ∃ entry, value.get name = some entry ∧ entry.wellFormed = true ∧ entry.Same other := by
  obtain ⟨formed, same, names⟩ := h
  obtain ⟨members, rfl, _⟩ := same.of_object
  obtain ⟨entry, stored, sameEntry⟩ := same.lookup (names_nodup formed) names name written
  obtain ⟨_, _, split, _⟩ := List.lookup_eq_some_iff.mp stored
  have listed : (name, entry) ∈ members := by simp [split]
  simp only [wellFormed, Bool.and_eq_true] at formed
  exact ⟨entry, stored, wellFormed_of_mem formed.2 listed, sameEntry⟩

theorem field (name : String) (back : ReadsBack write read a) (written : others.lookup name = some (write a)) :
    value.field name read = some a := by
  obtain ⟨entry, stored, formed, same⟩ := h.found name written
  rw [Value.field, stored, Option.bind_some, back.reads formed same]

theorem optionalField (name : String) {a : Option α} (back : ∀ b ∈ a, ReadsBack write read b ∧ write b ≠ null)
    (written : others.lookup name = some (ofOption write a)) : value.optionalField name read = some a := by
  obtain ⟨entry, stored, formed, same⟩ := h.found name written
  cases a with
  | none =>
    obtain rfl := Same.of_null same
    rw [Value.optionalField, stored]
  | some b =>
    obtain ⟨back, present⟩ := back b rfl
    have absent : entry ≠ null := by
      rintro rfl
      exact present (same.symm rfl back.formed).of_null
    cases entry with
    | null => exact absurd rfl absent
    | _ => simp [Value.optionalField, stored, back.reads formed same]

end Lists

end Value
end Mooncache
