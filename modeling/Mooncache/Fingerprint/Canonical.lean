import Mooncache.Common.Json
import Mathlib.Data.List.Sort
import Mathlib.Data.List.Perm.Subperm
import Mathlib.Data.String.Basic

/-! Canonical JSON identifies exactly the reorderings of object members. -/
namespace Mooncache
namespace Value

/-- Members in the order of their names. -/
def sortMembers (members : List (String × Value)) : List (String × Value) :=
  members.insertionSort fun a b => a.1 ≤ b.1

mutual

def canonicalize : Value → Value
  | object members => object (sortMembers (canonicalizeMembers members))
  | array items => array (canonicalizeItems items)
  | other => other

def canonicalizeItems : List Value → List Value
  | [] => []
  | item :: rest => canonicalize item :: canonicalizeItems rest

def canonicalizeMembers : List (String × Value) → List (String × Value)
  | [] => []
  | (key, value) :: rest => (key, canonicalize value) :: canonicalizeMembers rest

end

mutual

/-- Equal up to the order of object members at every depth. -/
def Same : Value → Value → Prop
  | null, null => True
  | bool a, bool b => a = b
  | number a, number b => a = b
  | string a, string b => a = b
  | array xs, array ys => SameItems xs ys
  | object xs, object ys => xs.length = ys.length ∧ SameMembers xs ys
  | _, _ => False

/-- The same values in the same order. -/
def SameItems : List Value → List Value → Prop
  | [], [] => True
  | x :: xs, y :: ys => Same x y ∧ SameItems xs ys
  | _, _ => False

/-- Every member has a counterpart of the same name on the other side. -/
def SameMembers : List (String × Value) → List (String × Value) → Prop
  | [], _ => True
  | (key, value) :: rest, ys => (∃ other, (key, other) ∈ ys ∧ Same value other) ∧ SameMembers rest ys

end

theorem canonicalizeMembers_eq (members : List (String × Value)) :
    canonicalizeMembers members = members.map fun member => (member.1, canonicalize member.2) := by
  induction members with
  | nil => rfl
  | cons member rest ih => rw [canonicalizeMembers, ih, List.map_cons]

theorem wellFormed_of_mem {members : List (String × Value)} (h : wellFormedMembers members = true)
    {member : String × Value} (hm : member ∈ members) : member.2.wellFormed = true := by
  induction members with
  | nil => simp at hm
  | cons first rest ih =>
    simp only [wellFormedMembers, Bool.and_eq_true] at h
    rcases List.mem_cons.mp hm with rfl | hm
    · exact h.1
    · exact ih h.2 hm

/-- Sorting forgets the order and nothing else. -/
theorem sortMembers_eq_iff {xs ys : List (String × Value)} (nodup : (xs.map Prod.fst).Nodup) :
    sortMembers xs = sortMembers ys ↔ xs.Perm ys := by
  constructor
  · intro h
    have left := List.perm_insertionSort (fun a b : String × Value => a.1 ≤ b.1) xs
    have right := List.perm_insertionSort (fun a b : String × Value => a.1 ≤ b.1) ys
    exact left.symm.trans ((List.Perm.of_eq h).trans right)
  · intro perm
    have total : Std.Total fun a b : String × Value => a.1 ≤ b.1 := ⟨fun a b => le_total a.1 b.1⟩
    have trans : IsTrans (String × Value) fun a b => a.1 ≤ b.1 := ⟨fun _ _ _ => le_trans⟩
    have left := List.perm_insertionSort (fun a b : String × Value => a.1 ≤ b.1) xs
    have right := List.perm_insertionSort (fun a b : String × Value => a.1 ≤ b.1) ys
    have own {member : String × Value} (hm : member ∈ sortMembers ys) : member ∈ xs :=
      perm.mem_iff.mpr (right.mem_iff.mp hm)
    refine List.Perm.eq_of_pairwise ?_ (List.pairwise_insertionSort (fun a b => a.1 ≤ b.1) xs)
      (List.pairwise_insertionSort _ ys) (left.trans (perm.trans right.symm))
    intro a b ha hb hab hba
    exact List.inj_on_of_nodup_map nodup (left.mem_iff.mp ha) (own hb) (le_antisymm hab hba)

theorem perm_iff_subset {xs ys : List (String × Value)} (nodup : (xs.map Prod.fst).Nodup) :
    xs.Perm ys ↔ xs.length = ys.length ∧ ∀ member ∈ xs, member ∈ ys := by
  constructor
  · exact fun perm => ⟨perm.length_eq, fun member => perm.mem_iff.mp⟩
  · rintro ⟨length, sub⟩
    exact (List.subperm_of_subset (List.Nodup.of_map _ nodup) sub).perm_of_length_le length.ge

mutual

/-- Canonical forms agree exactly on values equal up to member order. -/
theorem canonicalize_eq_iff : ∀ v w : Value, v.wellFormed = true → w.wellFormed = true →
    (canonicalize v = canonicalize w ↔ Same v w)
  | null, w => by cases w <;> simp [canonicalize, Same]
  | bool _, w => by cases w <;> simp [canonicalize, Same]
  | number _, w => by cases w <;> simp [canonicalize, Same]
  | string _, w => by cases w <;> simp [canonicalize, Same]
  | array xs, w => by
    cases w with
    | array ys =>
      intro hv hw
      simp only [canonicalize, array.injEq, Same]
      exact canonicalizeItems_eq_iff xs ys hv hw
    | _ => simp [canonicalize, Same]
  | object xs, w => by
    cases w with
    | object ys =>
      intro hv hw
      simp only [wellFormed, Bool.and_eq_true, decide_eq_true_eq] at hv hw
      have names : ((canonicalizeMembers xs).map Prod.fst).Nodup := by
        rw [canonicalizeMembers_eq, List.map_map]
        exact hv.1
      simp only [canonicalize, object.injEq, Same]
      rw [sortMembers_eq_iff names, perm_iff_subset names, canonicalizeMembers_subset_iff xs ys hv.2 hw.2,
        canonicalizeMembers_eq, canonicalizeMembers_eq, List.length_map, List.length_map]
    | _ => simp [canonicalize, Same]

theorem canonicalizeItems_eq_iff : ∀ xs ys : List Value, wellFormedItems xs = true →
    wellFormedItems ys = true → (canonicalizeItems xs = canonicalizeItems ys ↔ SameItems xs ys)
  | [], ys => by cases ys <;> simp [canonicalizeItems, SameItems]
  | x :: xs, ys => by
    cases ys with
    | nil => simp [canonicalizeItems, SameItems]
    | cons y ys =>
      intro hx hy
      simp only [wellFormedItems, Bool.and_eq_true] at hx hy
      simp only [canonicalizeItems, List.cons.injEq, SameItems]
      rw [canonicalize_eq_iff x y hx.1 hy.1, canonicalizeItems_eq_iff xs ys hx.2 hy.2]

theorem canonicalizeMembers_subset_iff : ∀ xs ys : List (String × Value), wellFormedMembers xs = true →
    wellFormedMembers ys = true →
    ((∀ member ∈ canonicalizeMembers xs, member ∈ canonicalizeMembers ys) ↔ SameMembers xs ys)
  | [], ys => by simp [canonicalizeMembers, SameMembers]
  | (key, value) :: rest, ys => by
    intro hx hy
    simp only [wellFormedMembers, Bool.and_eq_true] at hx
    have first : (key, canonicalize value) ∈ canonicalizeMembers ys ↔
        ∃ other, (key, other) ∈ ys ∧ Same value other := by
      rw [canonicalizeMembers_eq, List.mem_map]
      constructor
      · rintro ⟨⟨name, other⟩, hm, he⟩
        simp only [Prod.mk.injEq] at he
        obtain ⟨rfl, he⟩ := he
        exact ⟨other, hm, (canonicalize_eq_iff value other hx.1 (wellFormed_of_mem hy hm)).mp he.symm⟩
      · rintro ⟨other, hm, same⟩
        exact ⟨(key, other), hm, congrArg (Prod.mk key)
          ((canonicalize_eq_iff value other hx.1 (wellFormed_of_mem hy hm)).mpr same).symm⟩
    rw [canonicalizeMembers, List.forall_mem_cons, SameMembers, first,
      canonicalizeMembers_subset_iff rest ys hx.2 hy]

end

/-- Objects that list the same names in the same order are compared name by name. -/
private theorem sameMembers_append_iff {xs ys zs : List (String × Value)}
    (names : xs.map Prod.fst = ys.map Prod.fst) (nodup : ((zs ++ ys).map Prod.fst).Nodup) :
    SameMembers xs (zs ++ ys) ↔ List.Forall₂ (fun x y => Same x.2 y.2) xs ys := by
  induction xs generalizing ys zs with
  | nil =>
    rw [List.map_nil] at names
    rw [List.map_eq_nil_iff.mp names.symm]
    simp [SameMembers]
  | cons x xs ih =>
    cases ys with
    | nil => simp at names
    | cons y ys =>
      obtain ⟨key, value⟩ := x
      obtain ⟨key', other⟩ := y
      simp only [List.map_cons, List.cons.injEq] at names
      obtain ⟨rfl, names⟩ := names
      have here : (key, other) ∈ zs ++ (key, other) :: ys := by simp
      have only : (∃ found, (key, found) ∈ zs ++ (key, other) :: ys ∧ Same value found) ↔ Same value other := by
        constructor
        · rintro ⟨found, hm, same⟩
          cases List.inj_on_of_nodup_map nodup hm here rfl
          exact same
        · exact fun same => ⟨other, here, same⟩
      rw [SameMembers, only, List.forall₂_cons]
      have shifted : zs ++ (key, other) :: ys = (zs ++ [(key, other)]) ++ ys := by simp
      rw [shifted] at nodup ⊢
      rw [ih names nodup]

theorem same_object_iff {xs ys : List (String × Value)} (names : xs.map Prod.fst = ys.map Prod.fst)
    (nodup : (ys.map Prod.fst).Nodup) :
    Same (object xs) (object ys) ↔ List.Forall₂ (fun x y => Same x.2 y.2) xs ys := by
  have length : xs.length = ys.length := by simpa using congrArg List.length names
  have members : SameMembers xs ([] ++ ys) ↔ _ := sameMembers_append_iff names nodup
  rw [Same, ← members, List.nil_append]
  exact and_iff_right length

end Value
end Mooncache
