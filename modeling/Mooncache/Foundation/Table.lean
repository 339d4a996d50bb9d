import Mooncache.Foundation.Words
import Mathlib.Data.Finmap
import Mathlib.Algebra.BigOperators.Group.Finset.Basic
import Mathlib.Algebra.GroupWithZero.Nat
import Mathlib.Algebra.Order.BigOperators.Group.Finset

/-! Finite tables over decidable keys, and totals over their entries.
Two tables with the same lookups are equal: no order of the entries is kept. -/
namespace Mooncache
variable {K V : Type}

abbrev Table (K V : Type) := Finmap (fun _ : K => V)

abbrev Entry (K V : Type) := Sigma (fun _ : K => V)

/-- A list of pairs without two of one key is read back by key. -/
theorem lookup_of_mem [BEq K] [LawfulBEq K] {entries : List (K × V)} (nodup : (entries.map Prod.fst).Nodup)
    {entry : K × V} (h : entry ∈ entries) : entries.lookup entry.1 = some entry.2 := by
  induction entries with
  | nil => simp at h
  | cons first rest ih =>
    obtain ⟨k, v⟩ := first
    simp only [List.map_cons, List.nodup_cons] at nodup
    rcases List.mem_cons.mp h with rfl | hm
    · exact List.lookup_cons_self
    · have other : (entry.1 == k) = false := by
        rw [beq_eq_false_iff_ne]
        exact fun he => nodup.1 (he ▸ List.mem_map_of_mem hm)
      rw [List.lookup_cons, other]
      exact ih nodup.2 hm

namespace Table

/-- The sum of a weight over all entries. -/
def total (weight : K → V → Nat) (table : Table K V) : Nat :=
  (table.entries.map fun entry => weight entry.1 entry.2).sum

/-- The same sum with saturating word addition. -/
def saturatingTotal (weight : K → V → Nat) (table : Table K V) : Nat :=
  table.foldl (fun used k v => saturatingAdd used (weight k v))
    (fun used k v j w => saturatingAdd_right_comm used (weight k v) (weight j w)) 0

private theorem foldl_saturatingAdd (weight : K → V → Nat) (entries : List (Entry K V)) (start : Nat) :
    entries.foldl (fun used entry => saturatingAdd used (weight entry.1 entry.2)) (min start wordMax) =
      min (start + ((entries : Multiset (Entry K V)).map fun entry => weight entry.1 entry.2).sum) wordMax := by
  induction entries generalizing start with
  | nil => rfl
  | cons entry entries ih =>
    have step : saturatingAdd (min start wordMax) (weight entry.1 entry.2) =
        min (start + weight entry.1 entry.2) wordMax := by
      simp only [saturatingAdd]
      omega
    rw [List.foldl_cons, step, ih, ← Multiset.cons_coe, Multiset.map_cons, Multiset.sum_cons, Nat.add_assoc]

/-- The saturating sum is the exact one, cut off at the largest word. -/
theorem saturatingTotal_eq (weight : K → V → Nat) (table : Table K V) :
    saturatingTotal weight table = min (total weight table) wordMax := by
  induction table using Finmap.induction_on with
  | H s =>
    have h := foldl_saturatingAdd weight s.entries 0
    simpa [saturatingTotal, total, Finmap.foldl, AList.toFinmap] using h

variable [DecidableEq K]

/-- Build a table from a list of pairs, a later pair replacing an earlier one. -/
def collect (pairs : List (K × V)) : Table K V :=
  pairs.foldl (fun table pair => table.insert pair.1 pair.2) ∅

theorem insert_erase (table : Table K V) (k : K) (v : V) :
    (table.erase k).insert k v = table.insert k v := by
  apply Finmap.ext_lookup
  intro j
  rcases eq_or_ne j k with rfl | hne
  · simp
  · simp [hne]

theorem insert_lookup {table : Table K V} {k : K} {v : V} (h : table.lookup k = some v) :
    table.insert k v = table := by
  apply Finmap.ext_lookup
  intro j
  rcases eq_or_ne j k with rfl | hne
  · simp [h]
  · simp [hne]

theorem erase_of_absent {table : Table K V} {k : K} (h : table.lookup k = none) : table.erase k = table := by
  apply Finmap.ext_lookup
  intro j
  rcases eq_or_ne j k with rfl | hne
  · simp [h]
  · simp [hne]

/-- Inserting under an absent key adds its weight. -/
theorem total_insert_of_absent (weight : K → V → Nat) {table : Table K V} {k : K} (v : V)
    (h : table.lookup k = none) :
    total weight (table.insert k v) = weight k v + total weight table := by
  simp only [total, Finmap.entries_insert_of_notMem (Finmap.lookup_eq_none.mp h),
    Multiset.map_cons, Multiset.sum_cons]

theorem total_insert (weight : K → V → Nat) (table : Table K V) (k : K) (v : V) :
    total weight (table.insert k v) = weight k v + total weight (table.erase k) := by
  rw [← insert_erase, total_insert_of_absent weight v (Finmap.lookup_erase k table)]

/-- Taking an entry out takes its weight out. -/
theorem total_of_lookup (weight : K → V → Nat) {table : Table K V} {k : K} {v : V}
    (h : table.lookup k = some v) :
    total weight table = weight k v + total weight (table.erase k) := by
  rw [← total_insert, insert_lookup h]

theorem weight_le_total (weight : K → V → Nat) {table : Table K V} {k : K} {v : V}
    (h : table.lookup k = some v) : weight k v ≤ total weight table := by
  rw [total_of_lookup weight h]
  omega

theorem total_eq_sum (weight : K → V → Nat) (table : Table K V) :
    total weight table = ∑ k ∈ table.keys, (table.lookup k).elim 0 (weight k) := by
  have keys : table.keys.val = table.entries.map Sigma.fst := rfl
  rw [total, Finset.sum, keys, Multiset.map_map]
  refine congrArg Multiset.sum (Multiset.map_congr rfl fun entry member => ?_)
  rw [Function.comp_apply, Finmap.lookup_eq_some_iff.mpr member, Option.elim_some]

private theorem weight_of_absent (weight : K → V → Nat) (table : Table K V) {k : K} (h : k ∉ table.keys) :
    (table.lookup k).elim 0 (weight k) = 0 := by
  rw [Finmap.lookup_eq_none.mpr (mt Finmap.mem_keys.mpr h), Option.elim_none]

/-- Some of the keys weigh no more than all of them. -/
theorem sum_le_total (weight : K → V → Nat) (table : Table K V) {keys : List K} (nodup : keys.Nodup) :
    (keys.map fun k => (table.lookup k).elim 0 (weight k)).sum ≤ total weight table := by
  calc (keys.map fun k => (table.lookup k).elim 0 (weight k)).sum
      = ∑ k ∈ keys.toFinset, (table.lookup k).elim 0 (weight k) := (List.sum_toFinset _ nodup).symm
    _ ≤ ∑ k ∈ keys.toFinset ∪ table.keys, (table.lookup k).elim 0 (weight k) :=
        Finset.sum_le_sum_of_subset Finset.subset_union_left
    _ = total weight table := by
        rw [total_eq_sum]
        exact (Finset.sum_subset Finset.subset_union_right fun k _ h => weight_of_absent weight table h).symm

/-- A total depends only on what each key weighs. -/
theorem total_congr {weight weighed : K → V → Nat} {table other : Table K V}
    (same : ∀ k, (table.lookup k).elim 0 (weight k) = (other.lookup k).elim 0 (weighed k)) :
    total weight table = total weighed other := by
  calc total weight table
      = ∑ k ∈ table.keys ∪ other.keys, (table.lookup k).elim 0 (weight k) := by
        rw [total_eq_sum]
        exact Finset.sum_subset Finset.subset_union_left fun k _ h => weight_of_absent weight table h
    _ = ∑ k ∈ table.keys ∪ other.keys, (other.lookup k).elim 0 (weighed k) := Finset.sum_congr rfl fun k _ => same k
    _ = total weighed other := by
        rw [total_eq_sum]
        exact (Finset.sum_subset Finset.subset_union_right fun k _ h => weight_of_absent weighed other h).symm

private theorem lookup_foldl_insert (pairs : List (K × V)) (table : Table K V) (k : K)
    (hk : k ∉ pairs.map Prod.fst) :
    (pairs.foldl (fun t pair => t.insert pair.1 pair.2) table).lookup k = table.lookup k := by
  induction pairs generalizing table with
  | nil => rfl
  | cons pair pairs ih =>
    simp only [List.map_cons, List.mem_cons, not_or] at hk
    rw [List.foldl_cons, ih _ hk.2, Finmap.lookup_insert_of_ne _ hk.1]

private theorem lookup_foldl_of_mem (pairs : List (K × V)) (table : Table K V) {k : K} {v : V}
    (hn : (pairs.map Prod.fst).Nodup) (hm : (k, v) ∈ pairs) :
    (pairs.foldl (fun t pair => t.insert pair.1 pair.2) table).lookup k = some v := by
  induction pairs generalizing table with
  | nil => simp at hm
  | cons pair pairs ih =>
    simp only [List.map_cons, List.nodup_cons] at hn
    rcases List.mem_cons.mp hm with rfl | hm
    · rw [List.foldl_cons, lookup_foldl_insert _ _ _ hn.1, Finmap.lookup_insert]
    · exact ih _ hn.2 hm

/-- What a collected table holds was among the pairs. -/
theorem mem_of_lookup_collect {pairs : List (K × V)} {k : K} {v : V} (h : (collect pairs).lookup k = some v) :
    (k, v) ∈ pairs := by
  have held (table : Table K V) (rest : List (K × V))
      (h : (rest.foldl (fun t pair => t.insert pair.1 pair.2) table).lookup k = some v) :
      (k, v) ∈ rest ∨ table.lookup k = some v := by
    induction rest generalizing table with
    | nil => exact .inr h
    | cons pair rest ih =>
      rcases ih _ h with member | found
      · exact .inl (List.mem_cons_of_mem _ member)
      · rcases eq_or_ne k pair.1 with rfl | hne
        · rw [Finmap.lookup_insert, Option.some.injEq] at found
          exact .inl (by rw [← found]; exact List.mem_cons_self)
        · rw [Finmap.lookup_insert_of_ne _ hne] at found
          exact .inr found
  exact (held ∅ pairs h).resolve_right (by simp)

/-- Any enumeration of a table's own entries collects back to the table. -/
theorem collect_entries {table : Table K V} {pairs : List (K × V)}
    (h : (pairs : Multiset (K × V)) = table.entries.map fun entry => (entry.1, entry.2)) :
    collect pairs = table := by
  have hn : (pairs.map Prod.fst).Nodup := by
    have keys : ((pairs.map Prod.fst : List K) : Multiset K) = table.keys.val := by
      rw [← Multiset.map_coe, h, Multiset.map_map]
      rfl
    rw [← Multiset.coe_nodup, keys]
    exact table.keys.nodup
  have hm (k : K) (v : V) : (k, v) ∈ pairs ↔ table.lookup k = some v := by
    rw [← Multiset.mem_coe, h, Finmap.lookup_eq_some_iff, Multiset.mem_map]
    constructor
    · rintro ⟨⟨j, w⟩, he, hp⟩
      cases hp
      exact he
    · exact fun he => ⟨⟨k, v⟩, he, rfl⟩
  apply Finmap.ext_lookup
  intro k
  cases hl : table.lookup k with
  | some v => exact lookup_foldl_of_mem pairs ∅ hn ((hm k v).mpr hl)
  | none =>
    have absent : k ∉ pairs.map Prod.fst := by
      intro hk
      obtain ⟨⟨j, w⟩, hw, rfl⟩ := List.mem_map.mp hk
      rw [(hm j w).mp hw] at hl
      cases hl
    rw [collect, lookup_foldl_insert pairs ∅ k absent, Finmap.lookup_empty]

end Table
end Mooncache
