import Mooncache.Master.Operations

/-! A metadata snapshot restores the objects and the quotas it was taken from,
whatever order the maps were enumerated in. -/
namespace Mooncache
namespace MasterState

/-- Every object is stored under its own tenant and cache key. -/
def Keyed (s : MasterState) : Prop :=
  ∀ key object, s.objects.lookup key = some object → (object.tenantId, object.cacheKey) = key

theorem new_keyed : new.Keyed := by
  intro key object h
  simp [new] at h

/-- A snapshot stores every object under its own key. -/
theorem fromMetadataSnapshot_keyed (snapshot : MasterMetadataSnapshot) : (fromMetadataSnapshot snapshot).Keyed := by
  intro key object found
  have member := Table.mem_of_lookup_collect found
  obtain ⟨stored, _, same⟩ := List.mem_map.mp member
  cases same
  rfl

private theorem insert_keyed {s : MasterState} (h : s.Keyed) {key : ObjectKey} {object : CacheObjectMeta}
    {s' : MasterState} (hs : s'.objects = s.objects.insert key object)
    (ho : (object.tenantId, object.cacheKey) = key) : s'.Keyed := by
  intro other found hl
  rw [hs] at hl
  rcases eq_or_ne other key with rfl | hne
  · simp only [Finmap.lookup_insert, Option.some.injEq] at hl
    rw [← hl]
    exact ho
  · rw [Finmap.lookup_insert_of_ne _ hne] at hl
    exact h other found hl

theorem Change.keyed {s s' : MasterState} (change : Change s s') (h : s.Keyed) : s'.Keyed := by
  cases change with
  | bookkeeping => exact h
  | reserve hl hr => exact insert_keyed h rfl rfl
  | commit hl =>
    have own := h _ _ hl
    exact insert_keyed h rfl own
  | retire hl =>
    have own := h _ _ hl
    exact insert_keyed h (retire_objects _ _ _ _) own
  | @remove key _ hl =>
    intro other found hf
    rw [releaseTenantQuota_objects] at hf
    rcases eq_or_ne other key with rfl | hne
    · simp at hf
    · exact h other found (by simpa [hne] using hf)

theorem Changes.keyed {s s' : MasterState} (changes : Changes s s') (h : s.Keyed) : s'.Keyed := by
  induction changes with
  | refl => exact h
  | tail _ last ih => exact last.keyed ih

theorem apply_keyed {s : MasterState} (h : s.Keyed) (op : MasterOp) : (op.apply s).Keyed := by
  rcases apply_cases s op with ⟨tenantId, dramBytes, ssdBytes, rfl⟩ | ⟨nodeId, len, rfl⟩ | changes
  · simp only [MasterOp.apply, setTenantQuota]
    split <;> exact h
  · exact h
  · exact changes.keyed h

/-- The state rebuilt from a snapshot of `s` taken with the given enumerations. -/
def restored (s : MasterState) (objects : List (Entry ObjectKey CacheObjectMeta))
    (quotas : List (Entry TenantId TenantQuota)) : MasterState :=
  fromMetadataSnapshot (s.metadataSnapshot objects quotas)

/-- The lists enumerate the two maps: each entry once, in some order. -/
def Enumerates (s : MasterState) (objects : List (Entry ObjectKey CacheObjectMeta))
    (quotas : List (Entry TenantId TenantQuota)) : Prop :=
  (objects : Multiset _) = s.objects.entries ∧ (quotas : Multiset _) = s.quotas.entries

/-- A snapshot brings back objects, quotas and the eviction count, and nothing else. -/
theorem restored_eq {s : MasterState} (h : s.Keyed) {objects : List (Entry ObjectKey CacheObjectMeta)}
    {quotas : List (Entry TenantId TenantQuota)} (he : s.Enumerates objects quotas) :
    s.restored objects quotas =
      { new with objects := s.objects, quotas := s.quotas, evictionsTotal := s.evictionsTotal } := by
  have keys : objects.map (fun entry => ((entry.2.tenantId, entry.2.cacheKey), entry.2)) =
      objects.map fun entry => (entry.1, entry.2) := by
    refine List.map_congr_left fun entry hm => ?_
    have hl : s.objects.lookup entry.1 = some entry.2 := by
      rw [Finmap.lookup_eq_some_iff, ← he.1]
      exact hm
    rw [h _ _ hl]
  have collected : Table.collect (objects.map fun entry => (entry.1, entry.2)) = s.objects :=
    Table.collect_entries (by rw [← Multiset.map_coe, he.1])
  have records : Table.collect (quotas.map fun entry => (entry.1, entry.2)) = s.quotas :=
    Table.collect_entries (by rw [← Multiset.map_coe, he.2])
  simp only [restored, fromMetadataSnapshot, metadataSnapshot, new, List.map_map, Function.comp_def,
    keys, collected, records]

end MasterState
end Mooncache
