import Mooncache.Foundation.Reaching
import Mooncache.Master.LeaseSafety
import Mooncache.Master.TenantIsolation

/-! What `evict_for_tenant` does to a state: the shortest run of candidates that reaches the
target, normal ones first, with all its bookkeeping. -/
namespace Mooncache
namespace MasterState

/-- The length of the object under a key. -/
def lenAt (s : MasterState) (key : ObjectKey) : Nat := (s.objects.lookup key).elim 0 (·.len)

/-- The objects under these keys are evicted, one after the other, and nothing else happens. -/
structure Evicted (tenant : TenantId) (s : MasterState) (keys : List ObjectKey) (s' : MasterState) : Prop where
  objects : ∀ key, s'.objects.lookup key =
    if key ∈ keys then (s.objects.lookup key).map ({ · with status := .evicted }) else s.objects.lookup key
  leases : ∀ key, s'.leases.lookup key = if key ∈ keys then none else s.leases.lookup key
  quotas : ∀ other, s'.quotas.lookup other = (s.quotas.lookup other).map fun quota =>
    if other = tenant then quota.releaseDram (totalWeight s.lenAt keys) else quota
  evictions : s.evictionsTotal + keys.length ≤ wordMax → s'.evictionsTotal = s.evictionsTotal + keys.length
  allocator : s'.allocator = s.allocator
  sequence : s'.nextLeaseSequence = s.nextLeaseSequence

section
variable {tenant : TenantId} {s middle s' : MasterState} {keys more : List ObjectKey}

theorem Evicted.refl (tenant : TenantId) (s : MasterState) : Evicted tenant s [] s where
  objects key := rfl
  leases key := rfl
  quotas other := by simp [TenantQuota.releaseDram]
  evictions _ := rfl
  allocator := rfl
  sequence := rfl

theorem Evicted.lenAt (h : Evicted tenant s keys s') (key : ObjectKey) : s'.lenAt key = s.lenAt key := by
  rw [MasterState.lenAt, MasterState.lenAt, h.objects]
  split
  · cases s.objects.lookup key <;> rfl
  · rfl

theorem Evicted.append (h : Evicted tenant s keys middle) (h' : Evicted tenant middle more s') :
    Evicted tenant s (keys ++ more) s' where
  objects key := by
    rw [h'.objects, h.objects]
    by_cases first : key ∈ keys
    · cases s.objects.lookup key <;> simp [first]
    · simp [first]
  leases key := by
    rw [h'.leases, h.leases]
    by_cases last : key ∈ more <;> simp [last]
  quotas other := by
    have same : totalWeight middle.lenAt more = totalWeight s.lenAt more := totalWeight_congr fun key _ => h.lenAt key
    rw [h'.quotas, h.quotas, Option.map_map, totalWeight_append, same]
    refine congrArg (Option.map · _) (funext fun quota => ?_)
    by_cases own : other = tenant
    · simp [own, TenantQuota.releaseDram, Nat.sub_sub]
    · simp [own]
  evictions fits := by
    rw [List.length_append] at fits ⊢
    rw [h'.evictions (by rw [h.evictions (by omega)]; omega), h.evictions (by omega)]
    omega
  allocator := h'.allocator.trans h.allocator
  sequence := h'.sequence.trans h.sequence

/-- One candidate of the loop. -/
theorem evictObject_evicted {key : ObjectKey} {object : CacheObjectMeta} (own : key.1 = tenant)
    (found : s.objects.lookup key = some object) (live : object.status.live = true) :
    Evicted tenant s [key] (s.evictObject key object) where
  objects other := by
    have after : (s.evictObject key object).objects = _ := retire_objects s key object .evicted
    rw [after]
    rcases eq_or_ne other key with rfl | hne
    · simp [found]
    · simp [hne]
  leases other := by
    have after : (s.evictObject key object).leases = _ := retire_leases s key object .evicted
    rw [after]
    rcases eq_or_ne other key with rfl | hne
    · simp
    · simp [hne]
  quotas other := by
    have bytes : quotaReservedBytes object = totalWeight s.lenAt [key] := by
      simp [quotaReservedBytes, live, MasterState.lenAt, found]
    simp only [evictObject, retire, releaseTenantQuota_lookup, own, bytes]
  evictions fits := by
    have after : (s.evictObject key object).evictionsTotal = saturatingAdd s.evictionsTotal 1 := by
      simp only [evictObject, retire]
      rw [releaseTenantQuota_frame]
    rw [after]
    exact saturatingAdd_of_le fits
  allocator := retire_allocator s key object .evicted
  sequence := by
    simp only [evictObject, retire]
    rw [releaseTenantQuota_frame]

end

/-- The objects under the tenant's keys are there to be evicted. -/
def Present (s : MasterState) (tenant : TenantId) (keys : List CacheKey) : Prop :=
  ∀ key ∈ keys, ∃ object, s.objects.lookup (tenant, key) = some object ∧ object.status.live = true

/-- The keys that a loop evicts, with a target and nothing reclaimed yet. -/
def reachingKeys (s : MasterState) (tenant : TenantId) (target : Nat) (keys : List CacheKey) : List ObjectKey :=
  reaching s.lenAt target (keys.map (tenant, ·))

/-- The loop of `evict_candidate_keys` evicts candidates until the target is reached. -/
theorem evictCandidateKeys_evicted {tenant : TenantId} {target : Nat} (word : target ≤ wordMax) {keys : List CacheKey}
    (nodup : keys.Nodup) {s : MasterState} (present : s.Present tenant keys) {reclaimed : Nat}
    (bounded : reclaimed ≤ wordMax) :
    Evicted tenant s (s.reachingKeys tenant (target - reclaimed) keys)
        (evictCandidateKeys tenant target keys reclaimed s).2 ∧
      (evictCandidateKeys tenant target keys reclaimed s).1 =
        saturatingAdd reclaimed (totalWeight s.lenAt (s.reachingKeys tenant (target - reclaimed) keys)) := by
  induction keys generalizing reclaimed s with
  | nil =>
    rw [reachingKeys, List.map_nil, reaching_nil]
    exact ⟨.refl tenant s, by simp [evictCandidateKeys, saturatingAdd, bounded]⟩
  | cons key rest ih =>
    obtain ⟨fresh, nodup⟩ := List.nodup_cons.mp nodup
    obtain ⟨object, found, live⟩ := present key List.mem_cons_self
    unfold evictCandidateKeys
    split
    · rename_i reached
      have none : s.reachingKeys tenant (target - reclaimed) (key :: rest) = [] := by
        rw [reachingKeys, Nat.sub_eq_zero_of_le reached, reaching_zero]
      rw [none]
      exact ⟨.refl tenant s, by simp [saturatingAdd, bounded]⟩
    · rename_i short
      simp only [found]
      have first : Evicted tenant s [(tenant, key)] (s.evictObject (tenant, key) object) :=
        evictObject_evicted rfl found live
      have bytes : quotaReservedBytes object = s.lenAt (tenant, key) := by
        simp [quotaReservedBytes, live, lenAt, found]
      have left : target - saturatingAdd reclaimed (s.lenAt (tenant, key)) =
          target - reclaimed - s.lenAt (tenant, key) := by
        simp only [saturatingAdd]
        omega
      have still : (s.evictObject (tenant, key) object).Present tenant rest := fun other member => by
        have away : (tenant, other) ∉ [(tenant, key)] := by
          rw [List.mem_singleton]
          exact fun same => fresh ((Prod.mk.inj same).2 ▸ member)
        rw [first.objects, if_neg away]
        exact present other (List.mem_cons_of_mem _ member)
      have taken : s.reachingKeys tenant (target - reclaimed) (key :: rest) = (tenant, key) ::
          (s.evictObject (tenant, key) object).reachingKeys tenant
            (target - saturatingAdd reclaimed (s.lenAt (tenant, key))) rest := by
        rw [reachingKeys, List.map_cons, reaching_cons (by omega), left, reachingKeys,
          reaching_congr fun other _ => first.lenAt other]
      obtain ⟨others, total⟩ := ih nodup still
        (show saturatingAdd reclaimed (s.lenAt (tenant, key)) ≤ wordMax from Nat.min_le_right _ _)
      rw [bytes, taken]
      refine ⟨first.append others, ?_⟩
      rw [total, totalWeight_cons, totalWeight_congr fun other _ => first.lenAt other]
      simp only [saturatingAdd]
      omega

/-- The second loop goes on for what the first one left of the target. -/
theorem evictCandidateKeys_resumed {tenant : TenantId} {target : Nat} (word : target ≤ wordMax) {s : MasterState}
    {normal soft : List CacheKey} (nodup : soft.Nodup) (disjoint : ∀ key ∈ soft, key ∉ normal)
    (present : s.Present tenant soft) {reclaimed : Nat} {after : MasterState}
    (first : Evicted tenant s (s.reachingKeys tenant target normal) after)
    (total : reclaimed = min (totalWeight s.lenAt (s.reachingKeys tenant target normal)) wordMax)
    (short : reclaimed < target) :
    Evicted tenant s (s.reachingKeys tenant target (normal ++ soft))
        (evictCandidateKeys tenant (target - reclaimed) soft 0 after).2 ∧
      saturatingAdd reclaimed (evictCandidateKeys tenant (target - reclaimed) soft 0 after).1 =
        min (totalWeight s.lenAt (s.reachingKeys tenant target (normal ++ soft))) wordMax := by
  have exact : reclaimed = totalWeight s.lenAt (s.reachingKeys tenant target normal) := by omega
  have whole : s.reachingKeys tenant target normal = normal.map (tenant, ·) := reaching_eq_self (exact ▸ short)
  have both : s.reachingKeys tenant target (normal ++ soft) =
      s.reachingKeys tenant target normal ++ s.reachingKeys tenant (target - reclaimed) soft := by
    rw [exact, whole]
    simp only [reachingKeys, List.map_append, reaching_append]
    rw [← reachingKeys, whole]
  have still : after.Present tenant soft := fun key member => by
    have away : (tenant, key) ∉ s.reachingKeys tenant target normal := fun taken => by
      obtain ⟨other, there, same⟩ := List.mem_map.mp (mem_of_mem_reaching taken)
      exact disjoint key member ((Prod.mk.inj same).2 ▸ there)
    rw [first.objects, if_neg away]
    exact present key member
  have same : after.reachingKeys tenant (target - reclaimed) soft = s.reachingKeys tenant (target - reclaimed) soft :=
    reaching_congr (fun key _ => first.lenAt key) _
  obtain ⟨second, more⟩ := evictCandidateKeys_evicted (show target - reclaimed ≤ wordMax by omega) nodup still
    (Nat.zero_le wordMax)
  rw [Nat.sub_zero, same] at second more
  rw [both, more, totalWeight_append, ← exact, totalWeight_congr fun key _ => first.lenAt key]
  refine ⟨first.append second, ?_⟩
  simp only [saturatingAdd]
  omega

/-- Nothing is left for the second loop once the target is reached. -/
theorem reachingKeys_reached {s : MasterState} {tenant : TenantId} {target : Nat} {normal : List CacheKey}
    (reached : target ≤ totalWeight s.lenAt (s.reachingKeys tenant target normal)) (soft : List CacheKey) :
    s.reachingKeys tenant target (normal ++ soft) = s.reachingKeys tenant target normal := by
  have enough : target ≤ totalWeight s.lenAt (normal.map (tenant, ·)) :=
    reached.trans (totalWeight_le_of_initial (reaching_initial _ _ _))
  simp only [reachingKeys, List.map_append, reaching_append, Nat.sub_eq_zero_of_le enough, reaching_zero,
    List.append_nil]

section
variable {s : MasterState} {tenant : TenantId} {nowMs : Nat} {order : List (Entry ObjectKey CacheObjectMeta)}

theorem mem_order_iff (enumerated : (order : Multiset _) = s.objects.entries) {entry : Entry ObjectKey CacheObjectMeta} :
    entry ∈ order ↔ s.objects.lookup entry.1 = some entry.2 := by
  rw [Finmap.lookup_eq_some_iff, ← enumerated]
  exact Iff.rfl

/-- The candidates of a class are the tenant's keys of that class. -/
theorem mem_candidates_iff (enumerated : (order : Multiset _) = s.objects.entries) {cls : EvictionCandidateClass}
    {key : CacheKey} : key ∈ s.candidates tenant nowMs cls order ↔ s.keyClass nowMs (tenant, key) = some cls := by
  simp only [candidates, List.mem_filterMap, Option.ite_none_right_eq_some, Option.some.injEq, keyClass,
    Option.bind_eq_some_iff]
  constructor
  · rintro ⟨⟨⟨_, _⟩, object⟩, shown, ⟨rfl, chosen⟩, rfl⟩
    exact ⟨object, (mem_order_iff enumerated).mp shown, chosen⟩
  · rintro ⟨object, found, chosen⟩
    exact ⟨⟨(tenant, key), object⟩, (mem_order_iff enumerated).mpr found, ⟨rfl, chosen⟩, rfl⟩

theorem candidates_nodup (enumerated : (order : Multiset _) = s.objects.entries) (cls : EvictionCandidateClass) :
    (s.candidates tenant nowMs cls order).Nodup := by
  have keys : (order.map Sigma.fst).Nodup := by
    rw [← Multiset.coe_nodup, ← Multiset.map_coe, enumerated]
    exact s.objects.keys.nodup
  rw [candidates_eq enumerated]
  refine List.Nodup.map_on (fun first here second there same => ?_) ((keys.filter _).filter _)
  -- both keys are the tenant's
  have own {key : ObjectKey} (member : key ∈ (MasterOp.keysOf tenant order).filter (s.keyClass nowMs · = some cls)) :
      key.1 = tenant := by
    simpa using (List.mem_filter.mp (List.mem_filter.mp member).1).2
  exact Prod.ext ((own here).trans (own there).symm) same

def SoftPinned (s : MasterState) (nowMs : Nat) (key : ObjectKey) : Prop :=
  ∃ object expiresAtMs, s.objects.lookup key = some object ∧ object.softPinnedUntilMs = some expiresAtMs ∧
    nowMs < expiresAtMs

theorem keyClass_isSome_iff {key : ObjectKey} : (∃ cls, s.keyClass nowMs key = some cls) ↔
    (∃ object, s.objects.lookup key = some object ∧ object.status = .committed ∧ object.hardPinned = false) ∧
      hasActiveLease s.leases key nowMs = false := by
  constructor
  · rintro ⟨cls, chosen⟩
    obtain ⟨object, found, chosen⟩ := Option.bind_eq_some_iff.mp chosen
    obtain ⟨committed, inactive, free⟩ := candidateClass_committed chosen
    exact ⟨⟨object, found, committed, free⟩, inactive⟩
  · rintro ⟨⟨object, found, committed, free⟩, inactive⟩
    simp only [keyClass, found, Option.bind_some, candidateClass, committed, inactive, free]
    cases object.softPinnedUntilMs with
    | none => exact ⟨.normal, rfl⟩
    | some expiresAtMs =>
      by_cases pinned : nowMs < expiresAtMs
      · exact ⟨.softPinned, by simp [pinned]⟩
      · exact ⟨.normal, by simp [pinned]⟩

/-- The class of a candidate is whether it is soft-pinned now. -/
theorem keyClass_softPinned {key : ObjectKey} {cls : EvictionCandidateClass} (chosen : s.keyClass nowMs key = some cls) :
    cls = .softPinned ↔ s.SoftPinned nowMs key := by
  obtain ⟨object, found, chosen⟩ := Option.bind_eq_some_iff.mp chosen
  have here : s.SoftPinned nowMs key ↔ ∃ expiresAtMs, object.softPinnedUntilMs = some expiresAtMs ∧
      nowMs < expiresAtMs := by
    simp [SoftPinned, found]
  rw [here]
  unfold candidateClass at chosen
  split at chosen
  · cases chosen
  · cases held : object.softPinnedUntilMs with
    | none =>
      rw [held] at chosen
      cases chosen
      simp
    | some expiresAtMs =>
      rw [held] at chosen
      by_cases pinned : nowMs < expiresAtMs
      · simp only [gt_iff_lt, pinned, ↓reduceIte, Option.some.injEq] at chosen
        simp [← chosen, pinned]
      · simp only [gt_iff_lt, pinned, ↓reduceIte, Option.some.injEq] at chosen
        simp [← chosen, pinned]

/-- The tenant's candidates in the order in which they are tried. -/
def evictionOrder (s : MasterState) (tenant : TenantId) (nowMs : Nat) (order : List (Entry ObjectKey CacheObjectMeta)) :
    List CacheKey :=
  s.candidates tenant nowMs .normal order ++ s.candidates tenant nowMs .softPinned order

/-- The keys that `evict_for_tenant` evicts, in order. -/
def evictedFor (s : MasterState) (tenant : TenantId) (target nowMs : Nat)
    (order : List (Entry ObjectKey CacheObjectMeta)) : List ObjectKey :=
  s.reachingKeys tenant target (s.evictionOrder tenant nowMs order)

theorem present_of_candidates (enumerated : (order : Multiset _) = s.objects.entries) (cls : EvictionCandidateClass) :
    s.Present tenant (s.candidates tenant nowMs cls order) := by
  intro key member
  obtain ⟨object, found, chosen⟩ := Option.bind_eq_some_iff.mp ((mem_candidates_iff enumerated).mp member)
  exact ⟨object, found, by rw [(candidateClass_committed chosen).1]; rfl⟩

theorem candidates_disjoint (enumerated : (order : Multiset _) = s.objects.entries) {key : CacheKey}
    (soft : key ∈ s.candidates tenant nowMs .softPinned order) : key ∉ s.candidates tenant nowMs .normal order := by
  rw [mem_candidates_iff enumerated] at soft ⊢
  rw [soft]
  exact nofun

/-- Eviction takes candidates in order until the target is reached, and reports their bytes. -/
theorem evictForTenant_evicted {target : Nat} (word : target ≤ wordMax)
    (enumerated : (order : Multiset _) = s.objects.entries) :
    Evicted tenant s (s.evictedFor tenant target nowMs order) (s.evictForTenant tenant target nowMs order).2 ∧
      (s.evictForTenant tenant target nowMs order).1 =
        .ok (min (totalWeight s.lenAt (s.evictedFor tenant target nowMs order)) wordMax) := by
  have nodup (cls : EvictionCandidateClass) : (s.candidates tenant nowMs cls order).Nodup :=
    candidates_nodup enumerated cls
  obtain ⟨first, total⟩ := evictCandidateKeys_evicted word (nodup .normal) (present_of_candidates enumerated .normal)
    (Nat.zero_le wordMax)
  simp only [Nat.sub_zero, saturatingAdd, Nat.zero_add] at first total
  simp only [evictForTenant]
  split
  · rename_i short
    obtain ⟨second, more⟩ := evictCandidateKeys_resumed word (nodup .softPinned)
      (fun _ => candidates_disjoint enumerated) (present_of_candidates enumerated .softPinned) first total short
    exact ⟨second, congrArg Except.ok more⟩
  · rename_i reached
    rw [evictedFor, evictionOrder, reachingKeys_reached (by omega)]
    exact ⟨first, congrArg Except.ok total⟩

theorem mem_evictionOrder_iff (enumerated : (order : Multiset _) = s.objects.entries) {key : CacheKey} :
    key ∈ s.evictionOrder tenant nowMs order ↔ ∃ cls, s.keyClass nowMs (tenant, key) = some cls := by
  rw [evictionOrder, List.mem_append, mem_candidates_iff enumerated, mem_candidates_iff enumerated]
  constructor
  · rintro (normal | soft)
    · exact ⟨_, normal⟩
    · exact ⟨_, soft⟩
  · rintro ⟨cls, chosen⟩
    cases cls with
    | normal => exact .inl chosen
    | softPinned => exact .inr chosen

section
variable {target : Nat} {key : ObjectKey}

theorem evictedFor_nodup (enumerated : (order : Multiset _) = s.objects.entries) :
    (s.evictedFor tenant target nowMs order).Nodup := by
  have apart : (s.evictionOrder tenant nowMs order).Nodup :=
    (candidates_nodup enumerated .normal).append (candidates_nodup enumerated .softPinned) fun key normal soft =>
      candidates_disjoint enumerated soft normal
  exact (reaching_initial _ _ _).sublist.nodup (apart.map (Prod.mk_right_injective tenant))

theorem evictedFor_class (enumerated : (order : Multiset _) = s.objects.entries)
    (evicted : key ∈ s.evictedFor tenant target nowMs order) :
    key.1 = tenant ∧ ∃ cls, s.keyClass nowMs key = some cls := by
  obtain ⟨other, tried, rfl⟩ := List.mem_map.mp (mem_of_mem_reaching evicted)
  exact ⟨rfl, (mem_evictionOrder_iff enumerated).mp tried⟩

/-- Short of the target every candidate is evicted. -/
theorem evictedFor_all (enumerated : (order : Multiset _) = s.objects.entries)
    (short : totalWeight s.lenAt (s.evictedFor tenant target nowMs order) < target) {key : CacheKey}
    {cls : EvictionCandidateClass} (chosen : s.keyClass nowMs (tenant, key) = some cls) :
    (tenant, key) ∈ s.evictedFor tenant target nowMs order := by
  rw [evictedFor, reachingKeys, reaching_eq_self short]
  exact List.mem_map_of_mem ((mem_evictionOrder_iff enumerated).mpr ⟨cls, chosen⟩)

/-- A soft-pinned object is evicted after all normal candidates only. -/
theorem evictedFor_fallback (enumerated : (order : Multiset _) = s.objects.entries)
    (evicted : key ∈ s.evictedFor tenant target nowMs order) (soft : s.keyClass nowMs key = some .softPinned)
    {other : CacheKey} (normal : s.keyClass nowMs (tenant, other) = some .normal) :
    (tenant, other) ∈ s.evictedFor tenant target nowMs order := by
  simp only [evictedFor, reachingKeys, evictionOrder, List.map_append] at evicted ⊢
  refine subset_of_mem_reaching evicted (fun early => ?_) _
    (List.mem_map_of_mem ((mem_candidates_iff enumerated).mpr normal))
  obtain ⟨cacheKey, tried, rfl⟩ := List.mem_map.mp early
  rw [(mem_candidates_iff enumerated).mp tried] at soft
  cases soft

end
end

end MasterState
end Mooncache
