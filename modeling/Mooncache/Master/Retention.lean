import Mooncache.Master.Operations

/-! Operations that reserve nothing, and reservation in a single segment. -/
namespace Mooncache

/-- The operations that take or add space. -/
def MasterOp.grows : MasterOp → Bool
  | putStart _ _ _ _ | mountSegment _ _ => true
  | setTenantQuota _ _ _ | putEnd _ _ | putRevoke _ _ | getReplicaList _ _ _ | remove _ _
  | evictForTenant _ _ _ _ => false

/-- The operation that makes an object visible. -/
def MasterOp.commits : MasterOp → Bool
  | putEnd _ _ => true
  | _ => false

namespace MasterState

/-- The segments stay, and an object that is still there has the replicas it had; it
is committed only if it was, unless the step may commit. -/
structure Retains (commits : Prop) (s s' : MasterState) : Prop where
  allocator : s'.allocator = s.allocator
  objects : ∀ key object, s'.objects.lookup key = some object →
    ∃ old, s.objects.lookup key = some old ∧ object.replicas = old.replicas ∧
      (object.status = .committed → old.status = .committed ∨ commits)

theorem Retains.of_objects {commits : Prop} {s s' : MasterState} (allocator : s'.allocator = s.allocator)
    (objects : s'.objects = s.objects) : Retains commits s s' :=
  ⟨allocator, fun _ object h => ⟨object, objects ▸ h, rfl, .inl⟩⟩

theorem Retains.refl (commits : Prop) (s : MasterState) : Retains commits s s := .of_objects rfl rfl

theorem Retains.trans {commits : Prop} {s middle s' : MasterState} (first : Retains commits s middle)
    (last : Retains commits middle s') : Retains commits s s' := by
  refine ⟨last.allocator.trans first.allocator, fun key object h => ?_⟩
  obtain ⟨between, hb, same, status⟩ := last.objects key object h
  obtain ⟨old, ho, before, earlier⟩ := first.objects key between hb
  exact ⟨old, ho, same.trans before, fun committed => (status committed).elim earlier .inr⟩

/-- Giving an object another status. -/
theorem Retains.of_status {commits : Prop} {s s' : MasterState} {key : ObjectKey} {object : CacheObjectMeta}
    {status : ObjectStatus} (found : s.objects.lookup key = some object)
    (allocator : s'.allocator = s.allocator)
    (objects : s'.objects = s.objects.insert key { object with status := status })
    (visible : status = .committed → commits) : Retains commits s s' := by
  refine ⟨allocator, fun other changed h => ?_⟩
  rw [objects] at h
  rcases eq_or_ne other key with rfl | hne
  · rw [Finmap.lookup_insert, Option.some.injEq] at h
    subst h
    exact ⟨object, found, rfl, fun committed => .inr (visible committed)⟩
  · rw [Finmap.lookup_insert_of_ne _ hne] at h
    exact ⟨changed, h, rfl, .inl⟩

private theorem Retains.of_erase {commits : Prop} {s s' : MasterState} {key : ObjectKey}
    (allocator : s'.allocator = s.allocator) (objects : s'.objects = s.objects.erase key) :
    Retains commits s s' := by
  refine ⟨allocator, fun other object h => ?_⟩
  rw [objects] at h
  rcases eq_or_ne other key with rfl | hne
  · rw [Finmap.lookup_erase] at h
    cases h
  · rw [Finmap.lookup_erase_ne hne] at h
    exact ⟨object, h, rfl, .inl⟩

private theorem evictCandidateKeys_retains (tenant : TenantId) (target : Nat) (keys : List CacheKey)
    (reclaimed : Nat) (s : MasterState) :
    Retains False s (evictCandidateKeys tenant target keys reclaimed s).2 := by
  induction keys generalizing reclaimed s with
  | nil => exact .refl _ s
  | cons key rest ih =>
    unfold evictCandidateKeys
    split
    · exact .refl _ s
    · split
      · exact ih reclaimed s
      · rename_i object found
        have evicted : Retains False s (s.evictObject (tenant, key) object) :=
          .of_status found (retire_allocator _ _ _ .evicted) (retire_objects _ _ _ .evicted) (by simp)
        exact evicted.trans (ih _ _)

theorem evictForTenant_retains (s : MasterState) (tenant : TenantId) (target nowMs : Nat)
    (order : List (Entry ObjectKey CacheObjectMeta)) :
    Retains False s (s.evictForTenant tenant target nowMs order).2 := by
  have first := evictCandidateKeys_retains tenant target (s.candidates tenant nowMs .normal order) 0 s
  simp only [evictForTenant]
  split
  · exact first.trans (evictCandidateKeys_retains tenant _ _ 0 _)
  · exact first

theorem apply_retains (s : MasterState) (op : MasterOp) (h : op.grows = false) :
    Retains (op.commits = true) s (op.apply s) := by
  cases op with
  | setTenantQuota tenantId dramBytes ssdBytes =>
    simp only [MasterOp.apply, setTenantQuota]
    split
    · exact .refl _ s
    · exact .of_objects rfl rfl
  | mountSegment nodeId len => cases h
  | putStart tenant key len replicaCount => cases h
  | putEnd tenant key =>
    rcases putEnd_cases s tenant key with ⟨_, he⟩ | ⟨object, found, _, he⟩ <;> rw [MasterOp.apply, he]
    · exact .refl _ s
    · exact .of_status found rfl rfl fun _ => rfl
  | putRevoke tenant key =>
    rcases putRevoke_cases s tenant key with ⟨_, he⟩ | ⟨object, found, he⟩ <;> rw [MasterOp.apply, he]
    · exact .refl _ s
    · exact .of_status found (retire_allocator _ _ _ _) (retire_objects _ _ _ _) (by simp)
  | getReplicaList tenant key nowMs =>
    rcases getReplicaList_cases s tenant key nowMs with he | ⟨_, _, _, _, _, _, he⟩ <;> rw [MasterOp.apply, he]
    · exact .refl _ s
    · exact .of_objects rfl rfl
  | remove tenant key =>
    rcases remove_cases s tenant key with ⟨_, he⟩ | ⟨object, found, _, leases, he⟩ <;> rw [MasterOp.apply, he]
    · exact .refl _ s
    · exact .of_erase (releaseTenantQuota_allocator _ _ _) (releaseTenantQuota_objects _ _ _)
  | evictForTenant tenant target nowMs order =>
    have evicted := evictForTenant_retains s tenant target nowMs order
    refine ⟨evicted.allocator, fun key object found => ?_⟩
    obtain ⟨old, before, same, status⟩ := evicted.objects key object found
    exact ⟨old, before, same, fun committed => (status committed).imp_right False.elim⟩

/-- With one segment mounted, a reservation of one replica takes the bytes at its free end. -/
theorem putStart_single {s : MasterState} {segment : MountedSegment} (only : s.allocator.segments = [segment])
    (tenant : TenantId) (key : CacheKey) (len : Nat) :
    (∃ err, s.putStart tenant key len 1 = (.error err, s)) ∨
    ∃ s', s.putStart tenant key len 1 = (.ok [⟨segment.nodeId, segment.nextOffset, len⟩], s') ∧ 0 < len ∧
      s.objects.lookup (tenant, key) = none ∧
      s'.allocator.segments = [{ segment with nextOffset := segment.nextOffset + len }] ∧
      s'.objects = s.objects.insert (tenant, key)
        ⟨tenant, key, len, .reserving, [⟨segment.nodeId, segment.nextOffset, len⟩], false, none⟩ := by
  rcases putStart_cases s tenant key len 1 with
    failed | ⟨reserved, allocations, after, indexes, absent, _, positive, _, _, one, spec, he⟩
  · exact .inl failed
  · right
    rw [only] at spec
    obtain ⟨index, rfl⟩ := List.length_eq_one_iff.mp one
    obtain ⟨found, hs, _⟩ := spec.fits (List.mem_singleton_self index)
    have first : index = 0 := by
      have := (List.getElem?_eq_some_iff.mp hs).1
      simp only [List.length_singleton] at this
      omega
    subst first
    have extents : allocations = [⟨segment.nodeId, segment.nextOffset, len⟩] := by
      have same := spec.extents.length_eq
      obtain ⟨allocation, rfl⟩ := List.length_eq_one_iff.mp same.symm
      have member := spec.extent_of (List.mem_singleton_self 0) (show [segment][0]? = some segment from rfl)
      rw [List.mem_singleton.mp member]
    have moved : after = [{ segment with nextOffset := segment.nextOffset + len }] := by
      have size : after.length = 1 := by
        have none := spec.segments 1
        obtain ⟨next, hn, _⟩ := spec.after_at (show [segment][0]? = some segment from rfl)
        have some := (List.getElem?_eq_some_iff.mp hn).1
        simp only [List.getElem?_cons_succ, List.getElem?_nil, Option.map_none, List.getElem?_eq_none_iff] at none
        omega
      obtain ⟨next, rfl⟩ := List.length_eq_one_iff.mp size
      obtain ⟨old, ho, _, _, ⟨_, _, he⟩ | ⟨away, _⟩⟩ := spec.after_cases (show [next][0]? = some next from rfl)
      · cases ho
        rw [he]
      · exact absurd (List.mem_singleton_self 0) away
    subst extents moved
    exact ⟨_, he, positive, absent, rfl, rfl⟩

end MasterState
end Mooncache
