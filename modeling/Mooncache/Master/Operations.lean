import Mooncache.Foundation.Runs
import Mooncache.Master.State
import Mathlib.Logic.Relation

/-! Runs of master operations, and the few kinds of change they are made of. -/
namespace Mooncache

/-- One call of a public operation with all its arguments. -/
inductive MasterOp where
  | setTenantQuota (tenantId : String) (dramBytes ssdBytes : Nat)
  | mountSegment (nodeId : String) (len : Nat)
  | putStart (tenant : TenantId) (key : CacheKey) (len replicaCount : Nat)
  | putEnd (tenant : TenantId) (key : CacheKey)
  | putRevoke (tenant : TenantId) (key : CacheKey)
  | getReplicaList (tenant : TenantId) (key : CacheKey) (nowMs : Nat)
  | remove (tenant : TenantId) (key : CacheKey)
  | evictForTenant (tenant : TenantId) (target nowMs : Nat)
      (order : List (Entry ObjectKey CacheObjectMeta))

namespace MasterOp

def apply (s : MasterState) : MasterOp → MasterState
  | setTenantQuota tenantId dramBytes ssdBytes => (s.setTenantQuota tenantId dramBytes ssdBytes).2
  | mountSegment nodeId len => s.mountSegment nodeId len
  | putStart tenant key len replicaCount => (s.putStart tenant key len replicaCount).2
  | putEnd tenant key => (s.putEnd tenant key).2
  | putRevoke tenant key => (s.putRevoke tenant key).2
  | getReplicaList tenant key nowMs => (s.getReplicaList tenant key nowMs).2
  | remove tenant key => (s.remove tenant key).2
  | evictForTenant tenant target nowMs order => (s.evictForTenant tenant target nowMs order).2

/-- Byte counts are words, and an eviction sees each object exactly once. A replica
count is only compared with the number of segments, so any natural will do. -/
def Enabled (s : MasterState) : MasterOp → Prop
  | setTenantQuota _ dramBytes ssdBytes => dramBytes ≤ wordMax ∧ ssdBytes ≤ wordMax
  | mountSegment _ len => len ≤ wordMax
  | putStart _ _ len _ => len ≤ wordMax
  | evictForTenant _ target _ order => target ≤ wordMax ∧ (order : Multiset _) = s.objects.entries
  | _ => True

instance (s : MasterState) (op : MasterOp) : Decidable (op.Enabled s) := by
  cases op <;> unfold Enabled <;> infer_instance

end MasterOp

namespace MasterState

def Step (s : MasterState) (op : MasterOp) (s' : MasterState) : Prop :=
  op.Enabled s ∧ s' = op.apply s

/-- The changes to objects, quotas and segments that the lifecycle operations
are made of. Setting a quota and mounting a segment are not among them. -/
inductive Change : MasterState → MasterState → Prop
  | bookkeeping (s : MasterState) (leases : Table ObjectKey Lease) (sequence evictions : Nat) :
      Change s { s with leases := leases, nextLeaseSequence := sequence, evictionsTotal := evictions }
  | reserve {s reserved : MasterState} {key : ObjectKey} {len : Nat}
      {allocations : List SegmentAllocation} {after : List MountedSegment} {indexes : List Nat} :
      s.objects.lookup key = none → s.reserveTenantQuota key.1 len = .ok reserved → 0 < len →
      indexes ≠ [] → SegmentAllocator.Allocated s.allocator.segments after len indexes allocations →
      Change s { reserved with
        allocator := ⟨after⟩
        objects := s.objects.insert key
          ⟨key.1, key.2, len, .reserving, allocations.map replicaOf, false, none⟩ }
  | commit {s : MasterState} {key : ObjectKey} {object : CacheObjectMeta} :
      s.objects.lookup key = some object → object.status = .reserving ∨ object.status = .writing →
      Change s { s with objects := s.objects.insert key { object with status := .committed } }
  | retire {s : MasterState} {key : ObjectKey} {object : CacheObjectMeta} {status : ObjectStatus} :
      s.objects.lookup key = some object → status.live = false → Change s (s.retire key object status)
  | remove {s : MasterState} {key : ObjectKey} {object : CacheObjectMeta} :
      s.objects.lookup key = some object →
      Change s (({ s with objects := s.objects.erase key } : MasterState).releaseTenantQuota key.1
        (quotaReservedBytes object))

abbrev Changes := Relation.ReflTransGen Change

theorem reserveTenantQuota_cases {s reserved : MasterState} {tenant : TenantId} {bytes : Nat}
    (h : s.reserveTenantQuota tenant bytes = .ok reserved) :
    (s.quotas.lookup tenant = none ∧ reserved = s) ∨
    ∃ quota : TenantQuota, s.quotas.lookup tenant = some quota ∧
      quota.usedDramBytes + bytes ≤ wordMax ∧ quota.usedDramBytes + bytes ≤ quota.dramBytes ∧
      reserved = { s with
        quotas := s.quotas.insert tenant { quota with usedDramBytes := quota.usedDramBytes + bytes } } := by
  unfold reserveTenantQuota at h
  split at h
  · rename_i hn
    cases h
    exact .inl ⟨hn, rfl⟩
  · rename_i quota hq
    split at h
    · cases h
    · rename_i next hr
      obtain ⟨hw, hl, rfl⟩ := TenantQuota.reserveDram_eq_ok.mp hr
      cases h
      exact .inr ⟨quota, hq, hw, hl, rfl⟩

/-- A reservation moves quotas only. -/
theorem reserveTenantQuota_frame {s reserved : MasterState} {tenant : TenantId} {bytes : Nat}
    (h : s.reserveTenantQuota tenant bytes = .ok reserved) :
    reserved = { s with quotas := reserved.quotas } := by
  obtain ⟨_, rfl⟩ | ⟨_, _, _, _, rfl⟩ := reserveTenantQuota_cases h <;> rfl

/-- A release moves quotas only. -/
theorem releaseTenantQuota_frame (s : MasterState) (tenant : TenantId) (bytes : Nat) :
    s.releaseTenantQuota tenant bytes =
      { s with quotas := (s.releaseTenantQuota tenant bytes).quotas } := by
  unfold releaseTenantQuota
  split <;> rfl

@[simp] theorem releaseTenantQuota_objects (s : MasterState) (tenant : TenantId) (bytes : Nat) :
    (s.releaseTenantQuota tenant bytes).objects = s.objects := by
  rw [releaseTenantQuota_frame]

@[simp] theorem releaseTenantQuota_allocator (s : MasterState) (tenant : TenantId) (bytes : Nat) :
    (s.releaseTenantQuota tenant bytes).allocator = s.allocator := by
  rw [releaseTenantQuota_frame]

@[simp] theorem retire_objects (s : MasterState) (key : ObjectKey) (object : CacheObjectMeta)
    (status : ObjectStatus) :
    (s.retire key object status).objects = s.objects.insert key { object with status := status } :=
  releaseTenantQuota_objects _ _ _

@[simp] theorem retire_allocator (s : MasterState) (key : ObjectKey) (object : CacheObjectMeta)
    (status : ObjectStatus) : (s.retire key object status).allocator = s.allocator :=
  releaseTenantQuota_allocator _ _ _

/-- Releasing what was just reserved restores the state. -/
theorem release_reserved {s reserved : MasterState} {tenant : TenantId} {bytes : Nat}
    (h : s.reserveTenantQuota tenant bytes = .ok reserved) :
    reserved.releaseTenantQuota tenant bytes = s := by
  obtain ⟨hn, rfl⟩ | ⟨quota, hq, _, _, rfl⟩ := reserveTenantQuota_cases h
  · simp [releaseTenantQuota, hn]
  · simp only [releaseTenantQuota, Finmap.lookup_insert, Finmap.insert_insert, TenantQuota.releaseDram,
      Nat.add_sub_cancel]
    rw [Table.insert_lookup (by simpa using hq)]

/-- Everything `put_start` can do: fail and leave the state alone, or reserve. -/
theorem putStart_cases (s : MasterState) (tenant : TenantId) (key : CacheKey) (len replicaCount : Nat) :
    (∃ err, s.putStart tenant key len replicaCount = (.error err, s)) ∨
    ∃ reserved allocations after indexes,
      s.objects.lookup (tenant, key) = none ∧ s.reserveTenantQuota tenant len = .ok reserved ∧
      0 < len ∧ 0 < replicaCount ∧
      indexes = SegmentAllocator.segmentIndexes s.allocator.segments len replicaCount ∧
      indexes.length = replicaCount ∧
      SegmentAllocator.Allocated s.allocator.segments after len indexes allocations ∧
      s.putStart tenant key len replicaCount = (.ok (allocations.map replicaOf), { reserved with
        allocator := ⟨after⟩
        objects := s.objects.insert (tenant, key)
          ⟨tenant, key, len, .reserving, allocations.map replicaOf, false, none⟩ }) := by
  cases hl : s.objects.lookup (tenant, key) with
  | some object => exact .inl ⟨.conflict "object already exists", by simp only [putStart, hl]⟩
  | none =>
    cases hr : s.reserveTenantQuota tenant len with
    | error err => exact .inl ⟨err, by simp only [putStart, hl, hr]⟩
    | ok reserved =>
      have frame := reserveTenantQuota_frame hr
      have same : reserved.allocator = s.allocator := by rw [frame]
      have objects : reserved.objects = s.objects := by rw [frame]
      rcases SegmentAllocator.allocate_cases s.allocator len replicaCount with
        ⟨err, he, _⟩ | ⟨hlen, hcount, allocations, after, indexes, he, hi, hlength, spec⟩
      · refine .inl ⟨err, ?_⟩
        simp only [putStart, hl, hr, same, he]
        rw [← same]
        exact congrArg (Prod.mk _) (release_reserved hr)
      · refine .inr ⟨reserved, allocations, after, indexes, rfl, rfl, hlen, hcount, hi, hlength, spec, ?_⟩
        simp only [putStart, hl, hr, same, he, objects]

theorem putEnd_cases (s : MasterState) (tenant : TenantId) (key : CacheKey) :
    (∃ err, s.putEnd tenant key = (.error err, s)) ∨
    ∃ object, s.objects.lookup (tenant, key) = some object ∧
      (object.status = .reserving ∨ object.status = .writing) ∧
      s.putEnd tenant key = (.ok (), { s with
        objects := s.objects.insert (tenant, key) { object with status := .committed } }) := by
  cases hl : s.objects.lookup (tenant, key) with
  | none => exact .inl ⟨.notFound, by simp only [putEnd, hl]⟩
  | some object =>
    cases hs : object.status with
    | reserving => exact .inr ⟨object, rfl, .inl hs, by simp only [putEnd, hl, hs]⟩
    | writing => exact .inr ⟨object, rfl, .inr hs, by simp only [putEnd, hl, hs]⟩
    | committed => exact .inl ⟨.conflict "object already committed", by simp only [putEnd, hl, hs]⟩
    | revoked => exact .inl ⟨.conflict "object is not writable", by simp only [putEnd, hl, hs]⟩
    | evicted => exact .inl ⟨.conflict "object is not writable", by simp only [putEnd, hl, hs]⟩

theorem putRevoke_cases (s : MasterState) (tenant : TenantId) (key : CacheKey) :
    (s.objects.lookup (tenant, key) = none ∧ s.putRevoke tenant key = (.error .notFound, s)) ∨
    ∃ object, s.objects.lookup (tenant, key) = some object ∧
      s.putRevoke tenant key = (.ok (), s.retire (tenant, key) object .revoked) := by
  cases hl : s.objects.lookup (tenant, key) with
  | none => exact .inl ⟨rfl, by simp only [putRevoke, hl]⟩
  | some object => exact .inr ⟨object, rfl, by simp only [putRevoke, hl]⟩

theorem remove_cases (s : MasterState) (tenant : TenantId) (key : CacheKey) :
    (s.objects.lookup (tenant, key) = none ∧ s.remove tenant key = (.error .notFound, s)) ∨
    ∃ object, s.objects.lookup (tenant, key) = some object ∧ (s.remove tenant key).1 = .ok () ∧
      ∃ leases, (s.remove tenant key).2 =
        { ({ s with objects := s.objects.erase (tenant, key) } : MasterState).releaseTenantQuota tenant
            (quotaReservedBytes object) with leases := leases } := by
  cases hl : s.objects.lookup (tenant, key) with
  | none => exact .inl ⟨rfl, by simp only [remove, hl]⟩
  | some object =>
    refine .inr ⟨object, rfl, by simp only [remove, hl], (s.remove tenant key).2.leases, ?_⟩
    simp only [remove, hl]

/-- Reading a replica list moves leases only, and succeeds on committed objects only. -/
theorem getReplicaList_cases (s : MasterState) (tenant : TenantId) (key : CacheKey) (nowMs : Nat) :
    s.getReplicaList tenant key nowMs = (.error .notFound, s) ∨
    ∃ object lease leases sequence, s.objects.lookup (tenant, key) = some object ∧
      object.status = .committed ∧ s.getReplicaList tenant key nowMs =
        (.ok ⟨object.replicas, lease⟩, { s with nextLeaseSequence := sequence, leases := leases }) := by
  cases hl : s.objects.lookup (tenant, key) with
  | none => exact .inl (by simp only [getReplicaList, hl])
  | some object =>
    by_cases hs : object.status = .committed
    · exact .inr ⟨object, _, _, _, rfl, hs, by simp only [getReplicaList, hl, hs]; rfl⟩
    · exact .inl (by simp only [getReplicaList, hl]; exact if_pos hs)

theorem getReplicaList_replicas {s : MasterState} {tenant : TenantId} {key : CacheKey} {nowMs : Nat}
    {list : ReplicaList} (h : (s.getReplicaList tenant key nowMs).1 = .ok list) :
    ∃ object, s.objects.lookup (tenant, key) = some object ∧ object.status = .committed ∧
      list.replicas = object.replicas := by
  rcases getReplicaList_cases s tenant key nowMs with he | ⟨object, lease, _, _, found, committed, he⟩
  · rw [he] at h
    cases h
  · rw [he] at h
    cases h
    exact ⟨object, found, committed, rfl⟩

theorem evictCandidateKeys_changes (tenant : TenantId) (target : Nat) (keys : List CacheKey)
    (reclaimed : Nat) (s : MasterState) :
    Changes s (evictCandidateKeys tenant target keys reclaimed s).2 := by
  induction keys generalizing reclaimed s with
  | nil => exact .refl
  | cons key rest ih =>
    unfold evictCandidateKeys
    split
    · exact .refl
    · split
      · exact ih reclaimed s
      · rename_i object hl
        exact ((Relation.ReflTransGen.single (.retire hl rfl)).tail (.bookkeeping _ _ _ _)).trans (ih _ _)

theorem evictForTenant_changes (s : MasterState) (tenant : TenantId) (target nowMs : Nat)
    (order : List (Entry ObjectKey CacheObjectMeta)) :
    Changes s (s.evictForTenant tenant target nowMs order).2 := by
  have first := evictCandidateKeys_changes tenant target (s.candidates tenant nowMs .normal order) 0 s
  simp only [evictForTenant]
  split
  · exact first.trans (evictCandidateKeys_changes tenant _ _ 0 _)
  · exact first

/-- Every operation sets a quota, mounts a segment or is a sequence of changes. -/
theorem apply_cases (s : MasterState) (op : MasterOp) :
    (∃ tenantId dramBytes ssdBytes, op = .setTenantQuota tenantId dramBytes ssdBytes) ∨
    (∃ nodeId len, op = .mountSegment nodeId len) ∨ Changes s (op.apply s) := by
  cases op with
  | setTenantQuota tenantId dramBytes ssdBytes => exact .inl ⟨_, _, _, rfl⟩
  | mountSegment nodeId len => exact .inr (.inl ⟨_, _, rfl⟩)
  | putStart tenant key len replicaCount =>
    right; right
    rcases putStart_cases s tenant key len replicaCount with
      ⟨err, he⟩ | ⟨reserved, allocations, after, indexes, hl, hr, hlen, hcount, _, hi, spec, he⟩
    · simpa only [MasterOp.apply, he] using .refl
    · have chosen : indexes ≠ [] := by
        rintro rfl
        simp only [List.length_nil] at hi
        omega
      rw [MasterOp.apply, he]
      exact .single (.reserve hl hr hlen chosen spec)
  | putEnd tenant key =>
    right; right
    rcases putEnd_cases s tenant key with ⟨err, he⟩ | ⟨object, hl, hs, he⟩
    · simpa only [MasterOp.apply, he] using .refl
    · simpa only [MasterOp.apply, he] using Relation.ReflTransGen.single (Change.commit hl hs)
  | putRevoke tenant key =>
    right; right
    rcases putRevoke_cases s tenant key with ⟨_, he⟩ | ⟨object, hl, he⟩
    · simpa only [MasterOp.apply, he] using .refl
    · simpa only [MasterOp.apply, he] using Relation.ReflTransGen.single (Change.retire hl rfl)
  | getReplicaList tenant key nowMs =>
    right; right
    rcases getReplicaList_cases s tenant key nowMs with he | ⟨object, lease, leases, sequence, _, _, he⟩
    · simpa only [MasterOp.apply, he] using .refl
    · simpa only [MasterOp.apply, he] using
        Relation.ReflTransGen.single (Change.bookkeeping s leases sequence s.evictionsTotal)
  | remove tenant key =>
    right; right
    rcases remove_cases s tenant key with ⟨_, he⟩ | ⟨object, hl, _, leases, he⟩
    · simpa only [MasterOp.apply, he] using .refl
    · rw [MasterOp.apply, he]
      exact (Relation.ReflTransGen.single (.remove hl)).tail (.bookkeeping _ leases _ _)
  | evictForTenant tenant target nowMs order => exact .inr (.inr (evictForTenant_changes _ _ _ _ _))

end MasterState
end Mooncache
