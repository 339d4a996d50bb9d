import Mooncache.Master.Allocator
import Mooncache.Master.Object
import Mooncache.Master.Quota

/-! The master's in-memory state and its operations. Every operation returns its
result beside the state it leaves; a clock reading is an argument. -/
namespace Mooncache

structure MasterMetadataSnapshot where
  objects : List CacheObjectMeta
  quotas : List (TenantId × TenantQuota)
  evictionsTotal : Nat

structure MasterState where
  objects : Table ObjectKey CacheObjectMeta
  quotas : Table TenantId TenantQuota
  leases : Table ObjectKey Lease
  allocator : SegmentAllocator
  nextLeaseSequence : Nat
  evictionsTotal : Nat

namespace MasterState

/-- The default state. -/
def new : MasterState := ⟨∅, ∅, ∅, ⟨[]⟩, 0, 0⟩

/-- The snapshot whose two lists are the given enumerations of the hash maps. -/
def metadataSnapshot (s : MasterState) (objects : List (Entry ObjectKey CacheObjectMeta))
    (quotas : List (Entry TenantId TenantQuota)) : MasterMetadataSnapshot where
  objects := objects.map (·.2)
  quotas := quotas.map fun entry => (entry.1, entry.2)
  evictionsTotal := s.evictionsTotal

def fromMetadataSnapshot (snapshot : MasterMetadataSnapshot) : MasterState where
  objects := Table.collect (snapshot.objects.map fun object => ((object.tenantId, object.cacheKey), object))
  quotas := Table.collect snapshot.quotas
  leases := ∅
  allocator := ⟨[]⟩
  nextLeaseSequence := 0
  evictionsTotal := snapshot.evictionsTotal

def mountSegment (s : MasterState) (nodeId : String) (len : Nat) : MasterState :=
  { s with allocator := s.allocator.mountSegment nodeId len }

/-- Bytes an object counts against a tenant: the source filters on the tenant
and adds `quota_reserved_bytes`. -/
def tenantBytes (tenant : TenantId) (object : CacheObjectMeta) : Nat :=
  if object.tenantId = tenant then quotaReservedBytes object else 0

def setTenantQuota (s : MasterState) (tenantId : String) (dramBytes ssdBytes : Nat) :
    CacheResult Unit × MasterState :=
  match TenantId.parse tenantId with
  | .error err => (.error err, s)
  | .ok tenant =>
    let usedDramBytes := Table.saturatingTotal (fun _ object => tenantBytes tenant object) s.objects
    (.ok (), { s with quotas := s.quotas.insert tenant (.withUsage dramBytes ssdBytes usedDramBytes) })

def reserveTenantQuota (s : MasterState) (tenant : TenantId) (bytes : Nat) : CacheResult MasterState :=
  match s.quotas.lookup tenant with
  | none => .ok s
  | some quota =>
    match quota.reserveDram bytes with
    | .error err => .error err
    | .ok quota => .ok { s with quotas := s.quotas.insert tenant quota }

def releaseTenantQuota (s : MasterState) (tenant : TenantId) (bytes : Nat) : MasterState :=
  match s.quotas.lookup tenant with
  | none => s
  | some quota => { s with quotas := s.quotas.insert tenant (quota.releaseDram bytes) }

def replicaOf (allocation : SegmentAllocation) : ReplicaDescriptor :=
  ⟨allocation.nodeId, allocation.offset, allocation.len⟩

def putStart (s : MasterState) (tenant : TenantId) (key : CacheKey) (len replicaCount : Nat) :
    CacheResult (List ReplicaDescriptor) × MasterState :=
  match s.objects.lookup (tenant, key) with
  | some _ => (.error (.conflict "object already exists"), s)
  | none =>
    match s.reserveTenantQuota tenant len with
    | .error err => (.error err, s)
    | .ok reserved =>
      match reserved.allocator.allocate len replicaCount with
      | (.error err, allocator) => (.error err, ({ reserved with allocator } : MasterState).releaseTenantQuota tenant len)
      | (.ok allocations, allocator) =>
        let replicas := allocations.map replicaOf
        (.ok replicas, { reserved with
          allocator
          objects := reserved.objects.insert (tenant, key)
            ⟨tenant, key, len, .reserving, replicas, false, none⟩ })

def putEnd (s : MasterState) (tenant : TenantId) (key : CacheKey) : CacheResult Unit × MasterState :=
  match s.objects.lookup (tenant, key) with
  | none => (.error .notFound, s)
  | some object =>
    match object.status with
    | .reserving | .writing =>
      (.ok (), { s with objects := s.objects.insert (tenant, key) { object with status := .committed } })
    | .committed => (.error (.conflict "object already committed"), s)
    | .revoked | .evicted => (.error (.conflict "object is not writable"), s)

/-- Give an object a status that holds no reservation, release what it held and
drop its lease: the common part of revoking and evicting. -/
def retire (s : MasterState) (key : ObjectKey) (object : CacheObjectMeta) (status : ObjectStatus) :
    MasterState :=
  let marked := { s with objects := s.objects.insert key { object with status := status } }
  let released := marked.releaseTenantQuota key.1 (quotaReservedBytes object)
  { released with leases := released.leases.erase key }

def putRevoke (s : MasterState) (tenant : TenantId) (key : CacheKey) : CacheResult Unit × MasterState :=
  match s.objects.lookup (tenant, key) with
  | none => (.error .notFound, s)
  | some object => (.ok (), s.retire (tenant, key) object .revoked)

def getReplicaList (s : MasterState) (tenant : TenantId) (key : CacheKey) (nowMs : Nat) :
    CacheResult ReplicaList × MasterState :=
  match s.objects.lookup (tenant, key) with
  | none => (.error .notFound, s)
  | some object =>
    if object.status ≠ .committed then (.error .notFound, s)
    else
      let sequence := saturatingAdd s.nextLeaseSequence 1
      let lease := Lease.newAt sequence nowMs
      (.ok ⟨object.replicas, lease⟩,
        { s with nextLeaseSequence := sequence, leases := s.leases.insert (tenant, key) lease })

def remove (s : MasterState) (tenant : TenantId) (key : CacheKey) : CacheResult Unit × MasterState :=
  match s.objects.lookup (tenant, key) with
  | none => (.error .notFound, s)
  | some object =>
    let erased := { s with objects := s.objects.erase (tenant, key) }
    let released := erased.releaseTenantQuota tenant (quotaReservedBytes object)
    (.ok (), { released with leases := released.leases.erase (tenant, key) })

/-- One candidate of the eviction loop. -/
def evictObject (s : MasterState) (key : ObjectKey) (object : CacheObjectMeta) : MasterState :=
  let retired := s.retire key object .evicted
  { retired with evictionsTotal := saturatingAdd retired.evictionsTotal 1 }

/-- The loop of `evict_candidate_keys`, with the bytes reclaimed so far. -/
def evictCandidateKeys (tenant : TenantId) (target : Nat) :
    List CacheKey → Nat → MasterState → Nat × MasterState
  | [], reclaimed, s => (reclaimed, s)
  | key :: rest, reclaimed, s =>
    if reclaimed ≥ target then (reclaimed, s)
    else match s.objects.lookup (tenant, key) with
      | none => evictCandidateKeys tenant target rest reclaimed s
      | some object =>
        evictCandidateKeys tenant target rest (saturatingAdd reclaimed (quotaReservedBytes object))
          (s.evictObject (tenant, key) object)

/-- The tenant's keys of one candidate class, in the order the map is enumerated. -/
def candidates (s : MasterState) (tenant : TenantId) (nowMs : Nat) (cls : EvictionCandidateClass)
    (order : List (Entry ObjectKey CacheObjectMeta)) : List CacheKey :=
  order.filterMap fun entry =>
    if entry.1.1 = tenant ∧
        candidateClass entry.2 (hasActiveLease s.leases entry.1 nowMs) nowMs = some cls then
      some entry.1.2
    else none

/-- Normal candidates first, soft-pinned ones only while the target is not reached.
`order` is the enumeration of the object map that the call happens to see. -/
def evictForTenant (s : MasterState) (tenant : TenantId) (target nowMs : Nat)
    (order : List (Entry ObjectKey CacheObjectMeta)) : CacheResult Nat × MasterState :=
  let (reclaimed, after) := evictCandidateKeys tenant target (s.candidates tenant nowMs .normal order) 0 s
  if reclaimed < target then
    let (more, final) := evictCandidateKeys tenant (target - reclaimed)
      (s.candidates tenant nowMs .softPinned order) 0 after
    (.ok (saturatingAdd reclaimed more), final)
  else (.ok reclaimed, after)

end MasterState
end Mooncache
