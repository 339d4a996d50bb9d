import Mooncache.Common.Ids
import Mooncache.Foundation.Table

/-! Object metadata, read leases and the eviction filter. -/
namespace Mooncache

inductive ObjectStatus where
  | reserving
  | writing
  | committed
  | revoked
  | evicted
  deriving DecidableEq, Repr

structure ReplicaDescriptor where
  nodeId : String
  offset : Nat
  len : Nat
  deriving DecidableEq, Repr

structure CacheObjectMeta where
  tenantId : TenantId
  cacheKey : CacheKey
  len : Nat
  status : ObjectStatus
  replicas : List ReplicaDescriptor
  hardPinned : Bool
  softPinnedUntilMs : Option Nat
  deriving DecidableEq, Repr

abbrev ObjectKey := TenantId × CacheKey

def defaultLeaseTtlMs : Nat := 5000

structure Lease where
  leaseId : String
  expiresAtMs : Nat
  deriving DecidableEq, Repr

/-- `Lease::new_at`; the clock reading is an argument. -/
def Lease.newAt (sequence nowMs : Nat) : Lease :=
  ⟨s!"lease-{sequence}", saturatingAdd nowMs defaultLeaseTtlMs⟩

structure ReplicaList where
  replicas : List ReplicaDescriptor
  lease : Lease
  deriving DecidableEq, Repr

/-- `LeaseTracker::has_active_lease`. -/
def hasActiveLease (leases : Table ObjectKey Lease) (key : ObjectKey) (nowMs : Nat) : Bool :=
  match leases.lookup key with
  | some lease => lease.expiresAtMs > nowMs
  | none => false

inductive EvictionCandidateClass where
  | normal
  | softPinned
  deriving DecidableEq, Repr

def candidateClass (object : CacheObjectMeta) (activeLease : Bool) (nowMs : Nat) :
    Option EvictionCandidateClass :=
  if object.status ≠ .committed ∨ activeLease ∨ object.hardPinned then none
  else match object.softPinnedUntilMs with
    | some expiresAtMs => if expiresAtMs > nowMs then some .softPinned else some .normal
    | none => some .normal

/-- The statuses that hold a reservation. -/
def ObjectStatus.live : ObjectStatus → Bool
  | .reserving | .writing | .committed => true
  | .revoked | .evicted => false

def quotaReservedBytes (object : CacheObjectMeta) : Nat :=
  if object.status.live then object.len else 0

theorem quotaReservedBytes_dead {object : CacheObjectMeta} {status : ObjectStatus}
    (h : status.live = false) : quotaReservedBytes { object with status := status } = 0 := by
  simp [quotaReservedBytes, h]

theorem candidateClass_committed {object : CacheObjectMeta} {activeLease : Bool} {nowMs : Nat}
    {cls : EvictionCandidateClass} (h : candidateClass object activeLease nowMs = some cls) :
    object.status = .committed ∧ activeLease = false ∧ object.hardPinned = false := by
  unfold candidateClass at h
  split at h
  · cases h
  · rename_i hn
    simp only [not_or, not_not, Bool.not_eq_true] at hn
    exact hn

end Mooncache
