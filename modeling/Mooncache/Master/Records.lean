import Mooncache.Fingerprint.Documents
import Mooncache.Master.Handlers

/-! The JSON forms that `serde` derives for the types the master saves and answers with. -/
namespace Mooncache
open Value (ReadsBack Lists field optionalField asStr asBool asUnsigned asArray ofOption)

namespace ObjectStatus

def name : ObjectStatus → String
  | reserving => "Reserving"
  | writing => "Writing"
  | committed => "Committed"
  | revoked => "Revoked"
  | evicted => "Evicted"

/-- A variant without fields is its name. -/
def toValue (status : ObjectStatus) : Value := .string status.name

def fromValue (value : Value) : Option ObjectStatus :=
  match value.asStr with
  | some "Reserving" => some reserving
  | some "Writing" => some writing
  | some "Committed" => some committed
  | some "Revoked" => some revoked
  | some "Evicted" => some evicted
  | _ => none

theorem readsBack (status : ObjectStatus) : ReadsBack toValue fromValue status := by
  refine ⟨rfl, fun _ same => ?_⟩
  rw [same.of_string, fromValue]
  cases status <;> rfl

end ObjectStatus

/-- A newtype is the text it wraps; reading one checks nothing. -/
def TenantId.toValue (tenant : TenantId) : Value := .string tenant.value

def TenantId.fromValue (value : Value) : Option TenantId := value.asStr.map TenantId.mk

theorem TenantId.readsBack (tenant : TenantId) : ReadsBack toValue fromValue tenant :=
  ⟨rfl, fun _ same => by rw [fromValue, same.of_string]; rfl⟩

def CacheKey.toValue (key : CacheKey) : Value := .string key.value

def CacheKey.fromValue (value : Value) : Option CacheKey := value.asStr.map CacheKey.mk

theorem CacheKey.readsBack (key : CacheKey) : ReadsBack toValue fromValue key :=
  ⟨rfl, fun _ same => by rw [fromValue, same.of_string]; rfl⟩

def ReplicaDescriptor.fromValue (value : Value) : Option ReplicaDescriptor := do
  let nodeId ← value.field "node_id" asStr
  let offset ← value.field "offset" asUnsigned
  let len ← value.field "len" asUnsigned
  return ⟨nodeId, offset, len⟩

theorem ReplicaDescriptor.readsBack (replica : ReplicaDescriptor) : ReadsBack toValue fromValue replica := by
  refine ⟨rfl, fun {value} formed same => ?_⟩
  have members : Lists value _ := ⟨formed, same, by simp⟩
  rw [fromValue, members.field "node_id" (.string _) rfl, members.field "offset" (.unsigned _) rfl,
    members.field "len" (.unsigned _) rfl]
  rfl

def Lease.toValue (lease : Lease) : Value :=
  .object [("lease_id", .string lease.leaseId), ("expires_at_ms", .number (.posInt lease.expiresAtMs))]

def Lease.fromValue (value : Value) : Option Lease := do
  let leaseId ← value.field "lease_id" asStr
  let expiresAtMs ← value.field "expires_at_ms" asUnsigned
  return ⟨leaseId, expiresAtMs⟩

theorem Lease.readsBack (lease : Lease) : ReadsBack toValue fromValue lease := by
  refine ⟨rfl, fun {value} formed same => ?_⟩
  have members : Lists value _ := ⟨formed, same, by simp⟩
  rw [fromValue, members.field "lease_id" (.string _) rfl, members.field "expires_at_ms" (.unsigned _) rfl]
  rfl

def ReplicaList.fromValue (value : Value) : Option ReplicaList := do
  let replicas ← value.field "replicas" (asArray ReplicaDescriptor.fromValue)
  let lease ← value.field "lease" Lease.fromValue
  return ⟨replicas, lease⟩

theorem replicas_readBack (replicas : List ReplicaDescriptor) :
    ReadsBack (fun replicas => .array (replicas.map ReplicaDescriptor.toValue)) (asArray ReplicaDescriptor.fromValue)
      replicas := .array fun replica _ => replica.readsBack

theorem ReplicaList.readsBack (list : ReplicaList) : ReadsBack toValue fromValue list := by
  have replicas := replicas_readBack list.replicas
  have lease := list.lease.readsBack
  refine ⟨?_, fun {value} formed same => ?_⟩
  · have formedReplicas := replicas.formed
    simp only [Value.wellFormed] at formedReplicas
    simp [toValue, Value.wellFormed, Value.wellFormedMembers, formedReplicas]
  · have members : Lists value _ := ⟨formed, same, by simp⟩
    rw [fromValue, members.field "replicas" replicas rfl, members.field "lease" lease rfl]
    rfl

def CacheObjectMeta.toValue (object : CacheObjectMeta) : Value :=
  .object [("tenant_id", object.tenantId.toValue), ("cache_key", object.cacheKey.toValue),
    ("len", .number (.posInt object.len)), ("status", object.status.toValue),
    ("replicas", .array (object.replicas.map ReplicaDescriptor.toValue)), ("hard_pinned", .bool object.hardPinned),
    ("soft_pinned_until_ms", ofOption (fun n => .number (.posInt n)) object.softPinnedUntilMs)]

def CacheObjectMeta.fromValue (value : Value) : Option CacheObjectMeta := do
  let tenantId ← value.field "tenant_id" TenantId.fromValue
  let cacheKey ← value.field "cache_key" CacheKey.fromValue
  let len ← value.field "len" asUnsigned
  let status ← value.field "status" ObjectStatus.fromValue
  let replicas ← value.field "replicas" (asArray ReplicaDescriptor.fromValue)
  let hardPinned ← value.field "hard_pinned" asBool
  let softPinnedUntilMs ← value.optionalField "soft_pinned_until_ms" asUnsigned
  return ⟨tenantId, cacheKey, len, status, replicas, hardPinned, softPinnedUntilMs⟩

theorem CacheObjectMeta.readsBack (object : CacheObjectMeta) : ReadsBack toValue fromValue object := by
  have replicas := replicas_readBack object.replicas
  refine ⟨?_, fun {value} formed same => ?_⟩
  · have formedReplicas := replicas.formed
    simp only [Value.wellFormed] at formedReplicas
    obtain ⟨tenantId, cacheKey, len, status, replicas, hardPinned, _ | softPinnedUntilMs⟩ := object <;>
      simp_all [toValue, Value.wellFormed, Value.wellFormedMembers, TenantId.toValue, CacheKey.toValue,
        ObjectStatus.toValue, ofOption]
  · have members : Lists value _ := ⟨formed, same, by simp⟩
    rw [fromValue, members.field "tenant_id" object.tenantId.readsBack rfl,
      members.field "cache_key" object.cacheKey.readsBack rfl, members.field "len" (.unsigned _) rfl,
      members.field "status" object.status.readsBack rfl, members.field "replicas" replicas rfl,
      members.field "hard_pinned" (.bool _) rfl,
      members.optionalField "soft_pinned_until_ms" (fun n _ => ⟨.unsigned n, nofun⟩) rfl]
    rfl

def TenantQuota.toValue (quota : TenantQuota) : Value :=
  .object [("dram_bytes", .number (.posInt quota.dramBytes)), ("ssd_bytes", .number (.posInt quota.ssdBytes)),
    ("used_dram_bytes", .number (.posInt quota.usedDramBytes)), ("used_ssd_bytes", .number (.posInt quota.usedSsdBytes))]

def TenantQuota.fromValue (value : Value) : Option TenantQuota := do
  let dramBytes ← value.field "dram_bytes" asUnsigned
  let ssdBytes ← value.field "ssd_bytes" asUnsigned
  let usedDramBytes ← value.field "used_dram_bytes" asUnsigned
  let usedSsdBytes ← value.field "used_ssd_bytes" asUnsigned
  return ⟨dramBytes, ssdBytes, usedDramBytes, usedSsdBytes⟩

theorem TenantQuota.readsBack (quota : TenantQuota) : ReadsBack toValue fromValue quota := by
  refine ⟨rfl, fun {value} formed same => ?_⟩
  have members : Lists value _ := ⟨formed, same, by simp⟩
  rw [fromValue, members.field "dram_bytes" (.unsigned _) rfl, members.field "ssd_bytes" (.unsigned _) rfl,
    members.field "used_dram_bytes" (.unsigned _) rfl, members.field "used_ssd_bytes" (.unsigned _) rfl]
  rfl

/-- A pair is an array of two. -/
def quotaToValue (entry : TenantId × TenantQuota) : Value := .array [entry.1.toValue, entry.2.toValue]

def quotaFromValue : Value → Option (TenantId × TenantQuota)
  | .array [first, second] => do return (← TenantId.fromValue first, ← TenantQuota.fromValue second)
  | _ => none

theorem quota_readsBack (entry : TenantId × TenantQuota) : ReadsBack quotaToValue quotaFromValue entry := by
  refine ⟨rfl, fun {value} formed same => ?_⟩
  obtain ⟨items, rfl, sameItems⟩ := same.of_array
  obtain _ | ⟨first, _ | ⟨second, _ | _⟩⟩ := items
  · exact sameItems.elim
  · exact sameItems.2.elim
  · simp only [Value.wellFormed, Value.wellFormedItems, Bool.and_true, Bool.and_eq_true] at formed
    rw [quotaFromValue, (TenantId.readsBack _).reads formed.1 sameItems.1,
      (TenantQuota.readsBack _).reads formed.2 sameItems.2.1]
    rfl
  · exact sameItems.2.2.elim

namespace MasterMetadataSnapshot

def toValue (snapshot : MasterMetadataSnapshot) : Value :=
  .object [("objects", .array (snapshot.objects.map CacheObjectMeta.toValue)),
    ("quotas", .array (snapshot.quotas.map quotaToValue)),
    ("evictions_total", .number (.posInt snapshot.evictionsTotal))]

def fromValue (value : Value) : Option MasterMetadataSnapshot := do
  let objects ← value.field "objects" (asArray CacheObjectMeta.fromValue)
  let quotas ← value.field "quotas" (asArray quotaFromValue)
  let evictionsTotal ← value.field "evictions_total" asUnsigned
  return ⟨objects, quotas, evictionsTotal⟩

theorem readsBack (snapshot : MasterMetadataSnapshot) : ReadsBack toValue fromValue snapshot := by
  have objects : ReadsBack (fun objects => .array (objects.map CacheObjectMeta.toValue))
      (asArray CacheObjectMeta.fromValue) snapshot.objects := .array fun object _ => object.readsBack
  have quotas : ReadsBack (fun quotas => .array (quotas.map quotaToValue)) (asArray quotaFromValue) snapshot.quotas :=
    .array fun entry _ => quota_readsBack entry
  refine ⟨?_, fun {value} formed same => ?_⟩
  · have formedObjects := objects.formed
    have formedQuotas := quotas.formed
    simp only [Value.wellFormed] at formedObjects formedQuotas
    simp [toValue, Value.wellFormed, Value.wellFormedMembers, formedObjects, formedQuotas]
  · have members : Lists value _ := ⟨formed, same, by simp⟩
    rw [fromValue, members.field "objects" objects rfl, members.field "quotas" quotas rfl,
      members.field "evictions_total" (.unsigned _) rfl]
    rfl

end MasterMetadataSnapshot
end Mooncache
