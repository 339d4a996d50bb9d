import Mooncache.Gateway.CacheFlow

/-! A gateway's accesses to the cache, and what has happened before each call they make. -/
namespace Mooncache

/-- Storing an object, or looking one up. -/
inductive CacheClient where
  | writer (tenantId : TenantId) (cacheKey : CacheKey) (bytes : List UInt8)
  | reader (tenantId : TenantId) (cacheKey : CacheKey)

namespace CacheClient

def program : CacheClient → Flow Unit
  | writer tenantId cacheKey bytes => do discard <| Flow.writeCachedBytes tenantId cacheKey bytes
  | reader tenantId cacheKey => do discard <| Flow.readCachedBytes tenantId cacheKey

/-- The first call was a reservation, and these are its replicas. -/
def Reserved (tenantId : TenantId) (cacheKey : CacheKey) (bytes : List UInt8) (past : List GatewayEvent)
    (replicas : List ReplicaDescriptor) : Prop :=
  past.head? = some ⟨.putStart tenantId cacheKey bytes.length replicaCount, .ok replicas⟩

/-- A replica was written. -/
def Written (tenantId : TenantId) (cacheKey : CacheKey) (bytes : List UInt8) (past : List GatewayEvent)
    (replica : ReplicaDescriptor) : Prop :=
  ⟨.writePreallocatedChunk replica.nodeId tenantId cacheKey (.fromReplica replica) bytes, .ok ()⟩ ∈ past

/-- The calls of a client, each with what it has done before. -/
def Calls : CacheClient → List GatewayEvent → Call → Prop
  | writer tenantId cacheKey bytes, past, .putStart tenantId' cacheKey' len count =>
    past = [] ∧ tenantId' = tenantId ∧ cacheKey' = cacheKey ∧ len = bytes.length ∧ count = replicaCount
  | writer tenantId cacheKey bytes, past, .writePreallocatedChunk nodeId tenantId' cacheKey' handle written =>
    tenantId' = tenantId ∧ cacheKey' = cacheKey ∧ written = bytes ∧
      ∃ replicas, Reserved tenantId cacheKey bytes past replicas ∧
        ∃ replica ∈ replicas, nodeId = replica.nodeId ∧ handle = .fromReplica replica
  | writer tenantId cacheKey bytes, past, .putEnd tenantId' cacheKey' =>
    tenantId' = tenantId ∧ cacheKey' = cacheKey ∧
      ∃ replicas, Reserved tenantId cacheKey bytes past replicas ∧
        ∀ replica ∈ replicas, Written tenantId cacheKey bytes past replica
  | writer tenantId cacheKey bytes, past, .putRevoke tenantId' cacheKey' =>
    tenantId' = tenantId ∧ cacheKey' = cacheKey ∧ ∃ replicas, Reserved tenantId cacheKey bytes past replicas
  | reader tenantId cacheKey, _, .getReplicaList tenantId' cacheKey' =>
    tenantId' = tenantId ∧ cacheKey' = cacheKey
  | reader tenantId cacheKey, past, .readChunk tenantId' cacheKey' handle =>
    tenantId' = tenantId ∧ cacheKey' = cacheKey ∧
      ∃ replicaList, ⟨.getReplicaList tenantId cacheKey, .ok replicaList⟩ ∈ past ∧
        ∃ replica, replicaList.replicas.head? = some replica ∧ handle = .fromReplica replica
  | _, _, _ => False

section
variable {tenantId : TenantId} {cacheKey : CacheKey} {bytes : List UInt8} {past : List GatewayEvent}
  {replicas : List ReplicaDescriptor}

theorem Reserved.snoc (h : Reserved tenantId cacheKey bytes past replicas) (event : GatewayEvent) :
    Reserved tenantId cacheKey bytes (past ++ [event]) replicas := by
  rw [Reserved, List.head?_append, h, Option.some_or]

theorem Reserved.of_snoc {event : GatewayEvent}
    (h : Reserved tenantId cacheKey bytes (past ++ [event]) replicas) :
    Reserved tenantId cacheKey bytes past replicas ∨
      past = [] ∧ event = ⟨.putStart tenantId cacheKey bytes.length replicaCount, .ok replicas⟩ := by
  cases past with
  | nil => exact .inr ⟨rfl, Option.some.inj h⟩
  | cons first rest => exact .inl h

theorem Reserved.unique {others : List ReplicaDescriptor} (h : Reserved tenantId cacheKey bytes past replicas)
    (other : Reserved tenantId cacheKey bytes past others) : replicas = others := by
  have same := Option.some.inj (h.symm.trans other)
  simpa using same

theorem Written.snoc {replica : ReplicaDescriptor} (h : Written tenantId cacheKey bytes past replica)
    (event : GatewayEvent) : Written tenantId cacheKey bytes (past ++ [event]) replica :=
  List.mem_append_left _ h

/-- The loop over the replicas, with those still to be written. -/
private theorem writeReservedReplicas_meets (rest : List ReplicaDescriptor)
    (reserved : Reserved tenantId cacheKey bytes past replicas) (known : ∀ replica ∈ rest, replica ∈ replicas)
    (written : ∀ replica ∈ replicas, replica ∈ rest ∨ Written tenantId cacheKey bytes past replica) :
    (Flow.writeReservedReplicas tenantId cacheKey bytes rest).Meets (writer tenantId cacheKey bytes).Calls
      (fun past result => Reserved tenantId cacheKey bytes past replicas ∧
        (result = .ok () → ∀ replica ∈ replicas, Written tenantId cacheKey bytes past replica)) past := by
  induction rest generalizing past with
  | nil => exact ⟨reserved, fun _ replica hr => (written replica hr).resolve_left (by simp)⟩
  | cons replica rest ih =>
    refine ⟨⟨rfl, rfl, rfl, replicas, reserved, replica, known replica (by simp), rfl, rfl⟩, fun reply => ?_⟩
    cases reply with
    | error err => exact ⟨reserved.snoc _, by simp⟩
    | ok done =>
      refine ih (reserved.snoc _) (fun other ho => known other (by simp [ho])) fun other ho => ?_
      rcases written other ho with hr | done
      · rcases List.mem_cons.mp hr with rfl | hr
        · exact .inr (List.mem_append_right _ (List.mem_singleton_self _))
        · exact .inl hr
      · exact .inr (done.snoc _)

private theorem revoke_meets (reserved : Reserved tenantId cacheKey bytes past replicas) (err : GatewayError) :
    (Flow.revokeReservationAfterWriteFailure tenantId cacheKey err).Meets (writer tenantId cacheKey bytes).Calls
      (fun _ _ => True) past := by
  refine ⟨⟨rfl, rfl, replicas, reserved⟩, fun reply => ?_⟩
  cases reply <;> trivial

theorem writeCachedBytes_meets (tenantId : TenantId) (cacheKey : CacheKey) (bytes : List UInt8) :
    (Flow.writeCachedBytes tenantId cacheKey bytes).Meets (writer tenantId cacheKey bytes).Calls
      (fun _ _ => True) [] := by
  refine ⟨⟨rfl, rfl, rfl, rfl, rfl⟩, fun reply => ?_⟩
  cases reply with
  | error err => trivial
  | ok replicas =>
    have reserved : Reserved tenantId cacheKey bytes
        [⟨.putStart tenantId cacheKey bytes.length replicaCount, .ok replicas⟩] replicas := rfl
    refine (writeReservedReplicas_meets replicas reserved (fun _ h => h) fun _ h => .inl h).bind ?_
    rintro past (err | done) ⟨reserved, written⟩
    · exact (revoke_meets reserved err).bind fun _ _ _ => trivial
    · refine ⟨⟨rfl, rfl, replicas, reserved, written rfl⟩, fun reply => ?_⟩
      cases reply with
      | error err => exact (revoke_meets (reserved.snoc _) err).bind fun _ _ _ => trivial
      | ok done => trivial

theorem readCachedBytes_meets (tenantId : TenantId) (cacheKey : CacheKey) :
    (Flow.readCachedBytes tenantId cacheKey).Meets (reader tenantId cacheKey).Calls (fun _ _ => True) [] := by
  refine ⟨⟨rfl, rfl⟩, fun reply => ?_⟩
  cases reply with
  | error err =>
    rcases err with err | _ | _ | _ | _ | _ | _ | _ | _
    · cases err <;> trivial
    all_goals trivial
  | ok replicaList =>
    simp only [Program.bind]
    cases head : replicaList.replicas.head? with
    | none => trivial
    | some replica =>
      refine ⟨⟨rfl, rfl, replicaList, List.mem_singleton_self _, replica, head, rfl⟩, fun reply => ?_⟩
      cases reply <;> trivial

end

/-- Every client makes its calls in this order, whatever the replies. -/
theorem program_meets (client : CacheClient) :
    client.program.Meets client.Calls (fun _ _ => True) [] := by
  cases client with
  | writer tenantId cacheKey bytes => exact (writeCachedBytes_meets tenantId cacheKey bytes).bind fun _ _ _ => trivial
  | reader tenantId cacheKey => exact (readCachedBytes_meets tenantId cacheKey).bind fun _ _ _ => trivial

end CacheClient
end Mooncache
