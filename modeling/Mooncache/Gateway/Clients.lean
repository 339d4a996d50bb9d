import Mooncache.Gateway.Error

/-! The two store clients. A write names the node it goes to; a read names none. -/
namespace Mooncache

structure StoreChunk where
  bytes : List UInt8
  tier : String
  deriving DecidableEq, Repr

/-- The trait `StoreClient`, with what its calls read and change as a state. -/
structure StoreClient (S : Type) where
  readChunk : S → TenantId → CacheKey → ChunkHandle → GatewayResult StoreChunk
  writePreallocatedChunk :
    S → String → TenantId → CacheKey → ChunkHandle → List UInt8 → GatewayResult Unit × S

variable [Sha256]

/-- `LocalStoreClient`: one store in the process, its lock not poisoned. -/
def localStoreClient : StoreClient MemoryStore where
  readChunk store _tenantId _cacheKey handle :=
    match store.readChunk handle with
    | .ok bytes => .ok ⟨bytes, "dram"⟩
    | .error err => .error (.store err)
  writePreallocatedChunk store _nodeId _tenantId _cacheKey handle bytes :=
    match store.writePreallocatedChunk handle bytes with
    | (.ok (), store) => (.ok (), store)
    | (.error err, store) => (.error (.store err), store)

/-- The node URLs of a `RemoteStoreClient`, in the order its hash map yields them. -/
structure NodeUrls where
  entries : List (String × String)
  nodup : (entries.map Prod.fst).Nodup

def NodeUrls.ids (nodeUrls : NodeUrls) : Set String := {nodeId | nodeId ∈ nodeUrls.entries.map Prod.fst}

/-- `RemoteStoreClient`: every base URL is served by a store of its own, and every
request reaches it and is answered. -/
def remoteStoreClient (nodeUrls : NodeUrls) : StoreClient (String → MemoryStore) where
  readChunk servers _tenantId _cacheKey handle :=
    match nodeUrls.entries.head? with
    | none => .error (.storeUpstream "no store nodes configured")
    | some (_, baseUrl) =>
      match (servers baseUrl).readChunk handle with
      | .ok bytes => .ok ⟨bytes, "dram"⟩
      | .error err => .error (.storeUpstream err.text)
  writePreallocatedChunk servers nodeId _tenantId _cacheKey handle bytes :=
    match nodeUrls.entries.lookup nodeId with
    | none => (.error (.storeUpstream s!"store node `{nodeId}` is not configured"), servers)
    | some baseUrl =>
      match (servers baseUrl).writePreallocatedChunk handle bytes with
      | (.ok (), store) => (.ok (), Function.update servers baseUrl store)
      | (.error err, store) => (.error (.storeUpstream err.text), Function.update servers baseUrl store)

structure ChunkWrite where
  nodeId : String
  tenantId : TenantId
  cacheKey : CacheKey
  handle : ChunkHandle
  bytes : List UInt8

namespace StoreClient
variable {S : Type}

def write (client : StoreClient S) (s : S) (chunk : ChunkWrite) : GatewayResult Unit × S :=
  client.writePreallocatedChunk s chunk.nodeId chunk.tenantId chunk.cacheKey chunk.handle chunk.bytes

@[simp] theorem localStoreClient_write_snd (store : MemoryStore) (chunk : ChunkWrite) :
    (localStoreClient.write store chunk).2 = (store.writePreallocatedChunk chunk.handle chunk.bytes).2 := by
  simp only [write, localStoreClient]
  split <;> simp only [*]

/-- The writes one after the other, as long as each succeeds. -/
def writeAll (client : StoreClient S) : S → List ChunkWrite → Option S
  | s, [] => some s
  | s, chunk :: rest =>
    match client.write s chunk with
    | (.ok (), s) => client.writeAll s rest
    | (.error _, _) => none

/-- Reading a replica back, as `read_cached_bytes` does. -/
def readReplica (client : StoreClient S) (s : S) (tenantId : TenantId) (cacheKey : CacheKey)
    (replica : ReplicaDescriptor) : GatewayResult StoreChunk :=
  client.readChunk s tenantId cacheKey (ChunkHandle.fromReplica replica)

/-- After successful writes to these nodes, a replica reads back as what was last
written to its node there, unless a later write to the same node overlaps it. -/
def RoutingAgrees (client : StoreClient S) (nodeIds : Set String) (s : S) : Prop :=
  ∀ earlier chunk later after, (∀ w ∈ earlier ++ chunk :: later, w.nodeId ∈ nodeIds) →
    client.writeAll s (earlier ++ chunk :: later) = some after →
    (∀ w ∈ later, w.nodeId = chunk.nodeId → ¬ w.handle.Overlaps chunk.handle) →
    ∀ replica, replica.nodeId = chunk.nodeId → ChunkHandle.fromReplica replica = chunk.handle →
      ∃ found, client.readReplica after chunk.tenantId chunk.cacheKey replica = .ok found ∧
        found.bytes = chunk.bytes

omit [Sha256] in
theorem writeAll_cons {client : StoreClient S} {s s' : S} {chunk : ChunkWrite}
    (h : client.write s chunk = (.ok (), s')) (rest : List ChunkWrite) :
    client.writeAll s (chunk :: rest) = client.writeAll s' rest := by
  rw [writeAll, h]

omit [Sha256] in
theorem writeAll_append (client : StoreClient S) (s : S) (first second : List ChunkWrite) :
    client.writeAll s (first ++ second) = (client.writeAll s first).bind (client.writeAll · second) := by
  induction first generalizing s with
  | nil => rfl
  | cons chunk rest ih =>
    simp only [List.cons_append, writeAll]
    split
    · exact ih _
    · rfl

/-- A client whose writes all land in the one store its reads look into agrees. -/
structure OneStore (client : StoreClient S) (nodeIds : Set String) (s : S) where
  keeps : S → Prop
  home : String
  view : S → MemoryStore
  start : keeps s
  write_ok : ∀ s chunk s', keeps s → chunk.nodeId ∈ nodeIds → client.write s chunk = (.ok (), s') →
    keeps s' ∧ chunk.nodeId = home ∧ chunk.bytes.length = chunk.handle.len ∧
      (view s).Fits chunk.handle ∧ view s' = (view s).filled chunk.handle chunk.bytes
  read_ok : ∀ s tenantId cacheKey handle bytes, keeps s → (view s).readChunk handle = .ok bytes →
    client.readChunk s tenantId cacheKey handle = .ok ⟨bytes, "dram"⟩

namespace OneStore
variable {client : StoreClient S} {nodeIds : Set String} {s : S}

theorem writeAll_keeps (one : OneStore client nodeIds s) {chunks : List ChunkWrite} {before after : S}
    (keeps : one.keeps before) (known : ∀ w ∈ chunks, w.nodeId ∈ nodeIds)
    (written : client.writeAll before chunks = some after) :
    one.keeps after ∧ ∀ w ∈ chunks, w.nodeId = one.home := by
  induction chunks generalizing before with
  | nil =>
    cases written
    exact ⟨keeps, by simp⟩
  | cons chunk rest ih =>
    rw [writeAll] at written
    split at written
    · rename_i next hw
      obtain ⟨kept, home, _⟩ := one.write_ok before chunk next keeps (known chunk (by simp)) hw
      obtain ⟨kept, homes⟩ := ih kept (fun w hm => known w (by simp [hm])) written
      exact ⟨kept, List.forall_mem_cons.mpr ⟨home, homes⟩⟩
    · cases written

theorem writeAll_leaves (one : OneStore client nodeIds s) {chunks : List ChunkWrite} {before after : S}
    (keeps : one.keeps before) (known : ∀ w ∈ chunks, w.nodeId ∈ nodeIds)
    (written : client.writeAll before chunks = some after) {handle : ChunkHandle} (positive : 0 < handle.len)
    (apart : ∀ w ∈ chunks, ¬ w.handle.Overlaps handle) {bytes : List UInt8}
    (read : (one.view before).readChunk handle = .ok bytes) :
    (one.view after).readChunk handle = .ok bytes := by
  induction chunks generalizing before with
  | nil =>
    cases written
    exact read
  | cons chunk rest ih =>
    rw [writeAll] at written
    split at written
    · rename_i next hw
      obtain ⟨kept, _, same, fits, filled⟩ := one.write_ok before chunk next keeps (known chunk (by simp)) hw
      refine ih kept (fun w hm => known w (by simp [hm])) written (fun w hm => apart w (by simp [hm])) ?_
      rw [filled]
      exact MemoryStore.readChunk_filled_of_disjoint same fits positive (apart chunk (by simp)) read
    · cases written

theorem routingAgrees (one : OneStore client nodeIds s) : client.RoutingAgrees nodeIds s := by
  intro earlier chunk later after known written apart replica _ handle
  rw [writeAll_append, Option.bind_eq_some_iff] at written
  obtain ⟨before, first, written⟩ := written
  obtain ⟨kept, _⟩ := one.writeAll_keeps one.start (fun w hm => known w (by simp [hm])) first
  have here : chunk.nodeId ∈ nodeIds := known chunk (by simp)
  have rest : ∀ w ∈ later, w.nodeId ∈ nodeIds := fun w hm => known w (by simp [hm])
  rw [writeAll] at written
  split at written
  · rename_i next hw
    obtain ⟨kept, home, same, fits, filled⟩ := one.write_ok before chunk next kept here hw
    obtain ⟨final, homes⟩ := one.writeAll_keeps kept rest written
    have now : (one.view next).readChunk chunk.handle = .ok chunk.bytes := by
      rw [filled]
      exact MemoryStore.readChunk_filled same fits
    have still := one.writeAll_leaves kept rest written fits.1
      (fun w hm => apart w hm ((homes w hm).trans home.symm)) now
    refine ⟨⟨chunk.bytes, "dram"⟩, ?_, rfl⟩
    rw [readReplica, handle]
    exact one.read_ok _ _ _ _ _ final still
  · cases written

end OneStore
end StoreClient
/-- The digests of the texts `hi` and `ok`. -/
@[reducible] def shortTextDigests : Sha256 where
  sha256
  | 104 :: _ => #v[143, 67, 67, 70, 100, 143, 107, 150, 223, 137, 221, 169, 1, 197, 23, 107,
    16, 166, 216, 57, 97, 221, 60, 26, 200, 139, 89, 178, 220, 50, 122, 164]
  | _ => #v[38, 137, 54, 123, 32, 92, 22, 206, 50, 237, 66, 0, 148, 43, 139, 139,
    30, 38, 45, 252, 112, 217, 188, 159, 188, 119, 196, 150, 153, 164, 241, 223]

end Mooncache
