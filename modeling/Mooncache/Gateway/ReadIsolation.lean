import Mooncache.Gateway.CacheAccess
import Mooncache.Gateway.CacheServer

/-! With one segment and one store, a read that succeeds returns the complete bytes of
the writer that reserved the extent, whatever happened to the object since. -/
namespace Mooncache
variable {I : Type}

/-- A reservation of this thread was granted, with this replica among its extents. -/
def Issued (history : List (I × GatewayEvent)) (i : I) (tenantId : TenantId) (cacheKey : CacheKey)
    (replica : ReplicaDescriptor) : Prop :=
  ∃ len count replicas, (i, ⟨.putStart tenantId cacheKey len count, .ok replicas⟩) ∈ history ∧ replica ∈ replicas

theorem Issued.snoc {history : List (I × GatewayEvent)} {i : I} {tenantId : TenantId} {cacheKey : CacheKey}
    {replica : ReplicaDescriptor} (h : Issued history i tenantId cacheKey replica) (entry : I × GatewayEvent) :
    Issued (history ++ [entry]) i tenantId cacheKey replica := by
  obtain ⟨len, count, replicas, member, hr⟩ := h
  exact ⟨len, count, replicas, List.mem_append_left _ member, hr⟩

/-- Only a granted reservation issues anything. -/
theorem Issued.of_snoc {history : List (I × GatewayEvent)} {entry : I × GatewayEvent} {i : I}
    {tenantId : TenantId} {cacheKey : CacheKey} {replica : ReplicaDescriptor}
    (other : ∀ tenantId cacheKey len count replicas,
      entry.2 ≠ ⟨.putStart tenantId cacheKey len count, .ok replicas⟩)
    (h : Issued (history ++ [entry]) i tenantId cacheKey replica) :
    Issued history i tenantId cacheKey replica := by
  obtain ⟨len, count, replicas, member, hr⟩ := h
  rcases List.mem_append.mp member with member | last
  · exact ⟨len, count, replicas, member, hr⟩
  · rw [List.mem_singleton] at last
    exact absurd (congrArg Prod.snd last).symm (other _ _ _ _ _)

/-- Every chunk of the store lies on an issued extent and holds its writer's bytes. -/
def ChunksHold (clients : I → CacheClient) (history : List (I × GatewayEvent)) (store : MemoryStore) : Prop :=
  ∀ offset chunk, store.allocations.lookup offset = some chunk →
    ∃ i tenantId cacheKey replica bytes, Issued history i tenantId cacheKey replica ∧
      replica.offset = offset ∧ replica.len = chunk.len ∧ clients i = .writer tenantId cacheKey bytes ∧
      offset + chunk.len ≤ store.capacity ∧ slice store.arena offset chunk.len = bytes

structure Isolated (clients : I → CacheClient) (history : List (I × GatewayEvent))
    (world : CacheWorld MemoryStore) : Prop where
  below : ∃ segment, world.master.allocator.segments = [segment] ∧
    ∀ i tenantId cacheKey replica, Issued history i tenantId cacheKey replica →
      replica.offset + replica.len ≤ segment.nextOffset
  issued : ∀ i tenantId cacheKey replica, Issued history i tenantId cacheKey replica →
    0 < replica.len ∧ ∃ bytes, clients i = .writer tenantId cacheKey bytes ∧ replica.len = bytes.length
  apart : ∀ i j tenantId tenantId' cacheKey cacheKey' replica another,
    Issued history i tenantId cacheKey replica → Issued history j tenantId' cacheKey' another →
    (ChunkHandle.fromReplica replica).Overlaps (.fromReplica another) →
      i = j ∧ tenantId = tenantId' ∧ cacheKey = cacheKey' ∧ replica = another
  objects : ∀ tenantId cacheKey object, world.master.objects.lookup (tenantId, cacheKey) = some object →
    ∀ replica ∈ object.replicas, ∃ i, Issued history i tenantId cacheKey replica
  listed : ∀ j tenantId cacheKey replicaList,
    (j, ⟨.getReplicaList tenantId cacheKey, .ok replicaList⟩) ∈ history →
      ∀ replica ∈ replicaList.replicas, ∃ i, Issued history i tenantId cacheKey replica
  chunks : ChunksHold clients history world.stores
  reads : ∀ j tenantId cacheKey handle chunk, (j, ⟨.readChunk tenantId cacheKey handle, .ok chunk⟩) ∈ history →
    clients j = .reader tenantId cacheKey ∧ ∃ i replica, Issued history i tenantId cacheKey replica ∧
      ChunkHandle.fromReplica replica = handle ∧ clients i = .writer tenantId cacheKey chunk.bytes

theorem ChunksHold.snoc {clients : I → CacheClient} {history : List (I × GatewayEvent)} {store : MemoryStore}
    (h : ChunksHold clients history store) (entry : I × GatewayEvent) :
    ChunksHold clients (history ++ [entry]) store := by
  intro offset chunk found
  obtain ⟨i, tenantId, cacheKey, replica, bytes, issued, rest⟩ := h offset chunk found
  exact ⟨i, tenantId, cacheKey, replica, bytes, issued.snoc entry, rest⟩

/-- After a reservation of one replica, what is issued was issued before it or is that replica. -/
private theorem Issued.of_putStart {history : List (I × GatewayEvent)} {i j : I} {tenantId t : TenantId}
    {cacheKey k : CacheKey} {len count : Nat} {reserved replica : ReplicaDescriptor}
    (h : Issued (history ++ [(i, ⟨.putStart tenantId cacheKey len count, .ok [reserved]⟩)]) j t k replica) :
    Issued history j t k replica ∨ j = i ∧ t = tenantId ∧ k = cacheKey ∧ replica = reserved := by
  obtain ⟨len, count, replicas, member, listed⟩ := h
  rcases List.mem_append.mp member with member | last
  · exact .inl ⟨len, count, replicas, member, listed⟩
  · cases List.mem_singleton.mp last
    exact .inr ⟨rfl, rfl, rfl, List.mem_singleton.mp listed⟩

namespace Isolated
variable {clients : I → CacheClient} {history : List (I × GatewayEvent)} {world world' : CacheWorld MemoryStore}

/-- The segment and the objects' replicas are kept, and the chunks still hold. -/
private theorem retain (h : Isolated clients history world) {commits : Prop}
    (retains : MasterState.Retains commits world.master world'.master)
    (chunks : ChunksHold clients history world'.stores) : Isolated clients history world' := by
  obtain ⟨segment, only, below⟩ := h.below
  refine ⟨⟨segment, by rw [retains.allocator, only], below⟩, h.issued, h.apart, fun t k object found replica hr => ?_,
    h.listed, chunks, h.reads⟩
  obtain ⟨old, before, same, _⟩ := retains.objects _ _ found
  exact h.objects t k old before replica (same ▸ hr)

/-- An event that issues nothing, lists issued replicas and reads what was written. -/
private theorem record (h : Isolated clients history world) {i : I} {event : GatewayEvent}
    (reserves : ∀ tenantId cacheKey len count replicas,
      event ≠ ⟨.putStart tenantId cacheKey len count, .ok replicas⟩)
    (lists : ∀ tenantId cacheKey replicaList, event = ⟨.getReplicaList tenantId cacheKey, .ok replicaList⟩ →
      ∀ replica ∈ replicaList.replicas, ∃ i, Issued history i tenantId cacheKey replica)
    (reads : ∀ tenantId cacheKey handle chunk, event = ⟨.readChunk tenantId cacheKey handle, .ok chunk⟩ →
      clients i = .reader tenantId cacheKey ∧ ∃ j replica, Issued history j tenantId cacheKey replica ∧
        ChunkHandle.fromReplica replica = handle ∧ clients j = .writer tenantId cacheKey chunk.bytes) :
    Isolated clients (history ++ [(i, event)]) world := by
  obtain ⟨segment, only, below⟩ := h.below
  refine ⟨⟨segment, only, fun j t k r hi => below j t k r (hi.of_snoc reserves)⟩,
    fun j t k r hi => h.issued j t k r (hi.of_snoc reserves),
    fun j j' t t' k k' r r' hi hj => h.apart _ _ _ _ _ _ _ _ (hi.of_snoc reserves) (hj.of_snoc reserves),
    fun t k object found replica hr => ?_, fun j t k replicaList member replica hr => ?_,
    h.chunks.snoc _, fun j t k handle chunk member => ?_⟩
  · obtain ⟨j, hj⟩ := h.objects t k object found replica hr
    exact ⟨j, hj.snoc _⟩
  · rcases List.mem_append.mp member with member | last
    · obtain ⟨j, hj⟩ := h.listed j t k replicaList member replica hr
      exact ⟨j, hj.snoc _⟩
    · rw [List.mem_singleton] at last
      obtain ⟨j, hj⟩ := lists t k replicaList (congrArg Prod.snd last).symm replica hr
      exact ⟨j, hj.snoc _⟩
  · rcases List.mem_append.mp member with member | last
    · obtain ⟨reader, j, replica, hj, rest⟩ := h.reads j t k handle chunk member
      exact ⟨reader, j, replica, hj.snoc _, rest⟩
    · rw [List.mem_singleton, Prod.mk.injEq] at last
      obtain ⟨rfl, last⟩ := last
      obtain ⟨reader, j, replica, hj, rest⟩ := reads t k handle chunk last.symm
      exact ⟨reader, j, replica, hj.snoc _, rest⟩

/-- An event that neither reserves, lists nor reads. -/
private theorem note (h : Isolated clients history world) {i : I} {event : GatewayEvent}
    (reserves : ∀ tenantId cacheKey len count replicas,
      event ≠ ⟨.putStart tenantId cacheKey len count, .ok replicas⟩)
    (lists : ∀ tenantId cacheKey replicaList, event ≠ ⟨.getReplicaList tenantId cacheKey, .ok replicaList⟩)
    (reads : ∀ tenantId cacheKey handle chunk, event ≠ ⟨.readChunk tenantId cacheKey handle, .ok chunk⟩) :
    Isolated clients (history ++ [(i, event)]) world :=
  h.record reserves (fun _ _ _ he => absurd he (lists _ _ _)) fun _ _ _ _ he => absurd he (reads _ _ _ _)

/-- A granted reservation: the extent at the free end of the segment meets no other. -/
private theorem reserve (h : Isolated clients history world) {i : I} {tenantId : TenantId} {cacheKey : CacheKey}
    {bytes : List UInt8} (client : clients i = .writer tenantId cacheKey bytes) {segment : MountedSegment}
    (only : world.master.allocator.segments = [segment]) (positive : 0 < bytes.length)
    (moved : world'.master.allocator.segments =
      [{ segment with nextOffset := segment.nextOffset + bytes.length }])
    (objects : world'.master.objects = world.master.objects.insert (tenantId, cacheKey)
      ⟨tenantId, cacheKey, bytes.length, .reserving, [⟨segment.nodeId, segment.nextOffset, bytes.length⟩], false, none⟩)
    (stores : world'.stores = world.stores) : Isolated clients
      (history ++ [(i, ⟨.putStart tenantId cacheKey bytes.length replicaCount,
        .ok [⟨segment.nodeId, segment.nextOffset, bytes.length⟩]⟩)]) world' := by
  obtain ⟨found, same, below⟩ := h.below
  rw [only, List.cons.injEq] at same
  obtain ⟨rfl, _⟩ := same
  have fresh : Issued (history ++ [(i, ⟨.putStart tenantId cacheKey bytes.length replicaCount,
      .ok [⟨segment.nodeId, segment.nextOffset, bytes.length⟩]⟩)]) i tenantId cacheKey
      ⟨segment.nodeId, segment.nextOffset, bytes.length⟩ :=
    ⟨_, _, _, List.mem_append_right _ (List.mem_singleton_self _), List.mem_singleton_self _⟩
  refine ⟨⟨_, moved, fun j t k r hi => ?_⟩, fun j t k r hi => ?_, fun j j' t t' k k' r r' hi hj overlap => ?_,
    fun t k object found replica hr => ?_, fun j t k replicaList member replica hr => ?_,
    stores ▸ h.chunks.snoc _, fun j t k handle chunk member => ?_⟩
  · rcases hi.of_putStart with hi | ⟨_, _, _, rfl⟩
    · have := below j t k r hi
      simp only
      omega
    · exact Nat.le_refl _
  · rcases hi.of_putStart with hi | ⟨rfl, rfl, rfl, rfl⟩
    · exact h.issued j t k r hi
    · exact ⟨positive, bytes, client, rfl⟩
  · simp only [ChunkHandle.Overlaps, ChunkHandle.fromReplica] at overlap
    rcases hi.of_putStart with old | ⟨rfl, rfl, rfl, rfl⟩ <;> rcases hj.of_putStart with other | ⟨rfl, rfl, rfl, rfl⟩
    · exact h.apart _ _ _ _ _ _ _ _ old other overlap
    · have := below _ _ _ _ old
      simp only at overlap
      omega
    · have := below _ _ _ _ other
      simp only at overlap
      omega
    · exact ⟨rfl, rfl, rfl, rfl⟩
  · rw [objects] at found
    by_cases he : (t, k) = (tenantId, cacheKey)
    · rw [he, Finmap.lookup_insert, Option.some.injEq] at found
      subst found
      rw [List.mem_singleton.mp hr]
      cases he
      exact ⟨i, fresh⟩
    · rw [Finmap.lookup_insert_of_ne _ he] at found
      obtain ⟨j, hj⟩ := h.objects t k object found replica hr
      exact ⟨j, hj.snoc _⟩
  · rcases List.mem_append.mp member with member | last
    · obtain ⟨j, hj⟩ := h.listed j t k replicaList member replica hr
      exact ⟨j, hj.snoc _⟩
    · cases List.mem_singleton.mp last
  · rcases List.mem_append.mp member with member | last
    · obtain ⟨reader, j, replica, hj, rest⟩ := h.reads j t k handle chunk member
      exact ⟨reader, j, replica, hj.snoc _, rest⟩
    · cases List.mem_singleton.mp last

variable [Sha256]

/-- A write to an extent of one's own leaves every chunk with its writer's bytes. -/
private theorem write (h : Isolated clients history world) {i : I} {tenantId : TenantId} {cacheKey : CacheKey}
    {bytes : List UInt8} (client : clients i = .writer tenantId cacheKey bytes) {replica : ReplicaDescriptor}
    (mine : Issued history i tenantId cacheKey replica) :
    ChunksHold clients history (world.stores.writePreallocatedChunk (.fromReplica replica) bytes).2 := by
  rcases world.stores.writePreallocatedChunk_cases (.fromReplica replica) bytes with
    ⟨_, he⟩ | ⟨same, fits, he⟩ <;> rw [he]
  · exact h.chunks
  · intro offset chunk found
    rw [MemoryStore.filled_capacity same fits]
    rcases eq_or_ne offset replica.offset with rfl | hne
    · simp only [MemoryStore.filled, ChunkHandle.fromReplica, Finmap.lookup_insert, Option.some.injEq] at found
      subst found
      refine ⟨i, tenantId, cacheKey, replica, bytes, mine, rfl, rfl, client, fits.2.2, ?_⟩
      simp only [MemoryStore.filled, ChunkHandle.fromReplica] at same ⊢
      rw [← same]
      exact slice_splice_same (same ▸ fits.2.2)
    · simp only [MemoryStore.filled, ChunkHandle.fromReplica, Finmap.lookup_insert_of_ne _ hne] at found
      obtain ⟨j, t, k, another, stored, hj, rfl, len, owner, room, held⟩ := h.chunks offset chunk found
      refine ⟨j, t, k, another, stored, hj, rfl, len, owner, room, ?_⟩
      rw [← held]
      have away : ¬ (ChunkHandle.fromReplica another).Overlaps (.fromReplica replica) := fun overlap =>
        hne (congrArg ReplicaDescriptor.offset (h.apart _ _ _ _ _ _ _ _ hj mine overlap).2.2.2)
      simp only [ChunkHandle.Overlaps, ChunkHandle.fromReplica] at away
      have positive := fits.1
      simp only [ChunkHandle.fromReplica] at same positive
      refine slice_splice_of_disjoint (same ▸ fits.2.2) ?_
      simp only [ChunkHandle.fromReplica]
      omega

/-- A successful read of an extent issued under a key finds its writer's bytes. -/
private theorem read (h : Isolated clients history world) {i : I} {tenantId : TenantId} {cacheKey : CacheKey}
    {replica : ReplicaDescriptor} (issued : Issued history i tenantId cacheKey replica) {bytes : List UInt8}
    (found : world.stores.readChunk (.fromReplica replica) = .ok bytes) :
    clients i = .writer tenantId cacheKey bytes := by
  obtain ⟨stored, _, _, same⟩ := MemoryStore.readChunk_eq_ok.mp found
  obtain ⟨j, t, k, another, written, hj, offset, len, owner, _, held⟩ := h.chunks _ _ stored
  have positive := (h.issued _ _ _ _ issued).1
  simp only [ChunkHandle.fromReplica] at same offset len held
  obtain ⟨rfl, rfl, rfl, rfl⟩ := h.apart _ _ _ _ _ _ _ _ issued hj (by
    simp only [ChunkHandle.Overlaps, ChunkHandle.fromReplica]
    omega)
  rw [owner, ← held, same]

end Isolated

section
variable [Sha256] {clients : I → CacheClient}

private theorem localStoreClient_readChunk_ok {store : MemoryStore} {tenantId : TenantId} {cacheKey : CacheKey}
    {handle : ChunkHandle} {chunk : StoreChunk}
    (h : localStoreClient.readChunk store tenantId cacheKey handle = .ok chunk) :
    store.readChunk handle = .ok chunk.bytes := by
  simp only [localStoreClient] at h
  split at h
  · rename_i bytes found
    cases h
    exact found
  · cases h

omit [Sha256] in
private theorem freshCache_isolated (nodeId : String) (len capacity : Nat) (clients : I → CacheClient) :
    Isolated clients [] (freshCache nodeId len capacity) where
  below := ⟨⟨nodeId, len, 0⟩, rfl, fun _ _ _ _ ⟨_, _, _, member, _⟩ => by cases member⟩
  issued _ _ _ _ := fun ⟨_, _, _, member, _⟩ => by cases member
  apart _ _ _ _ _ _ _ _ := fun ⟨_, _, _, member, _⟩ => by cases member
  objects _ _ object found := by simp [freshCache, MasterState.mountSegment, MasterState.new] at found
  listed _ _ _ _ member := by cases member
  chunks _ chunk found := by simp [freshCache, MemoryStore.withCapacity] at found
  reads _ _ _ _ _ member := by cases member

variable [DecidableEq I]

/-- A call of a writer, which reserves once and then keeps to what it was granted. -/
private theorem isolated_writer {history : List (I × GatewayEvent)} {world world' : CacheWorld MemoryStore} {i : I}
    {tenantId : TenantId} {cacheKey : CacheKey} {bytes : List UInt8} {call : Call} {reply : call.Reply}
    (h : Isolated clients history world) (client : clients i = .writer tenantId cacheKey bytes)
    (calls : (CacheClient.writer tenantId cacheKey bytes).Calls (Pool.own history i) call)
    (served : world.Serves localStoreClient call reply world' ∨ world.Fails localStoreClient call reply world') :
    Isolated clients (history ++ [(i, ⟨call, reply⟩)]) world' := by
  have reserved {replicas : List ReplicaDescriptor}
      (past : CacheClient.Reserved tenantId cacheKey bytes (Pool.own history i) replicas)
      {replica : ReplicaDescriptor} (hr : replica ∈ replicas) : Issued history i tenantId cacheKey replica :=
    ⟨_, _, replicas, Pool.mem_own.mp (List.mem_of_mem_head? past), hr⟩
  cases call with
  | putStart t k len count =>
    obtain ⟨_, rfl, rfl, rfl, rfl⟩ := calls
    obtain ⟨rfl, rfl⟩ := served.resolve_right id
    obtain ⟨segment, only, _⟩ := h.below
    rcases MasterState.putStart_single only t k bytes.length with
      ⟨err, he⟩ | ⟨master, he, positive, _, moved, objects⟩
    · simp only [replicaCount, he, cacheResult_error]
      exact h.note (by simp) (by simp) (by simp)
    · simp only [replicaCount, he, cacheResult_ok]
      exact h.reserve client only positive moved objects rfl
  | writePreallocatedChunk nodeId t k handle written =>
    obtain ⟨rfl, rfl, rfl, replicas, past, replica, hr, rfl, rfl⟩ := calls
    have chunks := h.write client (reserved past hr)
    have written : Isolated clients history { world with stores :=
        (localStoreClient.write world.stores ⟨replica.nodeId, t, k, .fromReplica replica, written⟩).2 } :=
      h.retain (.refl True _) (by simpa using chunks)
    rcases served with ⟨_, rfl⟩ | ⟨_, rfl | rfl⟩
    · exact written.note (by simp) (by simp) (by simp)
    · exact h.note (by simp) (by simp) (by simp)
    · exact written.note (by simp) (by simp) (by simp)
  | putEnd t k =>
    have ended : Isolated clients history { world with master := (world.master.putEnd t k).2 } :=
      h.retain (world.master.apply_retains (.putEnd t k) rfl) h.chunks
    rcases served with ⟨_, rfl⟩ | ⟨_, rfl | rfl⟩
    · exact ended.note (by simp) (by simp) (by simp)
    · exact h.note (by simp) (by simp) (by simp)
    · exact ended.note (by simp) (by simp) (by simp)
  | putRevoke t k =>
    have revoked : Isolated clients history { world with master := (world.master.putRevoke t k).2 } :=
      h.retain (world.master.apply_retains (.putRevoke t k) rfl) h.chunks
    rcases served with ⟨_, rfl⟩ | ⟨_, rfl | rfl⟩
    · exact revoked.note (by simp) (by simp) (by simp)
    · exact h.note (by simp) (by simp) (by simp)
    · exact revoked.note (by simp) (by simp) (by simp)
  | _ => exact calls.elim

/-- A call of a reader, which reads what was listed to it. -/
private theorem isolated_reader {history : List (I × GatewayEvent)} {world world' : CacheWorld MemoryStore} {i : I}
    {tenantId : TenantId} {cacheKey : CacheKey} {call : Call} {reply : call.Reply}
    (h : Isolated clients history world) (client : clients i = .reader tenantId cacheKey)
    (calls : (CacheClient.reader tenantId cacheKey).Calls (Pool.own history i) call)
    (served : world.Serves localStoreClient call reply world' ∨ world.Fails localStoreClient call reply world') :
    Isolated clients (history ++ [(i, ⟨call, reply⟩)]) world' := by
  cases call with
  | getReplicaList t k =>
    obtain ⟨rfl, rfl⟩ := calls
    obtain ⟨nowMs, rfl, rfl⟩ := served.resolve_right id
    have listed : Isolated clients history { world with master := (world.master.getReplicaList t k nowMs).2 } :=
      h.retain (world.master.apply_retains (.getReplicaList t k nowMs) rfl) h.chunks
    refine listed.record (by simp) (fun t' k' replicaList he replica hr => ?_) (by simp)
    simp only [Event.mk.injEq, Call.getReplicaList.injEq] at he
    obtain ⟨⟨rfl, rfl⟩, he⟩ := he
    have found := cacheResult_eq_ok.mp (eq_of_heq he)
    rcases world.master.getReplicaList_cases t k nowMs with
      missed | ⟨object, lease, leases, sequence, present, _, hit⟩
    · rw [missed] at found
      cases found
    · rw [hit] at found
      cases found
      exact h.objects t k object present replica hr
  | readChunk t k handle =>
    obtain ⟨rfl, rfl, replicaList, listed, replica, head, rfl⟩ := calls
    obtain ⟨rfl, rfl⟩ := served.resolve_right id
    refine h.record (by simp) (by simp) fun t' k' handle chunk he => ?_
    simp only [Event.mk.injEq, Call.readChunk.injEq] at he
    obtain ⟨⟨rfl, rfl, rfl⟩, he⟩ := he
    have found := localStoreClient_readChunk_ok (eq_of_heq he)
    obtain ⟨j, issued⟩ := h.listed i t k replicaList (Pool.mem_own.mp listed) replica (List.mem_of_mem_head? head)
    exact ⟨client, j, replica, issued, rfl, h.read issued found⟩
  | _ => exact calls.elim

/-- A call of a client, with what it has done before. -/
private theorem isolated_call {history : List (I × GatewayEvent)} {world world' : CacheWorld MemoryStore} {i : I}
    {call : Call} {reply : call.Reply} (h : Isolated clients history world)
    (calls : (clients i).Calls (Pool.own history i) call)
    (served : world.Serves localStoreClient call reply world' ∨ world.Fails localStoreClient call reply world') :
    Isolated clients (history ++ [(i, ⟨call, reply⟩)]) world' := by
  cases client : clients i with
  | writer tenantId cacheKey bytes => exact isolated_writer h client (client ▸ calls) served
  | reader tenantId cacheKey => exact isolated_reader h client (client ▸ calls) served

private theorem isolated_step {s s' : Pool I (CacheWorld MemoryStore) Call Call.Reply Unit}
    {label : Pool.Label I MasterOp Call Call.Reply} (h : Isolated clients s.history s.world)
    (calls : ∀ i, (s.threads i).Meets (clients i).Calls (fun _ _ => True) (Pool.own s.history i))
    (step : Pool.Step (CacheWorld.server localStoreClient fun op => op.grows = false) s label s') :
    Isolated clients s'.history s'.world := by
  cases step with
  | @call i call next reply world pending served =>
    have guard := calls i
    rw [pending] at guard
    exact isolated_call h guard.1 served
  | @act op world acted =>
    obtain ⟨allowed, ⟨_, master⟩, stores⟩ := acted
    have retains := s.world.master.apply_retains op allowed
    rw [← master] at retains
    exact h.retain retains (by rw [stores]; exact h.chunks)

/-- Whatever the clients, the failures and the evictions and removals in between: a read
that succeeds returns the complete bytes of the one writer that reserved the extent,
and that writer stored them for the reader's tenant and key. -/
theorem read_returns_reserved_bytes {nodeId : String} {len capacity : Nat}
    {trace : List (Pool.Label I MasterOp Call Call.Reply)} {s : Pool I (CacheWorld MemoryStore) Call Call.Reply Unit}
    (run : Run (Pool.Step (CacheWorld.server localStoreClient fun op => op.grows = false))
      (Pool.initial (freshCache nodeId len capacity) fun i => (clients i).program) trace s)
    {j : I} {tenantId : TenantId} {cacheKey : CacheKey} {handle : ChunkHandle} {chunk : StoreChunk}
    (read : (j, ⟨.readChunk tenantId cacheKey handle, .ok chunk⟩) ∈ s.history) :
    clients j = .reader tenantId cacheKey ∧ ∃ i replica, Issued s.history i tenantId cacheKey replica ∧
      ChunkHandle.fromReplica replica = handle ∧ clients i = .writer tenantId cacheKey chunk.bytes ∧
      ∀ i' tenantId' cacheKey' another, Issued s.history i' tenantId' cacheKey' another →
        (ChunkHandle.fromReplica another).Overlaps handle →
          i' = i ∧ tenantId' = tenantId ∧ cacheKey' = cacheKey ∧ another = replica := by
  have isolated : Isolated clients s.history s.world :=
    run.invariant (P := fun _ s => Isolated clients s.history s.world) (freshCache_isolated _ _ _ _)
      fun before h step => isolated_step h (fun i => Pool.run_meets (clients i).program_meets before) step
  obtain ⟨reader, i, replica, issued, rfl, owner⟩ := isolated.reads j tenantId cacheKey handle chunk read
  exact ⟨reader, i, replica, issued, rfl, owner, fun i' t k another other overlap =>
    isolated.apart _ _ _ _ _ _ _ _ other issued overlap⟩

end

/-- The thread `false` stores the bytes that `true` looks up. -/
private def writerAndReader : Bool → CacheClient
  | false => .writer ⟨"tenant-a"⟩ ⟨"greeting"⟩ [104, 105]
  | true => .reader ⟨"tenant-a"⟩ ⟨"greeting"⟩

/-- A reader after a writer: the read succeeds, and its bytes have a writer. -/
theorem read_returns_reserved_bytes_of_one_writer :
    ∃ trace s, Run (Pool.Step (CacheWorld.server (@localStoreClient shortTextDigests) fun op => op.grows = false))
        (Pool.initial (freshCache "store-0" 16 16) fun i => (writerAndReader i).program) trace s ∧
      (true, ⟨.readChunk ⟨"tenant-a"⟩ ⟨"greeting"⟩ ⟨0, 2⟩, .ok ⟨[104, 105], "dram"⟩⟩) ∈ s.history ∧
      ∃ i, writerAndReader i = .writer ⟨"tenant-a"⟩ ⟨"greeting"⟩ [104, 105] := by
  let _ := shortTextDigests
  have idle : Run (Pool.Step (CacheWorld.server localStoreClient fun op => op.grows = false))
    (Pool.initial (freshCache "store-0" 16 16) fun i => (writerAndReader i).program) [] _ := .start
  have run := (idle.snoc (.call (i := false) rfl (.inl ⟨rfl, rfl⟩)) |>.snoc (.call (i := false) rfl (.inl ⟨rfl, rfl⟩))
    |>.snoc (.call (i := false) rfl (.inl ⟨rfl, rfl⟩)) |>.snoc (.call (i := true) rfl (.inl ⟨0, rfl, rfl⟩))
    |>.snoc (.call (i := true) rfl (.inl ⟨rfl, rfl⟩)))
  refine ⟨_, _, run, List.mem_append_right _ (List.mem_singleton.mpr rfl), ?_⟩
  obtain ⟨_, i, _, _, _, owner, _⟩ :=
    read_returns_reserved_bytes run (List.mem_append_right _ (List.mem_singleton.mpr rfl))
  exact ⟨i, owner⟩

end Mooncache
