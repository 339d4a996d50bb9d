import Mooncache.Gateway.Quiescence
import Mooncache.Gateway.ReadIsolation

/-! Where the bytes of a read come from, over one segment: some thread wrote them under the
reader's tenant and key, whatever else was called in between. -/
namespace Mooncache
variable {I S : Type}

/-- Some thread was granted this extent under the key. -/
def Granted (history : List (I × GatewayEvent)) (key : ObjectKey) (replica : ReplicaDescriptor) : Prop :=
  ∃ i, Issued history i key.1 key.2 replica

/-- Some thread tried to write these bytes under the key. -/
def Sent (history : List (I × GatewayEvent)) (key : ObjectKey) (bytes : List UInt8) : Prop :=
  ∃ i nodeId handle reply, (i, ⟨.writePreallocatedChunk nodeId key.1 key.2 handle bytes, reply⟩) ∈ history

/-- Reservations are of one replica, writes go to extents that were granted to the thread, and reads to
extents that were listed to it. -/
def Disciplined (past : List GatewayEvent) : Call → Prop
  | .putStart _ _ _ count => count = 1
  | .writePreallocatedChunk _ tenantId cacheKey handle _ =>
    ∃ len count replicas, ⟨.putStart tenantId cacheKey len count, .ok replicas⟩ ∈ past ∧
      ∃ replica ∈ replicas, handle = .fromReplica replica
  | .readChunk tenantId cacheKey handle =>
    ∃ replicaList, ⟨.getReplicaList tenantId cacheKey, .ok replicaList⟩ ∈ past ∧
      ∃ replica ∈ replicaList.replicas, handle = .fromReplica replica
  | _ => True

/-- An event that grants no extent and lists none. -/
def GatewayEvent.Idle (event : GatewayEvent) : Prop :=
  (∀ tenantId cacheKey len count replicas, event ≠ ⟨.putStart tenantId cacheKey len count, .ok replicas⟩) ∧
    ∀ tenantId cacheKey replicaList, event ≠ ⟨.getReplicaList tenantId cacheKey, .ok replicaList⟩

theorem GatewayEvent.idle_of_kind {call : Call} {reply : call.Reply} (unchanging : call.isChange = false)
    (unread : call.isLookup = false) : GatewayEvent.Idle ⟨call, reply⟩ := by
  constructor
  · rintro tenantId cacheKey len count replicas ⟨⟩
    cases unchanging
  · rintro tenantId cacheKey replicaList ⟨⟩
    cases unread

theorem GatewayEvent.unread_of_kind {call : Call} {reply : call.Reply} (unread : call.isLookup = false)
    (key : ObjectKey) (handle : ChunkHandle) (chunk : StoreChunk) :
    (⟨call, reply⟩ : GatewayEvent) ≠ ⟨.readChunk key.1 key.2 handle, .ok chunk⟩ := by
  rintro ⟨⟩
  cases unread

/-- Which extents the master has given away, and under which key, also in replies that got lost. -/
abbrev Owners := ObjectKey → ReplicaDescriptor → Prop

/-- The extents given away lie apart on one segment, and all that is granted or listed is among them. -/
structure Extents (placed : Owners) (history : List (I × GatewayEvent)) (master : MasterState) : Prop where
  below : ∃ segment, master.allocator.segments = [segment] ∧ ∀ key replica, placed key replica →
    0 < replica.len ∧ replica.offset + replica.len ≤ segment.nextOffset
  apart : ∀ key key' replica another, placed key replica → placed key' another →
    (ChunkHandle.fromReplica replica).Overlaps (.fromReplica another) → key = key' ∧ replica = another
  objects : ∀ key object, master.objects.lookup key = some object → ∀ replica ∈ object.replicas, placed key replica
  granted : ∀ key replica, Granted history key replica → placed key replica
  listed : ∀ j key replicaList, (j, ⟨.getReplicaList key.1 key.2, .ok replicaList⟩) ∈ history →
    ∀ replica ∈ replicaList.replicas, placed key replica

/-- The master's part of a call whose reply, or which itself, may get lost. -/
def Turn {α : Type} (master : MasterState) (result : CacheResult α × MasterState) (reply : GatewayResult α)
    (after : MasterState) : Prop :=
  reply = cacheResult result.1 ∧ after = result.2 ∨ (∃ err, reply = .error err) ∧ (after = master ∨ after = result.2)

def MasterTurn (master : MasterState) : (call : Call) → call.Reply → MasterState → Prop
  | .getReplicaList tenantId cacheKey, reply, after =>
    ∃ nowMs, Turn master (master.getReplicaList tenantId cacheKey nowMs) reply after
  | .putStart tenantId cacheKey len count, reply, after =>
    Turn master (master.putStart tenantId cacheKey len count) reply after
  | .putEnd tenantId cacheKey, reply, after => Turn master (master.putEnd tenantId cacheKey) reply after
  | .putRevoke tenantId cacheKey, reply, after => Turn master (master.putRevoke tenantId cacheKey) reply after
  | _, _, after => after = master

section
variable {history : List (I × GatewayEvent)} {key : ObjectKey} {replica : ReplicaDescriptor} {bytes : List UInt8}

theorem Sent.snoc (h : Sent history key bytes) (entry : I × GatewayEvent) : Sent (history ++ [entry]) key bytes := by
  obtain ⟨i, nodeId, handle, reply, member⟩ := h
  exact ⟨i, nodeId, handle, reply, List.mem_append_left _ member⟩

theorem Sent.le_snoc (entry : I × GatewayEvent) : Sent history ≤ Sent (history ++ [entry]) :=
  fun _ _ sent => sent.snoc entry

theorem Sent.last {i : I} {nodeId : String} {handle : ChunkHandle} {reply : GatewayResult Unit} :
    Sent (history ++ [(i, ⟨.writePreallocatedChunk nodeId key.1 key.2 handle bytes, reply⟩)]) key bytes :=
  ⟨i, nodeId, handle, reply, List.mem_append_right _ (List.mem_singleton_self _)⟩

theorem Granted.of_snoc {i : I} {event : GatewayEvent}
    (other : ∀ tenantId cacheKey len count replicas,
      event ≠ ⟨.putStart tenantId cacheKey len count, .ok replicas⟩)
    (h : Granted (history ++ [(i, event)]) key replica) : Granted history key replica :=
  h.imp fun _ issued => issued.of_snoc other

/-- After a reservation of one replica, what is granted was granted before it or is that replica. -/
private theorem Granted.of_putStart {i : I} {granted : ObjectKey} {len count : Nat} {reserved : ReplicaDescriptor}
    (h : Granted (history ++ [(i, ⟨.putStart granted.1 granted.2 len count, .ok [reserved]⟩)]) key replica) :
    Granted history key replica ∨ key = granted ∧ replica = reserved := by
  obtain ⟨j, len, count, replicas, member, listed⟩ := h
  rcases List.mem_append.mp member with member | last
  · exact .inl ⟨j, len, count, replicas, member, listed⟩
  · cases key
    cases granted
    cases List.mem_singleton.mp last
    exact .inr ⟨rfl, List.mem_singleton.mp listed⟩

end

namespace Extents
variable {placed : Owners} {history : List (I × GatewayEvent)} {master after : MasterState} {i : I}

/-- The segment and the objects' replicas are kept. -/
theorem retain (h : Extents placed history master) {commits : Prop} (retains : MasterState.Retains commits master after) :
    Extents placed history after := by
  obtain ⟨segment, only, below⟩ := h.below
  refine { h with below := ⟨segment, by rw [retains.allocator, only], below⟩, objects := ?_ }
  intro key object found replica listed
  obtain ⟨old, before, same, _⟩ := retains.objects _ _ found
  exact h.objects key old before replica (same ▸ listed)

theorem idle (h : Extents placed history master) {event : GatewayEvent} (idle : event.Idle) :
    Extents placed (history ++ [(i, event)]) master := by
  refine { h with granted := fun key replica granted => h.granted key replica (granted.of_snoc idle.1), listed := ?_ }
  intro j key replicaList member replica listed
  rcases List.mem_append.mp member with member | last
  · exact h.listed j key replicaList member replica listed
  · exact absurd (congrArg Prod.snd (List.mem_singleton.mp last)).symm (idle.2 _ _ _)

/-- The list tells the replicas of an object. -/
theorem list (h : Extents placed history master) {tenantId : TenantId} {cacheKey : CacheKey} {nowMs : Nat} :
    Extents placed (history ++ [(i, ⟨.getReplicaList tenantId cacheKey,
      cacheResult (master.getReplicaList tenantId cacheKey nowMs).1⟩)])
      (master.getReplicaList tenantId cacheKey nowMs).2 := by
  have kept := h.retain (master.apply_retains (.getReplicaList tenantId cacheKey nowMs) rfl)
  refine { kept with
    granted := fun key replica granted => h.granted key replica (granted.of_snoc (by simp)), listed := ?_ }
  intro j key replicaList member replica listed
  rcases List.mem_append.mp member with member | last
  · exact h.listed j key replicaList member replica listed
  · simp only [List.mem_singleton, Prod.mk.injEq, Event.mk.injEq, Call.getReplicaList.injEq] at last
    obtain ⟨_, ⟨rfl, rfl⟩, same⟩ := last
    obtain ⟨object, found, _, replicas⟩ := MasterState.getReplicaList_replicas (cacheResult_eq_ok.mp (eq_of_heq same).symm)
    exact h.objects key object found replica (replicas ▸ listed)

/-- A reservation, whether or not its reply is heard: the extent at the free end of the segment meets no other. -/
theorem reserve (h : Extents placed history master) (key : ObjectKey) {len : Nat} {segment : MountedSegment}
    (only : master.allocator.segments = [segment]) (positive : 0 < len)
    (moved : after.allocator.segments = [{ segment with nextOffset := segment.nextOffset + len }])
    (objects : after.objects = master.objects.insert key
      ⟨key.1, key.2, len, .reserving, [⟨segment.nodeId, segment.nextOffset, len⟩], false, none⟩)
    {count : Nat} {reply : GatewayResult (List ReplicaDescriptor)}
    (told : reply = .ok [⟨segment.nodeId, segment.nextOffset, len⟩] ∨ ∃ err, reply = .error err) :
    Extents (fun other replica => placed other replica ∨ other = key ∧ replica = ⟨segment.nodeId, segment.nextOffset, len⟩)
      (history ++ [(i, ⟨.putStart key.1 key.2 len count, reply⟩)]) after := by
  obtain ⟨found, same, below⟩ := h.below
  rw [only, List.cons.injEq] at same
  obtain ⟨rfl, _⟩ := same
  refine ⟨⟨_, moved, ?_⟩, ?_, ?_, ?_, ?_⟩
  · rintro other replica (old | ⟨_, rfl⟩)
    · have := below other replica old
      simp only
      omega
    · exact ⟨positive, Nat.le_refl _⟩
  · rintro first second replica another (old | ⟨rfl, rfl⟩) (new | ⟨rfl, rfl⟩) overlap
    · exact h.apart first second replica another old new overlap
    · have := below _ _ old
      simp only [ChunkHandle.Overlaps, ChunkHandle.fromReplica] at overlap
      omega
    · have := below _ _ new
      simp only [ChunkHandle.Overlaps, ChunkHandle.fromReplica] at overlap
      omega
    · exact ⟨rfl, rfl⟩
  · intro other object found replica listed
    rw [objects] at found
    rcases eq_or_ne other key with rfl | hne
    · rw [Finmap.lookup_insert, Option.some.injEq] at found
      subst found
      exact .inr ⟨rfl, List.mem_singleton.mp listed⟩
    · rw [Finmap.lookup_insert_of_ne _ hne] at found
      exact .inl (h.objects other object found replica listed)
  · intro other replica granted
    rcases told with rfl | ⟨err, rfl⟩
    · exact granted.of_putStart.imp (h.granted other replica) id
    · exact .inl (h.granted other replica (granted.of_snoc (by simp)))
  · intro j other replicaList member replica listed
    rcases List.mem_append.mp member with member | last
    · exact .inl (h.listed j other replicaList member replica listed)
    · cases List.mem_singleton.mp last

/-- Whatever the master answers, and whether or not the answer is heard. -/
theorem turn (h : Extents placed history master) {past : List GatewayEvent} {call : Call} {reply : call.Reply}
    (ready : Disciplined past call) (turns : MasterTurn master call reply after) : ∃ given : Owners,
      (∀ key replica, placed key replica → given key replica) ∧ Extents given (history ++ [(i, ⟨call, reply⟩)]) after := by
  have same (given : Extents placed (history ++ [(i, ⟨call, reply⟩)]) after) : ∃ given : Owners,
      (∀ key replica, placed key replica → given key replica) ∧ Extents given (history ++ [(i, ⟨call, reply⟩)]) after :=
    ⟨placed, fun _ _ => id, given⟩
  cases call with
  | getReplicaList tenantId cacheKey =>
    obtain ⟨nowMs, ⟨rfl, rfl⟩ | ⟨⟨err, rfl⟩, rfl | rfl⟩⟩ := turns
    · exact same h.list
    · exact same (h.idle ⟨by simp, by simp⟩)
    · have kept := h.retain (master.apply_retains (.getReplicaList tenantId cacheKey nowMs) rfl)
      exact same (kept.idle ⟨by simp, by simp⟩)
  | putStart tenantId cacheKey len count =>
    obtain rfl : count = 1 := ready
    obtain ⟨segment, only, _⟩ := h.below
    rcases MasterState.putStart_single only tenantId cacheKey len with
      ⟨err, he⟩ | ⟨placed', he, positive, _, moved, objects⟩
    · simp only [MasterTurn, Turn, he, cacheResult_error] at turns
      obtain ⟨rfl, rfl⟩ | ⟨⟨err, rfl⟩, rfl | rfl⟩ := turns
      · exact same (h.idle ⟨by simp, by simp⟩)
      · exact same (h.idle ⟨by simp, by simp⟩)
      · exact same (h.idle ⟨by simp, by simp⟩)
    · simp only [MasterTurn, Turn, he, cacheResult_ok] at turns
      obtain ⟨rfl, rfl⟩ | ⟨⟨err, rfl⟩, rfl | rfl⟩ := turns
      · exact ⟨_, fun _ _ => .inl, h.reserve (tenantId, cacheKey) only positive moved objects (.inl rfl)⟩
      · exact same (h.idle ⟨by simp, by simp⟩)
      · exact ⟨_, fun _ _ => .inl, h.reserve (tenantId, cacheKey) only positive moved objects (.inr ⟨err, rfl⟩)⟩
  | putEnd tenantId cacheKey =>
    have ended := h.retain (master.apply_retains (.putEnd tenantId cacheKey) rfl)
    obtain ⟨_, rfl⟩ | ⟨_, rfl | rfl⟩ := turns
    · exact same (ended.idle ⟨by simp, by simp⟩)
    · exact same (h.idle ⟨by simp, by simp⟩)
    · exact same (ended.idle ⟨by simp, by simp⟩)
  | putRevoke tenantId cacheKey =>
    have revoked := h.retain (master.apply_retains (.putRevoke tenantId cacheKey) rfl)
    obtain ⟨_, rfl⟩ | ⟨_, rfl | rfl⟩ := turns
    · exact same (revoked.idle ⟨by simp, by simp⟩)
    · exact same (h.idle ⟨by simp, by simp⟩)
    · exact same (revoked.idle ⟨by simp, by simp⟩)
  | _ =>
    obtain rfl := turns
    exact same (h.idle ⟨by simp, by simp⟩)

end Extents

/-- What was sent to the stores, and under which key. -/
abbrev Payloads := ObjectKey → List UInt8 → Prop

/-- Every chunk of the store lies on an extent that was given away, and holds what was sent under its key. -/
def ChunksSent (placed : Owners) (sent : Payloads) (store : MemoryStore) : Prop :=
  ∀ offset chunk, store.allocations.lookup offset = some chunk → ∃ key replica, placed key replica ∧
    replica.offset = offset ∧ replica.len = chunk.len ∧ offset + chunk.len ≤ store.capacity ∧
      sent key (slice store.arena offset chunk.len)

namespace ChunksSent
variable {placed given : Owners} {sent later : Payloads} {history : List (I × GatewayEvent)} {store : MemoryStore}
  {master : MasterState} {key : ObjectKey} {replica : ReplicaDescriptor} {bytes : List UInt8}

theorem mono (h : ChunksSent placed sent store) (more : placed ≤ given) (grown : sent ≤ later) :
    ChunksSent given later store := by
  intro offset chunk found
  obtain ⟨key, replica, owner, start, len, room, written⟩ := h offset chunk found
  exact ⟨key, replica, more _ _ owner, start, len, room, grown _ _ written⟩

theorem withCapacity (capacity : Nat) : ChunksSent placed sent (.withCapacity capacity) := by
  intro offset chunk found
  simp [MemoryStore.withCapacity] at found

variable [Sha256]

/-- Bytes that were sent under a key are put on an extent of the key. -/
theorem filled (h : ChunksSent placed sent store) (extents : Extents placed history master)
    (mine : placed key replica) (offered : sent key bytes) (same : bytes.length = replica.len)
    (fits : store.Fits (.fromReplica replica)) : ChunksSent placed sent (store.filled (.fromReplica replica) bytes) := by
  have length : bytes.length = (ChunkHandle.fromReplica replica).len := same
  intro offset chunk found
  rw [MemoryStore.filled_capacity length fits]
  rcases eq_or_ne offset replica.offset with rfl | hne
  · simp only [MemoryStore.filled, ChunkHandle.fromReplica, Finmap.lookup_insert, Option.some.injEq] at found
    subst found
    refine ⟨key, replica, mine, rfl, rfl, fits.2.2, ?_⟩
    simp only [MemoryStore.filled, ChunkHandle.fromReplica]
    rwa [← same, slice_splice_same (length ▸ fits.2.2)]
  · simp only [MemoryStore.filled, ChunkHandle.fromReplica, Finmap.lookup_insert_of_ne _ hne] at found
    obtain ⟨other, another, owner, rfl, len, room, stays⟩ := h offset chunk found
    refine ⟨other, another, owner, rfl, len, room, ?_⟩
    have away : ¬ (ChunkHandle.fromReplica another).Overlaps (.fromReplica replica) := fun overlap =>
      hne (congrArg ReplicaDescriptor.offset (extents.apart _ _ _ _ owner mine overlap).2)
    simp only [ChunkHandle.Overlaps, ChunkHandle.fromReplica] at away
    have positive : 0 < replica.len := fits.1
    have kept : slice (store.filled (.fromReplica replica) bytes).arena another.offset chunk.len =
        slice store.arena another.offset chunk.len := by
      refine slice_splice_of_disjoint (length ▸ fits.2.2) ?_
      simp only [ChunkHandle.fromReplica]
      omega
    rwa [kept]

theorem write (h : ChunksSent placed sent store) (extents : Extents placed history master)
    (mine : placed key replica) (offered : sent key bytes) :
    ChunksSent placed sent (store.writePreallocatedChunk (.fromReplica replica) bytes).2 := by
  rcases store.writePreallocatedChunk_cases (.fromReplica replica) bytes with ⟨_, he⟩ | ⟨same, fits, he⟩ <;> rw [he]
  · exact h
  · exact h.filled extents mine offered same fits

/-- A successful read of an extent of the key finds what was sent under it. -/
theorem read (h : ChunksSent placed sent store) (extents : Extents placed history master)
    (mine : placed key replica) (found : store.readChunk (.fromReplica replica) = .ok bytes) : sent key bytes := by
  obtain ⟨stored, _, _, same⟩ := MemoryStore.readChunk_eq_ok.mp found
  obtain ⟨other, another, owner, offset, len, _, written⟩ := h _ _ stored
  obtain ⟨segment, _, below⟩ := extents.below
  have positive := (below _ _ mine).1
  simp only [ChunkHandle.fromReplica] at same offset len written
  obtain ⟨rfl, rfl⟩ := extents.apart _ _ _ _ mine owner (by
    simp only [ChunkHandle.Overlaps, ChunkHandle.fromReplica]
    omega)
  rwa [same] at written

end ChunksSent

/-- Whatever was read was sent under the reader's key. -/
def ReadsSent (sent : Payloads) (history : List (I × GatewayEvent)) : Prop := ∀ j key handle chunk,
  (j, ⟨.readChunk key.1 key.2 handle, .ok chunk⟩) ∈ history → sent key chunk.bytes

namespace ReadsSent
variable {sent later : Payloads} {history : List (I × GatewayEvent)} {i : I} {event : GatewayEvent}

theorem mono (h : ReadsSent sent history) (grown : sent ≤ later) : ReadsSent later history :=
  fun j key handle chunk member => grown _ _ (h j key handle chunk member)

theorem snoc (h : ReadsSent sent history)
    (last : ∀ key handle chunk, event = ⟨.readChunk key.1 key.2 handle, .ok chunk⟩ → sent key chunk.bytes) :
    ReadsSent sent (history ++ [(i, event)]) := by
  intro j key handle chunk member
  rcases List.mem_append.mp member with old | new
  · exact h j key handle chunk old
  · exact last key handle chunk (congrArg Prod.snd (List.mem_singleton.mp new)).symm

end ReadsSent

/-- The extents, what the store holds of them, and what was read. -/
structure Traced (history : List (I × GatewayEvent)) (world : CacheWorld MemoryStore) : Prop where
  store : ∃ placed, Extents placed history world.master ∧ ChunksSent placed (Sent history) world.stores
  reads : ReadsSent (Sent history) history

namespace Traced
variable {history : List (I × GatewayEvent)} {world world' : CacheWorld MemoryStore} {i : I}

theorem retain (h : Traced history world) {commits : Prop}
    (retains : MasterState.Retains commits world.master world'.master) (stores : world'.stores = world.stores) :
    Traced history world' := by
  obtain ⟨placed, extents, chunks⟩ := h.store
  exact ⟨⟨placed, extents.retain retains, stores ▸ chunks⟩, h.reads⟩

/-- A call that reads nothing and leaves the store. -/
theorem turn (h : Traced history world) {past : List GatewayEvent} {call : Call} {reply : call.Reply}
    (ready : Disciplined past call) (turns : MasterTurn world.master call reply world'.master)
    (stores : world'.stores = world.stores) (unread : ∀ (key : ObjectKey) handle chunk,
      (⟨call, reply⟩ : GatewayEvent) ≠ ⟨.readChunk key.1 key.2 handle, .ok chunk⟩) :
    Traced (history ++ [(i, ⟨call, reply⟩)]) world' := by
  obtain ⟨placed, extents, chunks⟩ := h.store
  obtain ⟨given, more, extents⟩ := extents.turn (i := i) ready turns
  exact ⟨⟨given, extents, stores ▸ chunks.mono more (Sent.le_snoc _)⟩,
    (h.reads.mono (Sent.le_snoc _)).snoc fun key handle chunk same => absurd same (unread key handle chunk)⟩

theorem idle (h : Traced history world) {event : GatewayEvent} (idle : event.Idle)
    (unread : ∀ (key : ObjectKey) handle chunk, event ≠ ⟨.readChunk key.1 key.2 handle, .ok chunk⟩) :
    Traced (history ++ [(i, event)]) world := by
  obtain ⟨placed, extents, chunks⟩ := h.store
  exact ⟨⟨placed, extents.idle idle, chunks.mono le_rfl (Sent.le_snoc _)⟩,
    (h.reads.mono (Sent.le_snoc _)).snoc fun key handle chunk same => absurd same (unread key handle chunk)⟩

end Traced

/-! One store in the gateway's process. -/

section
variable [Sha256]

theorem LocalStore.readChunk_ok {store : MemoryStore} {tenantId : TenantId} {cacheKey : CacheKey} {handle : ChunkHandle}
    {chunk : StoreChunk} (h : localStoreClient.readChunk store tenantId cacheKey handle = .ok chunk) :
    store.readChunk handle = .ok chunk.bytes := by
  unfold localStoreClient at h
  dsimp only at h
  split at h
  · cases h
    assumption
  · cases h

omit [Sha256] in
theorem freshCache_extents (nodeId : String) (len : Nat) :
    Extents (fun _ _ => False) ([] : List (I × GatewayEvent)) (MasterState.new.mountSegment nodeId len) where
  below := ⟨⟨nodeId, len, 0⟩, rfl, fun _ _ given => given.elim⟩
  apart _ _ _ _ given := given.elim
  objects _ object found := by simp [MasterState.mountSegment, MasterState.new] at found
  granted _ _ := fun ⟨_, _, _, _, member, _⟩ => by cases member
  listed _ _ _ member := by cases member

variable [DecidableEq I]

/-- A call that keeps the discipline, answered by the cache. -/
private theorem Traced.call {history : List (I × GatewayEvent)} {world world' : CacheWorld MemoryStore} {i : I}
    {call : Call} {reply : call.Reply} (h : Traced history world)
    (ready : Disciplined (Pool.own history i) call)
    (served : world.Serves localStoreClient call reply world' ∨ world.Fails localStoreClient call reply world') :
    Traced (history ++ [(i, ⟨call, reply⟩)]) world' := by
  cases call with
  | getReplicaList tenantId cacheKey =>
    obtain ⟨nowMs, rfl, rfl⟩ := served.resolve_right id
    exact h.turn ready ⟨nowMs, .inl ⟨rfl, rfl⟩⟩ rfl (by simp)
  | putStart tenantId cacheKey len count =>
    obtain ⟨rfl, rfl⟩ := served.resolve_right id
    exact h.turn ready (.inl ⟨rfl, rfl⟩) rfl (by simp)
  | putEnd tenantId cacheKey | putRevoke tenantId cacheKey =>
    rcases served with ⟨rfl, rfl⟩ | ⟨failed, rfl | rfl⟩
    · exact h.turn ready (.inl ⟨rfl, rfl⟩) rfl (by simp)
    · exact h.turn ready (.inr ⟨failed, .inl rfl⟩) rfl (by simp)
    · exact h.turn ready (.inr ⟨failed, .inr rfl⟩) rfl (by simp)
  | readChunk tenantId cacheKey handle =>
    obtain ⟨replicaList, listed, replica, member, rfl⟩ := ready
    obtain ⟨rfl, rfl⟩ := served.resolve_right id
    obtain ⟨placed, extents, chunks⟩ := h.store
    have mine := extents.listed i (tenantId, cacheKey) replicaList (Pool.mem_own.mp listed) replica member
    refine ⟨⟨placed, extents.idle ⟨by simp, by simp⟩, chunks.mono le_rfl (Sent.le_snoc _)⟩,
      (h.reads.mono (Sent.le_snoc _)).snoc ?_⟩
    intro key handle chunk same
    simp only [Event.mk.injEq, Call.readChunk.injEq] at same
    obtain ⟨⟨rfl, rfl, rfl⟩, same⟩ := same
    exact (chunks.read extents mine (LocalStore.readChunk_ok (eq_of_heq same))).snoc _
  | writePreallocatedChunk nodeId tenantId cacheKey handle bytes =>
    obtain ⟨len, count, replicas, reserved, replica, member, rfl⟩ := ready
    have unwritten : Traced (history ++ [(i, ⟨.writePreallocatedChunk nodeId tenantId cacheKey
        (.fromReplica replica) bytes, reply⟩)]) world := h.idle ⟨by simp, by simp⟩ (by simp)
    obtain ⟨placed, extents, chunks⟩ := unwritten.store
    have mine := extents.granted (tenantId, cacheKey) replica
      ⟨i, len, count, replicas, List.mem_append_left _ (Pool.mem_own.mp reserved), member⟩
    have written := chunks.write extents mine (show Sent _ (tenantId, cacheKey) bytes from .last)
    have stored : Traced (history ++ [(i, ⟨.writePreallocatedChunk nodeId tenantId cacheKey
        (.fromReplica replica) bytes, reply⟩)]) { world with stores := (localStoreClient.write world.stores
          ⟨nodeId, tenantId, cacheKey, .fromReplica replica, bytes⟩).2 } :=
      ⟨⟨placed, extents, by simpa using written⟩, unwritten.reads⟩
    rcases served with ⟨_, rfl⟩ | ⟨_, rfl | rfl⟩
    · exact stored
    · exact unwritten
    · exact stored
  | _ => exact (served.elim id id).elim

/-- Whatever the gateway's requests do, as long as each keeps the discipline, and whatever the cache loses. -/
theorem run_traced {vendor : (call : Call) → call.Reply → Prop} {nodeId : String} {len capacity maxWaiters : Nat}
    {programs : I → Flow (GatewayResult GatewayResponse)}
    {post : I → List GatewayEvent → GatewayResult GatewayResponse → Prop}
    {trace : List (Pool.Label I (GatewayAction MasterOp) Call Call.Reply)} {s : GatewayPool I (CacheWorld MemoryStore)}
    (disciplined : ∀ i, (programs i).Meets Disciplined (post i) [])
    (run : Run (Pool.Step (GatewayWorld.server (CacheWorld.server localStoreClient fun op => op.grows = false) vendor))
      (Pool.initial ⟨freshCache nodeId len capacity, .new maxWaiters⟩ programs) trace s) :
    Traced s.history s.world.cache := by
  refine run.invariant (P := fun _ s => Traced s.history s.world.cache)
    ⟨⟨_, freshCache_extents nodeId len, .withCapacity capacity⟩, fun _ _ _ _ member => by cases member⟩
    fun {_ s _ _} before h step => ?_
  cases step with
  | @call i call next reply world pending served =>
    have ready := Pool.run_meets (disciplined i) before
    rw [pending] at ready
    rcases served.cache_cases with ⟨kind, same⟩ | served
    · rw [← same] at h
      exact h.idle (GatewayEvent.idle_of_kind kind.1 kind.2) (GatewayEvent.unread_of_kind kind.2)
    · exact h.call ready.1 served
  | @act action world acted =>
    cases action with
    | cache op =>
      obtain ⟨cache, ⟨allowed, ⟨_, master⟩, stores⟩, rfl⟩ := acted
      have retains := s.world.cache.master.apply_retains op allowed
      rw [← master] at retains
      exact h.retain retains stores
    | _ =>
      obtain ⟨_, _, rfl⟩ := acted
      exact h

end
end Mooncache
