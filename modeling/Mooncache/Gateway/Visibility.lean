import Mooncache.Gateway.CacheAccess
import Mooncache.Gateway.CacheServer

/-! Who holds the reservation of a key that several writers store. Commits and
revocations name the key only, so ownership rests on the writers not overlapping. -/
namespace Mooncache

/-- What a node holds at a handle, as far as a client's own writes tell. -/
structure StoreClient.Contents {S : Type} (client : StoreClient S) where
  holds : S → String → ChunkHandle → List UInt8 → Prop
  written : ∀ s chunk s', client.write s chunk = (.ok (), s') → holds s' chunk.nodeId chunk.handle chunk.bytes
  kept : ∀ s chunk, holds s chunk.nodeId chunk.handle chunk.bytes →
    holds (client.write s chunk).2 chunk.nodeId chunk.handle chunk.bytes

section
variable [Sha256]

private theorem readChunk_rewritten {store : MemoryStore} {handle : ChunkHandle} {bytes : List UInt8}
    (h : store.readChunk handle = .ok bytes) :
    (store.writePreallocatedChunk handle bytes).2.readChunk handle = .ok bytes := by
  rcases store.writePreallocatedChunk_cases handle bytes with ⟨_, he⟩ | ⟨same, fits, he⟩ <;> rw [he]
  · exact h
  · exact MemoryStore.readChunk_filled same fits

private theorem readChunk_written {store store' : MemoryStore} {handle : ChunkHandle} {bytes : List UInt8}
    (h : store.writePreallocatedChunk handle bytes = (.ok (), store')) : store'.readChunk handle = .ok bytes := by
  rcases store.writePreallocatedChunk_cases handle bytes with ⟨_, he⟩ | ⟨same, fits, he⟩ <;> rw [he] at h
  · cases h
  · cases h
    exact MemoryStore.readChunk_filled same fits

/-- The one store reads back the bytes. -/
def localContents : localStoreClient.Contents where
  holds store _ handle bytes := store.readChunk handle = .ok bytes
  written store chunk store' h := by
    simp only [StoreClient.write, localStoreClient] at h
    split at h
    · rename_i done _ written
      cases h
      exact readChunk_written written
    · cases h
  kept store chunk h := by
    rw [StoreClient.localStoreClient_write_snd]
    exact readChunk_rewritten h

/-- The store behind the node's URL reads back the bytes. -/
def remoteContents (nodeUrls : NodeUrls) : (remoteStoreClient nodeUrls).Contents where
  holds servers nodeId handle bytes := ∃ baseUrl, nodeUrls.entries.lookup nodeId = some baseUrl ∧
    (servers baseUrl).readChunk handle = .ok bytes
  written servers chunk servers' h := by
    simp only [StoreClient.write, remoteStoreClient] at h
    split at h
    · cases h
    · rename_i baseUrl configured
      split at h
      · rename_i done store written
        cases h
        exact ⟨baseUrl, configured, by simpa using readChunk_written written⟩
      · cases h
  kept servers chunk := by
    rintro ⟨baseUrl, configured, h⟩
    refine ⟨baseUrl, configured, ?_⟩
    have rewritten := readChunk_rewritten h
    simp only [StoreClient.write, remoteStoreClient, configured]
    split <;> rename_i written <;> rw [written] at rewritten <;> simpa using rewritten

end
/-- The writers of one object: its key, and the bytes of each. -/
structure Contest (I : Type) where
  tenantId : TenantId
  cacheKey : CacheKey
  bytes : I → List UInt8

abbrev CachePool (I S : Type) := Pool I (CacheWorld S) Call Call.Reply Unit

namespace Contest
variable {I S : Type} [DecidableEq I] (contest : Contest I)

def programs (i : I) : Flow Unit :=
  (CacheClient.writer contest.tenantId contest.cacheKey (contest.bytes i)).program

def granted : I × GatewayEvent → Option I
  | (i, ⟨.putStart _ _ _ _, .ok _⟩) => some i
  | _ => none

/-- The thread whose reservation was granted last. -/
def holder (history : List (I × GatewayEvent)) : Option I := history.reverse.findSome? granted

/-- The thread's own reservation was granted with these replicas. -/
def Reserved (s : CachePool I S) (i : I) (replicas : List ReplicaDescriptor) : Prop :=
  CacheClient.Reserved contest.tenantId contest.cacheKey (contest.bytes i) (Pool.own s.history i) replicas

def Written (s : CachePool I S) (i : I) (replica : ReplicaDescriptor) : Prop :=
  CacheClient.Written contest.tenantId contest.cacheKey (contest.bytes i) (Pool.own s.history i) replica

/-- Between a granted reservation and the end of the writer. -/
def InFlight (s : CachePool I S) (i : I) : Prop :=
  (∃ replicas, contest.Reserved s i replicas) ∧ ∀ value, s.threads i ≠ .done value

/-- No reservation finds the object absent while another writer is in flight. -/
def Uncontended (s : CachePool I S) : Pool.Label I MasterOp Call Call.Reply → Prop
  | .call _ ⟨.putStart tenantId cacheKey _ _, _⟩ =>
    s.world.master.objects.lookup (tenantId, cacheKey) = none → ∀ i, ¬ contest.InFlight s i
  | _ => True

/-- What else may happen at the master: anything that neither reserves, mounts nor commits. -/
def allowed (op : MasterOp) : Prop := op.grows = false ∧ op.commits = false

/-- A writer about to commit or revoke finds its own reservation, or none. -/
def OwnReservation (s : CachePool I S) : Prop :=
  ∀ i next, s.threads i = .call (.putEnd contest.tenantId contest.cacheKey) next ∨
      s.threads i = .call (.putRevoke contest.tenantId contest.cacheKey) next →
    ∀ object, s.world.master.objects.lookup (contest.tenantId, contest.cacheKey) = some object →
      holder s.history = some i ∧ contest.Reserved s i object.replicas

/-- What a lookup returns was reserved by one writer and holds that writer's bytes. -/
def CompleteWhenVisible {client : StoreClient S} (contents : client.Contents) (s : CachePool I S) : Prop :=
  ∀ nowMs replicaList,
    (s.world.master.getReplicaList contest.tenantId contest.cacheKey nowMs).1 = .ok replicaList →
      ∃ i, holder s.history = some i ∧ contest.Reserved s i replicaList.replicas ∧
        ∀ replica ∈ replicaList.replicas,
          contents.holds s.world.stores replica.nodeId (.fromReplica replica) (contest.bytes i)

structure Owned {client : StoreClient S} (contents : client.Contents) (s : CachePool I S) : Prop where
  inFlight : ∀ i, contest.InFlight s i → holder s.history = some i
  object : ∀ object, s.world.master.objects.lookup (contest.tenantId, contest.cacheKey) = some object →
    ∃ i, holder s.history = some i ∧ contest.Reserved s i object.replicas ∧
      (object.status = .committed → ∀ replica ∈ object.replicas, contest.Written s i replica)
  single : ∀ i replicas, contest.Reserved s i replicas → ∃ replica, replicas = [replica]
  written : ∀ i replica, contest.Written s i replica → contest.Reserved s i [replica]
  held : ∀ i replica, holder s.history = some i → contest.Written s i replica →
    contents.holds s.world.stores replica.nodeId (.fromReplica replica) (contest.bytes i)

variable {contest} {client : StoreClient S} {contents : client.Contents} {s : CachePool I S} {world : CacheWorld S}

omit [DecidableEq I] in
theorem holder_snoc (history : List (I × GatewayEvent)) (entry : I × GatewayEvent) :
    holder (history ++ [entry]) = (granted entry).or (holder history) := by
  rw [holder, List.reverse_append, List.reverse_singleton, List.singleton_append, List.findSome?_cons]
  cases granted entry <;> rfl

/-- The world changes beside the threads, without a commit. -/
private theorem Owned.act (h : contest.Owned contents s)
    (retains : MasterState.Retains False s.world.master world.master) (stores : world.stores = s.world.stores) :
    contest.Owned contents { s with world := world } := by
  refine ⟨h.inFlight, fun object found => ?_, h.single, h.written, fun i replica held written => ?_⟩
  · obtain ⟨old, before, same, status⟩ := retains.objects _ _ found
    obtain ⟨i, held, reserved, written⟩ := h.object old before
    exact ⟨i, held, same ▸ reserved, fun committed replica hr =>
      written ((status committed).resolve_right id) replica (same ▸ hr)⟩
  · rw [stores]
    exact h.held i replica held written

/-- A call that is no granted reservation, by a writer that has not ended. -/
private theorem Owned.call (h : contest.Owned contents s) {i : I} {event : GatewayEvent} {rest : Flow Unit}
    (pending : ∀ value, s.threads i ≠ .done value) (ungranted : granted (i, event) = none) {commits : Prop}
    (retains : MasterState.Retains commits s.world.master world.master)
    (complete : commits → ∃ replicas, contest.Reserved s i replicas ∧ ∀ replica ∈ replicas, contest.Written s i replica)
    (writes : ∀ replica, event = ⟨.writePreallocatedChunk replica.nodeId contest.tenantId contest.cacheKey
      (.fromReplica replica) (contest.bytes i), .ok ()⟩ → contest.Reserved s i [replica])
    (stores : ∀ j replica, holder s.history = some j →
      (contest.Written s j replica ∨ j = i ∧ event = ⟨.writePreallocatedChunk replica.nodeId contest.tenantId
        contest.cacheKey (.fromReplica replica) (contest.bytes i), .ok ()⟩) →
      contents.holds world.stores replica.nodeId (.fromReplica replica) (contest.bytes j)) :
    contest.Owned contents ⟨world, Function.update s.threads i rest, s.history ++ [(i, event)]⟩ := by
  have reserved (j : I) (replicas : List ReplicaDescriptor) :
      contest.Reserved ⟨world, Function.update s.threads i rest, s.history ++ [(i, event)]⟩ j replicas ↔
        contest.Reserved s j replicas := by
    simp only [Reserved]
    rcases eq_or_ne j i with rfl | hne
    · rw [Pool.own_snoc_self]
      refine ⟨fun hr => ?_, fun hr => hr.snoc _⟩
      rcases hr.of_snoc with hr | ⟨_, rfl⟩
      · exact hr
      · cases ungranted
    · rw [Pool.own_snoc_of_ne _ hne]
  have written {j : I} {replica : ReplicaDescriptor}
      (hw : contest.Written ⟨world, Function.update s.threads i rest, s.history ++ [(i, event)]⟩ j replica) :
      contest.Written s j replica ∨ j = i ∧ event = ⟨.writePreallocatedChunk replica.nodeId contest.tenantId
        contest.cacheKey (.fromReplica replica) (contest.bytes i), .ok ()⟩ := by
    simp only [Written] at hw
    rcases eq_or_ne j i with rfl | hne
    · rw [Pool.own_snoc_self] at hw
      exact (List.mem_append.mp hw).imp_right fun last => ⟨rfl, (List.mem_singleton.mp last).symm⟩
    · rw [Pool.own_snoc_of_ne _ hne] at hw
      exact .inl hw
  have holds : holder (s.history ++ [(i, event)]) = holder s.history := by
    rw [holder_snoc, ungranted, Option.none_or]
  have grows {j : I} {replica : ReplicaDescriptor} (hw : contest.Written s j replica) :
      contest.Written ⟨world, Function.update s.threads i rest, s.history ++ [(i, event)]⟩ j replica := by
    simp only [Written]
    rcases eq_or_ne j i with rfl | hne
    · rw [Pool.own_snoc_self]
      exact hw.snoc _
    · rw [Pool.own_snoc_of_ne _ hne]
      exact hw
  refine ⟨fun j flight => ?_, fun object found => ?_, fun j replicas hr => h.single j replicas ((reserved _ _).mp hr),
    fun j replica hw => ?_, fun j replica held hw => ?_⟩
  · obtain ⟨⟨replicas, hr⟩, going⟩ := flight
    rw [holds]
    refine h.inFlight j ⟨⟨replicas, (reserved _ _).mp hr⟩, ?_⟩
    rcases eq_or_ne j i with rfl | hne
    · exact pending
    · simpa [hne] using going
  · obtain ⟨old, before, same, status⟩ := retains.objects _ _ found
    obtain ⟨j, held, hr, done⟩ := h.object old before
    refine ⟨j, holds.trans held, (reserved _ _).mpr (same ▸ hr), fun committed replica member => ?_⟩
    rcases status committed with earlier | now
    · exact grows (done earlier replica (same ▸ member))
    · obtain ⟨replicas, mine, all⟩ := complete now
      have owner := h.inFlight i ⟨⟨replicas, mine⟩, pending⟩
      rw [held, Option.some.injEq] at owner
      subst owner
      exact grows (all replica (mine.unique hr ▸ same ▸ member))
  · rcases written hw with hw | ⟨rfl, he⟩
    · exact (reserved _ _).mpr (h.written j replica hw)
    · exact (reserved _ _).mpr (writes replica he)
  · exact stores j replica (holds ▸ held) (written hw)

/-- A call to the master that is no granted reservation. -/
private theorem Owned.manage (h : contest.Owned contents s) {i : I} {event : GatewayEvent} {rest : Flow Unit}
    (pending : ∀ value, s.threads i ≠ .done value) (ungranted : granted (i, event) = none)
    (unwritten : ∀ nodeId tenantId cacheKey handle bytes reply,
      event ≠ ⟨.writePreallocatedChunk nodeId tenantId cacheKey handle bytes, reply⟩) {commits : Prop}
    (retains : MasterState.Retains commits s.world.master world.master) (stores : world.stores = s.world.stores)
    (complete : commits → ∃ replicas, contest.Reserved s i replicas ∧ ∀ replica ∈ replicas, contest.Written s i replica) :
    contest.Owned contents ⟨world, Function.update s.threads i rest, s.history ++ [(i, event)]⟩ := by
  refine h.call pending ungranted retains complete (fun _ he => absurd he (unwritten _ _ _ _ _ _)) ?_
  rintro j replica held (written | ⟨_, he⟩)
  · rw [stores]
    exact h.held j replica held written
  · exact absurd he (unwritten _ _ _ _ _ _)

/-- A write of one's own replica. -/
private theorem Owned.write (h : contest.Owned contents s) {i : I} {replica : ReplicaDescriptor} {rest : Flow Unit}
    {reply : GatewayResult Unit} (pending : ∀ value, s.threads i ≠ .done value) (mine : contest.Reserved s i [replica])
    (master : world.master = s.world.master)
    (stores : (world.stores = s.world.stores ∧ reply ≠ .ok ()) ∨
      world.stores = (client.write s.world.stores
        ⟨replica.nodeId, contest.tenantId, contest.cacheKey, .fromReplica replica, contest.bytes i⟩).2 ∧
      (reply = .ok () → reply = (client.write s.world.stores
        ⟨replica.nodeId, contest.tenantId, contest.cacheKey, .fromReplica replica, contest.bytes i⟩).1)) :
    contest.Owned contents ⟨world, Function.update s.threads i rest, s.history ++
      [(i, ⟨.writePreallocatedChunk replica.nodeId contest.tenantId contest.cacheKey (.fromReplica replica)
        (contest.bytes i), reply⟩)]⟩ := by
  have owner := h.inFlight i ⟨⟨_, mine⟩, pending⟩
  have only (other : ReplicaDescriptor) (he : (⟨.writePreallocatedChunk replica.nodeId contest.tenantId
      contest.cacheKey (.fromReplica replica) (contest.bytes i), reply⟩ : GatewayEvent) =
      ⟨.writePreallocatedChunk other.nodeId contest.tenantId contest.cacheKey (.fromReplica other)
        (contest.bytes i), .ok ()⟩) : other = replica ∧ reply = .ok () := by
    simp only [Event.mk.injEq, Call.writePreallocatedChunk.injEq, ChunkHandle.fromReplica,
      ChunkHandle.mk.injEq, true_and] at he
    obtain ⟨⟨node, ⟨offset, len⟩, _⟩, he⟩ := he
    obtain ⟨_, _, _⟩ := other
    simp only at node offset len
    subst node offset len
    exact ⟨rfl, eq_of_heq he⟩
  have retains : MasterState.Retains False s.world.master world.master := by
    rw [master]
    exact .refl False _
  refine h.call pending rfl retains False.elim (fun other he => ?_) fun j other held written => ?_
  · rw [(only other he).1]
    exact mine
  · rw [owner, Option.some.injEq] at held
    subst held
    rcases written with written | ⟨_, he⟩
    · have same := (h.written i other written).unique mine
      simp only [List.cons.injEq, and_true] at same
      subst same
      have before := h.held i other owner written
      rcases stores with ⟨same, _⟩ | ⟨moved, _⟩
      · rw [same]
        exact before
      · rw [moved]
        exact contents.kept _ _ before
    · obtain ⟨rfl, done⟩ := only other he
      rcases stores with ⟨_, failed⟩ | ⟨moved, answered⟩
      · exact absurd done failed
      · rw [moved]
        exact contents.written _ _ _ (Prod.ext ((answered done).symm.trans done) rfl)

/-- A granted reservation, while nobody is in flight. -/
private theorem Owned.reserve (h : contest.Owned contents s) {i : I} {rest : Flow Unit} {replica : ReplicaDescriptor}
    (first : Pool.own s.history i = []) (free : ∀ j, ¬ contest.InFlight s j)
    (objects : world.master.objects = s.world.master.objects.insert (contest.tenantId, contest.cacheKey)
      ⟨contest.tenantId, contest.cacheKey, (contest.bytes i).length, .reserving, [replica], false, none⟩) :
    contest.Owned contents ⟨world, Function.update s.threads i rest, s.history ++
      [(i, ⟨.putStart contest.tenantId contest.cacheKey (contest.bytes i).length replicaCount, .ok [replica]⟩)]⟩ := by
  have holds : holder (s.history ++ [(i, ⟨.putStart contest.tenantId contest.cacheKey (contest.bytes i).length
      replicaCount, .ok [replica]⟩)]) = some i := holder_snoc _ _
  have mine : contest.Reserved ⟨world, Function.update s.threads i rest, s.history ++
      [(i, ⟨.putStart contest.tenantId contest.cacheKey (contest.bytes i).length replicaCount, .ok [replica]⟩)]⟩ i
      [replica] := by
    simp only [Reserved, Pool.own_snoc_self, first]
    rfl
  have unwritten (other : ReplicaDescriptor) : ¬ contest.Written ⟨world, Function.update s.threads i rest,
      s.history ++ [(i, ⟨.putStart contest.tenantId contest.cacheKey (contest.bytes i).length replicaCount,
        .ok [replica]⟩)]⟩ i other := by
    simp [Written, CacheClient.Written, first]
  refine ⟨fun j flight => ?_, fun object found => ?_, fun j replicas hr => ?_, fun j other hw => ?_,
    fun j other held hw => ?_⟩
  · rcases eq_or_ne j i with rfl | hne
    · exact holds
    · obtain ⟨⟨replicas, hr⟩, going⟩ := flight
      simp only [Reserved, Pool.own_snoc_of_ne _ hne] at hr
      exact absurd ⟨⟨replicas, hr⟩, by simpa [hne] using going⟩ (free j)
  · rw [objects, Finmap.lookup_insert, Option.some.injEq] at found
    subst found
    exact ⟨i, holds, mine, by simp⟩
  · rcases eq_or_ne j i with rfl | hne
    · exact ⟨replica, hr.unique mine⟩
    · simp only [Reserved, Pool.own_snoc_of_ne _ hne] at hr
      exact h.single j replicas hr
  · rcases eq_or_ne j i with rfl | hne
    · exact absurd hw (unwritten other)
    · simp only [Written, Reserved, Pool.own_snoc_of_ne _ hne] at hw ⊢
      exact h.written j other hw
  · rw [holds, Option.some.injEq] at held
    subst held
    exact absurd hw (unwritten other)

theorem Owned.step {s' : CachePool I S} {label : Pool.Label I MasterOp Call Call.Reply}
    (h : contest.Owned contents s) (uncontended : contest.Uncontended s label)
    (calls : ∀ i, (s.threads i).Meets (CacheClient.writer contest.tenantId contest.cacheKey (contest.bytes i)).Calls
      (fun _ _ => True) (Pool.own s.history i))
    (step : Pool.Step (CacheWorld.server client allowed) s label s') : contest.Owned contents s' := by
  cases step with
  | @act op world acted =>
    obtain ⟨⟨grows, commits⟩, ⟨_, master⟩, stores⟩ := acted
    have retains := s.world.master.apply_retains op grows
    rw [commits, ← master] at retains
    exact h.act ⟨retains.allocator, by simpa using retains.objects⟩ stores
  | @call i call next reply world pending served =>
    have guard := calls i
    rw [pending] at guard
    have going : ∀ value, s.threads i ≠ .done value := by simp [pending]
    obtain ⟨guard, _⟩ := guard
    cases call with
    | putStart tenantId cacheKey len count =>
      obtain ⟨first, rfl, rfl, rfl, rfl⟩ := guard
      obtain ⟨rfl, rfl⟩ := served.resolve_right id
      rcases s.world.master.putStart_cases contest.tenantId contest.cacheKey (contest.bytes i).length replicaCount with
        ⟨err, he⟩ | ⟨reserved, allocations, after, indexes, absent, _, _, _, _, one, spec, he⟩
      · simp only [he, cacheResult_error]
        exact h.manage going rfl (by simp) (.refl False _) rfl False.elim
      · obtain ⟨allocation, rfl⟩ := List.length_eq_one_iff.mp (spec.extents.length_eq.symm.trans one)
        simp only [he, cacheResult_ok]
        exact h.reserve first (uncontended absent) rfl
    | writePreallocatedChunk nodeId tenantId cacheKey handle bytes =>
      obtain ⟨rfl, rfl, rfl, replicas, mine, replica, hr, rfl, rfl⟩ := guard
      obtain ⟨only, rfl⟩ := h.single i replicas mine
      cases List.mem_singleton.mp hr
      rcases served with ⟨rfl, rfl⟩ | ⟨⟨err, rfl⟩, rfl | rfl⟩
      · exact h.write going mine rfl (.inr ⟨rfl, fun _ => rfl⟩)
      · exact h.write going mine rfl (.inl ⟨rfl, by simp⟩)
      · exact h.write going mine rfl (.inr ⟨rfl, by simp⟩)
    | putEnd tenantId cacheKey =>
      obtain ⟨rfl, rfl, replicas, mine, all⟩ := guard
      have ended := s.world.master.apply_retains (.putEnd contest.tenantId contest.cacheKey) rfl
      rcases served with ⟨rfl, rfl⟩ | ⟨⟨err, rfl⟩, rfl | rfl⟩
      · exact h.manage going rfl (by simp) ended rfl fun _ => ⟨replicas, mine, all⟩
      · exact h.manage going rfl (by simp) (.refl False _) rfl False.elim
      · exact h.manage going rfl (by simp) ended rfl fun _ => ⟨replicas, mine, all⟩
    | putRevoke tenantId cacheKey =>
      obtain ⟨rfl, rfl, replicas, mine⟩ := guard
      have revoked := s.world.master.apply_retains (.putRevoke contest.tenantId contest.cacheKey) rfl
      rcases served with ⟨rfl, rfl⟩ | ⟨⟨err, rfl⟩, rfl | rfl⟩
      · exact h.manage going rfl (by simp) revoked rfl (by simp [MasterOp.commits])
      · exact h.manage going rfl (by simp) (.refl False _) rfl False.elim
      · exact h.manage going rfl (by simp) revoked rfl (by simp [MasterOp.commits])
    | _ => exact guard.elim

variable (contents) in
/-- While reservations do not overlap, writers end their own reservations only, and what
is visible is complete. -/
theorem reservations_owned {trace : List (Pool.Label I MasterOp Call Call.Reply)}
    (absent : world.master.objects.lookup (contest.tenantId, contest.cacheKey) = none)
    (run : Run (Guarded contest.Uncontended (Pool.Step (CacheWorld.server client allowed)))
      (Pool.initial world contest.programs) trace s) :
    contest.OwnReservation s ∧ contest.CompleteWhenVisible contents s := by
  have meets {trace : List (Pool.Label I MasterOp Call Call.Reply)} {s : CachePool I S}
      (run : Run (Guarded contest.Uncontended (Pool.Step (CacheWorld.server client allowed)))
        (Pool.initial world contest.programs) trace s) (i : I) :
      (s.threads i).Meets (CacheClient.writer contest.tenantId contest.cacheKey (contest.bytes i)).Calls
        (fun _ _ => True) (Pool.own s.history i) :=
    Pool.run_meets (show (contest.programs i).Meets _ _ [] from CacheClient.program_meets _) run.of_guarded
  have owned : contest.Owned contents s := by
    refine run.invariant (P := fun _ s => contest.Owned contents s) ⟨?_, ?_, ?_, ?_, ?_⟩
      fun before h step => h.step step.1 (meets before) step.2
    · rintro i ⟨⟨_, reserved⟩, _⟩
      cases reserved
    · intro object found
      rw [Pool.initial, absent] at found
      cases found
    · intro i replicas reserved
      cases reserved
    · intro i replica written
      cases written
    · intro i replica held
      cases held
  refine ⟨fun i next pending object found => ?_, fun nowMs replicaList visible => ?_⟩
  · have guard := meets run i
    have reserved : ∃ replicas, contest.Reserved s i replicas := by
      rcases pending with pending | pending <;> rw [pending] at guard
      · exact guard.1.2.2.imp fun _ h => h.1
      · exact guard.1.2.2
    have holds := owned.inFlight i ⟨reserved, by rcases pending with pending | pending <;> simp [pending]⟩
    obtain ⟨j, held, mine, _⟩ := owned.object object found
    rw [holds, Option.some.injEq] at held
    subst held
    exact ⟨holds, mine⟩
  · rcases s.world.master.getReplicaList_cases contest.tenantId contest.cacheKey nowMs with
      missed | ⟨object, lease, leases, sequence, found, committed, hit⟩
    · rw [missed] at visible
      cases visible
    · rw [hit] at visible
      cases visible
      obtain ⟨i, holds, reserved, written⟩ := owned.object object found
      exact ⟨i, holds, reserved, fun replica hr => owned.held i replica holds (written committed replica hr)⟩

end Contest

private def twoWriters : Contest Bool where
  tenantId := ⟨"tenant-a"⟩
  cacheKey := ⟨"greeting"⟩
  bytes second := if second then [111, 107] else [104, 105]

/-- One writer stores its bytes, and they are visible. -/
theorem reservations_owned_of_one_writer :
    ∃ trace s, Run (Guarded twoWriters.Uncontended
        (Pool.Step (CacheWorld.server (@localStoreClient shortTextDigests) Contest.allowed)))
        (Pool.initial (freshCache "store-0" 16 16) twoWriters.programs) trace s ∧
      ∃ replicaList, (s.world.master.getReplicaList ⟨"tenant-a"⟩ ⟨"greeting"⟩ 0).1 = .ok replicaList ∧
        ∃ i, ∀ replica ∈ replicaList.replicas,
          @MemoryStore.readChunk shortTextDigests s.world.stores (.fromReplica replica) = .ok (twoWriters.bytes i) := by
  let _ := shortTextDigests
  have idle : Run (Guarded twoWriters.Uncontended (Pool.Step (CacheWorld.server localStoreClient Contest.allowed)))
    (Pool.initial (freshCache "store-0" 16 16) twoWriters.programs) [] _ := .start
  have run := idle.snoc ⟨by rintro _ i ⟨⟨_, ⟨⟩⟩, _⟩, .call (i := false) rfl (.inl ⟨rfl, rfl⟩)⟩
    |>.snoc ⟨by trivial, .call (i := false) rfl (.inl ⟨rfl, rfl⟩)⟩
    |>.snoc ⟨by trivial, .call (i := false) rfl (.inl ⟨rfl, rfl⟩)⟩
  obtain ⟨i, _, _, complete⟩ := (Contest.reservations_owned localContents rfl run).2 0 _ rfl
  exact ⟨_, _, run, _, rfl, i, complete⟩

/-- A commit that comes after a removal and another writer's reservation makes bytes
visible that nobody has written. -/
theorem overlapping_reservation_visible : ¬ ∀ trace s,
    Run (Pool.Step (CacheWorld.server (@localStoreClient shortTextDigests) Contest.allowed))
      (Pool.initial (freshCache "store-0" 16 16) twoWriters.programs) trace s →
        twoWriters.OwnReservation s ∧ twoWriters.CompleteWhenVisible (@localContents shortTextDigests) s := by
  let _ := shortTextDigests
  intro claimed
  have idle : Run (Pool.Step (CacheWorld.server localStoreClient Contest.allowed))
    (Pool.initial (freshCache "store-0" 16 16) twoWriters.programs) [] _ := .start
  have run := idle.snoc (.call (i := false) rfl (.inl ⟨rfl, rfl⟩))
    |>.snoc (CacheWorld.act_step _ (.remove ⟨"tenant-a"⟩ ⟨"greeting"⟩) ⟨rfl, rfl⟩ trivial)
    |>.snoc (.call (i := true) rfl (.inl ⟨rfl, rfl⟩)) |>.snoc (.call (i := false) rfl (.inl ⟨rfl, rfl⟩))
    |>.snoc (.call (i := false) rfl (.inl ⟨rfl, rfl⟩))
  obtain ⟨i, _, _, complete⟩ := (claimed _ _ run).2 0 _ rfl
  have read := complete ⟨"store-0", 2, 2⟩ (List.mem_singleton_self _)
  exact nomatch read

end Mooncache
