import Mooncache.Foundation.Threads
import Mooncache.Gateway.CacheFlow
import Mooncache.Master.Retention

/-! The master and the stores as a server of cache calls. -/
namespace Mooncache

structure CacheWorld (S : Type) where
  master : MasterState
  stores : S

/-- The conversion of a cache error into a gateway error. -/
def cacheResult {α : Type} : CacheResult α → GatewayResult α
  | .ok value => .ok value
  | .error err => .error (.cache err)

@[simp] theorem cacheResult_ok {α : Type} (value : α) : cacheResult (.ok value) = .ok value := rfl
@[simp] theorem cacheResult_error {α : Type} (err : CacheError) :
    cacheResult (.error err : CacheResult α) = .error (.cache err) := rfl

theorem cacheResult_eq_ok {α : Type} {result : CacheResult α} {value : α} :
    cacheResult result = .ok value ↔ result = .ok value := by
  cases result <;> simp

namespace CacheWorld
variable {S : Type}

/-- `LocalMasterClient` beside a store client: every call is one operation under a lock. -/
def Serves (client : StoreClient S) (s : CacheWorld S) : (call : Call) → call.Reply → CacheWorld S → Prop
  | .getReplicaList tenantId cacheKey, reply, s' => ∃ nowMs,
    reply = cacheResult (s.master.getReplicaList tenantId cacheKey nowMs).1 ∧
      s' = { s with master := (s.master.getReplicaList tenantId cacheKey nowMs).2 }
  | .putStart tenantId cacheKey len replicaCount, reply, s' =>
    reply = cacheResult (s.master.putStart tenantId cacheKey len replicaCount).1 ∧
      s' = { s with master := (s.master.putStart tenantId cacheKey len replicaCount).2 }
  | .putEnd tenantId cacheKey, reply, s' =>
    reply = cacheResult (s.master.putEnd tenantId cacheKey).1 ∧
      s' = { s with master := (s.master.putEnd tenantId cacheKey).2 }
  | .putRevoke tenantId cacheKey, reply, s' =>
    reply = cacheResult (s.master.putRevoke tenantId cacheKey).1 ∧
      s' = { s with master := (s.master.putRevoke tenantId cacheKey).2 }
  | .readChunk tenantId cacheKey handle, reply, s' =>
    reply = client.readChunk s.stores tenantId cacheKey handle ∧ s' = s
  | .writePreallocatedChunk nodeId tenantId cacheKey handle bytes, reply, s' =>
    reply = (client.write s.stores ⟨nodeId, tenantId, cacheKey, handle, bytes⟩).1 ∧
      s' = { s with stores := (client.write s.stores ⟨nodeId, tenantId, cacheKey, handle, bytes⟩).2 }
  | _, _, _ => False

/-- A chunk write, a commit or a revocation that is answered with an error, although it
may have taken effect. -/
def Fails (client : StoreClient S) (s : CacheWorld S) : (call : Call) → call.Reply → CacheWorld S → Prop
  | .putEnd tenantId cacheKey, reply, s' => (∃ err, reply = .error err) ∧
    (s' = s ∨ s' = { s with master := (s.master.putEnd tenantId cacheKey).2 })
  | .putRevoke tenantId cacheKey, reply, s' => (∃ err, reply = .error err) ∧
    (s' = s ∨ s' = { s with master := (s.master.putRevoke tenantId cacheKey).2 })
  | .writePreallocatedChunk nodeId tenantId cacheKey handle bytes, reply, s' => (∃ err, reply = .error err) ∧
    (s' = s ∨ s' = { s with stores := (client.write s.stores ⟨nodeId, tenantId, cacheKey, handle, bytes⟩).2 })
  | _, _, _ => False

/-- Calls are served or fail, while the allowed operations happen at the master. -/
def server (client : StoreClient S) (allowed : MasterOp → Prop) : Server (CacheWorld S) MasterOp Call Call.Reply where
  serve s call reply s' := s.Serves client call reply s' ∨ s.Fails client call reply s'
  act s op s' := allowed op ∧ MasterState.Step s.master op s'.master ∧ s'.stores = s.stores

theorem act_step {I : Type} [DecidableEq I] {client : StoreClient S} {allowed : MasterOp → Prop}
    (s : Pool I (CacheWorld S) Call Call.Reply Unit) (op : MasterOp) (ok : allowed op)
    (enabled : op.Enabled s.world.master) : Pool.Step (server client allowed) s (.act op)
      { s with world := { s.world with master := op.apply s.world.master } } :=
  .act ⟨ok, ⟨enabled, rfl⟩, rfl⟩

end CacheWorld

/-- One segment mounted, nothing reserved, and an empty store of any capacity. -/
def freshCache (nodeId : String) (len capacity : Nat) : CacheWorld MemoryStore :=
  ⟨MasterState.new.mountSegment nodeId len, .withCapacity capacity⟩

end Mooncache
