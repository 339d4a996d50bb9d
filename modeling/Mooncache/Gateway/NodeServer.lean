import Mooncache.Gateway.CacheServer
import Mooncache.Gateway.Queries
import Mooncache.Store.Requests

/-! The master with the store in the gateway's process, or with store nodes that keep objects on SSD.
Any call may be lost on its way, or its reply. -/
namespace Mooncache

/-- The store in the process, or the nodes by their base URLs. -/
inductive GatewayStores where
  | inProcess (store : MemoryStore)
  | remote (nodes : String → StoreNodeState)

/-- How a client of a node understands its answer to a read; the texts of errors are left open. -/
def nodeReadReply : Except StoreNodeError NodeResponse → GatewayResult StoreChunk → Prop
  | .ok (.read response), reply => reply = .ok ⟨response.data, response.tier⟩
  | _, reply => ∃ message, reply = .error (.storeUpstream message)

def nodeWriteReply : Except StoreNodeError NodeResponse → GatewayResult Unit → Prop
  | .ok _, reply => reply = .ok ()
  | .error _, reply => ∃ message, reply = .error (.storeUpstream message)

/-- A write as a node reads it from its JSON body. -/
def nodeWrite (chunk : ChunkWrite) : NodeRequest :=
  .writePreallocated chunk.handle chunk.bytes (some chunk.tenantId.value) (some chunk.cacheKey.value)

namespace GatewayStores
variable [Sha256] [ChaCha20Poly1305]

/-- A read goes to the first node; the identity reaches it in the query. -/
def Read (nodeUrls : NodeUrls) (tenantId : TenantId) (cacheKey : CacheKey) (handle : ChunkHandle) :
    GatewayStores → GatewayResult StoreChunk → GatewayStores → Prop
  | inProcess store, reply, after =>
    reply = localStoreClient.readChunk store tenantId cacheKey handle ∧ after = inProcess store
  | remote nodes, reply, after =>
    match nodeUrls.entries.head? with
    | none => reply = .error (.storeUpstream "no store nodes configured") ∧ after = remote nodes
    | some (_, baseUrl) =>
      match ReadChunkQuery.fromQuery (pathQuery (RemoteStoreClient.readChunkPath tenantId cacheKey handle)) with
      | none => (∃ message, reply = .error (.storeUpstream message)) ∧ after = remote nodes
      | some query => ∃ env,
        nodeReadReply ((nodes baseUrl).request env (.readChunk handle query.tenantId query.cacheKey)).1 reply ∧
          after = remote (Function.update nodes baseUrl
            ((nodes baseUrl).request env (.readChunk handle query.tenantId query.cacheKey)).2)

def Write (nodeUrls : NodeUrls) (chunk : ChunkWrite) : GatewayStores → GatewayResult Unit → GatewayStores → Prop
  | inProcess store, reply, after =>
    reply = (localStoreClient.write store chunk).1 ∧ after = inProcess (localStoreClient.write store chunk).2
  | remote nodes, reply, after =>
    match nodeUrls.entries.lookup chunk.nodeId with
    | none => reply = .error (.storeUpstream s!"store node `{chunk.nodeId}` is not configured") ∧ after = remote nodes
    | some baseUrl => ∃ env, nodeWriteReply ((nodes baseUrl).request env (nodeWrite chunk)).1 reply ∧
      after = remote (Function.update nodes baseUrl ((nodes baseUrl).request env (nodeWrite chunk)).2)

end GatewayStores

/-- The reply of a call to the master or the stores that got lost. -/
def Call.Lost : (call : Call) → call.Reply → Prop
  | .getReplicaList _ _, reply => ∃ err, reply = .error err
  | .putStart _ _ _ _, reply => ∃ err, reply = .error err
  | .readChunk _ _ _, reply => ∃ err, reply = .error err
  | .putEnd _ _, reply | .putRevoke _ _, reply | .writePreallocatedChunk _ _ _ _ _, reply => ∃ err, reply = .error err
  | _, _ => False

/-- Beside the calls, operations on the master; what others do to the stores is left open. -/
inductive CacheAction where
  | master (op : MasterOp)
  | stores

namespace CacheWorld
variable [Sha256] [ChaCha20Poly1305]

/-- The calls as they are served; those to the master are the same for every store client. -/
def ServesTiered (nodeUrls : NodeUrls) (s : CacheWorld GatewayStores) :
    (call : Call) → call.Reply → CacheWorld GatewayStores → Prop
  | .readChunk tenantId cacheKey handle, reply, s' =>
    ∃ stores, s.stores.Read nodeUrls tenantId cacheKey handle reply stores ∧ s' = { s with stores := stores }
  | .writePreallocatedChunk nodeId tenantId cacheKey handle bytes, reply, s' => ∃ stores,
    s.stores.Write nodeUrls ⟨nodeId, tenantId, cacheKey, handle, bytes⟩ reply stores ∧ s' = { s with stores := stores }
  | call, reply, s' => ∀ client : StoreClient GatewayStores, s.Serves client call reply s'

def tieredServer (nodeUrls : NodeUrls) : Server (CacheWorld GatewayStores) CacheAction Call Call.Reply where
  serve s call reply s' := s.ServesTiered nodeUrls call reply s' ∨
    call.Lost reply ∧ (s' = s ∨ ∃ sent, s.ServesTiered nodeUrls call sent s')
  act s action s' := match action with
    | .master op => MasterState.Step s.master op s'.master ∧ s'.stores = s.stores
    | .stores => s'.master = s.master

end CacheWorld

/-- What a call of a lookup may do to the stores: a node copies an object from its SSD into its DRAM, at
the handle that is read. -/
inductive GatewayStores.Copies [Sha256] [ChaCha20Poly1305] : Call → GatewayStores → GatewayStores → Prop
  | none (call : Call) (stores : GatewayStores) : Copies call stores stores
  | promoted {tenantId : TenantId} {cacheKey : CacheKey} {handle : ChunkHandle} {nodes : String → StoreNodeState}
      {baseUrl : String} {env : NodeEnv} {tenant key : Option String} {data : List UInt8} :
      (nodes baseUrl).Promotes env handle tenant key data →
      Copies (.readChunk tenantId cacheKey handle) (.remote nodes)
        (.remote (Function.update nodes baseUrl { nodes baseUrl with dram := (nodes baseUrl).dram.filled handle data }))

section
variable [Sha256] [ChaCha20Poly1305] {nodeUrls : NodeUrls} {tenantId : TenantId} {cacheKey : CacheKey}
  {handle : ChunkHandle} {stores after : GatewayStores} {reply : GatewayResult StoreChunk}

theorem GatewayStores.Read.copies (h : stores.Read nodeUrls tenantId cacheKey handle reply after) :
    Copies (.readChunk tenantId cacheKey handle) stores after := by
  cases stores with
  | inProcess store =>
    obtain ⟨_, rfl⟩ := h
    exact .none _ _
  | remote nodes =>
    simp only [Read] at h
    split at h
    · obtain ⟨_, rfl⟩ := h
      exact .none _ _
    · rename_i baseUrl _
      split at h
      · obtain ⟨_, rfl⟩ := h
        exact .none _ _
      · rename_i query _
        obtain ⟨env, _, rfl⟩ := h
        have reads := StoreNodeState.readChunk_reads (nodes baseUrl) env handle query.tenantId query.cacheKey
        have state : ((nodes baseUrl).request env (.readChunk handle query.tenantId query.cacheKey)).2 =
            (Program.exec (StoreNodeState.serve env) (nodes baseUrl)
              (StoreNode.readChunk (nodes baseUrl).ssd handle query.tenantId query.cacheKey)).2 := rfl
        rw [state]
        generalize Program.exec (StoreNodeState.serve env) (nodes baseUrl)
          (StoreNode.readChunk (nodes baseUrl).ssd handle query.tenantId query.cacheKey) = outcome at reads ⊢
        obtain ⟨answer, left⟩ := outcome
        cases reads with
        | dram | failed =>
          simp only [Function.update_eq_self]
          exact .none _ _
        | ssd promotes => exact .promoted promotes

end
end Mooncache
