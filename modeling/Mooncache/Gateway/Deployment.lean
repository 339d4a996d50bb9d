import Mooncache.Gateway.NodeHandlers
import Mooncache.Gateway.StoreWire
import Mooncache.Gateway.NodeServer
import Mooncache.Gateway.Transparency

/-! The gateway before store nodes whose handlers take DRAM, SSD and sizes in steps of their own, and which are
restarted now and then: its answers are the vendor's still. -/
namespace Mooncache
open Program (Lawful)
open GatewayWorld (direct_step sent_steps hear_step)
open NodeSystem (Restarts)

/-- The master, the nodes by their base URLs, and how often each of them was restarted. -/
structure DeployedCache where
  master : MasterState
  nodes : String → StoreNodeState
  lives : String → Nat

/-- Beside the calls: operations on the master, and restarts of the nodes. -/
inductive DeployedAction where
  | master (op : MasterOp)
  | restart (baseUrl : String)

/-- A step of a handler on a node, which goes on for one life of the node. -/
structure NodeStep where
  baseUrl : String
  life : Nat
  call : NodeCall

abbrev NodeStep.Reply (step : NodeStep) : Type := step.call.Reply

/-- The handler on the node at this URL. -/
def NodeProgram.onNode {α : Type} (baseUrl : String) (life : Nat) : NodeProgram α → Program NodeStep NodeStep.Reply α
  | .done value => .done value
  | .call request next => .call ⟨baseUrl, life, request⟩ fun reply => onNode baseUrl life (next reply)

namespace RemoteStoreClient

/-- The URL of the node that a call goes to, and what the node reads from it. Without either, the call fails. -/
def target (nodeUrls : NodeUrls) : Call → Option (String × NodeRequest)
  | .readChunk tenantId cacheKey handle => do
    let (_, baseUrl) ← nodeUrls.entries.head?
    let query ← ReadChunkQuery.fromQuery (pathQuery (readChunkPath tenantId cacheKey handle))
    return (baseUrl, .readChunk handle query.tenantId query.cacheKey)
  | .writePreallocatedChunk nodeId tenantId cacheKey handle bytes => do
    let baseUrl ← nodeUrls.entries.lookup nodeId
    return (baseUrl, nodeWrite ⟨nodeId, tenantId, cacheKey, handle, bytes⟩)
  | _ => none

/-- What the client makes of a node's answer. -/
def Understands : (call : Call) → Except StoreNodeError NodeResponse → call.Reply → Prop
  | .readChunk _ _ _, answer, reply => nodeReadReply answer reply
  | .writePreallocatedChunk _ _ _ _ _, answer, reply => nodeWriteReply answer reply
  | _, _, _ => False

/-- What it takes for one when none comes, or when there is no node to ask. -/
def Lost : (call : Call) → call.Reply → Prop
  | .readChunk _ _ _, reply => ∃ message, reply = .error (.storeUpstream message)
  | .writePreallocatedChunk _ _ _ _ _, reply => ∃ message, reply = .error (.storeUpstream message)
  | _, _ => False

end RemoteStoreClient

/-- A node with an SSD tier starts again over its files, and one without starts empty. -/
def StoreNodeState.StartsAgain (node after : StoreNodeState) : Prop :=
  Restarts node after ∨ node.ssd = none ∧ after = .memoryOnly node.dram.capacity

namespace DeployedCache

/-- The master serves a call at once, or the call or its reply is lost. -/
def server : Server DeployedCache DeployedAction Call Call.Reply where
  serve s call reply s' := MasterTurn s.master call reply s'.master ∧ s'.nodes = s.nodes ∧ s'.lives = s.lives
  act s action s' := match action with
    | .master op => op.grows = false ∧ MasterState.Step s.master op s'.master ∧ s'.nodes = s.nodes ∧ s'.lives = s.lives
    | .restart baseUrl => s'.master = s.master ∧
      (∃ node, (s.nodes baseUrl).StartsAgain node ∧ s'.nodes = Function.update s.nodes baseUrl node) ∧
      s'.lives = Function.update s.lives baseUrl (s.lives baseUrl + 1)

/-- A node takes a step of a handler that began in its present life. -/
def Takes [Sha256] [ChaCha20Poly1305] (s : DeployedCache) (step : NodeStep) (told : step.Reply) (s' : DeployedCache) :
    Prop :=
  s.lives step.baseUrl = step.life ∧ ∃ env, told = ((s.nodes step.baseUrl).serve env step.call).1 ∧
    s' = { s with nodes := Function.update s.nodes step.baseUrl ((s.nodes step.baseUrl).serve env step.call).2 }

end DeployedCache

abbrev DeployedPool (I : Type) := RemotePool I (GatewayWorld DeployedCache) Call Call.Reply NodeStep NodeStep.Reply
  (Except StoreNodeError NodeResponse) (GatewayResult GatewayResponse)

namespace GatewayWorld

/-- `RemoteStoreClient` and the handlers of its nodes, with these SSD tiers. -/
def deployed [Sha256] [ChaCha20Poly1305] (nodeUrls : NodeUrls) (tiers : String → Option SsdStore)
    (vendor : (call : Call) → call.Reply → Prop) :
    RemoteServer (GatewayWorld DeployedCache) (GatewayAction DeployedAction) Call Call.Reply NodeStep NodeStep.Reply
      (Except StoreNodeError NodeResponse) where
  direct := GatewayWorld.server DeployedCache.server vendor
  remote call := (RemoteStoreClient.request call).isSome
  handles call handler := ∃ baseUrl request life, RemoteStoreClient.target nodeUrls call = some (baseUrl, request) ∧
    handler = NodeProgram.onNode baseUrl life (request.program (tiers baseUrl))
  serve s step told s' := ∃ cache, s.cache.Takes step told cache ∧ s' = s.setCache cache
  hears := RemoteStoreClient.Understands
  lost := RemoteStoreClient.Lost
  others _ := False

/-- The gateway without its cache. -/
def flightsOnly {C : Type} (s : GatewayWorld C) : GatewayWorld Unit := ⟨(), s.flights⟩

end GatewayWorld

/-- A cache that says anything at any time. -/
def anyCache {A : Type} : Server Unit A Call Call.Reply where
  serve _ _ _ _ := True
  act _ _ _ := True

/-- A read names its object in a query, which carries the names as they are. -/
def Named : Call → Prop
  | .readChunk tenantId cacheKey _ => SurvivesQuery tenantId.value.toList ∧ SurvivesQuery cacheKey.value.toList
  | _ => True

/-- A request names its object by its tenant and a digest. -/
theorem Accesses.named [Sha256] [JsonWriter] [JsonReader] {request : GatewayRequest} {state : GatewayState}
    {past : List GatewayEvent} {call : Call} (h : Accesses request state past call)
    (survive : ∀ tenantId, state.authenticate request.authorization = some tenantId →
      SurvivesQuery tenantId.value.toList) : Named call := by
  cases call with
  | readChunk tenantId cacheKey handle =>
    rcases h with free | ⟨_, ⟨⟩⟩ | ⟨parsed, input, identified, within⟩
    · exact free.elim
    · obtain ⟨rfl, rfl⟩ := Prod.mk.inj within.1
      exact ⟨survive _ identified.authenticated, survives_of_hex (fromHex_lowerHex _)⟩
  | _ => trivial

section
variable [Sha256] [ChaCha20Poly1305] {nodeUrls : NodeUrls} {tiers : String → Option SsdStore}
  {vendor : (call : Call) → call.Reply → Prop}

/-- Whatever the master and the nodes do, the requests take it for a cache that says anything. -/
theorem GatewayWorld.deployed_hides : (deployed nodeUrls tiers vendor).Hides
    (server (anyCache (A := DeployedAction)) vendor) flightsOnly where
  direct {s call reply s'} here served := by
    cases call with
    | readChunk | writePreallocatedChunk => exact absurd rfl here
    | getReplicaList | putStart | putEnd | putRevoke =>
      obtain ⟨_, _, rfl⟩ := served
      exact ⟨(), trivial, rfl⟩
    | resolveModelVersion | complete | stream | begin =>
      obtain ⟨told, rfl⟩ := served
      exact ⟨told, rfl⟩
    | publish | send =>
      obtain ⟨flights, taken, rfl⟩ := served
      exact ⟨flights, taken, rfl⟩
    | wait =>
      obtain ⟨joined, returned, rfl⟩ := served
      exact ⟨joined, returned, rfl⟩
    | recordCacheStatus | recordWrite | recordSingleflight | recordVendorCall => exact congrArg flightsOnly served
  acts {s action s'} acts := by
    cases action with
    | cache action =>
      obtain ⟨_, _, rfl⟩ := acts
      exact .inl rfl
    | wake waiter =>
      obtain ⟨flights, taken, rfl⟩ := acts
      exact .inr ⟨.wake waiter, flights, taken, rfl⟩
    | cancelLeader leader =>
      obtain ⟨flights, taken, rfl⟩ := acts
      exact .inr ⟨.cancelLeader leader, flights, taken, rfl⟩
    | cancelWaiter waiter =>
      obtain ⟨flights, taken, rfl⟩ := acts
      exact .inr ⟨.cancelWaiter waiter, flights, taken, rfl⟩
  serves served := by
    obtain ⟨_, _, rfl⟩ := served
    rfl
  hears {call answer reply} s hears := by
    cases call with
    | readChunk | writePreallocatedChunk => exact ⟨(), trivial, rfl⟩
    | _ => exact hears.elim
  lost {call reply} s lost := by
    cases call with
    | readChunk | writePreallocatedChunk => exact ⟨(), trivial, rfl⟩
    | _ => exact lost.elim

end

/-! What the nodes hold and what the requests read of it. -/

/-- What the answer to a call tells. -/
def RemoteStoreClient.Ends : Call → Dealings → Except StoreNodeError NodeResponse → Prop
  | .readChunk tenantId cacheKey _, k, answer =>
    ∀ response, answer = .ok (.read response) → k.2 (tenantId, cacheKey) response.data
  | _, _, _ => True

/-- A handler is lawful on its node if it would be on its own. -/
theorem NodeProgram.onNode_lawful {α : Type} {tiers : String → Option SsdStore} {p : NodeProgram α}
    {ends : Dealings → α → Prop} {k : Dealings} {baseUrl : String} (life : Nat)
    (h : p.Lawful (NodeCall.May (tiers baseUrl)) NodeCall.Tells ends k) :
    (onNode baseUrl life p).Lawful (fun k (step : NodeStep) => step.call.May (tiers step.baseUrl) k)
      (fun k step told => step.call.Tells k told) ends k := by
  induction p generalizing k with
  | done value => exact h
  | call request next ih =>
    intro later after
    obtain ⟨allowed, rest⟩ := h later after
    exact ⟨allowed, fun reply told => ih reply (rest reply told)⟩

section
variable {I : Type} [DecidableEq I] [Sha256] [ChaCha20Poly1305] [JsonWriter] [JsonReader]
  {tiers : String → Option SsdStore} {requests : I → GatewayRequest} {state : GatewayState}

/-- The extents that were given away, and what the requests may write, are what a node goes by. -/
structure Deployed (tiers : String → Option SsdStore) (requests : I → GatewayRequest) (state : GatewayState)
    (k : Dealings) (s : GatewayWorld DeployedCache) (history : List (I × GatewayEvent)) : Prop where
  offered : k.2 = Offered requests state history
  extents : Extents k.1 history s.cache.master
  nodes : ∀ baseUrl, (s.cache.nodes baseUrl).ssd = tiers baseUrl ∧ NodeSent k.1 k.2 (s.cache.nodes baseUrl)
  reads : ReadsSent k.2 history

namespace Deployed
variable {k : Dealings} {s s' : GatewayWorld DeployedCache} {history : List (I × GatewayEvent)} {i : I} {call : Call}
  {reply : call.Reply}

/-- A reply that reads nothing is added to the history, and extents to those given away. -/
theorem snoc (h : Deployed tiers requests state k s history) {given : Owners} {event : GatewayEvent}
    (more : k.1 ≤ given) (extents : Extents given (history ++ [(i, event)]) s'.cache.master)
    (nodes : s'.cache.nodes = s.cache.nodes)
    (reads : ∀ key handle chunk, event = ⟨.readChunk key.1 key.2 handle, .ok chunk⟩ → k.2 key chunk.bytes) :
    ∃ k', k ≤ k' ∧ Deployed tiers requests state k' s' (history ++ [(i, event)]) := by
  have grown : k.2 ≤ Offered requests state (history ++ [(i, event)]) := by
    rw [h.offered]
    exact Offered.le_snoc history (i, event)
  refine ⟨(given, Offered requests state (history ++ [(i, event)])), ⟨more, grown⟩, rfl, extents, ?_, ?_⟩
  · intro baseUrl
    rw [nodes]
    exact ⟨(h.nodes baseUrl).1, (h.nodes baseUrl).2.mono more grown⟩
  · exact (h.reads.snoc reads).mono grown

variable {nodeUrls : NodeUrls} {vendor : (call : Call) → call.Reply → Prop}

/-- A call that is not to a node. -/
private theorem direct (h : Deployed tiers requests state k s history)
    (accesses : Accesses (requests i) state (Pool.own history i) call)
    (here : ¬ (RemoteStoreClient.request call).isSome = true)
    (served : s.Serves DeployedCache.server vendor call reply s') :
    ∃ k', k ≤ k' ∧ Deployed tiers requests state k' s' (history ++ [(i, ⟨call, reply⟩)]) := by
  rcases served.cache_cases with ⟨kind, same⟩ | ⟨turns, nodes, _⟩
  · refine h.snoc le_rfl ?_ (congrArg DeployedCache.nodes same) fun key handle chunk read =>
      absurd read (GatewayEvent.unread_of_kind kind.2 key handle chunk)
    rw [same]
    exact h.extents.idle (GatewayEvent.idle_of_kind kind.1 kind.2)
  · obtain ⟨given, more, extents⟩ := h.extents.turn accesses.disciplined turns
    refine h.snoc more extents nodes ?_
    rintro key handle chunk ⟨⟩
    exact absurd rfl here

/-- A reply to a call to a node. -/
private theorem replied (h : Deployed tiers requests state k s history)
    (away : (RemoteStoreClient.request call).isSome = true)
    (reads : ∀ key handle chunk, (⟨call, reply⟩ : GatewayEvent) = ⟨.readChunk key.1 key.2 handle, .ok chunk⟩ →
      k.2 key chunk.bytes) :
    ∃ k', k ≤ k' ∧ Deployed tiers requests state k' s (history ++ [(i, ⟨call, reply⟩)]) := by
  refine h.snoc le_rfl (h.extents.idle ?_) rfl reads
  cases call with
  | readChunk | writePreallocatedChunk => exact ⟨by simp, by simp⟩
  | _ => cases away

/-- A request of the discipline is handled lawfully. -/
private theorem begins (h : Deployed tiers requests state k s history)
    (accesses : Accesses (requests i) state (Pool.own history i) call) (named : Named call) {baseUrl : String}
    {request : NodeRequest} (target : RemoteStoreClient.target nodeUrls call = some (baseUrl, request)) :
    (request.program (tiers baseUrl)).Lawful (NodeCall.May (tiers baseUrl)) NodeCall.Tells
      (RemoteStoreClient.Ends call) k := by
  have ready := accesses.disciplined
  cases call with
  | readChunk tenantId cacheKey handle =>
    obtain ⟨replicaList, listed, replica, member, rfl⟩ := ready
    have mine := h.extents.listed i (tenantId, cacheKey) replicaList (Pool.mem_own.mp listed) replica member
    simp only [RemoteStoreClient.target, fromQuery_readChunk named.1 named.2, Option.bind_eq_bind,
      Option.bind_eq_some_iff, Option.pure_def, Option.some.injEq, Prod.mk.injEq] at target
    obtain ⟨_, _, _, rfl, rfl, rfl⟩ := target
    exact NodeRequest.readChunk_lawful mine
  | writePreallocatedChunk nodeId tenantId cacheKey handle bytes =>
    obtain ⟨len, count, replicas, reserved, replica, member, rfl⟩ := ready
    have mine := h.extents.granted (tenantId, cacheKey) replica
      ⟨i, len, count, replicas, Pool.mem_own.mp reserved, member⟩
    have offered : k.2 (tenantId, cacheKey) bytes := by
      rw [h.offered]
      exact ⟨i, _, nodeId, _, List.prefix_refl _, accesses⟩
    simp only [RemoteStoreClient.target, Option.bind_eq_bind, Option.bind_eq_some_iff, Option.pure_def,
      Option.some.injEq, Prod.mk.injEq] at target
    obtain ⟨_, _, rfl, rfl⟩ := target
    exact NodeRequest.writePreallocated_lawful mine offered
  | _ => cases target

/-- A step on a node. -/
private theorem takes (h : Deployed tiers requests state k s history) (decrypts : SsdStore.Decrypts) {step : NodeStep}
    {told : step.Reply} {cache : DeployedCache} (may : step.call.May (tiers step.baseUrl) k)
    (takes : s.cache.Takes step told cache) :
    Deployed tiers requests state k (s.setCache cache) history ∧ step.call.Tells k told := by
  obtain ⟨_, env, rfl, rfl⟩ := takes
  obtain ⟨tier, held⟩ := h.nodes step.baseUrl
  obtain ⟨kept, same, tells⟩ := held.serve decrypts h.extents (tier.symm ▸ may) env
  refine ⟨⟨h.offered, h.extents, fun baseUrl => ?_, h.reads⟩, tells⟩
  simp only [GatewayWorld.setCache]
  rcases eq_or_ne baseUrl step.baseUrl with rfl | hne
  · rw [Function.update_self]
    exact ⟨same.trans tier, kept⟩
  · rw [Function.update_of_ne hne]
    exact h.nodes baseUrl

/-- What the master and the nodes do by themselves. -/
private theorem acts (h : Deployed tiers requests state k s history) {action : GatewayAction DeployedAction}
    (acts : (GatewayWorld.server DeployedCache.server vendor).act s action s') :
    Deployed tiers requests state k s' history := by
  cases action with
  | cache action =>
    obtain ⟨cache, acts, rfl⟩ := acts
    cases action with
    | master op =>
      obtain ⟨allowed, ⟨_, master⟩, nodes, _⟩ := acts
      have retains := s.cache.master.apply_retains op allowed
      rw [← master] at retains
      exact ⟨h.offered, h.extents.retain retains, fun baseUrl => nodes ▸ h.nodes baseUrl, h.reads⟩
    | restart baseUrl =>
      obtain ⟨master, ⟨node, restarts, nodes⟩, _⟩ := acts
      obtain ⟨tier, held⟩ := h.nodes baseUrl
      obtain ⟨kept, same⟩ : NodeSent k.1 k.2 node ∧ node.ssd = (s.cache.nodes baseUrl).ssd := by
        rcases restarts with restarts | ⟨bare, rfl⟩
        · exact held.restart restarts
        · exact ⟨.fresh ⟨⟨_, rfl⟩, rfl⟩, bare.symm⟩
      refine ⟨h.offered, master ▸ h.extents, fun other => ?_, h.reads⟩
      simp only [GatewayWorld.setCache, nodes]
      rcases eq_or_ne other baseUrl with rfl | hne
      · rw [Function.update_self]
        exact ⟨same.trans tier, kept⟩
      · rw [Function.update_of_ne hne]
        exact h.nodes other
  | _ =>
    obtain ⟨_, _, rfl⟩ := acts
    exact ⟨h.offered, h.extents, h.nodes, h.reads⟩

/-- Whatever the requests do as long as their calls are of their own objects, and whatever is lost or restarted. -/
theorem keeps (decrypts : SsdStore.Decrypts)
    (survive : ∀ i tenantId, state.authenticate (requests i).authorization = some tenantId →
      SurvivesQuery tenantId.value.toList) :
    (GatewayWorld.deployed nodeUrls tiers vendor).Keeps (fun i => Accesses (requests i) state)
      (fun k step => step.call.May (tiers step.baseUrl) k) (fun k step told => step.call.Tells k told)
      RemoteStoreClient.Ends (Deployed tiers requests state) where
  direct held accesses here served := held.direct accesses here served
  acts held acts := ⟨_, le_rfl, held.acts acts⟩
  begins {k s history i call handler} held accesses handles := by
    obtain ⟨baseUrl, request, life, target, rfl⟩ := handles
    exact NodeProgram.onNode_lawful life (held.begins accesses (accesses.named (survive i)) target)
  serves held may served := by
    obtain ⟨cache, takes, rfl⟩ := served
    exact held.takes decrypts may takes
  hears {k s history i call answer reply} held accesses ended hears := by
    cases call with
    | readChunk tenantId cacheKey handle =>
      refine held.replied rfl ?_
      rintro key _ chunk ⟨⟩
      match answer, hears with
      | .ok (.read response), same => cases same; exact ended response rfl
      | .ok (.allocated _), ⟨_, same⟩ => cases same
      | .ok .written, ⟨_, same⟩ => cases same
      | .error _, ⟨_, same⟩ => cases same
    | writePreallocatedChunk => exact held.replied rfl (by simp)
    | _ => exact hears.elim
  lost {k s history i call reply} held accesses lost := by
    cases call with
    | readChunk tenantId cacheKey handle =>
      obtain ⟨message, rfl⟩ := lost
      exact held.replied rfl (by simp)
    | writePreallocatedChunk => exact held.replied rfl (by simp)
    | _ => exact lost.elim
  others _ other := other.elim

end Deployed

/-- A gateway before one segment and the nodes it is on gives the vendor's answers still: however its requests and the
steps of the nodes' handlers interleave, and whatever is lost, restarted, evicted or removed. -/
theorem deployed_answers_are_vendors {nodeUrls : NodeUrls} {vendor : (call : Call) → call.Reply → Prop} {nodeId : String}
    {len maxWaiters : Nat} {nodes : String → StoreNodeState}
    {trace : List (RemotePool.Label I (GatewayAction DeployedAction) Call Call.Reply)} {s : DeployedPool I}
    (storable : Storable vendor) (decrypts : SsdStore.Decrypts) (fresh : ∀ baseUrl, (nodes baseUrl).Fresh)
    (survive : ∀ i tenantId, state.authenticate (requests i).authorization = some tenantId →
      SurvivesQuery tenantId.value.toList)
    (run : Run (RemotePool.Step (GatewayWorld.deployed nodeUrls (fun baseUrl => (nodes baseUrl).ssd) vendor))
      (RemotePool.initial ⟨⟨MasterState.new.mountSegment nodeId len, nodes, fun _ => 0⟩, .new maxWaiters⟩
        (programs requests state)) trace s)
    (formed : ∀ i, (requests i).body.wellFormed = true)
    (apart : ∀ i j parsed parsed' a b, Identified (requests i) state (Pool.own s.history i) parsed a →
      Identified (requests j) state (Pool.own s.history j) parsed' b → TellsApart a b)
    {j : I} {response : GatewayResponse} (ended : s.threads j = .ready (.done (.ok response)))
    (status : response.statusCode = 200) :
    ∃ i parsed a parsed' b, Told (requests i) (Pool.own s.history i) response ∧
      Identified (requests i) state (Pool.own s.history i) parsed a ∧
      Identified (requests j) state (Pool.own s.history j) parsed' b ∧
      a.tenantId = b.tenantId ∧ a.resolvedModelVersion = b.resolvedModelVersion ∧ a.cachePolicy = b.cachePolicy ∧
      (fingerprintBodyWithoutStream (requests i).body).Same (fingerprintBodyWithoutStream (requests j).body) := by
  have begun : Deployed (fun baseUrl => (nodes baseUrl).ssd) requests state
      (fun _ _ => False, Offered requests state [])
      ⟨⟨MasterState.new.mountSegment nodeId len, nodes, fun _ => 0⟩, .new maxWaiters⟩ [] :=
    ⟨rfl, freshCache_extents nodeId len, fun baseUrl => ⟨rfl, .fresh (fresh baseUrl)⟩,
      fun _ _ _ _ member => by cases member⟩
  have makes (i : I) : (programs requests state i).Meets (Accesses (requests i) state) (fun _ _ => True) [] :=
    (program_accesses (requests i) state).mono (fun _ _ => id) fun _ _ _ => trivial
  obtain ⟨k, held⟩ := RemotePool.run_keeps (Deployed.keeps decrypts survive) begun makes run
  have reads : ReadsSent (Offered requests state s.history) s.history := held.offered ▸ held.reads
  obtain ⟨trace', clients⟩ := RemotePool.run_clients GatewayWorld.deployed_hides run
  exact answered_told storable clients reads formed apart (congrArg RemoteThread.rest ended) status

end

/-- The node of the default address. -/
private def defaultNode : NodeUrls := ⟨[("default", "http://127.0.0.1:8082")], by decide⟩

private def emptyNode : StoreNodeState := ⟨.withCapacity 16, some sampleSsd, ∅, 0, ∅⟩

/-! The node after each step of a write, and after a restart. -/

private def filledNode : StoreNodeState :=
  (@StoreNodeState.serve greetingDigests (soleCipher sealedGreeting) (.healthy 0) emptyNode
    (.writePreallocatedChunk ⟨0, 4⟩ [34, 104, 105, 34])).2

private def persistedNode : StoreNodeState :=
  (@StoreNodeState.serve greetingDigests (soleCipher sealedGreeting) (.healthy 0) filledNode
    (.persistObject sampleSsd "tenant-a" greetingKey.value [34, 104, 105, 34])).2

private def storedNode : StoreNodeState := persistedNode.recordSsdObject "tenant-a" greetingKey.value 4

private def wokenNode : StoreNodeState := { storedNode with dram := .withCapacity 16, ssdObjects := ∅ }

private def promotedNode : StoreNodeState :=
  (@StoreNodeState.serve greetingDigests (soleCipher sealedGreeting) (.healthy 0) wokenNode
    (.writePreallocatedChunk ⟨0, 4⟩ [34, 104, 105, 34])).2

section
variable [Sha256] [ChaCha20Poly1305] {nodeUrls : NodeUrls} {tiers : String → Option SsdStore}
  {vendor : (call : Call) → call.Reply → Prop} {s : DeployedPool Bool}

/-- A call is sent and arrives at its node. -/
private theorem arrive_step (i : Bool) (life : Nat)
    {trace : List (RemotePool.Label Bool (GatewayAction DeployedAction) Call Call.Reply)} {start : DeployedPool Bool}
    (call : Call) {baseUrl : String} {request : NodeRequest} {next : call.Reply → Flow (GatewayResult GatewayResponse)}
    (run : Run (RemotePool.Step (GatewayWorld.deployed nodeUrls tiers vendor)) start trace s)
    (pending : s.threads i = .ready (.call call next))
    (target : RemoteStoreClient.target nodeUrls call = some (baseUrl, request)) :
    Run (RemotePool.Step (GatewayWorld.deployed nodeUrls tiers vendor)) start (trace ++ [.moved i] ++ [.moved i])
      ((s.become i (.sent call next)).become i
        (.handled call next (NodeProgram.onNode baseUrl life (request.program (tiers baseUrl))))) := by
  have away : (RemoteStoreClient.request call).isSome = true := by
    cases call <;> first | rfl | cases target
  exact sent_steps i call run pending away ⟨baseUrl, request, life, target, rfl⟩

/-- A node takes a step in which nothing fails. -/
private theorem handle_step (i : Bool) {call : Call} {next : call.Reply → Flow (GatewayResult GatewayResponse)}
    {baseUrl : String} {life : Nat} (request : NodeCall) (told : request.Reply)
    {rest : request.Reply → Program NodeStep NodeStep.Reply (Except StoreNodeError NodeResponse)}
    (node left : StoreNodeState) (pending : s.threads i = .handled call next (.call ⟨baseUrl, life, request⟩ rest))
    (there : s.world.cache.nodes baseUrl = node) (alive : s.world.cache.lives baseUrl = life)
    (served : node.serve (.healthy 0) request = (told, left)) :
    RemotePool.Step (GatewayWorld.deployed nodeUrls tiers vendor) s (.moved i)
      ({ s with world := s.world.setCache ⟨s.world.cache.master, Function.update s.world.cache.nodes baseUrl left,
        s.world.cache.lives⟩ }.become i (.handled call next (rest told))) := by
  subst there
  exact .handle pending ⟨_, ⟨alive, .healthy 0, by rw [served], by rw [served]⟩, rfl⟩

private theorem restart_step (baseUrl : String) (node woken : StoreNodeState)
    (there : s.world.cache.nodes baseUrl = node) (restarts : node.StartsAgain woken) :
    RemotePool.Step (GatewayWorld.deployed nodeUrls tiers vendor) s (.act (.cache (.restart baseUrl)))
      { s with world := s.world.setCache ⟨s.world.cache.master, Function.update s.world.cache.nodes baseUrl woken,
        Function.update s.world.cache.lives baseUrl (s.world.cache.lives baseUrl + 1)⟩ } := by
  subst there
  refine .act ⟨_, ?_, rfl⟩
  exact ⟨rfl, ⟨woken, restarts, rfl⟩, rfl⟩

end

/-- One greeting is stored, the node is restarted, and the second greeting is answered from SSD with what the
vendor told the first. -/
theorem restarted_greeting_is_vendors : ∃ i parsed a parsed' b, ∃ s : DeployedPool Bool, ∃ response,
    s.threads false = .ready (.done (.ok response)) ∧ response.headers.lookup "x-cache-tier" = some "ssd" ∧
      @Told greetingReader greetingRequest (Pool.own s.history i) response ∧
      @Identified greetingDigests greetingReader greetingRequest openGateway (Pool.own s.history i) parsed a ∧
      @Identified greetingDigests greetingReader greetingRequest openGateway (Pool.own s.history false) parsed' b ∧
      a.tenantId = b.tenantId ∧ a.resolvedModelVersion = b.resolvedModelVersion ∧ a.cachePolicy = b.cachePolicy ∧
      (fingerprintBodyWithoutStream greetingRequest.body).Same (fingerprintBodyWithoutStream greetingRequest.body) := by
  let _ := greetingDigests
  let _ := greetingTexts
  let _ := greetingReader
  let _ := soleCipher sealedGreeting
  let url := "http://127.0.0.1:8082"
  let hi : List UInt8 := [34, 104, 105, 34]
  have target : RemoteStoreClient.target defaultNode (.readChunk ⟨"tenant-a"⟩ greetingKey ⟨0, 4⟩) =
      some (url, .readChunk ⟨0, 4⟩ (some "tenant-a") (some greetingKey.value)) := by
    have query : ReadChunkQuery.fromQuery (pathQuery (RemoteStoreClient.readChunkPath ⟨"tenant-a"⟩ greetingKey ⟨0, 4⟩)) =
        some ⟨some "tenant-a", some greetingKey.value⟩ := fromQuery_readChunk (by decide) (by decide)
    rw [RemoteStoreClient.target, query]
    rfl
  have idle : Run (RemotePool.Step (GatewayWorld.deployed defaultNode (fun _ => emptyNode.ssd) politeVendor))
    (RemotePool.initial ⟨⟨MasterState.new.mountSegment "default" 16, fun _ => emptyNode, fun _ => 0⟩, .new 1024⟩
      (programs (fun _ : Bool => greetingRequest) openGateway)) [] _ := .start
  have reserved := idle.snoc (direct_step true (.resolveModelVersion "gpt-x") (.ok "gpt-x")
      (congrArg RemoteThread.ready greeting_program) Bool.false_ne_true ⟨rfl, rfl⟩)
    |>.snoc (direct_step true (.getReplicaList ⟨"tenant-a"⟩ greetingKey) (.error (.cache .notFound)) rfl Bool.false_ne_true
      ⟨⟨_, _, _⟩, ⟨⟨0, .inl ⟨rfl, rfl⟩⟩, rfl, rfl⟩, rfl⟩)
    |>.snoc (direct_step true (.begin _) (.ok (.leader 0)) rfl Bool.false_ne_true ⟨rfl, rfl⟩)
    |>.snoc (direct_step true (.recordSingleflight .leader) () rfl Bool.false_ne_true rfl)
    |>.snoc (direct_step true (.complete _) (.ok (.string "hi")) rfl Bool.false_ne_true ⟨rfl, rfl⟩)
    |>.snoc (direct_step true .recordVendorCall () rfl Bool.false_ne_true rfl)
    |>.snoc (direct_step true (.putStart ⟨"tenant-a"⟩ greetingKey 4 1) (.ok [⟨"default", 0, 4⟩]) rfl Bool.false_ne_true
      ⟨⟨_, _, _⟩, ⟨.inl ⟨rfl, rfl⟩, rfl, rfl⟩, rfl⟩)
  have written := arrive_step true 0 (.writePreallocatedChunk "default" ⟨"tenant-a"⟩ greetingKey ⟨0, 4⟩ hi) reserved rfl
      (show _ = some (url, .writePreallocated ⟨0, 4⟩ hi (some "tenant-a") (some greetingKey.value)) from rfl)
    |>.snoc (handle_step true (.writePreallocatedChunk ⟨0, 4⟩ hi) (.ok ()) emptyNode filledNode rfl rfl rfl rfl)
    |>.snoc (handle_step true (.persistObject sampleSsd "tenant-a" greetingKey.value hi) (.ok ()) filledNode
      persistedNode rfl rfl rfl rfl)
    |>.snoc (handle_step true (.recordSsdObject "tenant-a" greetingKey.value 4) () persistedNode storedNode
      rfl rfl rfl rfl)
    |>.snoc (hear_step true (.writePreallocatedChunk "default" ⟨"tenant-a"⟩ greetingKey ⟨0, 4⟩ hi)
      (Except.ok NodeResponse.written) (.ok ()) rfl rfl)
    |>.snoc (direct_step true (.putEnd ⟨"tenant-a"⟩ greetingKey) (.ok ()) rfl Bool.false_ne_true
      ⟨⟨_, _, _⟩, ⟨.inl ⟨rfl, rfl⟩, rfl, rfl⟩, rfl⟩)
  have restarted := written.snoc (restart_step url storedNode wokenNode rfl (.inl ⟨sampleSsd, rfl, rfl⟩))
  have found := restarted.snoc (direct_step false (.resolveModelVersion "gpt-x") (.ok "gpt-x")
      (congrArg RemoteThread.ready greeting_program) Bool.false_ne_true ⟨rfl, rfl⟩)
    |>.snoc (direct_step false (.getReplicaList ⟨"tenant-a"⟩ greetingKey) _ rfl Bool.false_ne_true
      ⟨⟨_, _, _⟩, ⟨⟨0, .inl ⟨rfl, rfl⟩⟩, rfl, rfl⟩, rfl⟩)
  have read := arrive_step false 1 (.readChunk ⟨"tenant-a"⟩ greetingKey ⟨0, 4⟩) found rfl target
    |>.snoc (handle_step false (.readChunk ⟨0, 4⟩) (.error (.invalidHandle 0 4)) wokenNode wokenNode rfl rfl rfl rfl)
    |>.snoc (handle_step false (.promoteToDram sampleSsd "tenant-a" greetingKey.value) (.ok hi) wokenNode wokenNode
      rfl rfl rfl rfl)
    |>.snoc (handle_step false (.writePreallocatedChunk ⟨0, 4⟩ hi) (.ok ()) wokenNode promotedNode rfl rfl rfl rfl)
    |>.snoc (hear_step false (.readChunk ⟨"tenant-a"⟩ greetingKey ⟨0, 4⟩)
      (Except.ok (NodeResponse.read ⟨0, 4, "ssd", hi⟩)) (.ok ⟨hi, "ssd"⟩) rfl rfl)
    |>.snoc (direct_step false (.recordCacheStatus .hit) () rfl Bool.false_ne_true rfl)
    |>.snoc (direct_step false (.recordWrite .skipped) () rfl Bool.false_ne_true rfl)
    |>.snoc (direct_step false (.recordSingleflight .none) () rfl Bool.false_ne_true rfl)
  have vouched := run_vouched (RemotePool.run_clients GatewayWorld.deployed_hides read).choose_spec
  have survive : ∀ (i : Bool) tenantId, openGateway.authenticate greetingRequest.authorization = some tenantId →
      SurvivesQuery tenantId.value.toList := by
    intro _ tenantId named
    obtain rfl : (⟨"tenant-a"⟩ : TenantId) = tenantId := Option.some.inj (greeting_authenticated.symm.trans named)
    decide
  obtain ⟨i, parsed, a, parsed', b, told⟩ := deployed_answers_are_vendors politeVendor_storable
    (soleCipher_decrypts sealedGreeting) (fun _ => ⟨⟨16, rfl⟩, rfl⟩) survive read (fun _ => by decide)
    (fun i j _ _ a b left right => by
      obtain rfl := greeting_identified left fun event member => vouched i event (Pool.mem_own.mp member)
      obtain rfl := greeting_identified right fun event member => vouched j event (Pool.mem_own.mp member)
      exact ⟨fun _ => rfl, fun _ => rfl⟩) (j := false) rfl rfl
  exact ⟨i, parsed, a, parsed', b, _, _, rfl, by decide, told⟩

end Mooncache
