import Mooncache.Foundation.Remote
import Mooncache.Gateway.NodeServer
import Mooncache.Gateway.Transparency
import Mooncache.Gateway.Wire
import Mooncache.Master.Cluster

/-! A gateway over a master that it reaches by HTTP, whose handlers lock, save and answer in steps of their own. It
is one over a master that serves every call at once, or loses it. -/
namespace Mooncache
open Program
open GatewayWorld (direct_step sent_steps hear_step)

/-- The masters with their saved metadata, of which the gateway knows one, and the stores. -/
structure RemoteCache (J : Type) where
  masters : Cluster J
  stores : GatewayStores

def RemoteCache.view {J : Type} (s : RemoteCache J) : CacheWorld GatewayStores := ⟨s.masters.leader, s.stores⟩

inductive RemoteAction (J : Type) where
  | standby (action : Cluster.Action J)
  | stores

/-- The chunks are read and written as before; standbys and stores act by themselves. -/
def RemoteCache.server {J : Type} [DecidableEq J] [Sha256] [ChaCha20Poly1305] (nodeUrls : NodeUrls) :
    Server (RemoteCache J) (RemoteAction J) Call Call.Reply where
  serve s call reply s' := (CacheWorld.tieredServer nodeUrls).serve s.view call reply s'.view ∧ s'.masters = s.masters
  act s action s' := match action with
    | .standby action => s.masters.Acts action s'.masters ∧ s'.stores = s.stores
    | .stores => s'.masters = s.masters

namespace GatewayWorld
variable {J : Type}

def view (s : GatewayWorld (RemoteCache J)) : GatewayWorld (CacheWorld GatewayStores) := ⟨s.cache.view, s.flights⟩

def setMasters (s : GatewayWorld (RemoteCache J)) (masters : Cluster J) : GatewayWorld (RemoteCache J) :=
  s.setCache { s.cache with masters := masters }

variable [DecidableEq J] [Sha256] [ChaCha20Poly1305]

/-- `RemoteMasterClient` and the handlers of its master, whose numbers are words. -/
def remote (carries : Value → Value → Prop) (leadership : LeadershipState) (saves : Except String Unit → Prop)
    (nodeUrls : NodeUrls) (vendor : (call : Call) → call.Reply → Prop) :
    RemoteServer (GatewayWorld (RemoteCache J)) (GatewayAction (RemoteAction J)) Call Call.Reply MasterCall
      MasterCall.Reply HttpAnswer where
  direct := GatewayWorld.server (RemoteCache.server nodeUrls) vendor
  remote call := (RemoteMasterClient.request call).isSome
  handles call handler := ∃ sent received, RemoteMasterClient.request call = some sent ∧
    sent.Arrives carries received ∧ MasterRequest.Routed leadership received handler
  serve s call told s' := call.Words ∧ ∃ masters, s.cache.masters.Serves saves call told masters ∧ s' = s.setMasters masters
  hears call answer reply := ∃ received, answer.Arrives carries received ∧ RemoteMasterClient.Hears call received reply
  lost := RemoteMasterClient.Lost
  others handler := ∃ received, MasterRequest.Routed leadership received handler

end GatewayWorld

section
variable {call : Call} {reply : call.Reply}

theorem RemoteMasterClient.Lost.lost (h : RemoteMasterClient.Lost call reply) : call.Lost reply := by
  cases call with
  | getReplicaList | putStart | putEnd | putRevoke =>
    obtain ⟨message, rfl⟩ := h
    exact ⟨_, rfl⟩
  | _ => cases h

private theorem RemoteMasterClient.PostJson.lost {α : Type} {read : Value → Option α} {answer : HttpAnswer}
    {told : GatewayResult α} (h : PostJson read answer told) (fails : answer.isSuccess = false) :
    ∃ err, told = .error err := by
  rw [PostJson, if_neg (by simp [fails])] at h
  exact ⟨_, h⟩

theorem RemoteMasterClient.Hears.lost {answer : HttpAnswer} (h : Hears call answer reply)
    (fails : answer.isSuccess = false) : call.Lost reply := by
  cases call with
  | getReplicaList =>
    simp only [Hears] at h
    split at h
    · exact ⟨_, h⟩
    · exact PostJson.lost h fails
  | putStart => exact PostJson.lost h fails
  | putEnd | putRevoke =>
    obtain ⟨told, posted, rfl⟩ := h
    obtain ⟨err, rfl⟩ := posted.lost fails
    exact ⟨err, rfl⟩
  | _ => cases h

end

/-- What a call under the lock does is an operation, or nothing. -/
theorem MasterState.Serves.step {s s' : MasterState} {call : MasterCall} {reply : call.Reply}
    (h : s.Serves call reply s') (words : call.Words) : s' = s ∨ ∃ op, s.Step op s' := by
  cases call with
  | putStart tenant key len replicaCount =>
    exact .inr ⟨.putStart tenant key len replicaCount, words, congrArg Prod.snd h⟩
  | putEnd tenant key => exact .inr ⟨.putEnd tenant key, trivial, congrArg Prod.snd h⟩
  | putRevoke tenant key => exact .inr ⟨.putRevoke tenant key, trivial, congrArg Prod.snd h⟩
  | getReplicaList tenant key =>
    obtain ⟨nowMs, served⟩ := h
    exact .inr ⟨.getReplicaList tenant key nowMs, trivial, congrArg Prod.snd served⟩
  | remove tenant key => exact .inr ⟨.remove tenant key, trivial, congrArg Prod.snd h⟩
  | setTenantQuota tenantId dramBytes ssdBytes =>
    exact .inr ⟨.setTenantQuota tenantId dramBytes ssdBytes, words, congrArg Prod.snd h⟩
  | mountSegment nodeId len => exact .inr ⟨.mountSegment nodeId len, words, h⟩
  | metadataSnapshot => exact .inl h.2
  | save snapshot => exact h.elim
  | resume => exact .inl h

theorem Cluster.Serves.step {J : Type} {s s' : Cluster J} {saves : Except String Unit → Prop} {call : MasterCall}
    {reply : call.Reply} (h : s.Serves saves call reply s') (words : call.Words) :
    s'.leader = s.leader ∨ ∃ op, s.leader.Step op s'.leader := by
  cases call with
  | save snapshot =>
    obtain ⟨_, rfl | ⟨_, rfl⟩⟩ := h
    · exact .inl rfl
    · exact .inl rfl
  | _ =>
    obtain ⟨leader, served, rfl⟩ := h
    exact served.step words

/-- A standby does nothing to the leader. -/
theorem Cluster.Acts.leader {J : Type} [DecidableEq J] {s s' : Cluster J} {action : Cluster.Action J}
    (h : s.Acts action s') : s'.leader = s.leader := by
  cases action with
  | start j =>
    obtain ⟨_, rfl⟩ := h
    rfl
  | answer j request response =>
    obtain ⟨_, _, _, _, _, _, rfl⟩ := h
    rfl

namespace GatewayWorld
variable {J : Type} [Sha256] [ChaCha20Poly1305] {nodeUrls : NodeUrls} {vendor : (call : Call) → call.Reply → Prop}

/-- A call to the master is one to the cache. -/
private theorem serves_of_tiered {call : Call} {reply : call.Reply} {w : GatewayWorld (CacheWorld GatewayStores)}
    {after : CacheWorld GatewayStores} (sends : (RemoteMasterClient.request call).isSome = true)
    (served : (CacheWorld.tieredServer nodeUrls).serve w.cache call reply after) :
    (server (CacheWorld.tieredServer nodeUrls) vendor).serve w call reply (w.setCache after) := by
  cases call with
  | getReplicaList | putStart | putEnd | putRevoke => exact ⟨after, served, rfl⟩
  | _ => cases sends

private theorem serves_lost {call : Call} {reply : call.Reply} (lost : call.Lost reply)
    (sends : (RemoteMasterClient.request call).isSome = true) (w : GatewayWorld (CacheWorld GatewayStores)) :
    (server (CacheWorld.tieredServer nodeUrls) vendor).serve w call reply w :=
  serves_of_tiered sends (.inr ⟨lost, .inl rfl⟩)

omit [Sha256] [ChaCha20Poly1305] in
private theorem request_of_lost {call : Call} {reply : call.Reply} (lost : RemoteMasterClient.Lost call reply) :
    (RemoteMasterClient.request call).isSome = true := by
  cases call with
  | getReplicaList | putStart | putEnd | putRevoke => rfl
  | _ => cases lost

variable [DecidableEq J]

private theorem view_serve {s s' : GatewayWorld (RemoteCache J)} {call : Call} {reply : call.Reply}
    (here : ¬ (RemoteMasterClient.request call).isSome = true)
    (served : (server (RemoteCache.server nodeUrls) vendor).serve s call reply s') :
    (server (CacheWorld.tieredServer nodeUrls) vendor).serve s.view call reply s'.view := by
  cases call with
  | getReplicaList | putStart | putEnd | putRevoke => exact absurd rfl here
  | readChunk | writePreallocatedChunk =>
    obtain ⟨after, ⟨served, _⟩, rfl⟩ := served
    exact ⟨after.view, served, rfl⟩
  | resolveModelVersion | complete | stream | begin =>
    obtain ⟨told, rfl⟩ := served
    exact ⟨told, rfl⟩
  | publish | send =>
    obtain ⟨flights, taken, rfl⟩ := served
    exact ⟨flights, taken, rfl⟩
  | wait =>
    obtain ⟨joined, returned, rfl⟩ := served
    exact ⟨joined, returned, rfl⟩
  | recordCacheStatus | recordWrite | recordSingleflight | recordVendorCall => exact congrArg view served

private theorem view_act {s s' : GatewayWorld (RemoteCache J)} {action : GatewayAction (RemoteAction J)}
    (acts : (server (RemoteCache.server nodeUrls) vendor).act s action s') : s'.view = s.view ∨
      ∃ a, (server (CacheWorld.tieredServer nodeUrls) vendor).act s.view a s'.view := by
  cases action with
  | cache action =>
    cases action with
    | standby action =>
      obtain ⟨after, ⟨acts, same⟩, rfl⟩ := acts
      refine .inl ?_
      simp only [view, setCache, RemoteCache.view, acts.leader, same]
    | stores =>
      obtain ⟨after, same, rfl⟩ := acts
      exact .inr ⟨.cache .stores, after.view, congrArg Cluster.leader same, rfl⟩
  | wake waiter =>
    obtain ⟨flights, taken, rfl⟩ := acts
    exact .inr ⟨.wake waiter, flights, taken, rfl⟩
  | cancelLeader leader =>
    obtain ⟨flights, taken, rfl⟩ := acts
    exact .inr ⟨.cancelLeader leader, flights, taken, rfl⟩
  | cancelWaiter waiter =>
    obtain ⟨flights, taken, rfl⟩ := acts
    exact .inr ⟨.cancelWaiter waiter, flights, taken, rfl⟩

/-! The handlers. -/

variable {carries : Value → Value → Prop} {leadership : LeadershipState} {saves : Except String Unit → Prop}
  {call : Call}

/-- The handler of the call has had no effect yet. -/
private abbrev Waiting (carries : Value → Value → Prop) (leadership : LeadershipState)
    (saves : Except String Unit → Prop) (nodeUrls : NodeUrls) (vendor : (call : Call) → call.Reply → Prop) (J : Type)
    [DecidableEq J] (call : Call) (handler : Handler MasterResponse) : Prop :=
  (remote carries leadership saves nodeUrls vendor).Pending (server (CacheWorld.tieredServer nodeUrls) vendor)
    (view (J := J)) call (do return (← handler).answer)

/-- It has had this effect. -/
private abbrev Done (carries : Value → Value → Prop) (leadership : LeadershipState)
    (saves : Except String Unit → Prop) (nodeUrls : NodeUrls) (vendor : (call : Call) → call.Reply → Prop) (J : Type)
    [DecidableEq J] (call : Call) (w w' : GatewayWorld (CacheWorld GatewayStores)) (handler : Handler MasterResponse) :
    Prop :=
  (remote carries leadership saves nodeUrls vendor).Effected (server (CacheWorld.tieredServer nodeUrls) vendor)
    (view (J := J)) call w w' (do return (← handler).answer)

omit [Sha256] [ChaCha20Poly1305] [DecidableEq J] in
private theorem lost_of_answer {answer received : HttpAnswer} {reply : call.Reply} (fails : answer.isSuccess = false)
    (arrives : answer.Arrives carries received) (hears : RemoteMasterClient.Hears call received reply) :
    call.Lost reply := by
  refine hears.lost ?_
  rw [HttpAnswer.isSuccess, arrives.1]
  exact fails

private theorem waiting_error (sends : (RemoteMasterClient.request call).isSome = true) {response : MasterResponse}
    (fails : response.answer.isSuccess = false) : Waiting carries leadership saves nodeUrls vendor J call (pure response) := by
  rintro reply w ⟨received, arrives, hears⟩
  exact serves_lost (lost_of_answer fails arrives hears) sends w

omit [Sha256] [ChaCha20Poly1305] in
private theorem ofError_fails (err : CacheError) : (MasterResponse.ofError err).answer.isSuccess = false := by
  cases err <;> rfl

private theorem waiting_asLeader (sends : (RemoteMasterClient.request call).isSome = true)
    {handler : Handler MasterResponse} (h : Waiting carries leadership saves nodeUrls vendor J call handler) :
    Waiting carries leadership saves nodeUrls vendor J call (Handler.asLeader leadership handler) := by
  by_cases leads : leadership.isLeader = true
  · simpa only [Handler.asLeader, Handler.requireLeader, leads, ↓reduceIte] using h
  · simp only [Handler.asLeader, Handler.requireLeader, leads]
    exact waiting_error sends rfl

private theorem waiting_withObject (sends : (RemoteMasterClient.request call).isSome = true) {tenantId : TenantId}
    {cacheKey : CacheKey} {handler : TenantId → CacheKey → Handler MasterResponse}
    (h : Waiting carries leadership saves nodeUrls vendor J call (handler tenantId cacheKey)) :
    Waiting carries leadership saves nodeUrls vendor J call
      (Handler.withObject tenantId.value cacheKey.value handler) := by
  unfold Handler.withObject
  split
  · exact waiting_error sends (ofError_fails _)
  · rename_i tenant parsed
    split
    · exact waiting_error sends (ofError_fails _)
    · rename_i key decoded
      obtain ⟨sameTenant, sameKey⟩ := Names.values (show Names tenantId.value cacheKey.value tenant key from ⟨parsed, decoded⟩)
      obtain rfl : tenantId = tenant := by cases tenantId; cases tenant; exact congrArg _ sameTenant
      obtain rfl : cacheKey = key := by cases cacheKey; cases key; exact congrArg _ sameKey
      exact h

section
variable {w : GatewayWorld (CacheWorld GatewayStores)} {after : CacheWorld GatewayStores} {sent : call.Reply}

private theorem done_error (sends : (RemoteMasterClient.request call).isSome = true) {response : MasterResponse}
    (fails : response.answer.isSuccess = false) (served : w.cache.ServesTiered nodeUrls call sent after) :
    Done carries leadership saves nodeUrls vendor J call w (w.setCache after) (pure response) := by
  rintro reply ⟨received, arrives, hears⟩
  exact serves_of_tiered sends (.inr ⟨lost_of_answer fails arrives hears, .inr ⟨sent, served⟩⟩)

private theorem done_answer (sends : (RemoteMasterClient.request call).isSome = true) {response : MasterResponse}
    (heard : ∀ received reply, response.answer.Arrives carries received → RemoteMasterClient.Hears call received reply →
      reply = sent) (served : w.cache.ServesTiered nodeUrls call sent after) :
    Done carries leadership saves nodeUrls vendor J call w (w.setCache after) (pure response) := by
  rintro reply ⟨received, arrives, hears⟩
  rw [heard received reply arrives hears]
  exact serves_of_tiered sends (.inl served)

/-- The snapshot and the save change nothing that the gateway sees. -/
private theorem done_acknowledge (sends : (RemoteMasterClient.request call).isSome = true) {α : Type}
    {result : CacheResult α} {answer : α → MasterResponse} (heard : ∀ value, result = .ok value → ∀ received reply,
      (answer value).answer.Arrives carries received → RemoteMasterClient.Hears call received reply → reply = sent)
    (served : w.cache.ServesTiered nodeUrls call sent after) :
    Done carries leadership saves nodeUrls vendor J call w (w.setCache after) (Handler.acknowledge result answer) := by
  cases result with
  | error err => exact done_error sends (ofError_fails err) served
  | ok value =>
    rintro v snapshot v' ⟨_, masters, ⟨leader, ⟨_, rfl⟩, rfl⟩, rfl⟩
    refine ⟨rfl, ?_⟩
    rintro v saved v' ⟨_, masters, ⟨_, written⟩, rfl⟩
    refine ⟨?_, ?_⟩
    · rcases written with rfl | ⟨_, rfl⟩ <;> rfl
    rintro v ⟨⟩ v' ⟨_, masters, ⟨leader, rfl, rfl⟩, rfl⟩
    refine ⟨rfl, ?_⟩
    · cases saved with
      | error err => exact done_error sends rfl served
      | ok done => exact done_answer sends (heard value rfl) served

end

/-- A call under the lock is the effect of its handler. -/
private theorem waiting_effect (sends : (RemoteMasterClient.request call).isSome = true) (inner : MasterCall)
    {rest : inner.Reply → Handler MasterResponse} (sent : inner.Reply → call.Reply)
    (leads : ∀ {s : Cluster J} {told s'}, s.Serves saves inner told s' →
      ∃ leader, s.leader.Serves inner told leader ∧ s' = { s with leader := leader })
    (serves : ∀ {s : CacheWorld GatewayStores} {told leader}, s.master.Serves inner told leader →
      s.ServesTiered nodeUrls call (sent told) { s with master := leader })
    (answers : ∀ {w : GatewayWorld (CacheWorld GatewayStores)} {told after},
      w.cache.ServesTiered nodeUrls call (sent told) after →
      Done carries leadership saves nodeUrls vendor J call w (w.setCache after) (rest told)) :
    Waiting carries leadership saves nodeUrls vendor J call (perform inner >>= rest) := by
  rintro v told v' ⟨_, masters, served, rfl⟩
  obtain ⟨leader, led, rfl⟩ := leads served
  have effect : v.view.cache.ServesTiered nodeUrls call (sent told) ⟨leader, v.cache.stores⟩ :=
    serves (s := v.view.cache) led
  exact .inr ⟨fun reply lost => serves_of_tiered sends (.inr ⟨lost.lost, .inr ⟨_, effect⟩⟩), answers effect⟩

omit [Sha256] [ChaCha20Poly1305] in
/-- What the cache tells of an operation at the master, and the cache after it. -/
private theorem told_and_left {α : Type} {s : CacheWorld GatewayStores} {told : CacheResult α} {leader : MasterState}
    {outcome : CacheResult α × MasterState} (served : (told, leader) = outcome) :
    cacheResult told = cacheResult outcome.1 ∧ ({ s with master := leader } : CacheWorld GatewayStores) =
      { s with master := outcome.2 } := by
  subst served
  exact ⟨rfl, rfl⟩

private theorem waiting_getReplicaList (faithful : Faithful carries) (tenantId : TenantId) (cacheKey : CacheKey) :
    Waiting carries leadership saves nodeUrls vendor J (.getReplicaList tenantId cacheKey)
      (Handler.getReplicaList ⟨tenantId.value, cacheKey.value⟩) := by
  refine waiting_withObject rfl (waiting_effect rfl (.getReplicaList tenantId cacheKey) cacheResult id ?_ ?_)
  · rintro s told leader ⟨nowMs, served⟩ client
    exact ⟨nowMs, told_and_left served⟩
  · rintro w (err | list) after served
    · exact done_error rfl (ofError_fails err) served
    · exact done_answer rfl (fun received reply arrives hears => RemoteMasterClient.hears_list faithful arrives hears) served

private theorem waiting_putStart (faithful : Faithful carries) (tenantId : TenantId) (cacheKey : CacheKey)
    (len replicaCount : Nat) : Waiting carries leadership saves nodeUrls vendor J
      (.putStart tenantId cacheKey len replicaCount)
      (Handler.putStart leadership ⟨tenantId.value, cacheKey.value, len, replicaCount⟩) := by
  refine waiting_asLeader rfl (waiting_withObject rfl (waiting_effect rfl
    (.putStart tenantId cacheKey len replicaCount) cacheResult id (fun served _ => told_and_left served) ?_))
  intro w told after served
  refine done_acknowledge rfl (fun replicas same received reply arrives hears => ?_) served
  rw [same]
  exact RemoteMasterClient.hears_replicas faithful arrives hears

private theorem waiting_putEnd (faithful : Faithful carries) (tenantId : TenantId) (cacheKey : CacheKey) :
    Waiting carries leadership saves nodeUrls vendor J (.putEnd tenantId cacheKey)
      (Handler.putEnd leadership ⟨tenantId.value, cacheKey.value⟩) := by
  refine waiting_asLeader rfl (waiting_withObject rfl (waiting_effect rfl (.putEnd tenantId cacheKey)
    cacheResult id (fun served _ => told_and_left served) ?_))
  intro w told after served
  refine done_acknowledge rfl (fun done same received reply arrives hears => ?_) served
  obtain ⟨ok, posted, rfl⟩ := hears
  rw [same, RemoteMasterClient.posted_ok faithful arrives posted]
  rfl

private theorem waiting_putRevoke (faithful : Faithful carries) (tenantId : TenantId) (cacheKey : CacheKey) :
    Waiting carries leadership saves nodeUrls vendor J (.putRevoke tenantId cacheKey)
      (Handler.putRevoke leadership ⟨tenantId.value, cacheKey.value⟩) := by
  refine waiting_asLeader rfl (waiting_withObject rfl (waiting_effect rfl (.putRevoke tenantId cacheKey)
    cacheResult id (fun served _ => told_and_left served) ?_))
  intro w told after served
  refine done_acknowledge rfl (fun done same received reply arrives hears => ?_) served
  obtain ⟨ok, posted, rfl⟩ := hears
  rw [same, RemoteMasterClient.posted_ok faithful arrives posted]
  rfl

private theorem remote_implements (faithful : Faithful carries) :
    (remote (J := J) carries leadership saves nodeUrls vendor).Implements
      (server (CacheWorld.tieredServer nodeUrls) vendor) view RemoteMasterClient.Carried where
  direct here served := view_serve here served
  acts acts := view_act acts
  elsewhere := by
    rintro v request told v' ⟨words, masters, served, rfl⟩
    rcases served.step words with same | ⟨op, step⟩
    · refine .inl ?_
      simp only [view, setMasters, setCache, RemoteCache.view, same]
    · exact .inr ⟨.cache (.master op), ⟨masters.leader, v.cache.stores⟩, ⟨step, rfl⟩, rfl⟩
  lost lost w := serves_lost lost.lost (request_of_lost lost) w
  gives := by
    intro call sends
    cases call with
    | getReplicaList | putStart | putEnd | putRevoke => exact ⟨.error (.masterUpstream "unknown error"), _, rfl⟩
    | _ => cases sends
  pending := by
    rintro call handler carried sends ⟨sent, received, request, arrives, routed⟩
    rcases RemoteMasterClient.routed_cases faithful carried request arrives routed with
      ⟨answer, refusal, rfl⟩ | ⟨asks, asked, rfl⟩
    · rintro reply w ⟨heard, arrives, hears⟩
      have fails : answer.isSuccess = false := by
        have client := refusal.1
        simp only [HttpAnswer.isSuccess, Bool.and_eq_false_imp, decide_eq_true_eq, decide_eq_false_iff_not]
        omega
      exact serves_lost (lost_of_answer fails arrives hears) sends w
    · cases call with
      | getReplicaList tenantId cacheKey =>
        cases asked
        exact waiting_getReplicaList faithful tenantId cacheKey
      | putStart tenantId cacheKey len replicaCount =>
        cases asked
        exact waiting_putStart faithful tenantId cacheKey len replicaCount
      | putEnd tenantId cacheKey =>
        cases asked
        exact waiting_putEnd faithful tenantId cacheKey
      | putRevoke tenantId cacheKey =>
        cases asked
        exact waiting_putRevoke faithful tenantId cacheKey
      | _ => cases sends

end GatewayWorld

/-- The only query of a request names its tenant and a digest. -/
private theorem Accesses.carried [Sha256] [JsonWriter] [JsonReader] {request : GatewayRequest} {state : GatewayState}
    {past : List GatewayEvent} {call : Call} (h : Accesses request state past call)
    (survive : ∀ tenantId, state.authenticate request.authorization = some tenantId → SurvivesQuery tenantId.value.toList) :
    RemoteMasterClient.Carried call := by
  cases call with
  | getReplicaList tenantId cacheKey =>
    rcases h with free | ⟨_, ⟨⟩⟩ | ⟨parsed, input, identified, within⟩
    · exact free.elim
    · obtain ⟨rfl, rfl⟩ := Prod.mk.inj within
      exact ⟨survive _ identified.authenticated, survives_of_hex (fromHex_lowerHex _)⟩
  | _ => trivial

/-- Whatever a gateway does over HTTP, whatever is lost, late or saved meanwhile at a master that leads or does not,
it does over a master that serves every call at once or loses it. -/
theorem remote_master_serves_at_once [Sha256] [JsonWriter] [JsonReader] [ChaCha20Poly1305] {I J : Type} [DecidableEq I]
    [DecidableEq J] {carries : Value → Value → Prop} {leadership : LeadershipState} {saves : Except String Unit → Prop}
    {nodeUrls : NodeUrls} {vendor : (call : Call) → call.Reply → Prop} {requests : I → GatewayRequest}
    {state : GatewayState} {world : GatewayWorld (RemoteCache J)} {trace s} (faithful : Faithful carries)
    (survive : ∀ i tenantId, state.authenticate (requests i).authorization = some tenantId →
      SurvivesQuery tenantId.value.toList)
    (run : Run (RemotePool.Step (GatewayWorld.remote carries leadership saves nodeUrls vendor))
      (RemotePool.initial world (programs requests state)) trace s) :
    ∃ trace' a, Run (Pool.Step (GatewayWorld.server (CacheWorld.tieredServer nodeUrls) vendor))
        (Pool.initial world.view (programs requests state)) trace' a ∧ a.world = s.world.view ∧
      ∀ i, ∃ more, Pool.own a.history i = Pool.own s.history i ++ more ∧ (s.threads i).Tracked (a.threads i) more :=
  RemotePool.run_implements (GatewayWorld.remote_implements faithful)
    (fun i => (program_accesses (requests i) state).mono (fun _ _ made => made.carried (survive i)) fun _ _ _ => trivial)
    run

/-- A cipher for a run that stores nothing on SSD. -/
@[reducible] private def unusedCipher : ChaCha20Poly1305 := ⟨fun _ _ _ _ => none, fun _ _ _ _ => none⟩

private def remoteWorld : GatewayWorld (RemoteCache Empty) :=
  ⟨⟨⟨MasterState.new.mountSegment "default" 16, none, nofun⟩, .inProcess (.withCapacity 16)⟩, .new 1024⟩

/-- What the master saves once the body of a greeting has its room. -/
private def reservedSnapshot : MasterMetadataSnapshot :=
  ⟨[⟨⟨"tenant-a"⟩, greetingKey, 4, .reserving, [⟨"default", 0, 4⟩], false, none⟩], [], 0⟩

private theorem whole_faithful : Faithful fun sent received => received = sent := by
  rintro sent received message rfl
  exact ⟨message.formed, .refl message.formed⟩

/-- A request that is carried as it is has the handler of what it asks. -/
private theorem arrives_whole {call : Call} {request : MasterRequest} {handler : Handler HttpAnswer}
    (leadership : LeadershipState) (carried : RemoteMasterClient.Carried call)
    (asks : RemoteMasterClient.asked call = some request) (words : request.Words)
    (handles : (do return (← request.handle leadership).answer) = handler) : ∃ sent received,
      RemoteMasterClient.request call = some sent ∧ sent.Arrives (fun sent received => received = sent) received ∧
        MasterRequest.Routed leadership received handler := by
  obtain ⟨sent, sends⟩ : ∃ sent, RemoteMasterClient.request call = some sent := by
    cases call with
    | getReplicaList | putStart | putEnd | putRevoke => exact ⟨_, rfl⟩
    | _ => cases asks
  have arrives : sent.Arrives (fun sent received => received = sent) sent := by
    cases sent with
    | post path body => exact ⟨body, rfl, rfl⟩
    | get | delete => rfl
  obtain ⟨routed, asked, route⟩ := RemoteMasterClient.ofRoute_request whole_faithful carried sends arrives
  obtain rfl : request = routed := Option.some.inj (asks.symm.trans asked)
  refine ⟨sent, sent, sends, arrives, ?_⟩
  unfold MasterRequest.Routed
  rw [MasterRequest.ofHttp, route]
  simpa only [Option.filter, words, decide_true, ↓reduceIte] using handles.symm

private theorem greeting_parsed : TenantId.parse "tenant-a" = .ok ⟨"tenant-a"⟩ := by decide

private theorem lookup_arrives (leadership : LeadershipState) : ∃ sent received,
    RemoteMasterClient.request (.getReplicaList ⟨"tenant-a"⟩ greetingKey) = some sent ∧
      sent.Arrives (fun sent received => received = sent) received ∧ MasterRequest.Routed leadership received
        (.call (.getReplicaList ⟨"tenant-a"⟩ greetingKey) fun
          | .ok list => .done (MasterResponse.mk 200 list.toValue).answer
          | .error err => .done (MasterResponse.ofError err).answer) := by
  refine arrives_whole leadership ⟨by decide, survives_of_hex greeting_decoded⟩ rfl trivial ?_
  simp only [MasterRequest.handle, Handler.getReplicaList, Handler.withObject, greeting_parsed, greeting_decoded]
  refine congrArg (Program.call _) (funext fun reply => ?_)
  cases reply <;> rfl

private theorem start_arrives {leadership : LeadershipState} (leads : leadership.isLeader = true) : ∃ sent received,
    RemoteMasterClient.request (.putStart ⟨"tenant-a"⟩ greetingKey 4 1) = some sent ∧
      sent.Arrives (fun sent received => received = sent) received ∧ MasterRequest.Routed leadership received
        (.call (.putStart ⟨"tenant-a"⟩ greetingKey 4 1) fun result => do
          return (← Handler.acknowledge result fun replicas =>
            ⟨200, .object [("replicas", .array (replicas.map ReplicaDescriptor.toValue))]⟩).answer) := by
  refine arrives_whole leadership trivial rfl (by decide) ?_
  simp only [MasterRequest.handle, Handler.putStart, Handler.asLeader, Handler.requireLeader, leads, ↓reduceIte,
    Handler.withObject, greeting_parsed, greeting_decoded]
  rfl

section
variable [Sha256] [ChaCha20Poly1305] {leadership : LeadershipState} {nodeUrls : NodeUrls}
  {s : RemotePool Unit (GatewayWorld (RemoteCache Empty)) Call Call.Reply MasterCall MasterCall.Reply HttpAnswer
    (GatewayResult GatewayResponse)}

/-- Bodies arrive as they are sent, and every save succeeds. -/
private abbrev plainRemote (leadership : LeadershipState) (nodeUrls : NodeUrls) :=
  GatewayWorld.remote (J := Empty) (fun sent received => received = sent) leadership (· = .ok ()) nodeUrls politeVendor

/-- A step of the handler at the leader. -/
private theorem master_step (request : MasterCall) (told : request.Reply) {call : Call}
    {next : call.Reply → Flow (GatewayResult GatewayResponse)} {rest : request.Reply → Handler HttpAnswer}
    {masters : Cluster Empty} (pending : s.threads () = .handled call next (.call request rest)) (words : request.Words)
    (served : s.world.cache.masters.Serves (· = .ok ()) request told masters) :
    RemotePool.Step (plainRemote leadership nodeUrls) s (.moved ())
      ({ s with world := s.world.setMasters masters }.become () (.handled call next (rest told))) :=
  .handle pending ⟨words, masters, served, rfl⟩

end

/-- A greeting finds nothing, and room is reserved and saved for what the vendor answers, all over HTTP. -/
theorem greeting_reserves_remotely : ∃ trace a,
    @Run (GatewayPool Unit (CacheWorld GatewayStores)) _
      (Pool.Step (GatewayWorld.server (@CacheWorld.tieredServer greetingDigests unusedCipher ⟨[], by simp⟩) politeVendor))
      (Pool.initial remoteWorld.view (@programs Unit greetingDigests greetingTexts greetingReader
        (fun _ => greetingRequest) openGateway)) trace a ∧
      ⟨.getReplicaList ⟨"tenant-a"⟩ greetingKey, .error (.cache .notFound)⟩ ∈ Pool.own a.history () ∧
      ⟨.putStart ⟨"tenant-a"⟩ greetingKey 4 1, .ok [⟨"default", 0, 4⟩]⟩ ∈ Pool.own a.history () ∧
      a.world.cache.master = (remoteWorld.cache.masters.leader.putStart ⟨"tenant-a"⟩ greetingKey 4 1).2 := by
  let _ := greetingDigests
  let _ := unusedCipher
  let _ := greetingTexts
  let _ := greetingReader
  have leads : (LeadershipState.leader "10.0.0.1:8081").isLeader = true := by decide
  have idle : Run (RemotePool.Step (plainRemote (.leader "10.0.0.1:8081") ⟨[], by simp⟩)) (RemotePool.initial remoteWorld
      (programs (fun _ : Unit => greetingRequest) openGateway)) [] _ := .start
  have resolved := idle.snoc (direct_step () (.resolveModelVersion "gpt-x") (.ok "gpt-x")
    (congrArg RemoteThread.ready greeting_program) Bool.false_ne_true ⟨rfl, rfl⟩)
  have missed := sent_steps () (.getReplicaList ⟨"tenant-a"⟩ greetingKey) resolved rfl rfl (lookup_arrives _)
    |>.snoc (master_step (.getReplicaList ⟨"tenant-a"⟩ greetingKey) (.error .notFound) rfl trivial ⟨_, ⟨0, rfl⟩, rfl⟩)
    |>.snoc (hear_step () (.getReplicaList ⟨"tenant-a"⟩ greetingKey) (MasterResponse.ofError .notFound).answer
      (.error (.cache .notFound)) rfl ⟨_, ⟨rfl, _, rfl, rfl⟩, rfl⟩)
  have answered := missed.snoc (direct_step () (.begin _) (.ok (.leader 0)) rfl Bool.false_ne_true ⟨rfl, rfl⟩)
    |>.snoc (direct_step () (.recordSingleflight .leader) () rfl Bool.false_ne_true rfl)
    |>.snoc (direct_step () (.complete _) (.ok (.string "hi")) rfl Bool.false_ne_true ⟨rfl, rfl⟩)
    |>.snoc (direct_step () .recordVendorCall () rfl Bool.false_ne_true rfl)
  have saved := sent_steps () (.putStart ⟨"tenant-a"⟩ greetingKey 4 1) answered rfl rfl (start_arrives leads)
    |>.snoc (master_step (.putStart ⟨"tenant-a"⟩ greetingKey 4 1) (.ok [⟨"default", 0, 4⟩]) rfl
      (show 4 ≤ wordMax by decide) ⟨_, rfl, rfl⟩)
    |>.snoc (master_step .metadataSnapshot reservedSnapshot rfl trivial ⟨_, ⟨⟨_, [], ⟨rfl, rfl⟩, rfl⟩, rfl⟩, rfl⟩)
    |>.snoc (master_step (.save reservedSnapshot) (.ok ()) rfl trivial ⟨rfl, .inl rfl⟩)
    |>.snoc (master_step .resume () rfl trivial ⟨_, rfl, rfl⟩)
  have heard := saved.snoc (hear_step () (.putStart ⟨"tenant-a"⟩ greetingKey 4 1) _ (.ok [⟨"default", 0, 4⟩]) rfl
    ⟨_, ⟨rfl, _, rfl, rfl⟩, rfl⟩)
  have survive : ∀ (i : Unit) tenantId, openGateway.authenticate greetingRequest.authorization = some tenantId →
      SurvivesQuery tenantId.value.toList := by
    intro _ tenantId named
    obtain rfl : (⟨"tenant-a"⟩ : TenantId) = tenantId := Option.some.inj (greeting_authenticated.symm.trans named)
    decide
  obtain ⟨trace, a, led, world, each⟩ := remote_master_serves_at_once whole_faithful survive heard
  obtain ⟨more, own, _⟩ := each ()
  have early (event : GatewayEvent) (member : ((), event) ∈ _) : event ∈ Pool.own a.history () :=
    own ▸ List.mem_append_left _ (Pool.mem_own.mpr member)
  exact ⟨trace, a, led, early _ (.tail _ (.head _)), early _ List.mem_concat_self, congrArg (·.cache.master) world⟩

end Mooncache
