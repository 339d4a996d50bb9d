import Mooncache.Gateway.CacheFlow
import Mooncache.Gateway.Queries
import Mooncache.Master.Records

/-! What `RemoteMasterClient` sends to a master, what the master's routes read from it, and what
the client makes of the answers. -/
namespace Mooncache
open Value (asStr asBool asUnsigned asArray Lists)

inductive HttpRequest where
  | get (path : String)
  | delete (path : String)
  | post (path : String) (body : Value)

/-- A status code, and the body if it is a JSON document. -/
structure HttpAnswer where
  status : Nat
  body : Option Value

def HttpAnswer.isSuccess (answer : HttpAnswer) : Bool := 200 ≤ answer.status && answer.status < 300

def MasterResponse.answer (response : MasterResponse) : HttpAnswer := ⟨response.status, some response.body⟩

/-- The path of a request without its query. -/
def routePath (path : String) : String := String.ofList (path.toList.takeWhile (· ≠ '?'))

/-! The types of the request bodies; the extractor `Json` refuses what is not of them. -/

def PutEndRequest.fromValue (body : Value) : Option PutEndRequest := do
  let tenantId ← body.field "tenant_id" asStr
  let cacheKey ← body.field "cache_key" asStr
  return ⟨tenantId, cacheKey⟩

def SetQuotaRequest.fromValue (body : Value) : Option SetQuotaRequest := do
  let tenantId ← body.field "tenant_id" asStr
  let dramBytes ← body.field "dram_bytes" asUnsigned
  let ssdBytes ← body.field "ssd_bytes" asUnsigned
  return ⟨tenantId, dramBytes, ssdBytes⟩

def MountSegmentRequest.fromValue (body : Value) : Option MountSegmentRequest := do
  let nodeId ← body.field "node_id" asStr
  let len ← body.field "len" asUnsigned
  return ⟨nodeId, len⟩

instance (request : MasterRequest) : Decidable request.Words := by
  cases request <;> unfold MasterRequest.Words <;> infer_instance

/-- The routes of `build_router_with_app_state` with the extractors of their handlers. -/
def MasterRequest.ofRoute : HttpRequest → Option MasterRequest
  | .get path =>
    if routePath path = "/objects/replicas" then (ReplicaListQuery.fromQuery (pathQuery path)).map .getReplicaList else none
  | .delete path =>
    if routePath path = "/objects" then (ReplicaListQuery.fromQuery (pathQuery path)).map .removeObject else none
  | .post path body =>
    if path = "/objects/start" then (PutStartRequest.fromValue body).map .putStart
    else if path = "/objects/end" then (PutEndRequest.fromValue body).map .putEnd
    else if path = "/objects/revoke" then (PutEndRequest.fromValue body).map .putRevoke
    else if path = "/tenants/quota" then (SetQuotaRequest.fromValue body).map .setTenantQuota
    else if path = "/segments/mount" then (MountSegmentRequest.fromValue body).map .mountSegment
    else none

/-- A number that is no word is not read. -/
def MasterRequest.ofHttp (received : HttpRequest) : Option MasterRequest :=
  (ofRoute received).filter fun request => decide request.Words

/-- The answer to a request that no route takes or that an extractor refuses. -/
def HttpAnswer.Refusal (answer : HttpAnswer) : Prop :=
  400 ≤ answer.status ∧ answer.status < 500 ∧ answer.body = none

/-- What a master runs for a request. -/
def MasterRequest.Routed (leadership : LeadershipState) (received : HttpRequest) (handler : Handler HttpAnswer) : Prop :=
  match ofHttp received with
  | some request => handler = do return (← request.handle leadership).answer
  | none => ∃ answer : HttpAnswer, answer.Refusal ∧ handler = pure answer

namespace RemoteMasterClient

def objectBody (tenantId : TenantId) (cacheKey : CacheKey) : Value :=
  .object [("cache_key", .string cacheKey.value), ("tenant_id", .string tenantId.value)]

/-- The request of a call; the other calls are not to the master. -/
def request : Call → Option HttpRequest
  | .getReplicaList tenantId cacheKey => some (.get (getReplicaListPath tenantId cacheKey))
  | .putStart tenantId cacheKey len replicaCount =>
    some (.post "/objects/start" (putStartBody tenantId cacheKey len replicaCount))
  | .putEnd tenantId cacheKey => some (.post "/objects/end" (objectBody tenantId cacheKey))
  | .putRevoke tenantId cacheKey => some (.post "/objects/revoke" (objectBody tenantId cacheKey))
  | _ => none

/-- The text of a `MasterErrorResponse`, or the one that stands for it. -/
def errorText (body : Option Value) : String := (body.bind fun value => value.field "error" asStr).getD "unknown error"

/-- The end of `post_json`, which asks for a body of a type. The text of an error in reading one is left open. -/
def PostJson {α : Type} (read : Value → Option α) (answer : HttpAnswer) (reply : GatewayResult α) : Prop :=
  if answer.isSuccess then
    match answer.body.bind read with
    | some value => reply = .ok value
    | none => ∃ message, reply = .error (.masterUpstream message)
  else reply = .error (.masterUpstream (errorText answer.body))

/-- What the client makes of an answer. -/
def Hears : (call : Call) → HttpAnswer → call.Reply → Prop
  | .getReplicaList _ _, answer, reply =>
    if answer.status = 404 then reply = .error (.cache .notFound) else PostJson ReplicaList.fromValue answer reply
  | .putStart _ _ _ _, answer, reply =>
    PostJson (fun body => body.field "replicas" (asArray ReplicaDescriptor.fromValue)) answer reply
  | .putEnd _ _, answer, reply | .putRevoke _ _, answer, reply =>
    ∃ told : GatewayResult Bool, PostJson (fun body => body.field "ok" asBool) answer told ∧ reply = told.map fun _ => ()
  | _, _, _ => False

/-- What it takes for one when none comes. -/
def Lost : (call : Call) → call.Reply → Prop
  | .getReplicaList _ _, reply => ∃ message, reply = .error (.masterUpstream message)
  | .putStart _ _ _ _, reply => ∃ message, reply = .error (.masterUpstream message)
  | .putEnd _ _, reply | .putRevoke _ _, reply => ∃ message, reply = .error (.masterUpstream message)
  | _, _ => False

end RemoteMasterClient

/-- The bodies that a client and a master send each other. -/
inductive MasterMessage : Value → Prop
  | start (tenantId : TenantId) (cacheKey : CacheKey) (len replicaCount : Nat) :
      MasterMessage (RemoteMasterClient.putStartBody tenantId cacheKey len replicaCount)
  | object (tenantId : TenantId) (cacheKey : CacheKey) : MasterMessage (RemoteMasterClient.objectBody tenantId cacheKey)
  | replicas (replicas : List ReplicaDescriptor) :
      MasterMessage (.object [("replicas", .array (replicas.map ReplicaDescriptor.toValue))])
  | list (list : ReplicaList) : MasterMessage list.toValue
  | acknowledged : MasterMessage (.object [("ok", .bool true)])
  | error (message : String) : MasterMessage (.object [("error", .string message)])

/-- The text of a message is read as the same members, in some order. -/
def Faithful (carries : Value → Value → Prop) : Prop :=
  ∀ sent received, MasterMessage sent → carries sent received → received.wellFormed = true ∧ received.Same sent

/-- A request as it arrives. -/
def HttpRequest.Arrives (carries : Value → Value → Prop) : HttpRequest → HttpRequest → Prop
  | .post path body, received => ∃ found, carries body found ∧ received = .post path found
  | request, received => received = request

def HttpAnswer.Arrives (carries : Value → Value → Prop) (answer received : HttpAnswer) : Prop :=
  received.status = answer.status ∧ match answer.body with
    | some body => ∃ found, carries body found ∧ received.body = some found
    | none => received.body = none

/-! What arrives is what was sent. -/

namespace MasterMessage

theorem formed {value : Value} (h : MasterMessage value) : value.wellFormed = true := by
  cases h with
  | replicas replicas =>
    have items := (replicas_readBack replicas).formed
    simp only [Value.wellFormed] at items
    simp [Value.wellFormed, Value.wellFormedMembers, items]
  | list list => exact list.readsBack.formed
  | start | object | acknowledged | error => rfl

variable {carries : Value → Value → Prop} {tenantId : TenantId} {cacheKey : CacheKey} {found : Value}

theorem fromValue_object (faithful : Faithful carries)
    (carried : carries (RemoteMasterClient.objectBody tenantId cacheKey) found) :
    PutEndRequest.fromValue found = some ⟨tenantId.value, cacheKey.value⟩ := by
  obtain ⟨formed, same⟩ := faithful _ _ (.object tenantId cacheKey) carried
  have members : Lists found _ := ⟨formed, same, by simp⟩
  rw [PutEndRequest.fromValue, members.field "tenant_id" (.string _) rfl, members.field "cache_key" (.string _) rfl]
  rfl

theorem fromValue_start (faithful : Faithful carries) {len replicaCount : Nat}
    (carried : carries (RemoteMasterClient.putStartBody tenantId cacheKey len replicaCount) found) :
    PutStartRequest.fromValue found = some ⟨tenantId.value, cacheKey.value, len, replicaCount⟩ := by
  obtain ⟨formed, same⟩ := faithful _ _ (.start tenantId cacheKey len replicaCount) carried
  exact PutStartRequest.fromValue_same formed same

theorem fromValue_list (faithful : Faithful carries) {list : ReplicaList} (carried : carries list.toValue found) :
    ReplicaList.fromValue found = some list := by
  obtain ⟨formed, same⟩ := faithful _ _ (.list list) carried
  exact list.readsBack.reads formed same

theorem field_replicas (faithful : Faithful carries) {replicas : List ReplicaDescriptor}
    (carried : carries (.object [("replicas", .array (replicas.map ReplicaDescriptor.toValue))]) found) :
    found.field "replicas" (asArray ReplicaDescriptor.fromValue) = some replicas := by
  obtain ⟨formed, same⟩ := faithful _ _ (.replicas replicas) carried
  exact Lists.field ⟨formed, same, by simp⟩ "replicas" (replicas_readBack replicas) rfl

theorem field_ok (faithful : Faithful carries) (carried : carries (.object [("ok", .bool true)]) found) :
    found.field "ok" asBool = some true := by
  obtain ⟨formed, same⟩ := faithful _ _ .acknowledged carried
  exact Lists.field ⟨formed, same, by simp⟩ "ok" (.bool true) rfl

end MasterMessage

section
variable {tenantId : TenantId} {cacheKey : CacheKey}

theorem routePath_front (front : String) (absent : '?' ∉ front.toList) (tenantId : TenantId) (cacheKey : CacheKey) :
    routePath (front ++ "?tenant_id=" ++ tenantId.value ++ "&cache_key=" ++ cacheKey.value) = front := by
  have text : (front ++ "?tenant_id=" ++ tenantId.value ++ "&cache_key=" ++ cacheKey.value).toList =
      front.toList ++ '?' :: ("tenant_id=".toList ++ tenantId.value.toList ++ "&cache_key=".toList ++ cacheKey.value.toList) := by
    simp
  have others : ∀ c ∈ front.toList, decide (c ≠ '?') = true := fun c member =>
    decide_eq_true fun same => absent (same ▸ member)
  rw [routePath, text, List.takeWhile_append_of_pos others]
  simp

theorem routePath_getReplicaList :
    routePath (RemoteMasterClient.getReplicaListPath tenantId cacheKey) = "/objects/replicas" := by
  have path : RemoteMasterClient.getReplicaListPath tenantId cacheKey =
      "/objects/replicas" ++ "?tenant_id=" ++ tenantId.value ++ "&cache_key=" ++ cacheKey.value := rfl
  rw [path]
  exact routePath_front "/objects/replicas" (by decide) tenantId cacheKey

theorem fromQuery_getReplicaList (tenant : SurvivesQuery tenantId.value.toList)
    (key : SurvivesQuery cacheKey.value.toList) :
    ReplicaListQuery.fromQuery (pathQuery (RemoteMasterClient.getReplicaListPath tenantId cacheKey)) =
      some ⟨tenantId.value, cacheKey.value⟩ := by
  obtain ⟨tenant, key⟩ := queryValues_of_survives tenant key
  rw [pathQuery_getReplicaList, ReplicaListQuery.fromQuery, requiredField_eq_some.mpr tenant,
    requiredField_eq_some.mpr key]
  rfl

end

namespace RemoteMasterClient

/-- What a call asks the master to handle. -/
def asked : Call → Option MasterRequest
  | .getReplicaList tenantId cacheKey => some (.getReplicaList ⟨tenantId.value, cacheKey.value⟩)
  | .putStart tenantId cacheKey len replicaCount =>
    some (.putStart ⟨tenantId.value, cacheKey.value, len, replicaCount⟩)
  | .putEnd tenantId cacheKey => some (.putEnd ⟨tenantId.value, cacheKey.value⟩)
  | .putRevoke tenantId cacheKey => some (.putRevoke ⟨tenantId.value, cacheKey.value⟩)
  | _ => none

/-- A call whose object a query carries as it is, if it is sent in one. -/
def Carried : Call → Prop
  | .getReplicaList tenantId cacheKey => SurvivesQuery tenantId.value.toList ∧ SurvivesQuery cacheKey.value.toList
  | _ => True

theorem ofRoute_request {carries : Value → Value → Prop} (faithful : Faithful carries) {call : Call}
    {sent received : HttpRequest} (carried : Carried call) (sends : request call = some sent)
    (arrives : sent.Arrives carries received) :
    ∃ request, asked call = some request ∧ MasterRequest.ofRoute received = some request := by
  cases call with
  | getReplicaList tenantId cacheKey =>
    cases sends
    cases arrives
    refine ⟨_, rfl, ?_⟩
    rw [MasterRequest.ofRoute, if_pos routePath_getReplicaList, fromQuery_getReplicaList carried.1 carried.2]
    rfl
  | putStart tenantId cacheKey len replicaCount =>
    cases sends
    obtain ⟨found, carried, rfl⟩ := arrives
    refine ⟨_, rfl, ?_⟩
    rw [MasterRequest.ofRoute, if_pos rfl, MasterMessage.fromValue_start faithful carried]
    rfl
  | putEnd tenantId cacheKey =>
    cases sends
    obtain ⟨found, carried, rfl⟩ := arrives
    refine ⟨_, rfl, ?_⟩
    rw [MasterRequest.ofRoute, if_neg (by decide), if_pos rfl, MasterMessage.fromValue_object faithful carried]
    rfl
  | putRevoke tenantId cacheKey =>
    cases sends
    obtain ⟨found, carried, rfl⟩ := arrives
    refine ⟨_, rfl, ?_⟩
    rw [MasterRequest.ofRoute, if_neg (by decide), if_neg (by decide), if_pos rfl,
      MasterMessage.fromValue_object faithful carried]
    rfl
  | _ => cases sends

/-- The master handles what the call asks, or refuses it. -/
theorem routed_cases {carries : Value → Value → Prop} (faithful : Faithful carries) {call : Call}
    {sent received : HttpRequest} {leadership : LeadershipState} {handler : Handler HttpAnswer} (carried : Carried call)
    (sends : request call = some sent) (arrives : sent.Arrives carries received)
    (routed : MasterRequest.Routed leadership received handler) :
    (∃ answer : HttpAnswer, answer.Refusal ∧ handler = pure answer) ∨
      ∃ request, asked call = some request ∧ handler = do return (← request.handle leadership).answer := by
  obtain ⟨request, asks, route⟩ := ofRoute_request faithful carried sends arrives
  unfold MasterRequest.Routed at routed
  rw [MasterRequest.ofHttp, route] at routed
  by_cases words : request.Words
  · simp only [Option.filter, words, decide_true, ↓reduceIte] at routed
    exact .inr ⟨request, asks, routed⟩
  · simp only [Option.filter, words, decide_false, Bool.false_eq_true, ↓reduceIte] at routed
    exact .inl routed

/-! What is heard is what was answered. -/

section
variable {carries : Value → Value → Prop} {tenantId : TenantId} {cacheKey : CacheKey} {received : HttpAnswer}

theorem hears_list (faithful : Faithful carries) {list : ReplicaList} {reply : GatewayResult ReplicaList}
    (arrives : (MasterResponse.mk 200 list.toValue).answer.Arrives carries received)
    (hears : Hears (.getReplicaList tenantId cacheKey) received reply) : reply = .ok list := by
  obtain ⟨status, found, carried, body⟩ := arrives
  simpa [Hears, PostJson, HttpAnswer.isSuccess, status, MasterResponse.answer,
    body, MasterMessage.fromValue_list faithful carried] using hears

theorem hears_replicas (faithful : Faithful carries) {replicas : List ReplicaDescriptor} {len replicaCount : Nat}
    {reply : GatewayResult (List ReplicaDescriptor)}
    (arrives : (MasterResponse.mk 200 (.object [("replicas", .array (replicas.map ReplicaDescriptor.toValue))])).answer.Arrives
      carries received)
    (hears : Hears (.putStart tenantId cacheKey len replicaCount) received reply) :
    reply = .ok replicas := by
  obtain ⟨status, found, carried, body⟩ := arrives
  simpa [Hears, PostJson, HttpAnswer.isSuccess, status, MasterResponse.answer,
    body, MasterMessage.field_replicas faithful carried] using hears

theorem posted_ok (faithful : Faithful carries) {told : GatewayResult Bool}
    (arrives : MasterResponse.acknowledged.answer.Arrives carries received)
    (posted : PostJson (fun body => body.field "ok" asBool) received told) : told = .ok true := by
  obtain ⟨status, found, carried, body⟩ := arrives
  simpa [PostJson, HttpAnswer.isSuccess, status, MasterResponse.answer,
    MasterResponse.acknowledged, body, MasterMessage.field_ok faithful carried] using posted

end

end RemoteMasterClient

end Mooncache
