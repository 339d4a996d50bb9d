import Mooncache.Foundation.Program
import Mooncache.Gateway.Clients
import Mooncache.Gateway.Config
import Mooncache.Gateway.Fingerprint
import Mooncache.Gateway.Response
import Mooncache.Gateway.Singleflight
import Mooncache.Gateway.Streaming

/-! The gateway's request flow as a program: every await on the master, the store, the
vendor or the singleflight group is a call, and so is every metric. -/
namespace Mooncache

inductive SingleflightRole where
  | leader
  | waiter
  | none
  | overCapacity
  deriving DecidableEq, Repr

/-- What `begin` hands out: a leader or a waiter, by its number. -/
inductive BegunFlight where
  | leader (leader : Nat)
  | waiter (waiter : Nat)
  | overCapacity
  deriving DecidableEq, Repr

inductive SingleflightError where
  | poisonedLock
  deriving DecidableEq, Repr

inductive Call where
  | getReplicaList (tenantId : TenantId) (cacheKey : CacheKey)
  | putStart (tenantId : TenantId) (cacheKey : CacheKey) (len replicaCount : Nat)
  | putEnd (tenantId : TenantId) (cacheKey : CacheKey)
  | putRevoke (tenantId : TenantId) (cacheKey : CacheKey)
  | readChunk (tenantId : TenantId) (cacheKey : CacheKey) (handle : ChunkHandle)
  | writePreallocatedChunk (nodeId : String) (tenantId : TenantId) (cacheKey : CacheKey) (handle : ChunkHandle)
      (bytes : List UInt8)
  | resolveModelVersion (model : String)
  | complete (request : ResponsesRequest)
  | stream (request : ResponsesRequest)
  | begin (key : SingleflightKey)
  /-- The two steps of `publish`: removing the entry, then sending on its channel. -/
  | publish (leader : Nat) (result : SharedResult GatewayResponse)
  | send (leader : Nat)
  | wait (waiter : Nat)
  | recordCacheStatus (status : CacheStatus)
  | recordWrite (status : CacheWriteStatus)
  | recordSingleflight (role : SingleflightRole)
  | recordVendorCall

abbrev Call.Reply : Call → Type
  | getReplicaList _ _ => GatewayResult ReplicaList
  | putStart _ _ _ _ => GatewayResult (List ReplicaDescriptor)
  | putEnd _ _ | putRevoke _ _ | writePreallocatedChunk _ _ _ _ _ => GatewayResult Unit
  | readChunk _ _ _ => GatewayResult StoreChunk
  | resolveModelVersion _ => Except VendorError String
  | complete _ => Except VendorError Value
  | stream _ => Except VendorError VendorEventStream
  | begin _ => Except SingleflightError BegunFlight
  | wait _ => SharedResult GatewayResponse
  | publish _ _ | send _ | recordCacheStatus _ | recordWrite _ | recordSingleflight _ | recordVendorCall => Unit

abbrev Flow := Program Call Call.Reply

abbrev GatewayEvent := Event Call Call.Reply

/-- The parts of a gateway that no request changes. -/
structure GatewayState where
  tenantId : TenantId
  tenantConfigs : Option TenantConfigSet
  vendorId : String
  adapterVersion : String
  modelCacheEligible : String → Bool
  cacheAvailable : Bool

def testApiKey : String := "test-api-key"

def replicaCount : Nat := 1

def stripPrefix (text start : String) : Option String :=
  if start.toList.isPrefixOf text.toList then some (String.ofList (text.toList.drop start.toList.length)) else none

namespace GatewayState

def tenantAllowsVendor (state : GatewayState) (tenantId : TenantId) (vendorId : String) : Bool :=
  match state.tenantConfigs with
  | none => true
  | some configs =>
    match configs.tenant tenantId.value with
    | none => false
    | some tenant => tenant.allowedVendors.any (· = vendorId)

variable [Sha256]

def authenticate (state : GatewayState) (authorization : Option String) : Option TenantId :=
  match authorization.bind (stripPrefix · "Bearer ") with
  | none => none
  | some token =>
    match state.tenantConfigs with
    | some configs => (configs.tenantForBearerToken token).map (·.id)
    | none => if token = testApiKey then some state.tenantId else none

end GatewayState

namespace Flow
open Program (perform)

abbrev getReplicaList (tenantId : TenantId) (cacheKey : CacheKey) : Flow (GatewayResult ReplicaList) :=
  perform (Call.getReplicaList tenantId cacheKey)

abbrev putStart (tenantId : TenantId) (cacheKey : CacheKey) (len replicaCount : Nat) :
    Flow (GatewayResult (List ReplicaDescriptor)) :=
  perform (Call.putStart tenantId cacheKey len replicaCount)

abbrev putEnd (tenantId : TenantId) (cacheKey : CacheKey) : Flow (GatewayResult Unit) :=
  perform (Call.putEnd tenantId cacheKey)

abbrev putRevoke (tenantId : TenantId) (cacheKey : CacheKey) : Flow (GatewayResult Unit) :=
  perform (Call.putRevoke tenantId cacheKey)

abbrev readChunk (tenantId : TenantId) (cacheKey : CacheKey) (handle : ChunkHandle) :
    Flow (GatewayResult StoreChunk) :=
  perform (Call.readChunk tenantId cacheKey handle)

abbrev writePreallocatedChunk (nodeId : String) (tenantId : TenantId) (cacheKey : CacheKey)
    (handle : ChunkHandle) (bytes : List UInt8) : Flow (GatewayResult Unit) :=
  perform (Call.writePreallocatedChunk nodeId tenantId cacheKey handle bytes)

abbrev resolveModelVersion (model : String) : Flow (Except VendorError String) :=
  perform (Call.resolveModelVersion model)

abbrev complete (request : ResponsesRequest) : Flow (Except VendorError Value) := perform (Call.complete request)

abbrev stream (request : ResponsesRequest) : Flow (Except VendorError VendorEventStream) :=
  perform (Call.stream request)

abbrev begin (key : SingleflightKey) : Flow (Except SingleflightError BegunFlight) := perform (Call.begin key)

def publish (leader : Nat) (result : SharedResult GatewayResponse) : Flow Unit := do
  let () ← perform (Call.publish leader result)
  perform (Call.send leader)

abbrev wait (waiter : Nat) : Flow (SharedResult GatewayResponse) := perform (Call.wait waiter)

abbrev recordSingleflight (role : SingleflightRole) : Flow Unit := perform (Call.recordSingleflight role)

abbrev recordVendorCall : Flow Unit := perform Call.recordVendorCall

def recordGatewayMetrics (cacheStatus : CacheStatus) (writeStatus : CacheWriteStatus) : Flow Unit := do
  let () ← perform (Call.recordCacheStatus cacheStatus)
  perform (Call.recordWrite writeStatus)

/-- The closure `record_simple`. -/
def recordSimple (cacheStatus : CacheStatus) (writeStatus : CacheWriteStatus) : Flow Unit := do
  recordGatewayMetrics cacheStatus writeStatus
  recordSingleflight .none

def writeReservedReplicas (tenantId : TenantId) (cacheKey : CacheKey) (bytes : List UInt8) :
    List ReplicaDescriptor → Flow (GatewayResult Unit)
  | [] => pure (.ok ())
  | replica :: rest => do
    match ← writePreallocatedChunk replica.nodeId tenantId cacheKey (.fromReplica replica) bytes with
    | .error err => pure (.error err)
    | .ok () => writeReservedReplicas tenantId cacheKey bytes rest

def revokeReservationAfterWriteFailure (tenantId : TenantId) (cacheKey : CacheKey) (writeError : GatewayError) :
    Flow GatewayError := do
  match ← putRevoke tenantId cacheKey with
  | .ok () => pure writeError
  | .error revokeError => pure (.reservationRevokeFailed writeError.text revokeError.text)

/-- `usize` is as wide as `u64`, so the length always converts. -/
def writeCachedBytes (tenantId : TenantId) (cacheKey : CacheKey) (bytes : List UInt8) :
    Flow (GatewayResult CacheWriteStatus) := do
  match ← putStart tenantId cacheKey bytes.length replicaCount with
  | .error err => pure (.error err)
  | .ok replicas =>
    match ← writeReservedReplicas tenantId cacheKey bytes replicas with
    | .error err => return .error (← revokeReservationAfterWriteFailure tenantId cacheKey err)
    | .ok () =>
      match ← putEnd tenantId cacheKey with
      | .error err => return .error (← revokeReservationAfterWriteFailure tenantId cacheKey err)
      | .ok () => pure (.ok .committed)

def readCachedBytes (tenantId : TenantId) (cacheKey : CacheKey) : Flow (GatewayResult (Option StoreChunk)) := do
  match ← getReplicaList tenantId cacheKey with
  | .error (.cache .notFound) => pure (.ok none)
  | .error err => pure (.error err)
  | .ok replicaList =>
    match replicaList.replicas.head? with
    | none => pure (.ok none)
    | some replica =>
      match ← readChunk tenantId cacheKey (.fromReplica replica) with
      | .error err => pure (.error err)
      | .ok chunk => pure (.ok (some chunk))

structure CachedPayload (α : Type) where
  value : α
  tier : String

section
variable [JsonWriter]

def writeCachedBody (tenantId : TenantId) (cacheKey : CacheKey) (body : Value) :
    Flow (GatewayResult CacheWriteStatus) :=
  writeCachedBytes tenantId cacheKey (toVec body)

def writeCachedStreamObject (tenantId : TenantId) (cacheKey : CacheKey) (captured : CapturedStream) :
    Flow (GatewayResult CacheWriteStatus) :=
  writeCachedBytes tenantId cacheKey (serializeStreamObject captured)

end

section
variable [JsonReader]

def readCachedBody (tenantId : TenantId) (cacheKey : CacheKey) :
    Flow (GatewayResult (Option (CachedPayload Value))) := do
  match ← readCachedBytes tenantId cacheKey with
  | .error err => pure (.error err)
  | .ok none => pure (.ok none)
  | .ok (some chunk) =>
    match cachedBodyFromBytes chunk.bytes with
    | .error err => pure (.error (.json err))
    | .ok value => pure (.ok (some ⟨value, chunk.tier⟩))

def readCachedStreamObject (tenantId : TenantId) (cacheKey : CacheKey) :
    Flow (GatewayResult (Option (CachedPayload CachedStreamObject))) := do
  match ← readCachedBytes tenantId cacheKey with
  | .error err => pure (.error err)
  | .ok none => pure (.ok none)
  | .ok (some chunk) =>
    match streamObjectFromBytes chunk.bytes with
    | .error err => pure (.error (.json err))
    | .ok none => pure (.ok none)
    | .ok (some value) => pure (.ok (some ⟨value, chunk.tier⟩))

end

def completeVendor (request : ResponsesRequest) : Flow (GatewayResult Value) := do
  let response ← complete request
  recordVendorCall
  match response with
  | .error err => pure (.error (.vendor err))
  | .ok body => pure (.ok body)

def vendorResponse (request : ResponsesRequest) (cacheStatus : CacheStatus) (writeStatus : CacheWriteStatus)
    (cacheKey : Option CacheKey) : Flow (GatewayResult GatewayResponse) := do
  match ← completeVendor request with
  | .error err => pure (.error err)
  | .ok body =>
    recordGatewayMetrics cacheStatus writeStatus
    recordSingleflight .none
    return .ok (.ok body cacheStatus writeStatus.asHeaderValue "vendor" cacheKey)

/-- After a miss nothing is stored in read-only mode, and a failure to store is a status. -/
def storeMiss (cacheControl : CacheControl) (write : Flow (GatewayResult CacheWriteStatus)) : Flow CacheWriteStatus :=
  if cacheControl = .readOnly then pure .skipped
  else do
    match ← write with
    | .error _ => pure .failed
    | .ok writeStatus => pure writeStatus

/-- The lookup, which write-only mode leaves out. -/
def lookUp {α : Type} (cacheControl : CacheControl) (read : Flow (GatewayResult (Option (CachedPayload α)))) :
    Flow (GatewayResult (Option (CachedPayload α))) :=
  if cacheControl = .writeOnly then pure (.ok none) else read

def cacheableNonStreamingMiss [JsonWriter] (tenantId : TenantId) (cacheControl : CacheControl)
    (request : ResponsesRequest) (cacheKey : CacheKey) : Flow (GatewayResult GatewayResponse) := do
  match ← completeVendor request with
  | .error err => pure (.error err)
  | .ok body =>
    let writeStatus ← storeMiss cacheControl (writeCachedBody tenantId cacheKey body)
    recordGatewayMetrics .miss writeStatus
    return .ok (.ok body .miss writeStatus.asHeaderValue "vendor" (some cacheKey))

/-- The 404 of a cache-only request, with its metrics. -/
def cacheOnlyMiss (cacheKey : CacheKey) : Flow (GatewayResult GatewayResponse) := do
  recordSimple .cacheOnlyMiss .skipped
  return .ok ((GatewayResponse.error 404 "cache object not found" .cacheOnlyMiss
    CacheWriteStatus.skipped.asHeaderValue "none").withCacheKey cacheKey)

def singleflightWriteMode (cacheControl : CacheControl) : SingleflightWriteMode :=
  if cacheControl = .readOnly then .readOnly else .writable

section
variable [JsonReader]

/-- `stream` and `collect_stream`, and the metric of a call that got through. -/
def collectVendor (request : ResponsesRequest) : Flow (GatewayResult CapturedStream) := do
  match ← stream request with
  | .error err => pure (.error (.vendor err))
  | .ok events =>
    match collectStream events with
    | .error err => pure (.error (.vendor err))
    | .ok captured =>
      recordVendorCall
      pure (.ok captured)

def vendorStreamResponse (request : ResponsesRequest) (cacheStatus : CacheStatus)
    (writeStatus : CacheWriteStatus) (cacheKey : Option CacheKey) : Flow (GatewayResult GatewayResponse) := do
  match ← collectVendor request with
  | .error err => pure (.error err)
  | .ok captured =>
    recordGatewayMetrics cacheStatus writeStatus
    recordSingleflight .none
    return .ok (.okStream captured.finalBody captured.events cacheStatus writeStatus.asHeaderValue "vendor" cacheKey)

variable [JsonWriter]

/-- The end of `streaming_response`, after a miss. -/
def streamingMiss (tenantId : TenantId) (cacheControl : CacheControl) (request : ResponsesRequest)
    (cacheKey : CacheKey) : Flow (GatewayResult GatewayResponse) := do
  match ← collectVendor request with
  | .error err => pure (.error err)
  | .ok captured =>
    let writeStatus ← storeMiss cacheControl (writeCachedStreamObject tenantId cacheKey captured)
    recordGatewayMetrics .miss writeStatus
    recordSingleflight .none
    return .ok (.okStream captured.finalBody captured.events .miss writeStatus.asHeaderValue "vendor" (some cacheKey))

def streamingResponse (tenantId : TenantId) (cacheControl : CacheControl) (request : ResponsesRequest)
    (eligibility : EligibilityDecision) (cacheKey : CacheKey) : Flow (GatewayResult GatewayResponse) :=
  if cacheControl = .bypass then vendorStreamResponse request .bypass .skipped none
  else match eligibility with
    | .bypass _ => vendorStreamResponse request .ineligible .skipped (some cacheKey)
    | .cacheable => do
      match ← lookUp cacheControl (readCachedStreamObject tenantId cacheKey) with
      | .error err => pure (.error err)
      | .ok (some cachedStream) =>
        recordGatewayMetrics .hit .skipped
        recordSingleflight .none
        return .ok (.okStream cachedStream.value.finalBody cachedStream.value.events .hit
          CacheWriteStatus.skipped.asHeaderValue cachedStream.tier (some cacheKey))
      | .ok none =>
        if cacheControl = .cacheOnly then cacheOnlyMiss cacheKey
        else streamingMiss tenantId cacheControl request cacheKey

/-- The end of `handle_response_request`, after a miss: the flight of the key. -/
def coalescedMiss (tenantId : TenantId) (cacheControl : CacheControl) (request : ResponsesRequest)
    (cacheKey : CacheKey) : Flow (GatewayResult GatewayResponse) := do
  match ← begin ⟨tenantId, cacheKey, singleflightWriteMode cacheControl⟩ with
  | .error _ => pure (.error .poisonedLock)
  | .ok (.leader leader) =>
    recordSingleflight .leader
    match ← cacheableNonStreamingMiss tenantId cacheControl request cacheKey with
    | .ok response =>
      publish leader (.ok response)
      return .ok (response.withCacheCoalesced "leader")
    | .error err =>
      publish leader (.error err.text)
      return .error err
  | .ok (.waiter waiter) =>
    match ← wait waiter with
    | .ok response =>
      recordSingleflight .waiter
      recordGatewayMetrics .miss .skipped
      return .ok ((response.withCacheCoalesced "waiter").withCacheWrite CacheWriteStatus.skipped.asHeaderValue)
    | .error message => pure (.error (.singleflightLeaderFailed message))
  | .ok .overCapacity =>
    recordSingleflight .overCapacity
    cacheableNonStreamingMiss tenantId cacheControl request cacheKey

/-- The part of `handle_response_request` for plain responses. -/
def nonStreamingResponse (cacheAvailable : Bool) (tenantId : TenantId) (cacheControl : CacheControl)
    (request : ResponsesRequest) (eligibility : EligibilityDecision) (cacheKey : CacheKey) :
    Flow (GatewayResult GatewayResponse) :=
  if cacheControl = .bypass then vendorResponse request .bypass .skipped none
  else match eligibility with
    | .bypass _ => vendorResponse request .ineligible .skipped (some cacheKey)
    | .cacheable =>
      if cacheAvailable = false then
        if cacheControl = .cacheOnly then cacheOnlyMiss cacheKey
        else vendorResponse request .degraded .failed (some cacheKey)
      else do
        match ← lookUp cacheControl (readCachedBody tenantId cacheKey) with
        | .error err => pure (.error err)
        | .ok (some cachedBody) =>
          recordSimple .hit .skipped
          return .ok (.ok cachedBody.value .hit CacheWriteStatus.skipped.asHeaderValue cachedBody.tier (some cacheKey))
        | .ok none =>
          if cacheControl = .cacheOnly then cacheOnlyMiss cacheKey
          else coalescedMiss tenantId cacheControl request cacheKey

end

/-- A refusal before the request is looked at, with its metrics. -/
def refuse (statusCode : Nat) (message : String) : Flow (GatewayResult GatewayResponse) := do
  recordSimple .bypass .skipped
  return .ok (.error statusCode message .bypass CacheWriteStatus.skipped.asHeaderValue "none")

variable [Sha256] [JsonWriter] [JsonReader]

def handleResponseRequest (state : GatewayState) (authorization cacheControl : Option String) (body : Value) :
    Flow (GatewayResult GatewayResponse) := do
  match state.authenticate authorization with
  | none => refuse 401 "unauthorized"
  | some tenantId =>
    if state.tenantAllowsVendor tenantId state.vendorId = false then
      refuse 403 "tenant is not allowed to use configured vendor"
    else match CacheControl.parse (cacheControl.getD "") with
      | .error err => refuse 400 err.text
      | .ok cacheControl =>
        let isStreaming := ((body.get "stream").bind Value.asBool).getD false
        match ResponsesRequest.fromValue body with
        | .error err => pure (.error (.json err))
        | .ok request =>
          match ← resolveModelVersion request.model with
          | .error err => pure (.error (.vendor err))
          | .ok resolvedModel =>
            let forceReplay : Bool := cacheControl = .forceReplay
            let eligibility :=
              if state.modelCacheEligible request.model then classifyRequest body forceReplay
              else .bypass "model is not cache eligible"
            let input : FingerprintInput := {
              tenantId
              endpointVersion
              vendorId := state.vendorId
              resolvedModelVersion := resolvedModel
              adapterVersion := state.adapterVersion
              cachePolicy := fingerprintPolicy cacheControl
              body := fingerprintBodyWithoutStream body }
            match computeCacheKey input with
            | .error err => pure (.error (.cache err))
            | .ok cacheKey =>
              if isStreaming then streamingResponse tenantId cacheControl request eligibility cacheKey
              else nonStreamingResponse state.cacheAvailable tenantId cacheControl request eligibility cacheKey

end Flow
end Mooncache
