import Mooncache.Foundation.Remote
import Mooncache.Gateway.CacheFlow
import Mooncache.Gateway.SingleflightSafety

/-! One gateway's shared state as a server of every call its requests make. -/
namespace Mooncache

/-- What `begin` hands out in this state. -/
def Flights.begun {ρ : Type} (s : Flights ρ) (key : SingleflightKey) : BegunFlight :=
  match (s.group.begin key s.opened).1 with
  | .leader => .leader s.opened
  | .waiter _ => .waiter s.joined
  | .overCapacity => .overCapacity

structure GatewayWorld (C : Type) where
  cache : C
  flights : Flights GatewayResponse

/-- Between calls the cache acts on its own, waiters are polled, and requests that lead or
await a flight are cancelled, which drops what `begin` has handed them. -/
inductive GatewayAction (A : Type) where
  | cache (action : A)
  | wake (waiter : Nat)
  | cancelLeader (leader : Nat)
  | cancelWaiter (waiter : Nat)

namespace GatewayWorld
variable {C A : Type}

def setCache (s : GatewayWorld C) (cache : C) : GatewayWorld C := { s with cache := cache }

def setFlights (s : GatewayWorld C) (flights : Flights GatewayResponse) : GatewayWorld C :=
  { s with flights := flights }

/-- The singleflight lock is never poisoned; a wait ends once the waiter has returned;
metrics are events only. -/
def Serves (cache : Server C A Call Call.Reply) (vendor : (call : Call) → call.Reply → Prop)
    (s : GatewayWorld C) : (call : Call) → call.Reply → GatewayWorld C → Prop
  | .resolveModelVersion model, reply, s' => vendor (.resolveModelVersion model) reply ∧ s' = s
  | .complete request, reply, s' => vendor (.complete request) reply ∧ s' = s
  | .stream request, reply, s' => vendor (.stream request) reply ∧ s' = s
  | .begin key, reply, s' => reply = .ok (s.flights.begun key) ∧ s' = s.setFlights (s.flights.begin key)
  | .publish leader result, _, s' =>
    ∃ flights, s.flights.Step (.publish leader result) flights ∧ s' = s.setFlights flights
  | .send leader, _, s' => ∃ flights, s.flights.Step (.send leader) flights ∧ s' = s.setFlights flights
  | .wait waiter, reply, s' =>
    waiter < s.flights.joined ∧ (s.flights.waiters waiter).phase = .returned reply ∧ s' = s
  | .recordCacheStatus _, _, s' | .recordWrite _, _, s' | .recordSingleflight _, _, s' | .recordVendorCall, _, s' =>
    s' = s
  | call, reply, s' => ∃ after, cache.serve s.cache call reply after ∧ s' = s.setCache after

def server (cache : Server C A Call Call.Reply) (vendor : (call : Call) → call.Reply → Prop) :
    Server (GatewayWorld C) (GatewayAction A) Call Call.Reply where
  serve := Serves cache vendor
  act s action s' := match action with
    | .cache action => ∃ after, cache.act s.cache action after ∧ s' = s.setCache after
    | .wake waiter => ∃ flights, s.flights.Step (.wake waiter) flights ∧ s' = s.setFlights flights
    | .cancelLeader leader => ∃ flights, s.flights.Step (.dropLeader leader) flights ∧ s' = s.setFlights flights
    | .cancelWaiter waiter => ∃ flights, s.flights.Step (.dropWaiter waiter) flights ∧ s' = s.setFlights flights

end GatewayWorld

structure GatewayRequest where
  authorization : Option String
  cacheControl : Option String
  body : Value

namespace GatewayRequest

def program [Sha256] [JsonWriter] [JsonReader] (request : GatewayRequest) (state : GatewayState) :
    Flow (GatewayResult GatewayResponse) :=
  Flow.handleResponseRequest state request.authorization request.cacheControl request.body

/-- Authenticated for the vendor, well formed, and not for the cache only. -/
structure Admitted [Sha256] [JsonReader] (request : GatewayRequest) (state : GatewayState) : Prop where
  tenant : ∃ tenantId, state.authenticate request.authorization = some tenantId ∧
    state.tenantAllowsVendor tenantId state.vendorId = true
  cacheControl : ∃ cacheControl, CacheControl.parse (request.cacheControl.getD "") = .ok cacheControl ∧
    cacheControl ≠ .cacheOnly
  body : ∃ parsed, ResponsesRequest.fromValue request.body = .ok parsed

/-- Whether the model and the body of a request let it be cached. -/
def eligibility (request : GatewayRequest) (state : GatewayState) (parsed : ResponsesRequest)
    (cacheControl : CacheControl) : EligibilityDecision :=
  if state.modelCacheEligible parsed.model then classifyRequest request.body (cacheControl = .forceReplay)
  else .bypass "model is not cache eligible"

/-- The key under which a request is cached. -/
def cacheKey [Sha256] [JsonWriter] (request : GatewayRequest) (state : GatewayState) (tenantId : TenantId)
    (cacheControl : CacheControl) (resolvedModel : String) : CacheKey where
  value := lowerHex (sha256 (canonicalJsonBytes (FingerprintInput.doc {
    tenantId
    endpointVersion
    vendorId := state.vendorId
    resolvedModelVersion := resolvedModel
    adapterVersion := state.adapterVersion
    cachePolicy := fingerprintPolicy cacheControl
    body := fingerprintBodyWithoutStream request.body })))

def isStreaming (request : GatewayRequest) : Bool := ((request.body.get "stream").bind Value.asBool).getD false

/-- A request that gets past its checks resolves its model and goes one of two ways. -/
theorem program_eq [Sha256] [JsonWriter] [JsonReader] {request : GatewayRequest} {state : GatewayState}
    {tenantId : TenantId} {cacheControl : CacheControl} {parsed : ResponsesRequest}
    (authenticated : state.authenticate request.authorization = some tenantId)
    (allowed : state.tenantAllowsVendor tenantId state.vendorId = true)
    (controlled : CacheControl.parse (request.cacheControl.getD "") = .ok cacheControl)
    (typed : ResponsesRequest.fromValue request.body = .ok parsed) : request.program state =
      .call (.resolveModelVersion parsed.model) fun
        | .error err => .done (.error (.vendor err))
        | .ok resolvedModel =>
          if request.isStreaming then
            Flow.streamingResponse tenantId cacheControl parsed (request.eligibility state parsed cacheControl)
              (request.cacheKey state tenantId cacheControl resolvedModel)
          else
            Flow.nonStreamingResponse state.cacheAvailable tenantId cacheControl parsed
              (request.eligibility state parsed cacheControl)
              (request.cacheKey state tenantId cacheControl resolvedModel) := by
  unfold program Flow.handleResponseRequest
  simp only [authenticated, allowed, controlled, typed, computeCacheKey_eq, reduceCtorEq, ↓reduceIte]
  refine congrArg (Program.call _) (funext fun reply => ?_)
  cases reply <;> rfl

end GatewayRequest

/-- What the requests of one gateway run. -/
def programs {I : Type} [Sha256] [JsonWriter] [JsonReader] (requests : I → GatewayRequest) (state : GatewayState)
    (i : I) : Flow (GatewayResult GatewayResponse) := (requests i).program state

abbrev GatewayPool (I C : Type) := Pool I (GatewayWorld C) Call Call.Reply (GatewayResult GatewayResponse)

namespace GatewayWorld
variable {I C A : Type} [DecidableEq I] {world : GatewayWorld C}

/-- A call of a request, with the reply it gets. -/
theorem call_step {cache : Server C A Call Call.Reply} {vendor : (call : Call) → call.Reply → Prop}
    {s : GatewayPool I C} (i : I) (call : Call) (reply : call.Reply)
    {next : call.Reply → Flow (GatewayResult GatewayResponse)} (pending : s.threads i = .call call next)
    (served : s.world.Serves cache vendor call reply world) :
    Pool.Step (GatewayWorld.server cache vendor) s (.call i ⟨call, reply⟩)
      ⟨world, Function.update s.threads i (next reply), s.history ++ [(i, ⟨call, reply⟩)]⟩ :=
  .call pending served

/-! The same where some calls are served elsewhere. -/

section
variable {H B : Type} {T : H → Type} {remote : RemoteServer (GatewayWorld C) A Call Call.Reply H T B}
  {s : RemotePool I (GatewayWorld C) Call Call.Reply H T B (GatewayResult GatewayResponse)} (i : I) (call : Call)
  {next : call.Reply → Flow (GatewayResult GatewayResponse)}

theorem direct_step (reply : call.Reply) (pending : s.threads i = .ready (.call call next))
    (here : ¬ remote.remote call) (served : remote.direct.serve s.world call reply world) :
    RemotePool.Step remote s (.replied i ⟨call, reply⟩)
      ({ s with world := world }.reply i ⟨call, reply⟩ (next reply)) :=
  .direct pending here served

/-- The call is sent, and its handler begins. -/
theorem sent_steps {trace : List (RemotePool.Label I A Call Call.Reply)}
    {start : RemotePool I (GatewayWorld C) Call Call.Reply H T B (GatewayResult GatewayResponse)}
    {handler : Program H T B} (run : Run (RemotePool.Step remote) start trace s)
    (pending : s.threads i = .ready (.call call next)) (away : remote.remote call)
    (handled : remote.handles call handler) :
    Run (RemotePool.Step remote) start (trace ++ [.moved i] ++ [.moved i])
      ((s.become i (.sent call next)).become i (.handled call next handler)) :=
  (run.snoc (.send pending away)).snoc (.arrive (Function.update_self ..) handled)

theorem hear_step (answer : B) (reply : call.Reply) (pending : s.threads i = .handled call next (.done answer))
    (hears : remote.hears call answer reply) :
    RemotePool.Step remote s (.replied i ⟨call, reply⟩) (s.reply i ⟨call, reply⟩ (next reply)) :=
  .hear pending hears

end

end GatewayWorld

end Mooncache
