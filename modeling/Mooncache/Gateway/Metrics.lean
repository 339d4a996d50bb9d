import Mooncache.Gateway.CacheAccess
import Mooncache.Gateway.CacheOnly
import Mathlib.Algebra.BigOperators.Group.Finset.Piecewise
import Mathlib.Data.Fintype.Card

/-! The gateway's metrics: an answered request counts once as a status, once as a write and once as a
role, and its headers name the three. -/
namespace Mooncache
open Program

/-- The counters, as numbers that stay below 2^64; latencies are left out. -/
structure GatewayMetrics where
  cacheHits : Nat
  cacheMisses : Nat
  cacheBypasses : Nat
  cacheIneligible : Nat
  cacheOnlyMisses : Nat
  cacheDegraded : Nat
  writeCommitted : Nat
  writeFailed : Nat
  writeSkipped : Nat
  singleflightLeaders : Nat
  singleflightWaiters : Nat
  singleflightNone : Nat
  singleflightOverCapacity : Nat
  vendorCalls : Nat

/-- A counter of one of the three groups. -/
inductive Counter where
  | cache (status : CacheStatus)
  | write (status : CacheWriteStatus)
  | singleflight (role : SingleflightRole)
  deriving DecidableEq

namespace GatewayMetrics

/-- The default: all zero. -/
def new : GatewayMetrics := ⟨0, 0, 0, 0, 0, 0, 0, 0, 0, 0, 0, 0, 0, 0⟩

def recordCacheStatus (metrics : GatewayMetrics) : CacheStatus → GatewayMetrics
  | .hit => { metrics with cacheHits := metrics.cacheHits + 1 }
  | .miss => { metrics with cacheMisses := metrics.cacheMisses + 1 }
  | .bypass => { metrics with cacheBypasses := metrics.cacheBypasses + 1 }
  | .ineligible => { metrics with cacheIneligible := metrics.cacheIneligible + 1 }
  | .cacheOnlyMiss => { metrics with cacheOnlyMisses := metrics.cacheOnlyMisses + 1 }
  | .degraded => { metrics with cacheDegraded := metrics.cacheDegraded + 1 }

def recordWrite (metrics : GatewayMetrics) : CacheWriteStatus → GatewayMetrics
  | .committed => { metrics with writeCommitted := metrics.writeCommitted + 1 }
  | .failed => { metrics with writeFailed := metrics.writeFailed + 1 }
  | .skipped => { metrics with writeSkipped := metrics.writeSkipped + 1 }

def recordSingleflight (metrics : GatewayMetrics) : SingleflightRole → GatewayMetrics
  | .leader => { metrics with singleflightLeaders := metrics.singleflightLeaders + 1 }
  | .waiter => { metrics with singleflightWaiters := metrics.singleflightWaiters + 1 }
  | .none => { metrics with singleflightNone := metrics.singleflightNone + 1 }
  | .overCapacity => { metrics with singleflightOverCapacity := metrics.singleflightOverCapacity + 1 }

def recordVendorCall (metrics : GatewayMetrics) : GatewayMetrics :=
  { metrics with vendorCalls := metrics.vendorCalls + 1 }

/-- What a call of a request does to the metrics. -/
def record (metrics : GatewayMetrics) : Call → GatewayMetrics
  | .recordCacheStatus status => metrics.recordCacheStatus status
  | .recordWrite status => metrics.recordWrite status
  | .recordSingleflight role => metrics.recordSingleflight role
  | .recordVendorCall => metrics.recordVendorCall
  | _ => metrics

/-- The metrics of a new gateway after these events. -/
def recorded (events : List GatewayEvent) : GatewayMetrics := (events.map (·.request)).foldl record new

def counter (metrics : GatewayMetrics) : Counter → Nat
  | .cache .hit => metrics.cacheHits
  | .cache .miss => metrics.cacheMisses
  | .cache .bypass => metrics.cacheBypasses
  | .cache .ineligible => metrics.cacheIneligible
  | .cache .cacheOnlyMiss => metrics.cacheOnlyMisses
  | .cache .degraded => metrics.cacheDegraded
  | .write .committed => metrics.writeCommitted
  | .write .failed => metrics.writeFailed
  | .write .skipped => metrics.writeSkipped
  | .singleflight .leader => metrics.singleflightLeaders
  | .singleflight .waiter => metrics.singleflightWaiters
  | .singleflight .none => metrics.singleflightNone
  | .singleflight .overCapacity => metrics.singleflightOverCapacity

def cacheTotal (metrics : GatewayMetrics) : Nat :=
  metrics.cacheHits + metrics.cacheMisses + metrics.cacheBypasses + metrics.cacheIneligible +
    metrics.cacheOnlyMisses + metrics.cacheDegraded

def writeTotal (metrics : GatewayMetrics) : Nat :=
  metrics.writeCommitted + metrics.writeFailed + metrics.writeSkipped

def singleflightTotal (metrics : GatewayMetrics) : Nat :=
  metrics.singleflightLeaders + metrics.singleflightWaiters + metrics.singleflightNone +
    metrics.singleflightOverCapacity

end GatewayMetrics

/-- The counter that a call increments. -/
def Call.counter : Call → Option Counter
  | recordCacheStatus status => some (.cache status)
  | recordWrite status => some (.write status)
  | recordSingleflight role => some (.singleflight role)
  | _ => none

/-- The counters that the events have incremented, in this order. -/
def counted (events : List GatewayEvent) : List Counter := events.filterMap (·.request.counter)

@[simp] theorem counted_nil : counted [] = [] := rfl
theorem counted_append (events more : List GatewayEvent) : counted (events ++ more) = counted events ++ counted more :=
  List.filterMap_append

namespace GatewayMetrics

theorem counter_record (metrics : GatewayMetrics) (call : Call) (c : Counter) :
    (metrics.record call).counter c = metrics.counter c + (call.counter.toList).count c := by
  cases call with
  | recordCacheStatus status => cases status <;> rcases c with other | other | other <;> cases other <;> rfl
  | recordWrite status => cases status <;> rcases c with other | other | other <;> cases other <;> rfl
  | recordSingleflight role => cases role <;> rcases c with other | other | other <;> cases other <;> rfl
  | _ => rfl

/-- A counter is the number of calls that increment it. -/
theorem counter_recorded (events : List GatewayEvent) (c : Counter) :
    (recorded events).counter c = (counted events).count c := by
  induction events using List.reverseRecOn with
  | nil => rcases c with other | other | other <;> cases other <;> rfl
  | append_singleton events event ih =>
    have last : recorded (events ++ [event]) = (recorded events).record event.request := by simp [recorded]
    rw [last, counter_record, ih, counted_append, List.count_append]
    congr 1

variable (metrics : GatewayMetrics)

theorem cacheTotal_eq : metrics.cacheTotal = metrics.counter (.cache .hit) + metrics.counter (.cache .miss) +
    metrics.counter (.cache .bypass) + metrics.counter (.cache .ineligible) +
    metrics.counter (.cache .cacheOnlyMiss) + metrics.counter (.cache .degraded) := rfl

theorem writeTotal_eq : metrics.writeTotal = metrics.counter (.write .committed) + metrics.counter (.write .failed) +
    metrics.counter (.write .skipped) := rfl

theorem singleflightTotal_eq : metrics.singleflightTotal = metrics.counter (.singleflight .leader) +
    metrics.counter (.singleflight .waiter) + metrics.counter (.singleflight .none) +
    metrics.counter (.singleflight .overCapacity) := rfl

end GatewayMetrics

/-- The header of a role. -/
def SingleflightRole.coalesced : SingleflightRole → String
  | leader => "leader"
  | waiter => "waiter"
  | none | overCapacity => "none"

/-- The answer has been counted once in each group, as its headers say. -/
def Accounted (past : List GatewayEvent) (response : GatewayResponse) : Prop :=
  ∃ cacheStatus writeStatus role,
    (counted past).Perm [.cache cacheStatus, .write writeStatus, .singleflight role] ∧
      response.Labelled cacheStatus writeStatus.asHeaderValue role.coalesced

/-- The response of a flight's leader, as it is published. -/
def GatewayResponse.IsMiss (response : GatewayResponse) : Prop :=
  ∃ cacheWrite coalesced, response.Labelled .miss cacheWrite coalesced

/-- What a leader publishes is a miss. -/
def Call.PublishesMiss (call : Call) : Prop := ∀ leader response, call = .publish leader (.ok response) → response.IsMiss

/-- An answer is accounted for, if what the request has waited for is a miss. -/
def Balanced (past : List GatewayEvent) (result : GatewayResult GatewayResponse) : Prop :=
  ∀ response, result = .ok response →
    (∀ waiter shared, ⟨.wait waiter, .ok shared⟩ ∈ past → shared.IsMiss) → Accounted past response

/-- Neither a metric of the three groups nor a call on a flight. -/
def Call.Uncounted (call : Call) : Prop := call.counter = none ∧ call.isFlight = false

section
variable {past later : List GatewayEvent} {α : Type}

theorem Call.publishesMiss_of_isFlight {call : Call} (h : call.isFlight = false) : call.PublishesMiss := by
  rintro leader response rfl
  cases h

theorem Call.uncounted_of_isLookup {call : Call} (h : call.isLookup = true) : call.Uncounted := by
  cases call <;> first | exact ⟨rfl, rfl⟩ | cases h

theorem Program.Adds.counted (adds : Adds Call.Uncounted past later) : counted later = counted past := by
  obtain ⟨new, rfl, hn⟩ := adds
  have nothing : Mooncache.counted new = [] := List.filterMap_eq_nil_iff.mpr fun event member => (hn event member).1
  rw [counted_append, nothing, List.append_nil]

/-- A program of uncounted calls leaves the count as it was. -/
theorem Program.Meets.uncounted {p : Flow α} {post : List GatewayEvent → α → Prop}
    (h : p.Meets (fun _ call => call.Uncounted) post past) :
    p.Meets (fun _ call => call.PublishesMiss)
      (fun later value => Mooncache.counted later = Mooncache.counted past ∧ post later value) past :=
  h.adds.mono (fun _ _ uncounted => Call.publishesMiss_of_isFlight uncounted.2) fun _ _ met => ⟨met.1.counted, met.2⟩

theorem storeMiss_uncounted (cacheControl : CacheControl) (tenantId : TenantId) (cacheKey : CacheKey)
    (bytes : List UInt8) : (Flow.storeMiss cacheControl (Flow.writeCachedBytes tenantId cacheKey bytes)).Meets
      (fun _ call => call.Uncounted) (fun _ _ => True) past := by
  unfold Flow.storeMiss
  split
  · trivial
  · have writes : (Flow.writeCachedBytes tenantId cacheKey bytes).Meets (fun _ call => call.Uncounted)
        (fun _ _ => True) [] := by
      refine (CacheClient.writeCachedBytes_meets tenantId cacheKey bytes).mono (fun _ call calls => ?_) fun _ _ => id
      cases call <;> first | exact ⟨rfl, rfl⟩ | exact calls.elim
    refine (writes.anywhere past).bind fun _ result _ => ?_
    cases result <;> trivial

theorem completeVendor_uncounted (request : ResponsesRequest) :
    (Flow.completeVendor request).Meets (fun _ call => call.Uncounted) (fun _ _ => True) past := by
  refine ⟨⟨rfl, rfl⟩, fun reply => ⟨⟨rfl, rfl⟩, fun _ => ?_⟩⟩
  cases reply <;> trivial

theorem collectVendor_uncounted [JsonReader] (request : ResponsesRequest) :
    (Flow.collectVendor request).Meets (fun _ call => call.Uncounted) (fun _ _ => True) past := by
  refine ⟨⟨rfl, rfl⟩, fun reply => ?_⟩
  cases reply with
  | error err => trivial
  | ok stream =>
    simp only [Program.bind]
    cases collectStream stream with
    | error err => trivial
    | ok captured => exact ⟨⟨rfl, rfl⟩, fun _ => trivial⟩

/-! The functions of the flow, which start with nothing counted. -/

/-- The three metrics of a response, recorded one after the other. -/
theorem recordSimple_balanced (nothing : counted past = []) {cacheStatus : CacheStatus} {writeStatus : CacheWriteStatus}
    {response : GatewayResponse} (labelled : response.Labelled cacheStatus writeStatus.asHeaderValue "none") :
    (do Flow.recordSimple cacheStatus writeStatus; return .ok response : Flow (GatewayResult GatewayResponse)).Meets
      (fun _ call => call.PublishesMiss) Balanced past := by
  refine ⟨nofun, fun _ => ⟨nofun, fun _ => ⟨nofun, fun _ answer same _ => ?_⟩⟩⟩
  cases same
  refine ⟨cacheStatus, writeStatus, .none, ?_, labelled⟩
  rw [counted_append, counted_append, counted_append, nothing]
  exact .refl _

theorem vendorResponse_balanced (nothing : counted past = []) (request : ResponsesRequest) (cacheStatus : CacheStatus)
    (writeStatus : CacheWriteStatus) (cacheKey : Option CacheKey) :
    (Flow.vendorResponse request cacheStatus writeStatus cacheKey).Meets (fun _ call => call.PublishesMiss)
      Balanced past := by
  refine (completeVendor_uncounted request).uncounted.bind ?_
  rintro later (err | body) ⟨same, _⟩
  · exact nofun
  · exact recordSimple_balanced (same.trans nothing) (GatewayResponse.labelled_ok ..)

theorem cacheOnlyMiss_balanced (nothing : counted past = []) (cacheKey : CacheKey) :
    (Flow.cacheOnlyMiss cacheKey).Meets (fun _ call => call.PublishesMiss) Balanced past :=
  recordSimple_balanced nothing ((GatewayResponse.labelled_error ..).withCacheKey cacheKey)

theorem refuse_balanced (statusCode : Nat) (message : String) :
    (Flow.refuse statusCode message).Meets (fun _ call => call.PublishesMiss) Balanced [] :=
  recordSimple_balanced rfl (GatewayResponse.labelled_error ..)

/-- A miss adds its status and its write; its role is recorded elsewhere. -/
theorem cacheableNonStreamingMiss_counted [JsonWriter] (tenantId : TenantId) (cacheControl : CacheControl)
    (request : ResponsesRequest) (cacheKey : CacheKey) :
    (Flow.cacheableNonStreamingMiss tenantId cacheControl request cacheKey).Meets
      (fun _ call => call.PublishesMiss) (fun later result => ∀ response, result = .ok response →
        ∃ writeStatus : CacheWriteStatus, counted later = counted past ++ [.cache .miss, .write writeStatus] ∧
          response.Labelled .miss writeStatus.asHeaderValue "none") past := by
  refine (completeVendor_uncounted request).uncounted.bind ?_
  rintro later (err | body) ⟨same, _⟩
  · exact nofun
  · refine (storeMiss_uncounted cacheControl tenantId cacheKey (toVec body)).uncounted.bind ?_
    rintro after writeStatus ⟨still, _⟩
    refine ⟨nofun, fun _ => ⟨nofun, fun _ response answer => ?_⟩⟩
    cases answer
    refine ⟨writeStatus, ?_, GatewayResponse.labelled_ok ..⟩
    rw [counted_append, counted_append, still, same, List.append_assoc]
    rfl

/-- The role is recorded on every way through the flight; a waiter's status is that of the leader's miss. -/
theorem coalescedMiss_balanced [JsonWriter] (nothing : counted past = []) (tenantId : TenantId) (cacheControl : CacheControl)
    (request : ResponsesRequest) (cacheKey : CacheKey) :
    (Flow.coalescedMiss tenantId cacheControl request cacheKey).Meets (fun _ call => call.PublishesMiss)
      Balanced past := by
  refine ⟨nofun, fun reply => ?_⟩
  rcases reply with err | leader | waiter | _
  · exact nofun
  · refine ⟨nofun, fun _ => (cacheableNonStreamingMiss_counted tenantId cacheControl request cacheKey).bind ?_⟩
    rintro later (err | response) met
    · exact ⟨fun _ _ same => (nomatch same), fun _ => ⟨nofun, fun _ => nofun⟩⟩
    · obtain ⟨writeStatus, count, labelled⟩ := met response rfl
      refine ⟨fun _ _ same => ?_, fun _ => ⟨nofun, fun _ answer same _ => ?_⟩⟩
      · cases same
        exact ⟨_, _, labelled⟩
      · cases same
        refine ⟨.miss, writeStatus, .leader, ?_, labelled.withCacheCoalesced "leader"⟩
        rw [counted_append, counted_append, count, counted_append, counted_append, nothing]
        exact @List.perm_append_comm _ [Counter.singleflight .leader] _
  · refine ⟨nofun, fun reply => ?_⟩
    rcases reply with message | shared
    · exact nofun
    · refine ⟨nofun, fun _ => ⟨nofun, fun _ => ⟨nofun, fun _ answer same waited => ?_⟩⟩⟩
      cases same
      obtain ⟨_, _, labelled⟩ := waited waiter shared (by simp)
      refine ⟨.miss, .skipped, .waiter, ?_, (labelled.withCacheCoalesced "waiter").withCacheWrite _⟩
      simp only [counted_append, nothing]
      exact @List.perm_append_comm _ [Counter.singleflight .waiter] _
  · refine ⟨nofun, fun _ => (cacheableNonStreamingMiss_counted tenantId cacheControl request cacheKey).mono
      (fun _ _ => id) fun later result met answer same _ => ?_⟩
    obtain ⟨writeStatus, count, labelled⟩ := met answer same
    refine ⟨.miss, writeStatus, .overCapacity, ?_, labelled⟩
    rw [count, counted_append, counted_append, nothing]
    exact @List.perm_append_comm _ [Counter.singleflight .overCapacity] _

theorem lookUp_uncounted {α : Type} {cacheControl : CacheControl}
    {read : Flow (GatewayResult (Option (Flow.CachedPayload α)))}
    (reads : read.Meets (fun _ call => call.isLookup = true) (fun _ _ => True) past) :
    (Flow.lookUp cacheControl read).Meets (fun _ call => call.Uncounted) (fun _ _ => True) past := by
  unfold Flow.lookUp
  split
  · trivial
  · exact reads.mono (fun _ _ => Call.uncounted_of_isLookup) fun _ _ => id

section
variable [JsonReader]

theorem vendorStreamResponse_balanced (nothing : counted past = []) (request : ResponsesRequest)
    (cacheStatus : CacheStatus) (writeStatus : CacheWriteStatus) (cacheKey : Option CacheKey) :
    (Flow.vendorStreamResponse request cacheStatus writeStatus cacheKey).Meets (fun _ call => call.PublishesMiss)
      Balanced past := by
  refine (collectVendor_uncounted request).uncounted.bind ?_
  rintro later (err | captured) ⟨same, _⟩
  · exact nofun
  · exact recordSimple_balanced (same.trans nothing) (GatewayResponse.labelled_okStream ..)

variable [JsonWriter]

theorem streamingMiss_balanced (nothing : counted past = []) (tenantId : TenantId) (cacheControl : CacheControl)
    (request : ResponsesRequest) (cacheKey : CacheKey) :
    (Flow.streamingMiss tenantId cacheControl request cacheKey).Meets (fun _ call => call.PublishesMiss)
      Balanced past := by
  refine (collectVendor_uncounted request).uncounted.bind ?_
  rintro later (err | captured) ⟨same, _⟩
  · exact nofun
  · refine (storeMiss_uncounted cacheControl tenantId cacheKey (serializeStreamObject captured)).uncounted.bind ?_
    rintro after writeStatus ⟨still, _⟩
    exact recordSimple_balanced (still.trans (same.trans nothing)) (GatewayResponse.labelled_okStream ..)

theorem nonStreamingResponse_balanced (nothing : counted past = []) (cacheAvailable : Bool) (tenantId : TenantId)
    (cacheControl : CacheControl) (request : ResponsesRequest) (eligibility : EligibilityDecision)
    (cacheKey : CacheKey) :
    (Flow.nonStreamingResponse cacheAvailable tenantId cacheControl request eligibility cacheKey).Meets
      (fun _ call => call.PublishesMiss) Balanced past := by
  unfold Flow.nonStreamingResponse
  split
  · exact vendorResponse_balanced nothing ..
  · cases eligibility with
    | bypass reason => exact vendorResponse_balanced nothing ..
    | cacheable =>
      dsimp only
      split
      · split
        · exact cacheOnlyMiss_balanced nothing cacheKey
        · exact vendorResponse_balanced nothing ..
      · refine (lookUp_uncounted (readCachedBody_lookups past tenantId cacheKey)).uncounted.bind ?_
        rintro later (err | _ | payload) ⟨same, _⟩
        · exact nofun
        · dsimp only
          split
          · exact cacheOnlyMiss_balanced (same.trans nothing) cacheKey
          · exact coalescedMiss_balanced (same.trans nothing) tenantId cacheControl request cacheKey
        · exact recordSimple_balanced (same.trans nothing) (GatewayResponse.labelled_ok ..)

theorem streamingResponse_balanced (nothing : counted past = []) (tenantId : TenantId) (cacheControl : CacheControl)
    (request : ResponsesRequest) (eligibility : EligibilityDecision) (cacheKey : CacheKey) :
    (Flow.streamingResponse tenantId cacheControl request eligibility cacheKey).Meets
      (fun _ call => call.PublishesMiss) Balanced past := by
  unfold Flow.streamingResponse
  split
  · exact vendorStreamResponse_balanced nothing ..
  · cases eligibility with
    | bypass reason => exact vendorStreamResponse_balanced nothing ..
    | cacheable =>
      refine (lookUp_uncounted (readCachedStreamObject_lookups past tenantId cacheKey)).uncounted.bind ?_
      rintro later (err | _ | payload) ⟨same, _⟩
      · exact nofun
      · dsimp only
        split
        · exact cacheOnlyMiss_balanced (same.trans nothing) cacheKey
        · exact streamingMiss_balanced (same.trans nothing) tenantId cacheControl request cacheKey
      · exact recordSimple_balanced (same.trans nothing) (GatewayResponse.labelled_okStream ..)

/-- Every request publishes misses only, and its answer is accounted for. -/
theorem program_balanced [Sha256] (request : GatewayRequest) (state : GatewayState) :
    (request.program state).Meets (fun _ call => call.PublishesMiss) Balanced [] := by
  by_cases entered : request.Entered state
  · obtain ⟨tenantId, cacheControl, authenticated, allowed, controlled⟩ := entered
    cases typed : ResponsesRequest.fromValue request.body with
    | error err =>
      rw [GatewayRequest.program_malformed authenticated allowed controlled typed]
      exact nofun
    | ok parsed =>
      rw [GatewayRequest.program_eq authenticated allowed controlled typed]
      refine ⟨nofun, fun reply => ?_⟩
      cases reply with
      | error err => exact nofun
      | ok version =>
        dsimp only
        split
        · exact streamingResponse_balanced rfl ..
        · exact nonStreamingResponse_balanced rfl ..
  · obtain ⟨statusCode, message, _, program⟩ := GatewayRequest.program_refused entered
    rw [program]
    exact refuse_balanced statusCode message

end

end

namespace Accounted
variable {events : List GatewayEvent} {response : GatewayResponse}

theorem totals (h : Accounted events response) : (GatewayMetrics.recorded events).cacheTotal = 1 ∧
    (GatewayMetrics.recorded events).writeTotal = 1 ∧ (GatewayMetrics.recorded events).singleflightTotal = 1 := by
  obtain ⟨cacheStatus, writeStatus, role, counts, _⟩ := h
  have counter (c : Counter) : (GatewayMetrics.recorded events).counter c =
      [Counter.cache cacheStatus, .write writeStatus, .singleflight role].count c := by
    rw [GatewayMetrics.counter_recorded, counts.count_eq]
  refine ⟨?_, ?_, ?_⟩
  · rw [GatewayMetrics.cacheTotal_eq]
    simp only [counter]
    cases cacheStatus <;> rfl
  · rw [GatewayMetrics.writeTotal_eq]
    simp only [counter]
    cases writeStatus <;> rfl
  · rw [GatewayMetrics.singleflightTotal_eq]
    simp only [counter]
    cases role <;> rfl

end Accounted

/-- The counters of a gateway are the sums of what its requests have added to them. -/
theorem counter_recorded_history {I : Type} [DecidableEq I] [Fintype I] (history : List (I × GatewayEvent))
    (c : Counter) : (GatewayMetrics.recorded (history.map Prod.snd)).counter c =
      ∑ i, (GatewayMetrics.recorded (Pool.own history i)).counter c := by
  simp only [GatewayMetrics.counter_recorded]
  induction history with
  | nil => simp
  | cons entry rest ih =>
    obtain ⟨j, event⟩ := entry
    have split (i : I) : (counted (Pool.own ((j, event) :: rest) i)).count c =
        (if i = j then (counted [event]).count c else 0) + (counted (Pool.own rest i)).count c := by
      rw [← List.singleton_append, Pool.own_append, counted_append, List.count_append]
      congr 1
      by_cases same : i = j
      · subst same
        simp [Pool.own]
      · simp [Pool.own, same, Ne.symm same]
    rw [List.map_cons, ← List.singleton_append, counted_append, List.count_append, ih]
    simp only [split, Finset.sum_add_distrib, Finset.sum_ite_eq', Finset.mem_univ, ↓reduceIte]

section
variable {I C A : Type} [DecidableEq I] [Sha256] [JsonWriter] [JsonReader] {cache : Server C A Call Call.Reply}
  {vendor : (call : Call) → call.Reply → Prop} {store : C} {maxWaiters : Nat} {requests : I → GatewayRequest}
  {state : GatewayState} {trace : List (Pool.Label I (GatewayAction A) Call Call.Reply)} {s : GatewayPool I C}

/-- In any run an answer is accounted for: a shared one is the miss that its leader has published. -/
theorem run_accounted (run : Run (Pool.Step (GatewayWorld.server cache vendor))
      (Pool.initial ⟨store, .new maxWaiters⟩ (programs requests state)) trace s) {i : I} {response : GatewayResponse}
    (answered : s.threads i = .done (.ok response)) : Accounted (Pool.own s.history i) response := by
  have balanced (j : I) : (programs requests state j).Meets (fun _ call => call.PublishesMiss) Balanced [] :=
    program_balanced (requests j) state
  have met := Pool.run_meets (balanced i) run
  rw [answered] at met
  refine met response rfl fun waiter shared waited => ?_
  rcases waited_source run (Pool.mem_own.mp waited) with ⟨j, published⟩ | ⟨⟨_, ⟨⟩⟩, _⟩
  obtain ⟨before, after, split⟩ := List.append_of_mem (Pool.mem_own.mpr published)
  exact Pool.run_called (balanced j) run split _ _ rfl

/-- The metrics balance: every answer increments the three counters that its headers name, and once all
requests are answered each group sums to their number. -/
theorem metrics_balance (run : Run (Pool.Step (GatewayWorld.server cache vendor))
      (Pool.initial ⟨store, .new maxWaiters⟩ (programs requests state)) trace s) :
    (∀ i response, s.threads i = .done (.ok response) →
      ∃ cacheStatus writeStatus role, response.Labelled cacheStatus writeStatus.asHeaderValue role.coalesced ∧
        ∀ c, (GatewayMetrics.recorded (Pool.own s.history i)).counter c =
          if c = .cache cacheStatus ∨ c = .write writeStatus ∨ c = .singleflight role then 1 else 0) ∧
    ∀ [Fintype I], (∀ i, ∃ response, s.threads i = .done (.ok response)) →
      (GatewayMetrics.recorded (s.history.map Prod.snd)).cacheTotal = Fintype.card I ∧
      (GatewayMetrics.recorded (s.history.map Prod.snd)).writeTotal = Fintype.card I ∧
      (GatewayMetrics.recorded (s.history.map Prod.snd)).singleflightTotal = Fintype.card I := by
  constructor
  · intro i response answered
    obtain ⟨cacheStatus, writeStatus, role, counts, labelled⟩ := run_accounted run answered
    refine ⟨cacheStatus, writeStatus, role, labelled, fun c => ?_⟩
    rw [GatewayMetrics.counter_recorded, counts.count_eq, List.Nodup.count (by simp)]
    simp only [List.mem_cons, List.not_mem_nil, or_false]
  · intro _ answers
    have totals (i : I) := (run_accounted run (answers i).choose_spec).totals
    refine ⟨?_, ?_, ?_⟩
    · simp only [GatewayMetrics.cacheTotal_eq, counter_recorded_history, ← Finset.sum_add_distrib]
      simp only [← GatewayMetrics.cacheTotal_eq, (totals _).1]
      simp
    · simp only [GatewayMetrics.writeTotal_eq, counter_recorded_history, ← Finset.sum_add_distrib]
      simp only [← GatewayMetrics.writeTotal_eq, (totals _).2.1]
      simp
    · simp only [GatewayMetrics.singleflightTotal_eq, counter_recorded_history, ← Finset.sum_add_distrib]
      simp only [← GatewayMetrics.singleflightTotal_eq, (totals _).2.2]
      simp

end

/-- The metrics of a greeting that leads a flight and of one that waits for it. -/
theorem coalesced_pair_is_counted : ∃ s : GatewayPool Bool (CacheWorld MemoryStore),
    (∃ response, s.threads false = .done (.ok response) ∧
      response.headers.lookup "x-cache-coalesced" = some "waiter") ∧
    (GatewayMetrics.recorded (s.history.map Prod.snd)).cacheTotal = 2 ∧
    (GatewayMetrics.recorded (s.history.map Prod.snd)).writeTotal = 2 ∧
    (GatewayMetrics.recorded (s.history.map Prod.snd)).singleflightTotal = 2 := by
  let _ := greetingDigests
  let _ := greetingTexts
  let _ := greetingReader
  let key : SingleflightKey := ⟨⟨"tenant-a"⟩, greetingKey, .writable⟩
  have idle : Run (Pool.Step (GatewayWorld.server (CacheWorld.server localStoreClient fun _ => False)
    fun _ _ => True)) (Pool.initial ⟨freshCache "store-0" 16 16, .new 1024⟩
      (programs (fun _ : Bool => greetingRequest) openGateway)) [] _ := .start
  have missed := idle.snoc (GatewayWorld.call_step true (.resolveModelVersion "gpt-x") (.ok "gpt-x") greeting_program
      ⟨trivial, rfl⟩)
    |>.snoc (.call (i := true) rfl ⟨_, .inl ⟨0, rfl, rfl⟩, rfl⟩)
    |>.snoc (GatewayWorld.call_step true (.begin key) (.ok (.leader 0)) rfl ⟨rfl, rfl⟩)
    |>.snoc (GatewayWorld.call_step true (.recordSingleflight .leader) () rfl rfl)
    |>.snoc (GatewayWorld.call_step false (.resolveModelVersion "gpt-x") (.ok "gpt-x") greeting_program
      ⟨trivial, rfl⟩)
    |>.snoc (.call (i := false) rfl ⟨_, .inl ⟨0, rfl, rfl⟩, rfl⟩)
    |>.snoc (GatewayWorld.call_step false (.begin key) (.ok (.waiter 0)) rfl ⟨rfl, rfl⟩)
  have published := missed.snoc (GatewayWorld.call_step true (.complete _) (.ok (.string "hi")) rfl ⟨trivial, rfl⟩)
    |>.snoc (GatewayWorld.call_step true .recordVendorCall () rfl rfl)
    |>.snoc (.call (i := true) rfl ⟨_, .inl ⟨rfl, rfl⟩, rfl⟩)
    |>.snoc (.call (i := true) rfl ⟨_, .inl ⟨rfl, rfl⟩, rfl⟩)
    |>.snoc (.call (i := true) rfl ⟨_, .inl ⟨rfl, rfl⟩, rfl⟩)
    |>.snoc (GatewayWorld.call_step true (.recordCacheStatus .miss) () rfl rfl)
    |>.snoc (GatewayWorld.call_step true (.recordWrite .committed) () rfl rfl)
    |>.snoc (GatewayWorld.call_step true (.publish 0 _) () rfl ⟨_, ⟨⟨Nat.one_pos, rfl⟩, rfl⟩, rfl⟩)
    |>.snoc (GatewayWorld.call_step true (.send 0) () rfl ⟨_, ⟨⟨Nat.one_pos, _, _, rfl⟩, rfl⟩, rfl⟩)
  have woken := published.snoc (show Pool.Step _ _ (.act (.wake 0)) _ from
      .act ⟨_, ⟨⟨Nat.one_pos, Option.some_ne_none _⟩, rfl⟩, rfl⟩)
    |>.snoc (GatewayWorld.call_step false (.wait 0) (.ok _) rfl ⟨Nat.one_pos, rfl, rfl⟩)
    |>.snoc (GatewayWorld.call_step false (.recordSingleflight .waiter) () rfl rfl)
    |>.snoc (GatewayWorld.call_step false (.recordCacheStatus .miss) () rfl rfl)
    |>.snoc (GatewayWorld.call_step false (.recordWrite .skipped) () rfl rfl)
  exact ⟨_, ⟨_, rfl, by decide⟩, (metrics_balance woken).2 fun i => by
    cases i
    · exact ⟨_, rfl⟩
    · exact ⟨_, rfl⟩⟩

end Mooncache
