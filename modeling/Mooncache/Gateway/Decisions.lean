import Mooncache.Gateway.FailOpen

/-! What a request makes of the cache: the class it falls into, whatever the replies. -/
namespace Mooncache
open Program

/-- Calls to the master, the stores and the singleflight group; the others go to the vendor or are metrics. -/
def Call.isCache : Call → Bool
  | getReplicaList _ _ | putStart _ _ _ _ | putEnd _ _ | putRevoke _ _ | readChunk _ _ _
  | writePreallocatedChunk _ _ _ _ _ | begin _ | publish _ _ | send _ | wait _ => true
  | _ => false

/-- Calls that have the vendor serve a request. -/
def Call.isServing : Call → Bool
  | complete _ | stream _ => true
  | _ => false

/-- The vendor's own answer, as it came. -/
def FromVendor [JsonReader] (past : List GatewayEvent) (response : GatewayResponse) : Prop :=
  response.statusCode = 200 ∧
    ((∃ request, ⟨.complete request, .ok response.body⟩ ∈ past ∧ response.streamEvents = none) ∨
    ∃ request events captured, ⟨.stream request, .ok events⟩ ∈ past ∧ collectStream events = .ok captured ∧
      response.body = captured.finalBody ∧ response.streamEvents = some captured.events)

/-- A response without the vendor. -/
def Alone (past : List GatewayEvent) : Prop := ∀ event ∈ past, event.request.isServing = false

inductive CacheClass where
  /-- The body is no request: there is no response. -/
  | malformed
  | rejected
  | bypass
  | ineligible
  | degraded
  | cacheOnlyMiss
  /-- Looked up in the cache, or in write-only mode only stored there. -/
  | lookedUp
  deriving DecidableEq, Repr

theorem cacheStatusHeader_injective : Function.Injective cacheStatusHeader := by
  intro a b same
  cases a <;> cases b <;> first | rfl | exact absurd same (by decide)

namespace CacheClass

/-- The statuses of a class that leaves the cache alone. -/
def label : CacheClass → Option (CacheStatus × CacheWriteStatus)
  | rejected | bypass => some (.bypass, .skipped)
  | ineligible => some (.ineligible, .skipped)
  | degraded => some (.degraded, .failed)
  | cacheOnlyMiss => some (.cacheOnlyMiss, .skipped)
  | malformed | lookedUp => none

def statusCodes : CacheClass → List Nat
  | rejected => [400, 401, 403]
  | bypass | ineligible | degraded => [200]
  | cacheOnlyMiss => [404]
  | malformed | lookedUp => []

def isServed : CacheClass → Bool
  | bypass | ineligible | degraded => true
  | _ => false

/-- How a class that leaves the cache alone is answered. -/
structure Answers [JsonReader] (kind : CacheClass) (past : List GatewayEvent) (response : GatewayResponse) : Prop where
  labelled : ∃ label, kind.label = some label ∧ response.Labelled label.1 label.2.asHeaderValue "none"
  statusCode : response.statusCode ∈ kind.statusCodes
  served : kind.isServed = true → FromVendor past response
  alone : kind.isServed = false → Alone past

theorem eq_of_label {kind other : CacheClass} {cacheStatus : CacheStatus} {writeStatus otherStatus : CacheWriteStatus}
    (h : kind.label = some (cacheStatus, writeStatus)) (h' : other.label = some (cacheStatus, otherStatus))
    {statusCode : Nat} (code : statusCode ∈ kind.statusCodes) (code' : statusCode ∈ other.statusCodes) :
    kind = other := by
  cases kind <;> cases h <;> cases other <;> cases h' <;> simp_all [statusCodes]

/-- An answer is of one class. -/
theorem Answers.unique [JsonReader] {kind other : CacheClass} {past : List GatewayEvent} {response : GatewayResponse}
    (h : kind.Answers past response) (h' : other.Answers past response) : kind = other := by
  obtain ⟨⟨cacheStatus, writeStatus⟩, label, labelled⟩ := h.labelled
  obtain ⟨⟨otherCache, otherWrite⟩, label', labelled'⟩ := h'.labelled
  obtain rfl : cacheStatus = otherCache :=
    cacheStatusHeader_injective (Option.some.inj (labelled.status.symm.trans labelled'.status))
  exact eq_of_label label label' h.statusCode h'.statusCode

end CacheClass

/-- The class of a program: what it calls and how it answers, whatever the replies. -/
inductive FallsInto [JsonReader] (p : Flow (GatewayResult GatewayResponse)) : CacheClass → Prop
  | malformed {err : GatewayError} : p = .done (.error err) → FallsInto p .malformed
  | answers {kind : CacheClass} :
    p.Meets (fun _ call => call.isCache = false)
      (fun past result => ∀ response, result = .ok response → kind.Answers past response) [] →
    (∃ events response, Trace p events (.done (.ok response))) → FallsInto p kind
  | lookedUp {events : List GatewayEvent} {call : Call} {next : call.Reply → Flow (GatewayResult GatewayResponse)} :
    Trace p events (.call call next) → call.isCache = true → FallsInto p .lookedUp

section
variable [JsonReader] {p : Flow (GatewayResult GatewayResponse)} {kind other : CacheClass}

private theorem malformed_excludes {err : GatewayError} (h : p = .done (.error err)) (h' : FallsInto p other) :
    other = .malformed := by
  subst h
  cases h' with
  | malformed => rfl
  | answers _ answered =>
    obtain ⟨_, _, taken⟩ := answered
    cases taken
  | lookedUp taken _ => cases taken

private theorem answers_exclude (calls : p.Meets (fun _ call => call.isCache = false)
    (fun past result => ∀ response, result = .ok response → kind.Answers past response) [])
    (answered : ∃ events response, Trace p events (.done (.ok response))) (h' : FallsInto p other) : kind = other := by
  obtain ⟨events, response, taken⟩ := answered
  cases h' with
  | malformed same =>
    subst same
    cases taken
  | answers calls' _ => exact CacheClass.Answers.unique (calls.trace taken response rfl) (calls'.trace taken response rfl)
  | lookedUp taken' cached =>
    have uncached := (calls.trace taken').1
    exact Bool.noConfusion (cached.symm.trans uncached)

/-- A program falls into one class at most. -/
theorem FallsInto.unique (h : FallsInto p kind) (h' : FallsInto p other) : kind = other := by
  cases h with
  | malformed same => exact (malformed_excludes same h').symm
  | answers calls answered => exact answers_exclude calls answered h'
  | lookedUp taken cached =>
    cases h' with
    | malformed same => exact malformed_excludes same (.lookedUp taken cached)
    | answers calls answered => exact (answers_exclude calls answered (.lookedUp taken cached)).symm
    | lookedUp => rfl

end

section
variable [JsonReader] (past : List GatewayEvent)

/-- What the vendor serves is answered as it came, under these labels. -/
def Uncached (cacheStatus : CacheStatus) (writeStatus : CacheWriteStatus) (later : List GatewayEvent)
    (result : GatewayResult GatewayResponse) : Prop :=
  ∀ response, result = .ok response →
    FromVendor later response ∧ response.Labelled cacheStatus writeStatus.asHeaderValue "none"

theorem vendorResponse_uncached (request : ResponsesRequest) (cacheStatus : CacheStatus)
    (writeStatus : CacheWriteStatus) (cacheKey : Option CacheKey) :
    (Flow.vendorResponse request cacheStatus writeStatus cacheKey).Meets (fun _ call => call.isCache = false)
      (Uncached cacheStatus writeStatus) past := by
  refine ⟨rfl, fun reply => ⟨rfl, fun _ => ?_⟩⟩
  cases reply with
  | error err => exact nofun
  | ok body =>
    refine ⟨rfl, fun _ => ⟨rfl, fun _ => ⟨rfl, fun _ => ?_⟩⟩⟩
    rintro response ⟨⟩
    exact ⟨⟨by simp, .inl ⟨request, by simp, by simp⟩⟩, GatewayResponse.labelled_ok ..⟩

theorem vendorStreamResponse_uncached (request : ResponsesRequest) (cacheStatus : CacheStatus)
    (writeStatus : CacheWriteStatus) (cacheKey : Option CacheKey) :
    (Flow.vendorStreamResponse request cacheStatus writeStatus cacheKey).Meets (fun _ call => call.isCache = false)
      (Uncached cacheStatus writeStatus) past := by
  refine ⟨rfl, fun reply => ?_⟩
  cases reply with
  | error err => exact nofun
  | ok events =>
    simp only [Program.bind]
    cases collected : collectStream events with
    | error err => exact nofun
    | ok captured =>
      refine ⟨rfl, fun _ => ⟨rfl, fun _ => ⟨rfl, fun _ => ⟨rfl, fun _ => ?_⟩⟩⟩⟩
      rintro response ⟨⟩
      exact ⟨⟨by simp, .inr ⟨request, events, captured, by simp, collected, by simp, by simp⟩⟩,
        GatewayResponse.labelled_okStream ..⟩

omit [JsonReader] in
theorem recordSimple_answered (cacheStatus : CacheStatus) (writeStatus : CacheWriteStatus) :
    Trace (Flow.recordSimple cacheStatus writeStatus) [⟨.recordCacheStatus cacheStatus, ()⟩,
      ⟨.recordWrite writeStatus, ()⟩, ⟨.recordSingleflight .none, ()⟩] (.done ()) := .cons (.cons (.cons (.nil _)))

omit [JsonReader] in
theorem vendorResponse_answered (request : ResponsesRequest) (cacheStatus : CacheStatus)
    (writeStatus : CacheWriteStatus) (cacheKey : Option CacheKey) : ∃ events response,
      Trace (Flow.vendorResponse request cacheStatus writeStatus cacheKey) events (.done (.ok response)) :=
  ⟨[⟨.complete request, .ok .null⟩, ⟨.recordVendorCall, ()⟩, ⟨.recordCacheStatus cacheStatus, ()⟩,
    ⟨.recordWrite writeStatus, ()⟩, ⟨.recordSingleflight .none, ()⟩], _, .cons (.cons (.cons (.cons (.cons (.nil _)))))⟩

/-- Some text can be read. -/
def Reads : Prop := ∃ text value, fromStr text = .ok value

/-- Then some stream can be collected. -/
theorem Reads.collects (h : Reads) : ∃ events captured, collectStream events = .ok captured := by
  obtain ⟨text, value, read⟩ := h
  have last : [(⟨some "response.completed", text⟩ : SseEvent)].reverse.find? (·.event = some "response.completed") =
      some ⟨some "response.completed", text⟩ := rfl
  have aggregated : ∃ finalBody, aggregateFinalBody [⟨some "response.completed", text⟩] = .ok finalBody := by
    simp only [aggregateFinalBody, last, read]
    cases value <;> exact ⟨_, rfl⟩
  obtain ⟨finalBody, aggregated⟩ := aggregated
  refine ⟨[.ok ⟨some "response.completed", text⟩], ⟨[⟨some "response.completed", text⟩], finalBody⟩, ?_⟩
  simp only [collectStream, collectEvents, aggregated]

theorem collectVendor_answered {stream : VendorEventStream} {captured : CapturedStream}
    (collected : collectStream stream = .ok captured) (request : ResponsesRequest) :
    Trace (Flow.collectVendor request) [⟨.stream request, .ok stream⟩, ⟨.recordVendorCall, ()⟩]
      (.done (.ok captured)) := by
  refine .cons ?_
  simp only [Program.bind, collected]
  exact .cons (.nil _)

theorem vendorStreamResponse_answered (reads : Reads) (request : ResponsesRequest) (cacheStatus : CacheStatus)
    (writeStatus : CacheWriteStatus) (cacheKey : Option CacheKey) : ∃ events response,
      Trace (Flow.vendorStreamResponse request cacheStatus writeStatus cacheKey) events (.done (.ok response)) := by
  obtain ⟨stream, captured, collected⟩ := reads.collects
  have rest : Trace (Flow.recordSimple cacheStatus writeStatus >>= fun _ => (pure (.ok (.okStream captured.finalBody
      captured.events cacheStatus writeStatus.asHeaderValue "vendor" cacheKey)) : Flow (GatewayResult GatewayResponse))) _ _ :=
    (recordSimple_answered cacheStatus writeStatus).bind (.nil _)
  exact ⟨_, _, (collectVendor_answered collected request).bind rest⟩

/-- A request whose answer the vendor serves. -/
theorem falls_of_uncached {kind : CacheClass} {cacheStatus : CacheStatus} {writeStatus : CacheWriteStatus}
    (label : kind.label = some (cacheStatus, writeStatus)) (served : kind.isServed = true) {model : String}
    {next : Except VendorError String → Flow (GatewayResult GatewayResponse)}
    (failed : ∀ err, next (.error err) = .done (.error (.vendor err)))
    (meets : ∀ version past, (next (.ok version)).Meets (fun _ call => call.isCache = false)
      (Uncached cacheStatus writeStatus) past)
    (answered : ∀ version, ∃ events response, Trace (next (.ok version)) events (.done (.ok response))) :
    FallsInto (.call (.resolveModelVersion model) next) kind := by
  have code : 200 ∈ kind.statusCodes := by cases kind <;> first | exact List.mem_singleton_self _ | cases served
  obtain ⟨events, response, taken⟩ := answered ""
  refine .answers ⟨rfl, fun reply => ?_⟩ ⟨⟨.resolveModelVersion model, .ok ""⟩ :: events, response, .cons taken⟩
  cases reply with
  | error err =>
    rw [failed]
    exact nofun
  | ok version =>
    refine (meets version _).mono (fun _ _ uncached => uncached) fun later result met response answer => ?_
    obtain ⟨vendor, labelled⟩ := met response answer
    exact ⟨⟨_, label, labelled⟩, vendor.1 ▸ code, fun _ => vendor, fun other => by simp [served] at other⟩

omit [JsonReader] in
theorem recordSimple_alone (past : List GatewayEvent) (cacheStatus : CacheStatus) (writeStatus : CacheWriteStatus) :
    (Flow.recordSimple cacheStatus writeStatus).Meets (fun _ call => call.isCache = false)
      (fun later _ => Alone past → Alone later) past := by
  refine ⟨rfl, fun _ => ⟨rfl, fun _ => ⟨rfl, fun _ alone event member => ?_⟩⟩⟩
  simp only [List.mem_append, List.mem_singleton] at member
  rcases member with ((member | rfl) | rfl) | rfl
  · exact alone event member
  all_goals rfl

theorem refuse_falls (statusCode : Nat) (code : statusCode ∈ [400, 401, 403]) (message : String) :
    FallsInto (Flow.refuse statusCode message) .rejected := by
  refine .answers ((recordSimple_alone [] .bypass .skipped).bind fun later _ alone => ?_)
    ⟨_, _, (recordSimple_answered .bypass .skipped).bind (.nil _)⟩
  rintro response ⟨⟩
  exact ⟨⟨_, rfl, GatewayResponse.labelled_error ..⟩, code, nofun, fun _ => alone nofun⟩

theorem cacheOnlyMiss_falls {model : String}
    {next : Except VendorError String → Flow (GatewayResult GatewayResponse)}
    (failed : ∀ err, next (.error err) = .done (.error (.vendor err)))
    (missed : ∀ version, ∃ cacheKey, next (.ok version) = Flow.cacheOnlyMiss cacheKey) :
    FallsInto (.call (.resolveModelVersion model) next) .cacheOnlyMiss := by
  obtain ⟨cacheKey, same⟩ := missed ""
  have answered : Trace (Flow.cacheOnlyMiss cacheKey) _ (.done (.ok _)) :=
    (recordSimple_answered .cacheOnlyMiss .skipped).bind (.nil _)
  refine .answers ⟨rfl, fun reply => ?_⟩ ⟨⟨.resolveModelVersion model, .ok ""⟩ :: _, _, .cons (same ▸ answered)⟩
  cases reply with
  | error err =>
    rw [failed]
    exact nofun
  | ok version =>
    obtain ⟨cacheKey, same⟩ := missed version
    rw [same]
    refine (recordSimple_alone _ .cacheOnlyMiss .skipped).bind fun later _ alone => ?_
    rintro response ⟨⟩
    exact ⟨⟨_, rfl, (GatewayResponse.labelled_error ..).withCacheKey cacheKey⟩, List.mem_singleton_self _, nofun,
      fun _ => alone (by simp [Alone, Call.isServing])⟩

/-- A request that is on its way to a call to the cache. -/
theorem falls_of_cached {model : String} (version : String)
    {next : Except VendorError String → Flow (GatewayResult GatewayResponse)} {events : List GatewayEvent} {call : Call}
    {rest : call.Reply → Flow (GatewayResult GatewayResponse)} (taken : Trace (next (.ok version)) events (.call call rest))
    (cached : call.isCache = true) : FallsInto (.call (.resolveModelVersion model) next) .lookedUp :=
  have resolved : Trace (.call (.resolveModelVersion model) next)
    (⟨.resolveModelVersion model, .ok version⟩ :: events) (.call call rest) := .cons taken
  .lookedUp resolved cached

theorem falls_of_first {model : String} (version : String)
    {next : Except VendorError String → Flow (GatewayResult GatewayResponse)} (call : Call)
    {rest : call.Reply → Flow (GatewayResult GatewayResponse)} (first : next (.ok version) = .call call rest)
    (cached : call.isCache = true) : FallsInto (.call (.resolveModelVersion model) next) .lookedUp := by
  have taken : Trace (next (.ok version)) [] (.call call rest) := by
    rw [first]
    exact .nil _
  exact falls_of_cached version taken cached

variable [JsonWriter]

/-- The class of a request that gets past its checks: whether it is looked up when nothing speaks against it
is all that its path decides. -/
def pathClass (looksUp : Bool) (cacheControl : CacheControl) (eligibility : EligibilityDecision) : CacheClass :=
  if cacheControl = .bypass then .bypass
  else match eligibility with
    | .bypass _ => .ineligible
    | .cacheable => if looksUp then .lookedUp else if cacheControl = .cacheOnly then .cacheOnlyMiss else .degraded

section
variable {tenantId : TenantId} {cacheControl : CacheControl} {request : ResponsesRequest}
  {eligibility : EligibilityDecision} {cacheKey : String → CacheKey}

theorem streamingResponse_falls (reads : Reads) : FallsInto (.call (.resolveModelVersion request.model) fun
    | .error err => .done (.error (.vendor err))
    | .ok version => Flow.streamingResponse tenantId cacheControl request eligibility (cacheKey version))
    (pathClass true cacheControl eligibility) := by
  unfold pathClass Flow.streamingResponse
  split
  · exact falls_of_uncached rfl rfl (fun _ => rfl) (fun _ past => vendorStreamResponse_uncached past ..)
      fun _ => vendorStreamResponse_answered reads ..
  · cases eligibility with
    | bypass reason =>
      exact falls_of_uncached rfl rfl (fun _ => rfl) (fun _ past => vendorStreamResponse_uncached past ..)
        fun _ => vendorStreamResponse_answered reads ..
    | cacheable =>
      by_cases only : cacheControl = .writeOnly
      · subst only
        obtain ⟨stream, captured, collected⟩ := reads.collects
        have stored : Trace (Flow.streamingMiss tenantId .writeOnly request (cacheKey "")) _
            (.call (.putStart tenantId (cacheKey "") (serializeStreamObject captured).length replicaCount) _) :=
          (collectVendor_answered collected request).bind (.nil _)
        exact falls_of_cached "" stored rfl
      · simp only [Flow.lookUp, if_neg only]
        exact falls_of_first "" (.getReplicaList tenantId (cacheKey "")) rfl rfl

theorem nonStreamingResponse_falls (cacheAvailable : Bool) : FallsInto (.call (.resolveModelVersion request.model) fun
    | .error err => .done (.error (.vendor err))
    | .ok version =>
      Flow.nonStreamingResponse cacheAvailable tenantId cacheControl request eligibility (cacheKey version))
    (pathClass cacheAvailable cacheControl eligibility) := by
  unfold pathClass Flow.nonStreamingResponse
  split
  · exact falls_of_uncached rfl rfl (fun _ => rfl) (fun _ past => vendorResponse_uncached past ..)
      fun _ => vendorResponse_answered ..
  · cases eligibility with
    | bypass reason =>
      exact falls_of_uncached rfl rfl (fun _ => rfl) (fun _ past => vendorResponse_uncached past ..)
        fun _ => vendorResponse_answered ..
    | cacheable =>
      cases cacheAvailable with
      | true =>
        by_cases only : cacheControl = .writeOnly
        · subst only
          exact falls_of_first "" (.begin ⟨tenantId, cacheKey "", .writable⟩) rfl rfl
        · simp only [Flow.lookUp, if_neg only]
          exact falls_of_first "" (.getReplicaList tenantId (cacheKey "")) rfl rfl
      | false =>
        by_cases only : cacheControl = .cacheOnly
        · subst only
          exact cacheOnlyMiss_falls (fun _ => rfl) fun version => ⟨cacheKey version, rfl⟩
        · simp only [if_neg only]
          exact falls_of_uncached rfl rfl (fun _ => rfl) (fun _ past => vendorResponse_uncached past ..)
            fun _ => vendorResponse_answered ..

end

omit [JsonReader] [JsonWriter] in
theorem pathClass_eq_iff {cacheAvailable : Bool} {cacheControl : CacheControl} {eligibility : EligibilityDecision} :
    pathClass true cacheControl eligibility = pathClass cacheAvailable cacheControl eligibility ↔
      cacheAvailable = true ∨ cacheControl = .bypass ∨ eligibility ≠ .cacheable := by
  cases cacheAvailable <;> cases cacheControl <;> cases eligibility <;> simp [pathClass]

end

/-! One request, asking for a stream or not. -/

/-- The body with `"stream": true`. -/
def Value.streamed : Value → Value
  | object members => object (("stream", .bool true) :: members.filter (·.1 ≠ "stream"))
  | body => body

namespace GatewayRequest

def streamed (request : GatewayRequest) : GatewayRequest := { request with body := request.body.streamed }

/-- The request without the member `"stream"`. -/
def unstreamed (request : GatewayRequest) : GatewayRequest :=
  { request with body := fingerprintBodyWithoutStream request.body }

/-- Nothing but the cache itself keeps the request from being looked up. -/
def Cacheable [Sha256] [JsonReader] (request : GatewayRequest) (state : GatewayState) : Prop :=
  ∃ tenantId cacheControl parsed, state.authenticate request.authorization = some tenantId ∧
    state.tenantAllowsVendor tenantId state.vendorId = true ∧
    CacheControl.parse (request.cacheControl.getD "") = .ok cacheControl ∧ cacheControl ≠ .bypass ∧
    ResponsesRequest.fromValue request.body = .ok parsed ∧
    request.eligibility state parsed cacheControl = .cacheable

end GatewayRequest

theorem lookup_filter_ne {name other : String} (h : name ≠ other) (members : List (String × Value)) :
    (members.filter (·.1 ≠ other)).lookup name = members.lookup name := by
  induction members with
  | nil => rfl
  | cons member rest ih =>
    obtain ⟨key, value⟩ := member
    rw [List.filter_cons]
    split
    · rw [List.lookup_cons, List.lookup_cons, ih]
    · rename_i dropped
      obtain rfl : key = other := by simpa using dropped
      rw [ih, List.lookup_cons, beq_eq_false_iff_ne.mpr h]

theorem Value.get_streamed {name : String} (h : name ≠ "stream") (body : Value) :
    body.streamed.get name = body.get name := by
  cases body with
  | object members =>
    rw [streamed, get, get, List.lookup_cons, beq_eq_false_iff_ne.mpr h]
    exact lookup_filter_ne h members
  | _ => rfl

theorem get_unstreamed {name : String} (h : name ≠ "stream") (body : Value) :
    (fingerprintBodyWithoutStream body).get name = body.get name := by
  cases body with
  | object members =>
    rw [fingerprintBodyWithoutStream]
    split
    · exact lookup_filter_ne h members
    · rfl
  | _ => rfl

theorem streamed_isStreaming {members : List (String × Value)} {request : GatewayRequest}
    (h : request.body = .object members) : request.streamed.isStreaming = true := by
  rw [GatewayRequest.isStreaming, GatewayRequest.streamed, h]
  rfl

theorem unstreamed_isStreaming (request : GatewayRequest) : request.unstreamed.isStreaming = false := by
  have absent : (fingerprintBodyWithoutStream request.body).get "stream" = none := by
    cases request.body with
    | object members =>
      rw [fingerprintBodyWithoutStream]
      split
      · exact List.lookup_eq_none_iff.mpr fun member kept =>
          bne_iff_ne.mpr (Ne.symm (by simpa using (List.mem_filter.mp kept).2))
      · rename_i absent
        exact List.lookup_eq_none_iff.mpr fun member held =>
          bne_iff_ne.mpr fun same => absent (List.any_eq_true.mpr ⟨member, held, decide_eq_true same.symm⟩)
    | _ => rfl
  rw [GatewayRequest.isStreaming, GatewayRequest.unstreamed, absent]
  rfl

theorem classifyRequest_congr {body other : Value} (h : body.get "temperature" = other.get "temperature")
    (forceReplay : Bool) : classifyRequest body forceReplay = classifyRequest other forceReplay := by
  rw [classifyRequest, classifyRequest, h]

section
variable [JsonReader]

theorem fromValue_eq_ok {body : Value} {model : String} :
    (∃ parsed, ResponsesRequest.fromValue body = .ok parsed ∧ parsed.model = model) ↔
      body.get "model" = some (.string model) := by
  cases body with
  | object members =>
    simp only [ResponsesRequest.fromValue, Value.get]
    split
    · rename_i found named
      rw [named]
      simp
    · rename_i other
      simp only [reduceCtorEq, false_and, exists_false, false_iff]
      exact fun named => other model named
  | _ => simp [ResponsesRequest.fromValue, Value.get]

variable [Sha256] [JsonWriter]

namespace GatewayRequest
variable {request : GatewayRequest} {state : GatewayState} {tenantId : TenantId} {cacheControl : CacheControl}

/-- The request is of a tenant that may use the vendor, with a cache-control that is known. -/
def Entered (request : GatewayRequest) (state : GatewayState) : Prop :=
  ∃ tenantId cacheControl, state.authenticate request.authorization = some tenantId ∧
    state.tenantAllowsVendor tenantId state.vendorId = true ∧
    CacheControl.parse (request.cacheControl.getD "") = .ok cacheControl

theorem program_refused (h : ¬ request.Entered state) : ∃ statusCode message, statusCode ∈ [400, 401, 403] ∧
    request.program state = Flow.refuse statusCode message := by
  unfold program Flow.handleResponseRequest
  cases authenticated : state.authenticate request.authorization with
  | none => exact ⟨401, _, by decide, rfl⟩
  | some tenantId =>
    dsimp only
    split
    · exact ⟨403, _, by decide, rfl⟩
    · rename_i allowed
      cases controlled : CacheControl.parse (request.cacheControl.getD "") with
      | error err => exact ⟨400, _, by decide, rfl⟩
      | ok cacheControl =>
        exact absurd ⟨tenantId, cacheControl, authenticated, Bool.eq_true_of_not_eq_false allowed, controlled⟩ h

theorem program_malformed (authenticated : state.authenticate request.authorization = some tenantId)
    (allowed : state.tenantAllowsVendor tenantId state.vendorId = true)
    (controlled : CacheControl.parse (request.cacheControl.getD "") = .ok cacheControl) {err : String}
    (typed : ResponsesRequest.fromValue request.body = .error err) :
    request.program state = .done (.error (.json err)) := by
  unfold program Flow.handleResponseRequest
  simp only [authenticated, allowed, controlled, typed, reduceCtorEq, ↓reduceIte]
  rfl

theorem program_rejected (h : ¬ request.Entered state) : FallsInto (request.program state) .rejected := by
  obtain ⟨statusCode, message, code, program⟩ := program_refused h
  rw [program]
  exact refuse_falls statusCode code message

theorem malformed_falls (authenticated : state.authenticate request.authorization = some tenantId)
    (allowed : state.tenantAllowsVendor tenantId state.vendorId = true)
    (controlled : CacheControl.parse (request.cacheControl.getD "") = .ok cacheControl)
    (typed : ∃ err, ResponsesRequest.fromValue request.body = .error err) :
    FallsInto (request.program state) .malformed := by
  obtain ⟨err, typed⟩ := typed
  rw [program_malformed authenticated allowed controlled typed]
  exact .malformed rfl

theorem program_falls (reads : Reads) {parsed : ResponsesRequest}
    (authenticated : state.authenticate request.authorization = some tenantId)
    (allowed : state.tenantAllowsVendor tenantId state.vendorId = true)
    (controlled : CacheControl.parse (request.cacheControl.getD "") = .ok cacheControl)
    (typed : ResponsesRequest.fromValue request.body = .ok parsed) : FallsInto (request.program state)
      (pathClass (request.isStreaming || state.cacheAvailable) cacheControl
        (request.eligibility state parsed cacheControl)) := by
  rw [program_eq authenticated allowed controlled typed]
  cases request.isStreaming with
  | true => exact streamingResponse_falls reads
  | false => exact nonStreamingResponse_falls state.cacheAvailable

omit [JsonWriter] in
theorem cacheable_iff {parsed : ResponsesRequest}
    (authenticated : state.authenticate request.authorization = some tenantId)
    (allowed : state.tenantAllowsVendor tenantId state.vendorId = true)
    (controlled : CacheControl.parse (request.cacheControl.getD "") = .ok cacheControl)
    (typed : ResponsesRequest.fromValue request.body = .ok parsed) : request.Cacheable state ↔
      cacheControl ≠ .bypass ∧ request.eligibility state parsed cacheControl = .cacheable := by
  constructor
  · rintro ⟨_, control, found, _, _, same, used, ok, eligible⟩
    cases controlled.symm.trans same
    cases typed.symm.trans ok
    exact ⟨used, eligible⟩
  · rintro ⟨used, eligible⟩
    exact ⟨tenantId, cacheControl, parsed, authenticated, allowed, controlled, used, typed, eligible⟩

end GatewayRequest

omit [JsonReader] [Sha256] [JsonWriter] in
theorem eligibility_congr {request other : GatewayRequest} {parsed otherParsed : ResponsesRequest}
    (model : otherParsed.model = parsed.model)
    (temperature : other.body.get "temperature" = request.body.get "temperature") (state : GatewayState)
    (cacheControl : CacheControl) :
    other.eligibility state otherParsed cacheControl = request.eligibility state parsed cacheControl := by
  rw [GatewayRequest.eligibility, GatewayRequest.eligibility, model, classifyRequest_congr temperature]

/-- The two paths decide alike exactly if the cache is available or the request is not for it. -/
theorem same_decision_iff (reads : Reads) (request : GatewayRequest) (state : GatewayState) :
    (∃ kind, FallsInto (request.streamed.program state) kind ∧ FallsInto (request.unstreamed.program state) kind) ↔
      state.cacheAvailable = true ∨ ¬ request.Cacheable state := by
  by_cases admitted : request.Entered state
  · obtain ⟨tenantId, cacheControl, authenticated, allowed, controlled⟩ := admitted
    have streamedModel : request.streamed.body.get "model" = request.body.get "model" :=
      Value.get_streamed (by decide) request.body
    have unstreamedModel : request.unstreamed.body.get "model" = request.body.get "model" :=
      get_unstreamed (by decide) request.body
    cases typed : ResponsesRequest.fromValue request.body with
    | error err =>
      have untyped {other : GatewayRequest} (same : other.body.get "model" = request.body.get "model") :
          ∃ err, ResponsesRequest.fromValue other.body = .error err := by
        cases read : ResponsesRequest.fromValue other.body with
        | error err => exact ⟨err, rfl⟩
        | ok parsed =>
          obtain ⟨found, read, _⟩ := fromValue_eq_ok.mpr (same ▸ fromValue_eq_ok.mp ⟨parsed, read, rfl⟩)
          rw [typed] at read
          cases read
      have first : FallsInto (request.streamed.program state) .malformed :=
        GatewayRequest.malformed_falls authenticated allowed controlled (untyped streamedModel)
      have second : FallsInto (request.unstreamed.program state) .malformed :=
        GatewayRequest.malformed_falls authenticated allowed controlled (untyped unstreamedModel)
      have malformed : ¬ request.Cacheable state := by
        rintro ⟨_, _, parsed, _, _, _, _, ok, _⟩
        rw [typed] at ok
        cases ok
      exact iff_of_true ⟨.malformed, first, second⟩ (.inr malformed)
    | ok parsed =>
      have model := fromValue_eq_ok.mp ⟨parsed, typed, rfl⟩
      have streaming : request.streamed.isStreaming = true := by
        cases body : request.body with
        | object members => exact streamed_isStreaming body
        | _ =>
          rw [body] at model
          cases model
      obtain ⟨first, typedFirst, sameFirst⟩ := fromValue_eq_ok.mpr (streamedModel.trans model)
      obtain ⟨second, typedSecond, sameSecond⟩ := fromValue_eq_ok.mpr (unstreamedModel.trans model)
      have falls : FallsInto (request.streamed.program state) _ :=
        GatewayRequest.program_falls reads authenticated allowed controlled typedFirst
      have falls' : FallsInto (request.unstreamed.program state) _ :=
        GatewayRequest.program_falls reads authenticated allowed controlled typedSecond
      rw [streaming, Bool.true_or, eligibility_congr sameFirst (Value.get_streamed (by decide) request.body)] at falls
      rw [unstreamed_isStreaming, Bool.false_or,
        eligibility_congr sameSecond (get_unstreamed (by decide) request.body)] at falls'
      rw [GatewayRequest.cacheable_iff authenticated allowed controlled typed, not_and_or, not_ne_iff, ← ne_eq,
        ← pathClass_eq_iff]
      refine ⟨fun ⟨kind, first, second⟩ => (falls.unique first).trans (second.unique falls'), fun same => ?_⟩
      exact ⟨_, falls, same ▸ falls'⟩
  · have rejected : ¬ request.Cacheable state := by
      rintro ⟨tenantId, cacheControl, _, authenticated, allowed, controlled, _⟩
      exact admitted ⟨tenantId, cacheControl, authenticated, allowed, controlled⟩
    exact iff_of_true ⟨.rejected, GatewayRequest.program_rejected admitted, GatewayRequest.program_rejected admitted⟩
      (.inr rejected)

end

/-- A reader of one text. -/
@[reducible] def hiReader : JsonReader where
  fromSlice bytes :=
    if bytes = "\"hi\"".toUTF8.toList then .ok (.string "hi") else .error "expected value at line 1 column 1"
  mismatch expected _ := "invalid type for " ++ expected

private theorem hiReader_reads :
    let _ := hiReader
    Reads := ⟨"\"hi\"", .string "hi", if_pos rfl⟩

/-- Over an available cache a request is looked up, streamed or not. -/
theorem available_cache_decides_alike :
    let _ := greetingDigests
    let _ := greetingTexts
    let _ := hiReader
    ∃ kind, FallsInto (greetingRequest.streamed.program openGateway) kind ∧
      FallsInto (greetingRequest.unstreamed.program openGateway) kind := by
  let _ := greetingDigests
  let _ := greetingTexts
  let _ := hiReader
  exact (same_decision_iff hiReader_reads greetingRequest openGateway).mpr (.inl rfl)

/-- Over an unavailable cache the streamed request is still looked up; the other is not. -/
theorem unavailable_cache_decides_apart :
    ¬ ∀ [Sha256] [JsonWriter] [JsonReader], Reads → ∀ (request : GatewayRequest) (state : GatewayState),
      ∃ kind, FallsInto (request.streamed.program state) kind ∧ FallsInto (request.unstreamed.program state) kind := by
  intro decides
  let _ := greetingDigests
  let _ := greetingTexts
  let _ := hiReader
  let closed : GatewayState := { openGateway with cacheAvailable := false }
  obtain ⟨kind, streamed, unstreamed⟩ := decides hiReader_reads greetingRequest closed
  have authenticated : closed.authenticate greetingRequest.authorization = some ⟨"tenant-a"⟩ := by decide
  have controlled : CacheControl.parse (greetingRequest.cacheControl.getD "") = .ok .default := by decide
  have decided {request : GatewayRequest} {parsed : ResponsesRequest}
      (same : request.authorization = greetingRequest.authorization ∧
        request.cacheControl = greetingRequest.cacheControl)
      (typed : ResponsesRequest.fromValue request.body = .ok parsed) : FallsInto (request.program closed)
        (pathClass (request.isStreaming || false) .default (request.eligibility closed parsed .default)) :=
    GatewayRequest.program_falls hiReader_reads (same.1 ▸ authenticated) rfl (same.2 ▸ controlled) typed
  have looksUp : FallsInto (greetingRequest.streamed.program closed) .lookedUp := decided ⟨rfl, rfl⟩ rfl
  have degrades : FallsInto (greetingRequest.unstreamed.program closed) .degraded := decided ⟨rfl, rfl⟩ rfl
  cases (looksUp.unique streamed).trans (unstreamed.unique degrades)

end Mooncache
