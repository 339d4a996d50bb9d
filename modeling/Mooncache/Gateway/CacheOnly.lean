import Mooncache.Gateway.Decisions

/-! What a cache-only request asks for: lookups, and nothing of the vendor or for storing. -/
namespace Mooncache
open Program

/-- Calls that change what the master and the stores hold. -/
def Call.isChange : Call → Bool
  | putStart _ _ _ _ | putEnd _ _ | putRevoke _ _ | writePreallocatedChunk _ _ _ _ _ => true
  | _ => false

/-- Neither the vendor's service nor the cache's storage. -/
def Call.Spares (call : Call) : Prop := call.isServing = false ∧ call.isChange = false

section
variable [JsonReader]

/-- The cached object, or the miss of a cache-only request; an error comes of the model or of the lookup. -/
def CachedOrMissing (past : List GatewayEvent) : GatewayResult GatewayResponse → Prop
  | .ok response =>
    response.statusCode = 200 ∧ response.Labelled .hit "skipped" "none" ∧ ReadFrom past response.body ∨
    ∃ cacheKey, response =
      (GatewayResponse.error 404 "cache object not found" .cacheOnlyMiss "skipped" "none").withCacheKey cacheKey
  | .error _ => ∃ event ∈ past, VendorFails event ∨ LookupFails event

variable (past : List GatewayEvent)

omit [JsonReader] in
/-- A lookup makes no other calls. -/
theorem readCachedBytes_lookups (tenantId : TenantId) (cacheKey : CacheKey) :
    (Flow.readCachedBytes tenantId cacheKey).Meets (fun _ call => call.isLookup = true) (fun _ _ => True) past := by
  refine ⟨rfl, fun reply => ?_⟩
  rcases reply with err | replicaList
  · rcases err with err | _ | _ | _ | _ | _ | _ | _ | _
    · cases err <;> trivial
    all_goals trivial
  · simp only [Program.bind]
    cases replicaList.replicas.head? with
    | none => trivial
    | some replica =>
      refine ⟨rfl, fun reply => ?_⟩
      cases reply <;> trivial

theorem readCachedBody_lookups (tenantId : TenantId) (cacheKey : CacheKey) :
    (Flow.readCachedBody tenantId cacheKey).Meets (fun _ call => call.isLookup = true) (fun _ _ => True) past := by
  refine (readCachedBytes_lookups past tenantId cacheKey).bind ?_
  rintro later (err | _ | chunk) _
  · trivial
  · trivial
  · dsimp only
    cases cachedBodyFromBytes chunk.bytes <;> trivial

theorem readCachedStreamObject_lookups (tenantId : TenantId) (cacheKey : CacheKey) :
    (Flow.readCachedStreamObject tenantId cacheKey).Meets (fun _ call => call.isLookup = true) (fun _ _ => True) past := by
  refine (readCachedBytes_lookups past tenantId cacheKey).bind ?_
  rintro later (err | _ | chunk) _
  · trivial
  · trivial
  · dsimp only
    rcases streamObjectFromBytes chunk.bytes with _ | _ | _ <;> trivial

omit [JsonReader] in
theorem Call.spares_of_isLookup {call : Call} (h : call.isLookup = true) : call.Spares := by
  cases call <;> first | exact ⟨rfl, rfl⟩ | cases h

/-- What a lookup finds, without a call for anything else. -/
theorem lookup_spares {α : Type} {body : α → Value} {read : Flow (GatewayResult (Option (Flow.CachedPayload α)))}
    (lookups : read.Meets (fun _ call => call.isLookup = true) (fun _ _ => True) past)
    (found : read.Meets (fun _ call => call.isFlight = false) (LookedUp body) past) :
    read.Meets (fun _ call => call.Spares) (LookedUp body) past :=
  (lookups.and found).mono (fun _ _ made => Call.spares_of_isLookup made.1) fun _ _ met => met.2

omit [JsonReader] in
theorem recordSimple_spares (cacheStatus : CacheStatus) (writeStatus : CacheWriteStatus) :
    (Flow.recordSimple cacheStatus writeStatus).Meets (fun _ call => call.Spares)
      (fun later _ => Adds (fun call => call.Spares) past later) past := by
  have spares : (Flow.recordSimple cacheStatus writeStatus).Meets (fun _ call => call.Spares) (fun _ _ => True) past :=
    ⟨⟨rfl, rfl⟩, fun _ => ⟨⟨rfl, rfl⟩, fun _ => ⟨⟨rfl, rfl⟩, fun _ => trivial⟩⟩⟩
  exact spares.adds.mono (fun _ _ spares => spares) fun _ _ met => met.1

theorem cacheOnlyMiss_missing (cacheKey : CacheKey) :
    (Flow.cacheOnlyMiss cacheKey).Meets (fun _ call => call.Spares) CachedOrMissing past :=
  (recordSimple_spares past .cacheOnlyMiss .skipped).bind fun _ _ _ => .inr ⟨cacheKey, rfl⟩

variable [JsonWriter]

theorem streamingResponse_cacheOnly (tenantId : TenantId) (request : ResponsesRequest) (cacheKey : CacheKey)
    (unfailed : ∀ event ∈ past, ¬ LookupFails event) :
    (Flow.streamingResponse tenantId .cacheOnly request .cacheable cacheKey).Meets (fun _ call => call.Spares)
      CachedOrMissing past := by
  refine (lookup_spares past (readCachedStreamObject_lookups past tenantId cacheKey)
    (readCachedStreamObject_outcome past tenantId cacheKey unfailed)).bind ?_
  rintro later (err | _ | payload) met
  · obtain ⟨event, member, fails⟩ := met
    exact ⟨event, member, .inr fails⟩
  · exact cacheOnlyMiss_missing later cacheKey
  · refine (recordSimple_spares later .hit .skipped).bind fun last _ adds => .inl ⟨by simp, ?_, ?_⟩
    · exact GatewayResponse.labelled_okStream ..
    · rw [GatewayResponse.okStream_body]
      exact met.2.adds adds

theorem nonStreamingResponse_cacheOnly (cacheAvailable : Bool) (tenantId : TenantId) (request : ResponsesRequest)
    (cacheKey : CacheKey) (unfailed : ∀ event ∈ past, ¬ LookupFails event) :
    (Flow.nonStreamingResponse cacheAvailable tenantId .cacheOnly request .cacheable cacheKey).Meets
      (fun _ call => call.Spares) CachedOrMissing past := by
  cases cacheAvailable with
  | false => exact cacheOnlyMiss_missing past cacheKey
  | true =>
    refine (lookup_spares past (readCachedBody_lookups past tenantId cacheKey)
      (readCachedBody_outcome past tenantId cacheKey unfailed)).bind ?_
    rintro later (err | _ | payload) met
    · obtain ⟨event, member, fails⟩ := met
      exact ⟨event, member, .inr fails⟩
    · exact cacheOnlyMiss_missing later cacheKey
    · refine (recordSimple_spares later .hit .skipped).bind fun last _ adds => .inl ⟨by simp, ?_, ?_⟩
      · exact GatewayResponse.labelled_ok ..
      · rw [GatewayResponse.ok_body]
        exact met.2.adds adds

/-- A cache-only request spares the vendor exactly if it is eligible: an ineligible one is served by it. -/
theorem cacheOnly_spares_vendor_iff [Sha256] {request : GatewayRequest} {state : GatewayState} {tenantId : TenantId}
    {parsed : ResponsesRequest} (authenticated : state.authenticate request.authorization = some tenantId)
    (allowed : state.tenantAllowsVendor tenantId state.vendorId = true)
    (controlled : CacheControl.parse (request.cacheControl.getD "") = .ok .cacheOnly)
    (typed : ResponsesRequest.fromValue request.body = .ok parsed) :
    (request.program state).Meets (fun _ call => call.Spares) CachedOrMissing [] ↔
      request.eligibility state parsed .cacheOnly = .cacheable := by
  rw [GatewayRequest.program_eq authenticated allowed controlled typed]
  constructor
  · rintro ⟨_, met⟩
    have resolved := met (.ok "")
    cases eligible : request.eligibility state parsed .cacheOnly with
    | cacheable => rfl
    | bypass reason =>
      simp only [eligible] at resolved
      -- either path asks the vendor at once
      cases streaming : request.isStreaming <;> rw [streaming] at resolved <;> cases resolved.1.1
  · intro eligible
    refine ⟨⟨rfl, rfl⟩, fun reply => ?_⟩
    have unfailed : ∀ event ∈ [(⟨.resolveModelVersion parsed.model, reply⟩ : GatewayEvent)], ¬ LookupFails event := by
      simp [LookupFails]
    cases reply with
    | error err => exact ⟨_, List.mem_singleton_self _, .inl trivial⟩
    | ok version =>
      simp only [eligible]
      cases request.isStreaming with
      | true => exact streamingResponse_cacheOnly _ tenantId parsed _ unfailed
      | false => exact nonStreamingResponse_cacheOnly _ state.cacheAvailable tenantId parsed _ unfailed

end

private def cachedGreeting : GatewayRequest := { greetingRequest with cacheControl := some "cache-only" }

/-- A temperature of 0.7 makes the body ineligible. -/
private def warmGreeting : GatewayRequest :=
  { cachedGreeting with
    body := .object [("model", .string "gpt-x"), ("input", .string "hi"),
      ("temperature", .number (.float 0x3FE6666666666666))] }

theorem cached_greeting_spares_vendor :
    let _ := greetingDigests
    let _ := greetingTexts
    let _ := greetingReader
    (cachedGreeting.program openGateway).Meets (fun _ call => call.Spares) CachedOrMissing [] := by
  let _ := greetingDigests
  let _ := greetingTexts
  let _ := greetingReader
  have authenticated : openGateway.authenticate cachedGreeting.authorization = some ⟨"tenant-a"⟩ := by decide
  have controlled : CacheControl.parse (cachedGreeting.cacheControl.getD "") = .ok .cacheOnly := by decide
  exact (cacheOnly_spares_vendor_iff authenticated rfl controlled rfl).mpr rfl

/-- The vendor completes a cache-only request for a warm answer. -/
theorem warm_greeting_calls_vendor :
    ¬ ∀ [Sha256] [JsonWriter] [JsonReader] (request : GatewayRequest) (state : GatewayState) (tenantId : TenantId)
      (parsed : ResponsesRequest), state.authenticate request.authorization = some tenantId →
      state.tenantAllowsVendor tenantId state.vendorId = true →
      CacheControl.parse (request.cacheControl.getD "") = .ok .cacheOnly →
      ResponsesRequest.fromValue request.body = .ok parsed →
      (request.program state).Meets (fun _ call => call.Spares) CachedOrMissing [] := by
  intro spares
  let _ := greetingDigests
  let _ := greetingTexts
  let _ := greetingReader
  have authenticated : openGateway.authenticate warmGreeting.authorization = some ⟨"tenant-a"⟩ := by decide
  have controlled : CacheControl.parse (warmGreeting.cacheControl.getD "") = .ok .cacheOnly := by decide
  have met := spares warmGreeting openGateway ⟨"tenant-a"⟩ _ authenticated rfl controlled rfl
  rw [GatewayRequest.program_eq authenticated rfl controlled rfl] at met
  cases (met.2 (.ok "gpt-x")).1.1

end Mooncache
