import Mooncache.Gateway.GatewayServer

/-! What a request has done before each call, and how it ends, whatever the replies. -/
namespace Mooncache

/-- Calls to the singleflight group. -/
def Call.isFlight : Call → Bool
  | begin _ | publish _ _ | send _ | wait _ => true
  | _ => false

/-- Calls that look an object up. -/
def Call.isLookup : Call → Bool
  | getReplicaList _ _ | readChunk _ _ _ => true
  | _ => false

/-- Everything else: the vendor, storing an object, and metrics. -/
def Call.Plain (call : Call) : Prop := call.isFlight = false ∧ call.isLookup = false

section
variable [JsonReader]

def VendorFails : GatewayEvent → Prop
  | ⟨.resolveModelVersion _, .error _⟩ | ⟨.complete _, .error _⟩ | ⟨.stream _, .error _⟩ => True
  | ⟨.stream _, .ok events⟩ => ∃ err, collectStream events = .error err
  | _ => False

/-- The master fails to answer a lookup, or the store yields nothing that decodes. -/
def LookupFails : GatewayEvent → Prop
  | ⟨.getReplicaList _ _, .error err⟩ => err ≠ .cache .notFound
  | ⟨.readChunk _ _ _, .error _⟩ => True
  | ⟨.readChunk _ _ _, .ok chunk⟩ => ∃ err, cachedBodyFromBytes chunk.bytes = .error err
  | _ => False

/-- A chunk that was read decodes to this body. -/
def ReadFrom (past : List GatewayEvent) (body : Value) : Prop :=
  ∃ tenantId cacheKey handle chunk, ⟨.readChunk tenantId cacheKey handle, .ok chunk⟩ ∈ past ∧
    cachedBodyFromBytes chunk.bytes = .ok body

/-- A lookup fails, or finds nothing, or finds an object with this body. -/
def LookedUp {β : Type} (body : β → Value) (past : List GatewayEvent) :
    GatewayResult (Option (Flow.CachedPayload β)) → Prop
  | .error _ => ∃ event ∈ past, LookupFails event
  | .ok none => ∀ event ∈ past, ¬ LookupFails event
  | .ok (some payload) => (∀ event ∈ past, ¬ LookupFails event) ∧ ReadFrom past (body payload.value)

/-- The body came from the vendor, or from an object the cache holds. -/
def Carries (past : List GatewayEvent) (body : Value) : Prop :=
  (∃ request, ⟨.complete request, .ok body⟩ ∈ past) ∨
  (∃ request events captured, ⟨.stream request, .ok events⟩ ∈ past ∧
    collectStream events = .ok captured ∧ captured.finalBody = body) ∨
  ReadFrom past body

/-- Nothing has been asked of the singleflight group. -/
def Quiet (past : List GatewayEvent) : Prop := ∀ event ∈ past, event.request.isFlight = false

/-- What a request has done before each call to the singleflight group. -/
def RequestCalls (past : List GatewayEvent) : Call → Prop
  | .begin _ => Quiet past
  | .publish leader result => (∃ key, ⟨.begin key, .ok (.leader leader)⟩ ∈ past) ∧
    (∀ result, ⟨.publish leader result, ()⟩ ∉ past) ∧
    ((∃ event ∈ past, VendorFails event) ∨ ∃ response, result = .ok response ∧ response.statusCode = 200 ∧
      ∃ request, ⟨.complete request, .ok response.body⟩ ∈ past)
  | .send leader => (∃ result, ⟨.publish leader result, ()⟩ ∈ past) ∧ ⟨.send leader, ()⟩ ∉ past
  | .wait waiter => (∃ key, ⟨.begin key, .ok (.waiter waiter)⟩ ∈ past) ∧ ∀ reply, ⟨.wait waiter, reply⟩ ∉ past
  | _ => True

/-- A leader has published and sent. -/
def Settled (past : List GatewayEvent) : Prop :=
  ∀ key leader, ⟨.begin key, .ok (.leader leader)⟩ ∈ past →
    (∃ result, ⟨.publish leader result, ()⟩ ∈ past) ∧ ⟨.send leader, ()⟩ ∈ past

/-- The ways a request ends that gets past its checks. -/
inductive Outcome (past : List GatewayEvent) : GatewayResult GatewayResponse → Prop
  | vendorFailed {result : GatewayResult GatewayResponse} :
      (∃ event ∈ past, VendorFails event) → Outcome past result
  | flightFailed {result : GatewayResult GatewayResponse} :
      (∃ key err, ⟨.begin key, .error err⟩ ∈ past) ∨ (∃ waiter message, ⟨.wait waiter, .error message⟩ ∈ past) →
        Outcome past result
  | lookupFailed {err : GatewayError} : (∃ event ∈ past, LookupFails event) → Outcome past (.error err)
  | served {response : GatewayResponse} : (∀ event ∈ past, ¬ LookupFails event) →
      response.statusCode = 200 → Carries past response.body → Outcome past (.ok response)
  | shared {response shared : GatewayResponse} {waiter : Nat} : (∀ event ∈ past, ¬ LookupFails event) →
      ⟨.wait waiter, .ok shared⟩ ∈ past → response.statusCode = shared.statusCode → response.body = shared.body →
        Outcome past (.ok response)

end

open Program

theorem Call.calls_of_unshared [JsonReader] {call : Call} (h : call.isFlight = false) (past : List GatewayEvent) :
    RequestCalls past call := by
  cases call <;> trivial

theorem quiet_nil : Quiet [] := nofun

theorem Quiet.settled {past : List GatewayEvent} (h : Quiet past) : Settled past := by
  intro key leader begun
  cases h _ begun

section
variable [JsonReader] {past later : List GatewayEvent} {α : Type}

omit [JsonReader] in
/-- A program of plain calls adds plain events. -/
theorem Program.Meets.plain {p : Flow α} {post : List GatewayEvent → α → Prop}
    (h : p.Meets (fun _ call => call.Plain) post past) :
    p.Meets (fun _ call => call.isFlight = false) (fun later value => Adds Call.Plain past later ∧ post later value)
      past :=
  h.adds.mono (fun _ _ plain => plain.1) fun _ _ met => met

/-- A program that leaves the singleflight group alone stays quiet. -/
theorem Program.Meets.quiet {p : Flow α} {post : List GatewayEvent → α → Prop}
    (h : p.Meets (fun _ call => call.isFlight = false) post past) (quiet : Quiet past) :
    p.Meets RequestCalls (fun later value => Quiet later ∧ post later value) past := by
  refine h.adds.mono (fun _ _ unshared => Call.calls_of_unshared unshared _) fun later value met => ⟨?_, met.2⟩
  obtain ⟨new, rfl, hn⟩ := met.1
  exact fun event member => (List.mem_append.mp member).elim (quiet event) (hn event)

theorem LookupFails.isLookup {event : GatewayEvent} (h : LookupFails event) : event.request.isLookup = true := by
  obtain ⟨call, reply⟩ := event
  cases call <;> first | rfl | cases h

/-- Only lookups fail a lookup. -/
theorem Program.Adds.unfailed (adds : Adds (fun call : Call => call.isLookup = false) past later)
    (h : ∀ event ∈ past, ¬ LookupFails event) : ∀ event ∈ later, ¬ LookupFails event := by
  intro event member fails
  have looks := fails.isLookup
  exact h event (adds.of_mem member fun other => by simp [other] at looks) fails

omit [JsonReader] in
theorem Program.Adds.blind (adds : Adds Call.Plain past later) :
    Adds (fun call : Call => call.isLookup = false) past later :=
  adds.mono fun _ plain => plain.2

end

section
variable (past : List GatewayEvent)

theorem recordGatewayMetrics_plain (cacheStatus : CacheStatus) (writeStatus : CacheWriteStatus) :
    (Flow.recordGatewayMetrics cacheStatus writeStatus).Meets (fun _ call => call.Plain) (fun _ _ => True) past :=
  ⟨⟨rfl, rfl⟩, fun _ => ⟨⟨rfl, rfl⟩, fun _ => trivial⟩⟩

theorem recordSimple_plain (cacheStatus : CacheStatus) (writeStatus : CacheWriteStatus) :
    (Flow.recordSimple cacheStatus writeStatus).Meets (fun _ call => call.Plain) (fun _ _ => True) past :=
  (recordGatewayMetrics_plain past cacheStatus writeStatus).bind fun _ _ _ => ⟨⟨rfl, rfl⟩, fun _ => trivial⟩

theorem writeReservedReplicas_plain (tenantId : TenantId) (cacheKey : CacheKey) (bytes : List UInt8)
    (replicas : List ReplicaDescriptor) : (Flow.writeReservedReplicas tenantId cacheKey bytes replicas).Meets
      (fun _ call => call.Plain) (fun _ _ => True) past := by
  induction replicas generalizing past with
  | nil => trivial
  | cons replica rest ih =>
    refine ⟨⟨rfl, rfl⟩, fun reply => ?_⟩
    cases reply with
    | error err => trivial
    | ok done => exact ih _

theorem revoke_plain (tenantId : TenantId) (cacheKey : CacheKey) (err : GatewayError) :
    (Flow.revokeReservationAfterWriteFailure tenantId cacheKey err).Meets (fun _ call => call.Plain)
      (fun _ _ => True) past := by
  refine ⟨⟨rfl, rfl⟩, fun reply => ?_⟩
  cases reply <;> trivial

theorem writeCachedBytes_plain (tenantId : TenantId) (cacheKey : CacheKey) (bytes : List UInt8) :
    (Flow.writeCachedBytes tenantId cacheKey bytes).Meets (fun _ call => call.Plain) (fun _ _ => True) past := by
  refine ⟨⟨rfl, rfl⟩, fun reply => ?_⟩
  cases reply with
  | error err => trivial
  | ok replicas =>
    refine (writeReservedReplicas_plain _ tenantId cacheKey bytes replicas).bind fun later result _ => ?_
    cases result with
    | error err => exact (revoke_plain later tenantId cacheKey err).bind fun _ _ _ => trivial
    | ok done =>
      refine ⟨⟨rfl, rfl⟩, fun reply => ?_⟩
      cases reply with
      | error err => exact (revoke_plain _ tenantId cacheKey err).bind fun _ _ _ => trivial
      | ok done => trivial

theorem storeMiss_plain (cacheControl : CacheControl) (tenantId : TenantId) (cacheKey : CacheKey)
    (bytes : List UInt8) : (Flow.storeMiss cacheControl (Flow.writeCachedBytes tenantId cacheKey bytes)).Meets
      (fun _ call => call.Plain) (fun _ _ => True) past := by
  unfold Flow.storeMiss
  split
  · trivial
  · refine (writeCachedBytes_plain past tenantId cacheKey bytes).bind fun _ result _ => ?_
    cases result <;> trivial

/-- The vendor's answer, or its error. -/
theorem completeVendor_plain [JsonReader] (request : ResponsesRequest) :
    (Flow.completeVendor request).Meets (fun _ call => call.Plain) (fun later result => match result with
      | .ok body => ⟨.complete request, .ok body⟩ ∈ later
      | .error _ => ∃ event ∈ later, VendorFails event) past := by
  refine ⟨⟨rfl, rfl⟩, fun reply => ⟨⟨rfl, rfl⟩, fun _ => ?_⟩⟩
  cases reply with
  | error err => exact ⟨⟨.complete request, .error err⟩, by simp, trivial⟩
  | ok body => exact List.mem_append_left _ (List.mem_append_right _ (List.mem_singleton_self _))

theorem collectVendor_plain [JsonReader] (request : ResponsesRequest) :
    (Flow.collectVendor request).Meets (fun _ call => call.Plain) (fun later result => match result with
      | .ok captured => ∃ events, ⟨.stream request, .ok events⟩ ∈ later ∧ collectStream events = .ok captured
      | .error _ => ∃ event ∈ later, VendorFails event) past := by
  refine ⟨⟨rfl, rfl⟩, fun reply => ?_⟩
  cases reply with
  | error err => exact ⟨_, List.mem_append_right _ (List.mem_singleton_self _), trivial⟩
  | ok events =>
    simp only [Program.bind]
    cases collected : collectStream events with
    | error err => exact ⟨_, List.mem_append_right _ (List.mem_singleton_self _), err, collected⟩
    | ok captured =>
      exact ⟨⟨rfl, rfl⟩, fun _ => ⟨events, List.mem_append_left _ (by simp), collected⟩⟩

variable [JsonReader]

/-- Up to the reply of the lookup's last call. -/
theorem readCachedBytes_outcome (tenantId : TenantId) (cacheKey : CacheKey)
    (unfailed : ∀ event ∈ past, ¬ LookupFails event) :
    (Flow.readCachedBytes tenantId cacheKey).Meets (fun _ call => call.isFlight = false) (fun later result =>
      match result with
      | .error _ => ∃ event ∈ later, LookupFails event
      | .ok none => ∀ event ∈ later, ¬ LookupFails event
      | .ok (some chunk) => ∃ before handle, later = before ++ [⟨.readChunk tenantId cacheKey handle, .ok chunk⟩] ∧
        ∀ event ∈ before, ¬ LookupFails event) past := by
  refine ⟨rfl, fun reply => ?_⟩
  cases reply with
  | error err =>
    by_cases absent : err = .cache .notFound
    · subst absent
      intro event member fails
      rcases List.mem_append.mp member with member | last
      · exact unfailed event member fails
      · cases List.mem_singleton.mp last
        exact fails rfl
    · have failed : ∃ event ∈ past ++ [⟨.getReplicaList tenantId cacheKey, .error err⟩], LookupFails event :=
        ⟨_, List.mem_append_right _ (List.mem_singleton_self _), absent⟩
      rcases err with err | _ | _ | _ | _ | _ | _ | _ | _
      · cases err <;> first | exact failed | exact absurd rfl absent
      all_goals exact failed
  | ok replicaList =>
    have found : ∀ event ∈ past ++ [⟨.getReplicaList tenantId cacheKey, .ok replicaList⟩], ¬ LookupFails event := by
      intro event member fails
      rcases List.mem_append.mp member with member | last
      · exact unfailed event member fails
      · cases List.mem_singleton.mp last
        exact fails
    simp only [Program.bind]
    cases replicaList.replicas.head? with
    | none => exact found
    | some replica =>
      refine ⟨rfl, fun reply => ?_⟩
      cases reply with
      | error err => exact ⟨_, List.mem_append_right _ (List.mem_singleton_self _), trivial⟩
      | ok chunk => exact ⟨_, _, rfl, found⟩

/-- A chunk that decodes ends a lookup that has not failed. -/
private theorem unfailed_read {before : List GatewayEvent} {tenantId : TenantId} {cacheKey : CacheKey}
    {handle : ChunkHandle} {chunk : StoreChunk} (unfailed : ∀ event ∈ before, ¬ LookupFails event)
    {value : Value} (decodes : cachedBodyFromBytes chunk.bytes = .ok value) :
    ∀ event ∈ before ++ [⟨.readChunk tenantId cacheKey handle, .ok chunk⟩], ¬ LookupFails event := by
  intro event member fails
  rcases List.mem_append.mp member with member | last
  · exact unfailed event member fails
  · cases List.mem_singleton.mp last
    obtain ⟨err, fails⟩ := fails
    rw [decodes] at fails
    cases fails

theorem readCachedBody_outcome (tenantId : TenantId) (cacheKey : CacheKey)
    (unfailed : ∀ event ∈ past, ¬ LookupFails event) :
    (Flow.readCachedBody tenantId cacheKey).Meets (fun _ call => call.isFlight = false)
      (LookedUp (fun body => body)) past := by
  refine (readCachedBytes_outcome past tenantId cacheKey unfailed).bind ?_
  rintro later (err | _ | chunk) met
  · exact met
  · exact met
  · obtain ⟨before, handle, rfl, clean⟩ := met
    dsimp only
    have last : (⟨.readChunk tenantId cacheKey handle, .ok chunk⟩ : GatewayEvent) ∈
        before ++ [⟨.readChunk tenantId cacheKey handle, .ok chunk⟩] :=
      List.mem_append_right _ (List.mem_singleton_self _)
    cases decoded : cachedBodyFromBytes chunk.bytes with
    | error err => exact ⟨_, last, err, decoded⟩
    | ok value => exact ⟨unfailed_read clean decoded, tenantId, cacheKey, handle, chunk, last, decoded⟩

theorem readCachedStreamObject_outcome (tenantId : TenantId) (cacheKey : CacheKey)
    (unfailed : ∀ event ∈ past, ¬ LookupFails event) :
    (Flow.readCachedStreamObject tenantId cacheKey).Meets (fun _ call => call.isFlight = false)
      (LookedUp CachedStreamObject.finalBody) past := by
  refine (readCachedBytes_outcome past tenantId cacheKey unfailed).bind ?_
  rintro later (err | _ | chunk) met
  · exact met
  · exact met
  · obtain ⟨before, handle, rfl, clean⟩ := met
    dsimp only
    have last : (⟨.readChunk tenantId cacheKey handle, .ok chunk⟩ : GatewayEvent) ∈
        before ++ [⟨.readChunk tenantId cacheKey handle, .ok chunk⟩] :=
      List.mem_append_right _ (List.mem_singleton_self _)
    have body := cachedBodyFromBytes_eq chunk.bytes
    rcases decoded : streamObjectFromBytes chunk.bytes with err | _ | object <;> rw [decoded] at body
    · exact ⟨_, last, err, body⟩
    · obtain ⟨value, read⟩ := fromSlice_of_stream_none decoded
      exact unfailed_read clean (body.trans read)
    · exact ⟨unfailed_read clean body, tenantId, cacheKey, handle, chunk, last, body⟩

theorem ReadFrom.adds {kind : Call → Prop} {past later : List GatewayEvent} {body : Value} (h : ReadFrom past body)
    (adds : Adds kind past later) : ReadFrom later body := by
  obtain ⟨tenantId, cacheKey, handle, chunk, member, decodes⟩ := h
  exact ⟨tenantId, cacheKey, handle, chunk, adds.mem member, decodes⟩

/-- Metrics and a response whose body is known to be carried. -/
private theorem respond_outcome {p : Flow Unit} {response : GatewayResponse}
    (plain : p.Meets (fun _ call => call.Plain) (fun _ _ => True) past)
    (unfailed : ∀ event ∈ past, ¬ LookupFails event) (status : response.statusCode = 200)
    (carries : ∀ later, Adds Call.Plain past later → Carries later response.body) :
    (p >>= fun _ => pure (.ok response) : Flow (GatewayResult GatewayResponse)).Meets (fun _ call => call.isFlight = false) Outcome past :=
  plain.plain.bind fun later _ met => .served (met.1.blind.unfailed unfailed) status (carries later met.1)

omit [JsonReader] in
private theorem recordBoth_plain (cacheStatus : CacheStatus) (writeStatus : CacheWriteStatus) :
    (do Flow.recordGatewayMetrics cacheStatus writeStatus; Flow.recordSingleflight .none : Flow Unit).Meets
      (fun _ call => call.Plain) (fun _ _ => True) past :=
  (recordGatewayMetrics_plain past cacheStatus writeStatus).bind fun _ _ _ => ⟨⟨rfl, rfl⟩, fun _ => trivial⟩

theorem vendorResponse_outcome (request : ResponsesRequest) (cacheStatus : CacheStatus)
    (writeStatus : CacheWriteStatus) (cacheKey : Option CacheKey) (unfailed : ∀ event ∈ past, ¬ LookupFails event) :
    (Flow.vendorResponse request cacheStatus writeStatus cacheKey).Meets (fun _ call => call.isFlight = false) Outcome past := by
  refine (completeVendor_plain past request).plain.bind ?_
  rintro later (err | body) ⟨adds, met⟩
  · exact .vendorFailed met
  · exact respond_outcome later (recordBoth_plain later cacheStatus writeStatus) (adds.blind.unfailed unfailed) (by simp)
      fun after more => .inl ⟨request, by simpa using more.mem met⟩

theorem vendorStreamResponse_outcome (request : ResponsesRequest) (cacheStatus : CacheStatus)
    (writeStatus : CacheWriteStatus) (cacheKey : Option CacheKey) (unfailed : ∀ event ∈ past, ¬ LookupFails event) :
    (Flow.vendorStreamResponse request cacheStatus writeStatus cacheKey).Meets (fun _ call => call.isFlight = false) Outcome past := by
  refine (collectVendor_plain past request).plain.bind ?_
  rintro later (err | captured) ⟨adds, met⟩
  · exact .vendorFailed met
  · obtain ⟨events, member, collected⟩ := met
    exact respond_outcome later (recordBoth_plain later cacheStatus writeStatus) (adds.blind.unfailed unfailed) (by simp)
      fun after more => .inr (.inl ⟨request, events, captured, more.mem member, collected, by simp⟩)

variable [JsonWriter]

/-- Storing the body is a matter of a header: the response carries it either way. -/
theorem cacheableNonStreamingMiss_plain (tenantId : TenantId) (cacheControl : CacheControl)
    (request : ResponsesRequest) (cacheKey : CacheKey) :
    (Flow.cacheableNonStreamingMiss tenantId cacheControl request cacheKey).Meets (fun _ call => call.Plain)
      (fun later result => match result with
        | .ok response => response.statusCode = 200 ∧ ⟨.complete request, .ok response.body⟩ ∈ later
        | .error _ => ∃ event ∈ later, VendorFails event) past := by
  refine (completeVendor_plain past request).bind ?_
  rintro later (err | body) met
  · exact met
  · have stored := storeMiss_plain later cacheControl tenantId cacheKey (toVec body)
    refine stored.adds.bind fun after writeStatus adds => ?_
    refine (recordGatewayMetrics_plain after .miss writeStatus).adds.bind fun last _ more => ?_
    exact ⟨by simp, by simpa using more.1.mem (adds.1.mem met)⟩

theorem streamingMiss_outcome (tenantId : TenantId) (cacheControl : CacheControl) (request : ResponsesRequest)
    (cacheKey : CacheKey) (unfailed : ∀ event ∈ past, ¬ LookupFails event) :
    (Flow.streamingMiss tenantId cacheControl request cacheKey).Meets (fun _ call => call.isFlight = false) Outcome past := by
  refine (collectVendor_plain past request).plain.bind ?_
  rintro later (err | captured) ⟨adds, met⟩
  · exact .vendorFailed met
  · obtain ⟨events, member, collected⟩ := met
    have stored := storeMiss_plain later cacheControl tenantId cacheKey (serializeStreamObject captured)
    refine stored.plain.bind fun after writeStatus more => ?_
    exact respond_outcome after (recordBoth_plain after .miss writeStatus) (more.1.blind.unfailed (adds.blind.unfailed unfailed))
      (by simp) fun last final =>
        .inr (.inl ⟨request, events, captured, final.mem (more.1.mem member), collected, by simp⟩)

private theorem recordedMiss_plain (role : SingleflightRole) (tenantId : TenantId) (cacheControl : CacheControl)
    (request : ResponsesRequest) (cacheKey : CacheKey) :
    (do Flow.recordSingleflight role; Flow.cacheableNonStreamingMiss tenantId cacheControl request cacheKey :
      Flow (GatewayResult GatewayResponse)).Meets (fun _ call => call.Plain)
      (fun later result => match result with
        | .ok response => response.statusCode = 200 ∧ ⟨.complete request, .ok response.body⟩ ∈ later
        | .error _ => ∃ event ∈ later, VendorFails event) past :=
  ⟨⟨rfl, rfl⟩, fun _ => cacheableNonStreamingMiss_plain _ tenantId cacheControl request cacheKey⟩

omit [JsonWriter] in
/-- The end of a flight whose leader has done nothing else to the group. -/
theorem publish_settles {key : SingleflightKey} {leader : Nat} {result : SharedResult GatewayResponse}
    (begun : ⟨.begin key, .ok (.leader leader)⟩ ∈ past)
    (only : ∀ event ∈ past, event.request.isFlight = true → event = ⟨.begin key, .ok (.leader leader)⟩)
    (told : (∃ event ∈ past, VendorFails event) ∨ ∃ response, result = .ok response ∧ response.statusCode = 200 ∧
      ∃ request, ⟨.complete request, .ok response.body⟩ ∈ past) :
    (Flow.publish leader result).Meets RequestCalls
      (fun later _ => Adds (fun call => call.isLookup = false) past later ∧ Settled later) past := by
  refine ⟨⟨⟨key, begun⟩, fun other published => ?_, told⟩, fun _ => ⟨⟨⟨result, by simp⟩, fun sent => ?_⟩, fun _ => ?_⟩⟩
  · cases only _ published rfl
  · rcases List.mem_append.mp sent with sent | last
    · cases only _ sent rfl
    · cases List.mem_singleton.mp last
  · refine ⟨⟨[⟨.publish leader result, ()⟩, ⟨.send leader, ()⟩], by simp, by simp [Call.isLookup]⟩, ?_⟩
    intro key' leader' member
    simp only [List.append_assoc, List.mem_append, List.mem_singleton, Event.mk.injEq] at member
    rcases member with member | ⟨⟨⟩, _⟩ | ⟨⟨⟩, _⟩
    cases only _ member rfl
    exact ⟨⟨result, by simp⟩, by simp⟩

theorem coalescedMiss_outcome (tenantId : TenantId) (cacheControl : CacheControl) (request : ResponsesRequest)
    (cacheKey : CacheKey) (quiet : Quiet past) (unfailed : ∀ event ∈ past, ¬ LookupFails event) :
    (Flow.coalescedMiss tenantId cacheControl request cacheKey).Meets RequestCalls
      (fun later result => Settled later ∧ Outcome later result) past := by
  refine ⟨quiet, fun reply => ?_⟩
  generalize (⟨tenantId, cacheKey, Flow.singleflightWriteMode cacheControl⟩ : SingleflightKey) = key
  have mine : (⟨.begin key, reply⟩ : GatewayEvent) ∈ past ++ [⟨.begin key, reply⟩] := by simp
  have only {later : List GatewayEvent} (adds : Adds Call.Plain (past ++ [⟨.begin key, reply⟩]) later) :
      ∀ event ∈ later, event.request.isFlight = true → event = ⟨.begin key, reply⟩ := by
    intro event member flight
    rcases List.mem_append.mp (adds.of_mem member fun plain => by simp [plain.1] at flight) with member | last
    · simp [quiet event member] at flight
    · exact List.mem_singleton.mp last
  have clean : ∀ event ∈ past ++ [⟨.begin key, reply⟩], ¬ LookupFails event :=
    (show Adds (fun call => call.isLookup = false) past _ from .snoc past rfl).unfailed unfailed
  rcases reply with err | leader | waiter | _
  · refine ⟨fun key' leader member => ?_, .flightFailed (.inl ⟨key, err, mine⟩)⟩
    cases only (.refl _ _) _ member rfl
  · have missed := (recordedMiss_plain (past ++ [⟨.begin key, .ok (.leader leader)⟩]) .leader tenantId cacheControl
      request cacheKey).adds
    refine (missed.mono (fun _ _ plain => Call.calls_of_unshared plain.1 _) fun _ _ met => met).bind ?_
    rintro later (err | response) ⟨adds, met⟩
    · refine (publish_settles later (adds.mem mine) (only adds) (.inl met)).bind fun last _ ended => ⟨ended.2, ?_⟩
      obtain ⟨event, member, fails⟩ := met
      exact .vendorFailed ⟨event, ended.1.mem member, fails⟩
    · refine (publish_settles later (adds.mem mine) (only adds)
        (.inr ⟨response, rfl, met.1, request, met.2⟩)).bind fun last _ ended => ⟨ended.2, ?_⟩
      exact .served (ended.1.unfailed (adds.blind.unfailed clean)) (by simpa using met.1)
        (.inl ⟨request, by simpa using ended.1.mem met.2⟩)
  · refine ⟨⟨⟨key, mine⟩, fun reply waited => ?_⟩, fun reply => ?_⟩
    · cases only (.refl _ _) _ waited rfl
    have settled {later : List GatewayEvent}
        (adds : Adds Call.Plain (past ++ [⟨.begin key, .ok (.waiter waiter)⟩] ++ [⟨.wait waiter, reply⟩]) later) :
        Settled later := by
      intro key' leader member
      rcases List.mem_append.mp (adds.of_mem member fun plain => nomatch plain.1) with member | last
      · cases only (.refl _ _) _ member rfl
      · cases List.mem_singleton.mp last
    rcases reply with message | response
    · exact ⟨settled (.refl _ _), .flightFailed (.inr ⟨waiter, message, by simp⟩)⟩
    · refine ⟨trivial, fun _ => ?_⟩
      have recorded := (recordGatewayMetrics_plain (past ++ [⟨.begin key, .ok (.waiter waiter)⟩] ++
        [⟨.wait waiter, .ok response⟩] ++ [⟨.recordSingleflight .waiter, ()⟩]) .miss .skipped).adds
      refine (recorded.mono (fun _ _ plain => Call.calls_of_unshared plain.1 _) fun _ _ met => met).bind ?_
      intro later _ met
      have adds := (show Adds Call.Plain _ _ from .snoc _ ⟨rfl, rfl⟩).trans met.1
      have waited := adds.mem (List.mem_append_right _ (List.mem_singleton_self _))
      refine ⟨settled adds, .shared (adds.blind.unfailed ?_) waited (by simp) (by simp)⟩
      exact (show Adds (fun call : Call => call.isLookup = false) _ _ from .snoc _ rfl).unfailed clean
  · have missed := (recordedMiss_plain (past ++ [⟨.begin key, .ok .overCapacity⟩]) .overCapacity tenantId cacheControl
      request cacheKey).adds
    refine missed.mono (fun _ _ plain => Call.calls_of_unshared plain.1 _) fun later result met => ⟨?_, ?_⟩
    · intro key' leader member
      cases only met.1 _ member rfl
    · rcases result with err | response
      · exact .vendorFailed met.2
      · exact .served (met.1.blind.unfailed clean) met.2.1 (.inl ⟨request, met.2.2⟩)

omit [JsonWriter] in
theorem cacheOnlyMiss_outcome (quiet : Quiet past) (cacheKey : CacheKey) {cacheControl : CacheControl}
    (only : cacheControl = .cacheOnly) : (Flow.cacheOnlyMiss cacheKey).Meets RequestCalls
      (fun later result => Settled later ∧ (cacheControl ≠ .cacheOnly → Outcome later result)) past := by
  have recorded := (recordSimple_plain past .cacheOnlyMiss .skipped).plain
  exact (recorded.quiet quiet).bind fun later _ met => ⟨met.1.settled, fun other => absurd only other⟩

omit [JsonWriter] in
/-- A lookup that write-only mode leaves out, or one that was made. -/
theorem lookUp_outcome (cacheControl : CacheControl) {β : Type} {body : β → Value}
    {read : Flow (GatewayResult (Option (Flow.CachedPayload β)))} (unfailed : ∀ event ∈ past, ¬ LookupFails event)
    (h : read.Meets (fun _ call => call.isFlight = false) (LookedUp body) past) :
    (Flow.lookUp cacheControl read).Meets (fun _ call => call.isFlight = false) (LookedUp body) past := by
  unfold Flow.lookUp
  split
  · exact unfailed
  · exact h

theorem nonStreamingResponse_outcome (cacheAvailable : Bool) (tenantId : TenantId) {cacheControl : CacheControl}
    (request : ResponsesRequest) (eligibility : EligibilityDecision) (cacheKey : CacheKey)
    (quiet : Quiet past) (unfailed : ∀ event ∈ past, ¬ LookupFails event) :
    (Flow.nonStreamingResponse cacheAvailable tenantId cacheControl request eligibility cacheKey).Meets RequestCalls
      (fun later result => Settled later ∧ (cacheControl ≠ .cacheOnly → Outcome later result)) past := by
  have alone {p : Flow (GatewayResult GatewayResponse)}
      (h : p.Meets (fun _ call => call.isFlight = false) Outcome past) : p.Meets RequestCalls
        (fun later result => Settled later ∧ (cacheControl ≠ .cacheOnly → Outcome later result)) past :=
    (h.quiet quiet).mono (fun _ _ met => met) fun _ _ met => ⟨met.1.settled, fun _ => met.2⟩
  unfold Flow.nonStreamingResponse
  split
  · exact alone (vendorResponse_outcome past _ _ _ _ unfailed)
  · cases eligibility with
    | bypass reason => exact alone (vendorResponse_outcome past _ _ _ _ unfailed)
    | cacheable =>
      dsimp only
      split
      · split
        · exact cacheOnlyMiss_outcome past quiet cacheKey ‹_›
        · exact alone (vendorResponse_outcome past _ _ _ _ unfailed)
      · have looked := lookUp_outcome past cacheControl unfailed
          (readCachedBody_outcome past tenantId cacheKey unfailed)
        refine (looked.quiet quiet).bind ?_
        rintro later (err | _ | payload) ⟨calm, met⟩
        · exact ⟨calm.settled, fun _ => .lookupFailed met⟩
        · show (if cacheControl = .cacheOnly then _ else _ : Flow _).Meets _ _ _
          split
          · exact cacheOnlyMiss_outcome later calm cacheKey ‹_›
          · exact (coalescedMiss_outcome later tenantId cacheControl request cacheKey calm met).mono
              (fun _ _ met => met) fun _ _ met => ⟨met.1, fun _ => met.2⟩
        · have recorded := (recordSimple_plain later .hit .skipped).plain
          refine (recorded.quiet calm).bind fun last _ ended => ⟨ended.1.settled, fun _ => ?_⟩
          exact .served (ended.2.1.blind.unfailed met.1) (by simp) (.inr (.inr (by simpa using met.2.adds ended.2.1)))

theorem streamingResponse_outcome (tenantId : TenantId) {cacheControl : CacheControl} (request : ResponsesRequest)
    (eligibility : EligibilityDecision) (cacheKey : CacheKey)
    (quiet : Quiet past) (unfailed : ∀ event ∈ past, ¬ LookupFails event) :
    (Flow.streamingResponse tenantId cacheControl request eligibility cacheKey).Meets RequestCalls
      (fun later result => Settled later ∧ (cacheControl ≠ .cacheOnly → Outcome later result)) past := by
  have alone {before : List GatewayEvent} (calm : Quiet before) {p : Flow (GatewayResult GatewayResponse)}
      (h : p.Meets (fun _ call => call.isFlight = false) Outcome before) : p.Meets RequestCalls
        (fun later result => Settled later ∧ (cacheControl ≠ .cacheOnly → Outcome later result)) before :=
    (h.quiet calm).mono (fun _ _ met => met) fun _ _ met => ⟨met.1.settled, fun _ => met.2⟩
  unfold Flow.streamingResponse
  split
  · exact alone quiet (vendorStreamResponse_outcome past _ _ _ _ unfailed)
  · cases eligibility with
    | bypass reason => exact alone quiet (vendorStreamResponse_outcome past _ _ _ _ unfailed)
    | cacheable =>
      have looked := lookUp_outcome past cacheControl unfailed
        (readCachedStreamObject_outcome past tenantId cacheKey unfailed)
      refine (looked.quiet quiet).bind ?_
      rintro later (err | _ | payload) ⟨calm, met⟩
      · exact ⟨calm.settled, fun _ => .lookupFailed met⟩
      · show (if cacheControl = .cacheOnly then _ else _ : Flow _).Meets _ _ _
        split
        · exact cacheOnlyMiss_outcome later calm cacheKey ‹_›
        · exact alone calm (streamingMiss_outcome later tenantId cacheControl request cacheKey met)
      · exact alone calm (respond_outcome later (recordBoth_plain later .hit .skipped) met.1 (by simp)
          fun last adds => .inr (.inr (by simpa using met.2.adds adds)))

omit [JsonWriter] in
private theorem refuse_settled (statusCode : Nat) (message : String) {admitted : Prop} (refused : ¬ admitted) :
    (Flow.refuse statusCode message).Meets RequestCalls
      (fun later result => Settled later ∧ (admitted → Outcome later result)) [] := by
  have recorded := (recordSimple_plain [] .bypass .skipped).plain
  exact (recorded.quiet quiet_nil).bind fun _ _ met => ⟨met.1.settled, fun entered => absurd entered refused⟩

/-- How a request ends depends on the replies; what it has done before each call does not. -/
theorem handleResponseRequest_outcome [Sha256] (request : GatewayRequest) (state : GatewayState) :
    (request.program state).Meets RequestCalls
      (fun later result => Settled later ∧ (request.Admitted state → Outcome later result)) [] := by
  obtain ⟨authorization, cacheControl, body⟩ := request
  unfold GatewayRequest.program Flow.handleResponseRequest
  cases authenticated : state.authenticate authorization with
  | none =>
    refine refuse_settled 401 "unauthorized" fun admitted => ?_
    obtain ⟨_, some, _⟩ := admitted.tenant
    rw [authenticated] at some
    cases some
  | some tenantId =>
  dsimp only
  split
  · next refused =>
    refine refuse_settled 403 _ fun admitted => ?_
    obtain ⟨_, some, allowed⟩ := admitted.tenant
    rw [authenticated, Option.some.injEq] at some
    rw [some, allowed] at refused
    cases refused
  cases parsed : CacheControl.parse (cacheControl.getD "") with
  | error err =>
    refine refuse_settled 400 err.text fun admitted => ?_
    obtain ⟨_, ok, _⟩ := admitted.cacheControl
    rw [parsed] at ok
    cases ok
  | ok control =>
  cases typed : ResponsesRequest.fromValue body with
  | error err =>
    refine ⟨quiet_nil.settled, fun admitted => ?_⟩
    obtain ⟨_, ok⟩ := admitted.body
    rw [typed] at ok
    cases ok
  | ok request =>
  refine ⟨trivial, fun reply => ?_⟩
  have quiet : Quiet [⟨.resolveModelVersion request.model, reply⟩] := by simp [Quiet, Call.isFlight]
  have unfailed : ∀ event ∈ [(⟨.resolveModelVersion request.model, reply⟩ : GatewayEvent)], ¬ LookupFails event := by
    simp [LookupFails]
  cases reply with
  | error err => exact ⟨quiet.settled, fun _ => .vendorFailed ⟨_, List.mem_singleton_self _, trivial⟩⟩
  | ok resolvedModel =>
  have admitted {later : List GatewayEvent} {result : GatewayResult GatewayResponse}
      (met : Settled later ∧ (control ≠ .cacheOnly → Outcome later result)) : Settled later ∧
        (GatewayRequest.Admitted ⟨authorization, cacheControl, body⟩ state → Outcome later result) := by
    refine ⟨met.1, fun admitted => met.2 ?_⟩
    obtain ⟨_, ok, other⟩ := admitted.cacheControl
    rw [parsed, Except.ok.injEq] at ok
    rwa [ok]
  simp only [computeCacheKey_eq]
  show (if _ then _ else _ : Flow _).Meets _ _ _
  split
  · exact (streamingResponse_outcome _ tenantId request _ _ quiet unfailed).mono (fun _ _ met => met) fun _ _ => admitted
  · exact (nonStreamingResponse_outcome _ _ tenantId request _ _ quiet unfailed).mono (fun _ _ met => met)
      fun _ _ => admitted

end
end Mooncache
