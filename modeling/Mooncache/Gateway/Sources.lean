import Mooncache.Gateway.Provenance
import Mooncache.Gateway.WriteOutcome

/-! What a request asks for, call by call, and where the body of its answer comes from. -/
namespace Mooncache
open Program

section
variable [JsonWriter] [JsonReader]

/-- The calls of a request after its model is resolved: the vendor is asked what the request asks, the cache
and the flights are asked under its key, and what is stored is an answer of the vendor. -/
def Within (parsed : ResponsesRequest) (key : ObjectKey) (past : List GatewayEvent) : Call → Prop
  | .complete asked | .stream asked => asked = parsed
  | .begin flight => (flight.tenantId, flight.cacheKey) = key
  | .publish _ result => ∀ response, result = .ok response →
    ⟨.complete parsed, .ok response.body⟩ ∈ past ∧ response.streamEvents = none
  | .writePreallocatedChunk nodeId tenantId cacheKey handle bytes => (tenantId, cacheKey) = key ∧ Artifact past bytes ∧
    Disciplined past (.writePreallocatedChunk nodeId tenantId cacheKey handle bytes)
  | .getReplicaList tenantId cacheKey => (tenantId, cacheKey) = key
  | .readChunk tenantId cacheKey handle => (tenantId, cacheKey) = key ∧
    Disciplined past (.readChunk tenantId cacheKey handle)
  | request => Disciplined past request

/-- Where a body and its events come from: the vendor, an object read under the key, or a flight of the key. -/
inductive Source (parsed : ResponsesRequest) (key : ObjectKey) (past : List GatewayEvent) (response : GatewayResponse) :
    Prop
  | completed : ⟨.complete parsed, .ok response.body⟩ ∈ past → response.streamEvents = none → Source parsed key past response
  | streamed {stream : VendorEventStream} {captured : CapturedStream} : ⟨.stream parsed, .ok stream⟩ ∈ past →
    collectStream stream = .ok captured → response.body = captured.finalBody →
    response.streamEvents = some captured.events → Source parsed key past response
  | read {handle : ChunkHandle} {chunk : StoreChunk} : ⟨.readChunk key.1 key.2 handle, .ok chunk⟩ ∈ past →
    cachedBodyFromBytes chunk.bytes = .ok response.body → response.streamEvents = none → Source parsed key past response
  | replayed {handle : ChunkHandle} {chunk : StoreChunk} {object : CachedStreamObject} :
    ⟨.readChunk key.1 key.2 handle, .ok chunk⟩ ∈ past → streamObjectFromBytes chunk.bytes = .ok (some object) →
    response.body = object.finalBody → response.streamEvents = some object.events → Source parsed key past response
  | shared {flight : SingleflightKey} {waiter : Nat} {shared : GatewayResponse} :
    ⟨.begin flight, .ok (.waiter waiter)⟩ ∈ past → (flight.tenantId, flight.cacheKey) = key →
    ⟨.wait waiter, .ok shared⟩ ∈ past → response.body = shared.body →
    response.streamEvents = shared.streamEvents → Source parsed key past response

/-- Every answer with status 200 has a source. -/
def Sourced (parsed : ResponsesRequest) (key : ObjectKey) (past : List GatewayEvent) :
    GatewayResult GatewayResponse → Prop
  | .ok response => response.statusCode = 200 → Source parsed key past response
  | .error _ => True

end

section
variable [JsonReader] {parsed : ResponsesRequest} {key : ObjectKey} {past later : List GatewayEvent}
  {response answer : GatewayResponse}

theorem Source.extend (h : Source parsed key past response) (longer : past <+: later) :
    Source parsed key later response := by
  have mem {event : GatewayEvent} (member : event ∈ past) : event ∈ later := longer.subset member
  cases h with
  | completed told plain => exact .completed (mem told) plain
  | streamed told collected body events => exact .streamed (mem told) collected body events
  | read found decoded plain => exact .read (mem found) decoded plain
  | replayed found decoded body events => exact .replayed (mem found) decoded body events
  | shared begun same waited body events => exact .shared (mem begun) same (mem waited) body events

/-- Other headers leave the source. -/
theorem Source.relabel (h : Source parsed key past response) (body : answer.body = response.body)
    (events : answer.streamEvents = response.streamEvents) : Source parsed key past answer := by
  cases h with
  | completed told plain => exact .completed (body ▸ told) (events.trans plain)
  | streamed told collected same captured => exact .streamed told collected (body.trans same) (events.trans captured)
  | read found decoded plain => exact .read found (body ▸ decoded) (events.trans plain)
  | replayed found decoded same stored => exact .replayed found decoded (body.trans same) (events.trans stored)
  | shared begun flight waited same given => exact .shared begun flight waited (body.trans same) (events.trans given)

end

section
variable [JsonWriter] [JsonReader] {parsed : ResponsesRequest} {key : ObjectKey} {past later : List GatewayEvent}

theorem Artifact.extend {bytes : List UInt8} (h : Artifact past bytes) (longer : past <+: later) :
    Artifact later bytes := by
  rcases h with ⟨request, body, member, rfl⟩ | ⟨request, stream, captured, member, captures, rfl⟩
  · exact .inl ⟨request, body, longer.subset member, rfl⟩
  · exact .inr ⟨request, stream, captured, longer.subset member, captures, rfl⟩

/-- The calls that nothing is asked of. -/
def Call.Free : Call → Prop
  | .putEnd _ _ | .putRevoke _ _ | .send _ | .wait _ | .recordCacheStatus _ | .recordWrite _ | .recordSingleflight _
  | .recordVendorCall => True
  | _ => False

theorem Call.within_of_free {call : Call} (h : call.Free) (past : List GatewayEvent) : Within parsed key past call := by
  cases call <;> trivial

theorem Program.Meets.within_of_free {α : Type} {p : Flow α} {post : List GatewayEvent → α → Prop}
    (h : p.Meets (fun _ call => call.Free) post past) :
    p.Meets (Within parsed key) (fun later value => past <+: later ∧ post later value) past :=
  h.extends.mono (fun _ _ free => Call.within_of_free free _) fun _ _ met => met

omit [JsonWriter] [JsonReader] in
theorem recordGatewayMetrics_free (cacheStatus : CacheStatus) (writeStatus : CacheWriteStatus) :
    (Flow.recordGatewayMetrics cacheStatus writeStatus).Meets (fun _ call => call.Free) (fun _ _ => True) past :=
  ⟨trivial, fun _ => ⟨trivial, fun _ => trivial⟩⟩

omit [JsonWriter] [JsonReader] in
theorem recordBoth_free (cacheStatus : CacheStatus) (writeStatus : CacheWriteStatus) :
    (do Flow.recordGatewayMetrics cacheStatus writeStatus; Flow.recordSingleflight .none : Flow Unit).Meets
      (fun _ call => call.Free) (fun _ _ => True) past :=
  ⟨trivial, fun _ => ⟨trivial, fun _ => ⟨trivial, fun _ => trivial⟩⟩⟩

/-- Metrics, and an answer that has its source already. -/
theorem respond_sourced {p : Flow Unit} {response : GatewayResponse}
    (free : p.Meets (fun _ call => call.Free) (fun _ _ => True) past)
    (source : response.statusCode = 200 → Source parsed key past response) :
    (p >>= fun _ => pure (.ok response) : Flow (GatewayResult GatewayResponse)).Meets (Within parsed key)
      (Sourced parsed key) past :=
  free.within_of_free.bind fun _ _ met status => (source status).extend met.1

/-- The loop over the replicas, all of them granted to this request. -/
private theorem writeReservedReplicas_within {bytes : List UInt8} {len count : Nat}
    {replicas : List ReplicaDescriptor} (rest : List ReplicaDescriptor) (known : ∀ replica ∈ rest, replica ∈ replicas)
    (reserved : ⟨.putStart key.1 key.2 len count, .ok replicas⟩ ∈ past) (artifact : Artifact past bytes) :
    (Flow.writeReservedReplicas key.1 key.2 bytes rest).Meets (Within parsed key) (fun _ _ => True) past := by
  induction rest generalizing past with
  | nil => trivial
  | cons replica rest ih =>
    refine ⟨⟨rfl, artifact, len, count, replicas, reserved, replica, known replica (by simp), rfl⟩, fun reply => ?_⟩
    cases reply with
    | error err => trivial
    | ok done =>
      have longer : past <+: past ++ [⟨.writePreallocatedChunk replica.nodeId key.1 key.2 (.fromReplica replica) bytes,
        .ok done⟩] := List.prefix_append _ _
      exact ih (fun other member => known other (by simp [member])) (longer.subset reserved) (artifact.extend longer)

private theorem revoke_within (err : GatewayError) :
    (do return .error (← Flow.revokeReservationAfterWriteFailure key.1 key.2 err) :
      Flow (GatewayResult CacheWriteStatus)).Meets (Within parsed key) (fun _ _ => True) past := by
  refine ⟨trivial, fun reply => ?_⟩
  cases reply <;> trivial

theorem writeCachedBytes_within {bytes : List UInt8} (artifact : Artifact past bytes) :
    (Flow.writeCachedBytes key.1 key.2 bytes).Meets (Within parsed key) (fun _ _ => True) past := by
  refine ⟨rfl, fun reply => ?_⟩
  cases reply with
  | error err => trivial
  | ok replicas =>
    have longer : past <+: past ++ [⟨.putStart key.1 key.2 bytes.length replicaCount, .ok replicas⟩] :=
      List.prefix_append _ _
    refine (writeReservedReplicas_within replicas (fun _ member => member)
      (List.mem_append_right _ (List.mem_singleton_self _)) (artifact.extend longer)).bind ?_
    rintro later (err | done) _
    · exact revoke_within err
    · refine ⟨trivial, fun reply => ?_⟩
      cases reply with
      | ok done => trivial
      | error err => exact revoke_within err

theorem storeMiss_within {bytes : List UInt8} (artifact : Artifact past bytes) (cacheControl : CacheControl) :
    (Flow.storeMiss cacheControl (Flow.writeCachedBytes key.1 key.2 bytes)).Meets (Within parsed key)
      (fun _ _ => True) past := by
  unfold Flow.storeMiss
  split
  · trivial
  · refine (writeCachedBytes_within artifact).bind fun _ result _ => ?_
    cases result <;> trivial

/-- What a lookup that finds something has found. -/
def Finds {β : Type} (found : List GatewayEvent → β → Prop) (past : List GatewayEvent) :
    GatewayResult (Option β) → Prop
  | .ok (some value) => found past value
  | _ => True

/-- A lookup reads what was listed to it under the key. -/
theorem readCachedBytes_within : (Flow.readCachedBytes key.1 key.2).Meets (Within parsed key)
    (Finds fun later chunk => ∃ handle, ⟨.readChunk key.1 key.2 handle, .ok chunk⟩ ∈ later) past := by
  refine ⟨rfl, fun reply => ?_⟩
  cases reply with
  | error err =>
    rcases err with err | _ | _ | _ | _ | _ | _ | _ | _
    · cases err <;> trivial
    all_goals trivial
  | ok replicaList =>
    simp only [Program.bind]
    cases head : replicaList.replicas.head? with
    | none => trivial
    | some replica =>
      refine ⟨⟨rfl, replicaList, by simp, replica, List.mem_of_mem_head? head, rfl⟩, fun reply => ?_⟩
      cases reply with
      | error err => trivial
      | ok chunk => exact ⟨_, List.mem_append_right _ (List.mem_singleton_self _)⟩

theorem readCachedBody_within : (Flow.readCachedBody key.1 key.2).Meets (Within parsed key)
    (Finds fun later (payload : Flow.CachedPayload Value) => ∃ handle chunk,
      ⟨.readChunk key.1 key.2 handle, .ok chunk⟩ ∈ later ∧ cachedBodyFromBytes chunk.bytes = .ok payload.value)
    past := by
  refine readCachedBytes_within.bind ?_
  rintro later (err | _ | chunk) met
  · trivial
  · trivial
  · obtain ⟨handle, member⟩ := met
    dsimp only
    cases decoded : cachedBodyFromBytes chunk.bytes with
    | error err => trivial
    | ok value => exact ⟨handle, chunk, member, decoded⟩

theorem readCachedStreamObject_within : (Flow.readCachedStreamObject key.1 key.2).Meets (Within parsed key)
    (Finds fun later (payload : Flow.CachedPayload CachedStreamObject) => ∃ handle chunk,
      ⟨.readChunk key.1 key.2 handle, .ok chunk⟩ ∈ later ∧
        streamObjectFromBytes chunk.bytes = .ok (some payload.value)) past := by
  refine readCachedBytes_within.bind ?_
  rintro later (err | _ | chunk) met
  · trivial
  · trivial
  · obtain ⟨handle, member⟩ := met
    dsimp only
    rcases decoded : streamObjectFromBytes chunk.bytes with err | _ | object
    · trivial
    · trivial
    · exact ⟨handle, chunk, member, decoded⟩

/-- A lookup that write-only mode leaves out. -/
theorem lookUp_within {β : Type} {read : Flow (GatewayResult (Option (Flow.CachedPayload β)))}
    {found : List GatewayEvent → Flow.CachedPayload β → Prop} (cacheControl : CacheControl)
    (reads : read.Meets (Within parsed key) (Finds found) past) :
    (Flow.lookUp cacheControl read).Meets (Within parsed key) (Finds found) past := by
  unfold Flow.lookUp
  split
  · trivial
  · exact reads

/-- What the vendor answers to the request. -/
theorem completeVendor_within : (Flow.completeVendor parsed).Meets (Within parsed key) (fun later result =>
    match result with
    | .ok body => ⟨.complete parsed, .ok body⟩ ∈ later
    | .error _ => True) past := by
  refine ⟨rfl, fun reply => ⟨trivial, fun _ => ?_⟩⟩
  cases reply with
  | error err => trivial
  | ok body => exact List.mem_append_left _ (List.mem_append_right _ (List.mem_singleton_self _))

theorem collectVendor_within : (Flow.collectVendor parsed).Meets (Within parsed key) (fun later result =>
    match result with
    | .ok captured => ∃ stream, ⟨.stream parsed, .ok stream⟩ ∈ later ∧ collectStream stream = .ok captured
    | .error _ => True) past := by
  refine ⟨rfl, fun reply => ?_⟩
  cases reply with
  | error err => trivial
  | ok stream =>
    simp only [Program.bind]
    cases collected : collectStream stream with
    | error err => trivial
    | ok captured => exact ⟨trivial, fun _ => ⟨stream, by simp, collected⟩⟩

theorem vendorResponse_sourced (cacheStatus : CacheStatus) (writeStatus : CacheWriteStatus)
    (cacheKey : Option CacheKey) : (Flow.vendorResponse parsed cacheStatus writeStatus cacheKey).Meets
      (Within parsed key) (Sourced parsed key) past := by
  refine completeVendor_within.bind ?_
  rintro later (err | body) told
  · trivial
  · exact respond_sourced (recordBoth_free _ _) fun _ => .completed (by simpa using told) (by simp)

theorem vendorStreamResponse_sourced (cacheStatus : CacheStatus) (writeStatus : CacheWriteStatus)
    (cacheKey : Option CacheKey) : (Flow.vendorStreamResponse parsed cacheStatus writeStatus cacheKey).Meets
      (Within parsed key) (Sourced parsed key) past := by
  refine collectVendor_within.bind ?_
  rintro later (err | captured) told
  · trivial
  · obtain ⟨stream, member, collected⟩ := told
    exact respond_sourced (recordBoth_free _ _) fun _ => .streamed member collected (by simp) (by simp)

/-- The answer after a miss is the vendor's, whether or not it is stored. -/
theorem cacheableNonStreamingMiss_sourced (cacheControl : CacheControl) :
    (Flow.cacheableNonStreamingMiss key.1 cacheControl parsed key.2).Meets (Within parsed key)
      (fun later result => match result with
        | .ok response => ⟨.complete parsed, .ok response.body⟩ ∈ later ∧ response.streamEvents = none
        | .error _ => True) past := by
  refine completeVendor_within.bind ?_
  rintro later (err | body) told
  · trivial
  · refine (storeMiss_within (.inl ⟨parsed, body, told, rfl⟩) cacheControl).extends.bind fun after writeStatus stored => ?_
    refine (recordGatewayMetrics_free .miss writeStatus).within_of_free.bind fun last _ recorded => ?_
    exact ⟨(stored.1.trans recorded.1).subset (by simpa using told), by simp⟩

theorem streamingMiss_sourced (cacheControl : CacheControl) :
    (Flow.streamingMiss key.1 cacheControl parsed key.2).Meets (Within parsed key) (Sourced parsed key) past := by
  refine collectVendor_within.bind ?_
  rintro later (err | captured) told
  · trivial
  · obtain ⟨stream, member, collected⟩ := told
    refine (storeMiss_within (.inr ⟨parsed, stream, captured, member, collectStream_captures collected, rfl⟩)
      cacheControl).extends.bind fun after writeStatus stored => ?_
    exact respond_sourced (recordBoth_free _ _) fun _ =>
      .streamed (stored.1.subset member) collected (by simp) (by simp)

theorem cacheOnlyMiss_sourced (cacheKey : CacheKey) :
    (Flow.cacheOnlyMiss cacheKey).Meets (Within parsed key) (Sourced parsed key) past :=
  ⟨trivial, fun _ => ⟨trivial, fun _ => ⟨trivial, fun _ status => by cases status⟩⟩⟩

theorem coalescedMiss_sourced (cacheControl : CacheControl) :
    (Flow.coalescedMiss key.1 cacheControl parsed key.2).Meets (Within parsed key) (Sourced parsed key) past := by
  refine ⟨rfl, fun reply => ?_⟩
  rcases reply with err | leader | waiter | _
  · trivial
  · refine ⟨trivial, fun _ => (cacheableNonStreamingMiss_sourced cacheControl).bind ?_⟩
    rintro later (err | response) told
    · exact ⟨nofun, fun _ => ⟨trivial, fun _ => trivial⟩⟩
    · refine ⟨?_, fun _ => ⟨trivial, fun _ _ => ?_⟩⟩
      · rintro _ ⟨⟩
        exact told
      · exact .completed (List.mem_append_left _ (List.mem_append_left _ told.1)) told.2
  · refine ⟨trivial, fun reply => ?_⟩
    rcases reply with message | shared
    · trivial
    · refine ⟨trivial, fun _ => ⟨trivial, fun _ => ⟨trivial, fun _ _ => ?_⟩⟩⟩
      have begun := List.mem_append_right past (List.mem_singleton_self
        (⟨.begin ⟨key.1, key.2, Flow.singleflightWriteMode cacheControl⟩, .ok (.waiter waiter)⟩ : GatewayEvent))
      have waited := List.mem_append_right (past ++ [⟨.begin ⟨key.1, key.2, Flow.singleflightWriteMode cacheControl⟩,
        .ok (.waiter waiter)⟩]) (List.mem_singleton_self (⟨.wait waiter, .ok shared⟩ : GatewayEvent))
      have source : Source parsed key _ shared := .shared (List.mem_append_left _ begun) rfl waited rfl rfl
      refine Source.relabel (source.extend ?_) rfl rfl
      exact ((List.prefix_append _ _).trans (List.prefix_append _ _)).trans (List.prefix_append _ _)
  · refine ⟨trivial, fun _ => (cacheableNonStreamingMiss_sourced cacheControl).mono (fun _ _ => id) ?_⟩
    rintro later (err | response) told
    · trivial
    · exact fun _ => .completed told.1 told.2

theorem nonStreamingResponse_sourced (cacheAvailable : Bool) (cacheControl : CacheControl)
    (eligibility : EligibilityDecision) :
    (Flow.nonStreamingResponse cacheAvailable key.1 cacheControl parsed eligibility key.2).Meets (Within parsed key)
      (Sourced parsed key) past := by
  unfold Flow.nonStreamingResponse
  split
  · exact vendorResponse_sourced ..
  · cases eligibility with
    | bypass reason => exact vendorResponse_sourced ..
    | cacheable =>
      dsimp only
      split
      · split
        · exact cacheOnlyMiss_sourced key.2
        · exact vendorResponse_sourced ..
      · refine (lookUp_within cacheControl readCachedBody_within).bind ?_
        rintro later (err | _ | payload) found
        · trivial
        · dsimp only
          split
          · exact cacheOnlyMiss_sourced key.2
          · exact coalescedMiss_sourced cacheControl
        · obtain ⟨handle, chunk, member, decoded⟩ := found
          exact respond_sourced (recordBoth_free _ _) fun _ => .read member (by simpa using decoded) (by simp)

theorem streamingResponse_sourced (cacheControl : CacheControl) (eligibility : EligibilityDecision) :
    (Flow.streamingResponse key.1 cacheControl parsed eligibility key.2).Meets (Within parsed key)
      (Sourced parsed key) past := by
  unfold Flow.streamingResponse
  split
  · exact vendorStreamResponse_sourced ..
  · cases eligibility with
    | bypass reason => exact vendorStreamResponse_sourced ..
    | cacheable =>
      refine (lookUp_within cacheControl readCachedStreamObject_within).bind ?_
      rintro later (err | _ | payload) found
      · trivial
      · dsimp only
        split
        · exact cacheOnlyMiss_sourced key.2
        · exact streamingMiss_sourced cacheControl
      · obtain ⟨handle, chunk, member, decoded⟩ := found
        exact respond_sourced (recordBoth_free _ _) fun _ => .replayed member decoded (by simp) (by simp)

end
end Mooncache
