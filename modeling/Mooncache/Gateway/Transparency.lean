import Mooncache.Gateway.Artifacts
import Mooncache.Gateway.Completion
import Mooncache.Gateway.Fingerprint
import Mooncache.Gateway.Sources

/-! The cache is transparent: whatever requests share it, an answer is what the vendor told some
request with the same fingerprint. -/
namespace Mooncache
open Program

/-- The key of an object with this fingerprint. -/
def FingerprintInput.objectKey [Sha256] [JsonWriter] (input : FingerprintInput) : ObjectKey :=
  (input.tenantId, ⟨lowerHex (sha256 (canonicalJsonBytes input.doc))⟩)

/-- What a request asks of the vendor, and its fingerprint with the version its model was resolved to. -/
structure Identified [Sha256] [JsonReader] (request : GatewayRequest) (state : GatewayState) (past : List GatewayEvent)
    (parsed : ResponsesRequest) (input : FingerprintInput) : Prop where
  typed : ResponsesRequest.fromValue request.body = .ok parsed
  authenticated : state.authenticate request.authorization = some input.tenantId
  allowed : state.tenantAllowsVendor input.tenantId state.vendorId = true
  resolved : ⟨.resolveModelVersion parsed.model, .ok input.resolvedModelVersion⟩ ∈ past
  policy : ∃ cacheControl, CacheControl.parse (request.cacheControl.getD "") = .ok cacheControl ∧
    input.cachePolicy = fingerprintPolicy cacheControl
  deployment : input.endpointVersion = endpointVersion ∧ input.vendorId = state.vendorId ∧
    input.adapterVersion = state.adapterVersion
  body : input.body = fingerprintBodyWithoutStream request.body

section
variable [Sha256] [JsonWriter] [JsonReader] {request : GatewayRequest} {state : GatewayState}
  {past later : List GatewayEvent} {parsed : ResponsesRequest} {input : FingerprintInput} {call : Call}

omit [JsonWriter] in
theorem Identified.extend (h : Identified request state past parsed input) (longer : past <+: later) :
    Identified request state later parsed input :=
  { h with resolved := longer.subset h.resolved }

/-- The calls of a request: metrics and the like, the resolution of its model, and those under its fingerprint. -/
def Accesses (request : GatewayRequest) (state : GatewayState) (past : List GatewayEvent) (call : Call) : Prop :=
  call.Free ∨ (∃ model, call = .resolveModelVersion model) ∨
    ∃ parsed input, Identified request state past parsed input ∧ Within parsed input.objectKey past call

/-- An answer with status 200 has its source under the request's fingerprint. -/
def Answered (request : GatewayRequest) (state : GatewayState) (past : List GatewayEvent) :
    GatewayResult GatewayResponse → Prop
  | .ok response => response.statusCode = 200 → ∃ parsed input, Identified request state past parsed input ∧
    Source parsed input.objectKey past response
  | .error _ => True

omit [Sha256] in
theorem Within.disciplined {key : ObjectKey} (h : Within parsed key past call) : Disciplined past call := by
  cases call with
  | writePreallocatedChunk => exact h.2.2
  | readChunk => exact h.2
  | putStart => exact h
  | _ => trivial

theorem Accesses.disciplined (h : Accesses request state past call) : Disciplined past call := by
  rcases h with free | ⟨model, rfl⟩ | ⟨parsed, input, _, within⟩
  · cases call <;> trivial
  · trivial
  · exact within.disciplined

theorem Meets.accesses {p : Flow (GatewayResult GatewayResponse)} (identified : Identified request state past parsed input)
    (h : p.Meets (Within parsed input.objectKey) (Sourced parsed input.objectKey) past) :
    p.Meets (Accesses request state) (Answered request state) past := by
  refine h.after.mono (fun later call met => ?_) fun later result met => ?_
  · exact .inr (.inr ⟨parsed, input, identified.extend met.1, met.2⟩)
  · cases result with
    | error err => trivial
    | ok response => exact fun status => ⟨parsed, input, identified.extend met.1, met.2 status⟩

theorem program_accesses (request : GatewayRequest) (state : GatewayState) :
    (request.program state).Meets (Accesses request state) (Answered request state) [] := by
  by_cases entered : request.Entered state
  · obtain ⟨tenantId, cacheControl, authenticated, allowed, controlled⟩ := entered
    cases typed : ResponsesRequest.fromValue request.body with
    | error err =>
      rw [GatewayRequest.program_malformed authenticated allowed controlled typed]
      trivial
    | ok parsed =>
      rw [GatewayRequest.program_eq authenticated allowed controlled typed]
      refine ⟨.inr (.inl ⟨_, rfl⟩), fun reply => ?_⟩
      cases reply with
      | error err => trivial
      | ok version =>
        have identified : Identified request state [⟨.resolveModelVersion parsed.model, .ok version⟩] parsed
            { tenantId
              endpointVersion
              vendorId := state.vendorId
              resolvedModelVersion := version
              adapterVersion := state.adapterVersion
              cachePolicy := fingerprintPolicy cacheControl
              body := fingerprintBodyWithoutStream request.body } :=
          ⟨typed, authenticated, allowed, List.mem_singleton_self _, ⟨cacheControl, controlled, rfl⟩, ⟨rfl, rfl, rfl⟩, rfl⟩
        dsimp only
        split
        · exact Meets.accesses identified (streamingResponse_sourced ..)
        · exact Meets.accesses identified (nonStreamingResponse_sourced ..)
  · obtain ⟨statusCode, message, code, program⟩ := GatewayRequest.program_refused entered
    rw [program]
    refine ⟨.inl trivial, fun _ => ⟨.inl trivial, fun _ => ⟨.inl trivial, fun _ status => ?_⟩⟩⟩
    obtain rfl : statusCode = 200 := status
    simp at code

/-- Under its fingerprint a request writes what the vendor told it. -/
theorem Accesses.write {nodeId : String} {tenantId : TenantId} {cacheKey : CacheKey} {handle : ChunkHandle}
    {bytes : List UInt8} (h : Accesses request state past (.writePreallocatedChunk nodeId tenantId cacheKey handle bytes)) :
    ∃ parsed input, Identified request state past parsed input ∧ (tenantId, cacheKey) = input.objectKey ∧
      Artifact past bytes := by
  rcases h with free | ⟨_, ⟨⟩⟩ | ⟨parsed, input, identified, within⟩
  · exact free.elim
  · exact ⟨parsed, input, identified, within.1, within.2.1⟩

theorem Accesses.begin {flight : SingleflightKey} (h : Accesses request state past (.begin flight)) :
    ∃ parsed input, Identified request state past parsed input ∧
      (flight.tenantId, flight.cacheKey) = input.objectKey := by
  rcases h with free | ⟨_, ⟨⟩⟩ | ⟨parsed, input, identified, within⟩
  · exact free.elim
  · exact ⟨parsed, input, identified, within⟩

theorem Accesses.publish {leader : Nat} {response : GatewayResponse}
    (h : Accesses request state past (.publish leader (.ok response))) : ∃ parsed,
      ResponsesRequest.fromValue request.body = .ok parsed ∧ ⟨.complete parsed, .ok response.body⟩ ∈ past ∧
        response.streamEvents = none := by
  rcases h with free | ⟨_, ⟨⟩⟩ | ⟨parsed, input, identified, within⟩
  · exact free.elim
  · exact ⟨parsed, identified.typed, within response rfl⟩

/-- The vendor is asked what the request asks. -/
theorem Accesses.vendor {asked : ResponsesRequest}
    (h : Accesses request state past (.complete asked) ∨ Accesses request state past (.stream asked)) :
    ResponsesRequest.fromValue request.body = .ok asked := by
  rcases h with (free | ⟨_, ⟨⟩⟩ | ⟨parsed, input, identified, rfl⟩) | (free | ⟨_, ⟨⟩⟩ | ⟨parsed, input, identified, rfl⟩)
  · exact free.elim
  · exact identified.typed
  · exact free.elim
  · exact identified.typed

end

section
variable [JsonWriter] [JsonReader]

/-- What the vendor says reads back from its JSON text, and no complete body carries the tag of a stored stream. -/
structure Storable (vendor : (call : Call) → call.Reply → Prop) : Prop where
  body : ∀ asked body, vendor (.complete asked) (.ok body) →
    body.wellFormed = true ∧ isStreamingObject body = false ∧ RoundTrips body
  stream : ∀ asked stream captured, vendor (.stream asked) (.ok stream) → Captures stream captured →
    captured.finalBody.wellFormed = true ∧ RoundTrips captured.envelope

omit [JsonWriter] in
/-- The vendor told a request this answer, for the body the request came with. -/
def Told (request : GatewayRequest) (past : List GatewayEvent) (response : GatewayResponse) : Prop :=
  ∃ parsed, ResponsesRequest.fromValue request.body = .ok parsed ∧
    ((∃ body, ⟨.complete parsed, .ok body⟩ ∈ past ∧ response.body.Same body ∧ response.streamEvents = none) ∨
      ∃ stream captured, ⟨.stream parsed, .ok stream⟩ ∈ past ∧ Captures stream captured ∧
        response.body.Same captured.finalBody ∧ ∀ events, response.streamEvents = some events → events = captured.events)

/-- A plain artifact reads back as the body it was made of, and as no stream. -/
theorem decoded_body {body found : Value} (formed : body.wellFormed = true) (plain : isStreamingObject body = false)
    (trips : RoundTrips body) (decoded : cachedBodyFromBytes (toVec body) = .ok found) : found.Same body := by
  obtain ⟨value, read, valueFormed, same⟩ := trips
  rw [cachedBodyFromBytes_of_plain read ((isStreamingObject_congr same valueFormed formed).trans plain)] at decoded
  cases decoded
  exact same

theorem body_is_no_stream {body : Value} {object : CachedStreamObject} (formed : body.wellFormed = true)
    (plain : isStreamingObject body = false) (trips : RoundTrips body) :
    streamObjectFromBytes (toVec body) ≠ .ok (some object) := by
  obtain ⟨value, read, valueFormed, same⟩ := trips
  simp [streamObjectFromBytes, read, (isStreamingObject_congr same valueFormed formed).trans plain]

/-- A stored stream reads back as the body it ends with. -/
theorem decoded_stream {captured : CapturedStream} {found : Value} (formed : captured.finalBody.wellFormed = true)
    (trips : RoundTrips captured.envelope) (decoded : cachedBodyFromBytes (serializeStreamObject captured) = .ok found) :
    found.Same captured.finalBody := by
  obtain ⟨object, read, _, same⟩ := streamObjectFromBytes_serialize formed trips
  rw [cachedBodyFromBytes_eq, read] at decoded
  cases decoded
  exact same

end

/-- The vendor gave this reply, if it is one of the vendor's. -/
def GatewayEvent.Vouched (vendor : (call : Call) → call.Reply → Prop) : GatewayEvent → Prop
  | ⟨.resolveModelVersion model, reply⟩ => vendor (.resolveModelVersion model) reply
  | ⟨.complete asked, reply⟩ => vendor (.complete asked) reply
  | ⟨.stream asked, reply⟩ => vendor (.stream asked) reply
  | _ => True

theorem run_vouched {I A C : Type} [DecidableEq I] {cache : Server C A Call Call.Reply}
    {vendor : (call : Call) → call.Reply → Prop} {start : GatewayWorld C}
    {programs : I → Flow (GatewayResult GatewayResponse)}
    {trace : List (Pool.Label I (GatewayAction A) Call Call.Reply)} {s : GatewayPool I C}
    (run : Run (Pool.Step (GatewayWorld.server cache vendor)) (Pool.initial start programs) trace s) :
    ∀ i (event : GatewayEvent), (i, event) ∈ s.history → event.Vouched vendor := by
  refine run.invariant (P := fun _ (s : GatewayPool I C) => ∀ i (event : GatewayEvent), (i, event) ∈ s.history →
    event.Vouched vendor) (fun _ _ member => by cases member) fun {_ s _ _} _ h step => ?_
  cases step with
  | act _ => exact h
  | @call i call next reply world pending served =>
    intro j event member
    rcases List.mem_append.mp member with old | last
    · exact h j event old
    · cases List.mem_singleton.mp last
      have served : s.world.Serves cache vendor call reply world := served
      cases call <;> first | exact served.1 | trivial

section
variable {I C A : Type} [DecidableEq I] [Sha256] [JsonWriter] [JsonReader] {cache : Server C A Call Call.Reply}
  {vendor : (call : Call) → call.Reply → Prop} {start : C} {maxWaiters : Nat} {requests : I → GatewayRequest}
  {state : GatewayState} {trace : List (Pool.Label I (GatewayAction A) Call Call.Reply)} {s : GatewayPool I C}

/-- A request with this key was told the answer. -/
def ToldUnder (requests : I → GatewayRequest) (state : GatewayState) (history : List (I × GatewayEvent))
    (key : ObjectKey) (response : GatewayResponse) : Prop :=
  ∃ i parsed input, Identified (requests i) state (Pool.own history i) parsed input ∧ key = input.objectKey ∧
    Told (requests i) (Pool.own history i) response

/-- A request has got so far that it may write these bytes under the key. -/
def Offered (requests : I → GatewayRequest) (state : GatewayState) (history : List (I × GatewayEvent)) : Payloads :=
  fun key bytes => ∃ i past nodeId handle, past <+: Pool.own history i ∧
    Accesses (requests i) state past (.writePreallocatedChunk nodeId key.1 key.2 handle bytes)

theorem Offered.le_snoc (history : List (I × GatewayEvent)) (entry : I × GatewayEvent) :
    Offered requests state history ≤ Offered requests state (history ++ [entry]) := by
  rintro key bytes ⟨i, past, nodeId, handle, before, accesses⟩
  exact ⟨i, past, nodeId, handle, before.trans (Pool.own_append history [entry] i ▸ List.prefix_append _ _), accesses⟩

variable (storable : Storable vendor)
  (run : Run (Pool.Step (GatewayWorld.server cache vendor))
    (Pool.initial ⟨start, .new maxWaiters⟩ (programs requests state)) trace s)

include run in
/-- What was written was offered before. -/
theorem Offered.of_sent : Sent s.history ≤ Offered requests state s.history := by
  rintro key bytes ⟨i, nodeId, handle, reply, member⟩
  obtain ⟨before, after, split⟩ := List.append_of_mem (Pool.mem_own.mpr member)
  have meets : (programs requests state i).Meets (Accesses (requests i) state) (Answered (requests i) state) [] :=
    program_accesses (requests i) state
  exact ⟨i, before, nodeId, handle, split ▸ List.prefix_append _ _, Pool.run_called meets run split⟩

include storable run

/-- What was offered to the store under a key decodes to what its sender was told. -/
private theorem offered_told {key : ObjectKey} {bytes : List UInt8} {response : GatewayResponse}
    (offered : Offered requests state s.history key bytes)
    (decodes : cachedBodyFromBytes bytes = .ok response.body ∧ response.streamEvents = none ∨
      ∃ object, streamObjectFromBytes bytes = .ok (some object) ∧ response.body = object.finalBody ∧
        response.streamEvents = some object.events) : ToldUnder requests state s.history key response := by
  obtain ⟨i, before, nodeId, handle, longer, accesses⟩ := offered
  have meets : (programs requests state i).Meets (Accesses (requests i) state) (Answered (requests i) state) [] :=
    program_accesses (requests i) state
  obtain ⟨parsed, input, identified, same, artifact⟩ := accesses.write
  refine ⟨i, parsed, input, identified.extend longer, same, parsed, identified.typed, ?_⟩
  have vouched {event : GatewayEvent} (member : event ∈ before) : event.Vouched vendor :=
    run_vouched run i event (Pool.mem_own.mp (longer.subset member))
  have asks {event : GatewayEvent} (member : event ∈ before) : ∃ past, Accesses (requests i) state past event.request := by
    obtain ⟨first, rest, again⟩ := List.append_of_mem (longer.subset member)
    exact ⟨first, Pool.run_called meets run again⟩
  rcases artifact with ⟨asked, body, told, rfl⟩ | ⟨asked, stream, captured, told, captures, rfl⟩
  · obtain ⟨past, accesses⟩ := asks told
    obtain rfl := Except.ok.inj (identified.typed.symm.trans (Accesses.vendor (.inl accesses)))
    obtain ⟨formed, plain, trips⟩ := storable.body _ _ (vouched told)
    refine .inl ⟨body, longer.subset told, ?_⟩
    rcases decodes with ⟨decoded, silent⟩ | ⟨object, decoded, _⟩
    · exact ⟨decoded_body formed plain trips decoded, silent⟩
    · exact absurd decoded (body_is_no_stream formed plain trips)
  · obtain ⟨past, accesses⟩ := asks told
    obtain rfl := Except.ok.inj (identified.typed.symm.trans (Accesses.vendor (.inr accesses)))
    obtain ⟨formed, trips⟩ := storable.stream _ _ captured (vouched told) captures
    refine .inr ⟨stream, captured, longer.subset told, captures, ?_⟩
    rcases decodes with ⟨decoded, silent⟩ | ⟨object, decoded, body, events⟩
    · exact ⟨decoded_stream formed trips decoded, by simp [silent]⟩
    · obtain ⟨stored, read, replayed, same⟩ := streamObjectFromBytes_serialize formed trips
      rw [read] at decoded
      cases decoded
      exact ⟨body ▸ same, by simp [events, replayed]⟩

/-- A flight shares what its leader was told under the key of the flight. -/
private theorem shared_told {j : I} {flight : SingleflightKey} {waiter : Nat} {shared response : GatewayResponse}
    (begun : (j, ⟨.begin flight, .ok (.waiter waiter)⟩) ∈ s.history)
    (waited : (j, ⟨.wait waiter, .ok shared⟩) ∈ s.history) (body : response.body = shared.body)
    (events : response.streamEvents = shared.streamEvents) :
    ToldUnder requests state s.history (flight.tenantId, flight.cacheKey) response := by
  obtain ⟨i, published⟩ | ⟨⟨_, ⟨⟩⟩, _⟩ := waited_source run waited
  have linked := run_linked run
  have outcomes (i : I) : (programs requests state i).Meets RequestCalls
      (fun later result => Settled later ∧ ((requests i).Admitted state → Outcome later result)) [] :=
    handleResponseRequest_outcome (requests i) state
  obtain ⟨⟨key, leads⟩, _⟩ := published_past outcomes run (Pool.mem_own.mpr published)
  -- the waiter, its leader and the leader's request are all under one key
  have joined := (linked.waiter waiter).mpr ⟨j, flight, begun⟩
  have same := ((Flights.run_coherent (run_flights run)).waiter waiter joined).2.1
  rw [run_waits run begun, linked.leads i key _ (Pool.mem_own.mp leads)] at same
  subst same
  have meets : (programs requests state i).Meets (Accesses (requests i) state) (Answered (requests i) state) [] :=
    program_accesses (requests i) state
  obtain ⟨first, rest, atBegin⟩ := List.append_of_mem leads
  obtain ⟨before, after, atPublish⟩ := List.append_of_mem (Pool.mem_own.mpr published)
  obtain ⟨parsed, input, identified, under⟩ := (Pool.run_called meets run atBegin).begin
  obtain ⟨asked, typed, told, silent⟩ := (Pool.run_called meets run atPublish).publish
  have told : ⟨.complete asked, .ok shared.body⟩ ∈ Pool.own s.history i := atPublish ▸ List.mem_append_left _ told
  have formed := (storable.body _ _ (run_vouched run i _ (Pool.mem_own.mp told))).1
  refine ⟨i, parsed, input, identified.extend (atBegin ▸ List.prefix_append _ _), under, asked, typed, .inl ?_⟩
  exact ⟨shared.body, told, by rw [body]; exact .refl formed, events.trans silent⟩

/-- What any source says was told under the key. -/
private theorem source_told (reads : ReadsSent (Offered requests state s.history) s.history) {j : I}
    {parsed : ResponsesRequest} {input : FingerprintInput} {response : GatewayResponse}
    (identified : Identified (requests j) state (Pool.own s.history j) parsed input)
    (source : Source parsed input.objectKey (Pool.own s.history j) response) :
    ToldUnder requests state s.history input.objectKey response := by
  have self (told : Told (requests j) (Pool.own s.history j) response) :
      ToldUnder requests state s.history input.objectKey response := ⟨j, parsed, input, identified, rfl, told⟩
  cases source with
  | completed told silent =>
    have formed := (storable.body _ _ (run_vouched run j _ (Pool.mem_own.mp told))).1
    exact self ⟨parsed, identified.typed, .inl ⟨response.body, told, .refl formed, silent⟩⟩
  | @streamed stream captured told collected body events =>
    have captures := collectStream_captures collected
    have formed := (storable.stream _ _ captured (run_vouched run j _ (Pool.mem_own.mp told)) captures).1
    refine self ⟨parsed, identified.typed, .inr ⟨stream, captured, told, captures, ?_, by simp [events]⟩⟩
    rw [body]
    exact .refl formed
  | read found decoded silent =>
    exact offered_told storable run (reads j input.objectKey _ _ (Pool.mem_own.mp found)) (.inl ⟨decoded, silent⟩)
  | replayed found decoded body events =>
    exact offered_told storable run (reads j input.objectKey _ _ (Pool.mem_own.mp found))
      (.inr ⟨_, decoded, body, events⟩)
  | shared begun same waited body events =>
    exact same ▸ shared_told storable run (Pool.mem_own.mp begun) (Pool.mem_own.mp waited) body events

omit [JsonWriter] storable run in
theorem Identified.formed {request : GatewayRequest} {past : List GatewayEvent} {parsed : ResponsesRequest}
    {input : FingerprintInput} (h : Identified request state past parsed input)
    (formed : request.body.wellFormed = true) : input.body.wellFormed = true := by
  rw [h.body]
  exact fingerprintBodyWithoutStream_wellFormed ⟨request.body, formed⟩

/-- Where what was read was offered under the reader's key, an answer with status 200 is what the vendor told some
request with the same fingerprint. -/
theorem answered_told (reads : ReadsSent (Offered requests state s.history) s.history)
    (formed : ∀ i, (requests i).body.wellFormed = true)
    (apart : ∀ i j parsed parsed' a b, Identified (requests i) state (Pool.own s.history i) parsed a →
      Identified (requests j) state (Pool.own s.history j) parsed' b → TellsApart a b)
    {j : I} {response : GatewayResponse} (ended : s.threads j = .done (.ok response)) (status : response.statusCode = 200) :
    ∃ i parsed a parsed' b, Told (requests i) (Pool.own s.history i) response ∧
      Identified (requests i) state (Pool.own s.history i) parsed a ∧
      Identified (requests j) state (Pool.own s.history j) parsed' b ∧
      a.tenantId = b.tenantId ∧ a.resolvedModelVersion = b.resolvedModelVersion ∧ a.cachePolicy = b.cachePolicy ∧
      (fingerprintBodyWithoutStream (requests i).body).Same (fingerprintBodyWithoutStream (requests j).body) := by
  have met := Pool.run_meets (i := j) (program_accesses (requests j) state) run
  rw [ended] at met
  obtain ⟨parsed', b, identified, source⟩ := met status
  obtain ⟨i, parsed, a, writer, same, told⟩ := source_told storable run reads identified source
  have keys : computeCacheKey a = computeCacheKey b := by
    rw [computeCacheKey_eq, computeCacheKey_eq]
    exact congrArg (fun key : ObjectKey => (.ok key.2 : CacheResult CacheKey)) same.symm
  rw [computeCacheKey_eq_iff (apart i j parsed parsed' a b writer identified) (writer.formed (formed i))
    (identified.formed (formed j)), FingerprintInput.doc_same_iff] at keys
  obtain ⟨tenant, _, _, version, _, policy, body⟩ := keys
  exact ⟨i, parsed, a, parsed', b, told, writer, identified, tenant, version, policy, writer.body ▸ identified.body ▸ body⟩


end

section
variable {I : Type} [DecidableEq I] [Sha256] [JsonWriter] [JsonReader] {vendor : (call : Call) → call.Reply → Prop}
  {nodeId : String} {len capacity maxWaiters : Nat} {requests : I → GatewayRequest} {state : GatewayState}
  {trace : List (Pool.Label I (GatewayAction MasterOp) Call Call.Reply)} {s : GatewayPool I (CacheWorld MemoryStore)}
  (storable : Storable vendor)
  (run : Run (Pool.Step (GatewayWorld.server (CacheWorld.server localStoreClient fun op => op.grows = false) vendor))
    (Pool.initial ⟨freshCache nodeId len capacity, .new maxWaiters⟩ (programs requests state)) trace s)

include storable run

/-- However the requests of a gateway interleave, and whatever fails, is cancelled, evicted or removed: an answer
with status 200 is what the vendor told some request of the same tenant, model version and cache policy, whose
body differs at most in the order of members and in asking for a stream. -/
theorem answers_are_vendors (formed : ∀ i, (requests i).body.wellFormed = true)
    (apart : ∀ i j parsed parsed' a b, Identified (requests i) state (Pool.own s.history i) parsed a →
      Identified (requests j) state (Pool.own s.history j) parsed' b → TellsApart a b)
    {j : I} {response : GatewayResponse} (ended : s.threads j = .done (.ok response)) (status : response.statusCode = 200) :
    ∃ i parsed a parsed' b, Told (requests i) (Pool.own s.history i) response ∧
      Identified (requests i) state (Pool.own s.history i) parsed a ∧
      Identified (requests j) state (Pool.own s.history j) parsed' b ∧
      a.tenantId = b.tenantId ∧ a.resolvedModelVersion = b.resolvedModelVersion ∧ a.cachePolicy = b.cachePolicy ∧
      (fingerprintBodyWithoutStream (requests i).body).Same (fingerprintBodyWithoutStream (requests j).body) := by
  have traced : Traced s.history s.world.cache := run_traced (fun i => (program_accesses (requests i) state).mono
    (fun _ _ => Accesses.disciplined) fun _ _ => id) run
  exact answered_told storable run (traced.reads.mono (Offered.of_sent run)) formed apart ended status

end

def politeVendor : (call : Call) → call.Reply → Prop
  | .resolveModelVersion _, reply => reply = .ok "gpt-x"
  | .complete _, reply => reply = .ok (.string "hi")
  | .stream _, _ => False
  | _, _ => False

theorem politeVendor_storable : @Storable greetingTexts greetingReader politeVendor := by
  let _ := greetingTexts
  let _ := greetingReader
  refine ⟨fun asked body told => ?_, fun _ _ _ told => told.elim⟩
  obtain rfl : body = .string "hi" := by injection told
  exact ⟨rfl, rfl, _, rfl, rfl, .refl rfl⟩

theorem greeting_identified {past : List GatewayEvent} {parsed : ResponsesRequest} {input : FingerprintInput}
    (identified : @Identified greetingDigests greetingReader greetingRequest openGateway past parsed input)
    (vouched : ∀ event ∈ past, event.Vouched politeVendor) :
    input = ⟨⟨"tenant-a"⟩, endpointVersion, "openai", "gpt-x", "openai-responses-v1", fingerprintPolicy .default,
      fingerprintBodyWithoutStream greetingRequest.body⟩ := by
  let _ := greetingDigests
  obtain ⟨_, authenticated, _, resolved, ⟨cacheControl, controlled, policy⟩, ⟨endpoint, vendor, adapter⟩, body⟩ := identified
  have version : input.resolvedModelVersion = "gpt-x" := Except.ok.inj (vouched _ resolved)
  have owner : input.tenantId = ⟨"tenant-a"⟩ := Option.some.inj (authenticated.symm.trans greeting_authenticated)
  have asked : CacheControl.parse (greetingRequest.cacheControl.getD "") = .ok .default := by decide
  obtain rfl : cacheControl = .default := Except.ok.inj (controlled.symm.trans asked)
  cases input
  simp_all [openGateway]

/-- The second greeting is answered from the store with what the vendor told the first. -/
theorem greeting_is_vendors : ∃ i parsed a parsed' b, ∃ s : GatewayPool Bool (CacheWorld MemoryStore), ∃ response,
    s.threads false = .done (.ok response) ∧ (∀ asked reply, (false, ⟨.complete asked, reply⟩) ∉ s.history) ∧
      @Told greetingReader greetingRequest (Pool.own s.history i) response ∧
      @Identified greetingDigests greetingReader greetingRequest openGateway (Pool.own s.history i) parsed a ∧
      @Identified greetingDigests greetingReader greetingRequest openGateway (Pool.own s.history false) parsed' b ∧
      a.tenantId = b.tenantId ∧ a.resolvedModelVersion = b.resolvedModelVersion ∧ a.cachePolicy = b.cachePolicy ∧
      (fingerprintBodyWithoutStream greetingRequest.body).Same (fingerprintBodyWithoutStream greetingRequest.body) := by
  let _ := greetingDigests
  let _ := greetingTexts
  let _ := greetingReader
  have idle : Run (Pool.Step (GatewayWorld.server (CacheWorld.server localStoreClient fun op => op.grows = false)
    politeVendor)) (Pool.initial ⟨freshCache "store-0" 16 16, .new 1024⟩
      (programs (fun _ : Bool => greetingRequest) openGateway)) [] _ := .start
  have stored := idle.snoc (GatewayWorld.call_step true (.resolveModelVersion "gpt-x") (.ok "gpt-x") greeting_program
      ⟨rfl, rfl⟩)
    |>.snoc (.call (i := true) rfl ⟨_, .inl ⟨0, rfl, rfl⟩, rfl⟩)
    |>.snoc (.call (i := true) rfl ⟨rfl, rfl⟩)
    |>.snoc (GatewayWorld.call_step true (.recordSingleflight .leader) () rfl rfl)
    |>.snoc (GatewayWorld.call_step true (.complete _) (.ok (.string "hi")) rfl ⟨rfl, rfl⟩)
    |>.snoc (GatewayWorld.call_step true .recordVendorCall () rfl rfl)
    |>.snoc (.call (i := true) rfl ⟨_, .inl ⟨rfl, rfl⟩, rfl⟩)
    |>.snoc (.call (i := true) rfl ⟨_, .inl ⟨rfl, rfl⟩, rfl⟩)
    |>.snoc (.call (i := true) rfl ⟨_, .inl ⟨rfl, rfl⟩, rfl⟩)
  have read := stored.snoc (GatewayWorld.call_step false (.resolveModelVersion "gpt-x") (.ok "gpt-x") greeting_program
      ⟨rfl, rfl⟩)
    |>.snoc (.call (i := false) rfl ⟨_, .inl ⟨0, rfl, rfl⟩, rfl⟩)
    |>.snoc (.call (i := false) rfl ⟨_, .inl ⟨rfl, rfl⟩, rfl⟩)
    |>.snoc (GatewayWorld.call_step false (.recordCacheStatus .hit) () rfl rfl)
    |>.snoc (GatewayWorld.call_step false (.recordWrite .skipped) () rfl rfl)
    |>.snoc (GatewayWorld.call_step false (.recordSingleflight .none) () rfl rfl)
  have vouched := run_vouched read
  obtain ⟨i, parsed, a, parsed', b, told⟩ := answers_are_vendors politeVendor_storable read (fun _ => by decide)
    (fun i j _ _ a b left right => by
      obtain rfl := greeting_identified left fun event member => vouched i event (Pool.mem_own.mp member)
      obtain rfl := greeting_identified right fun event member => vouched j event (Pool.mem_own.mp member)
      exact ⟨fun _ => rfl, fun _ => rfl⟩) (j := false) rfl rfl
  exact ⟨i, parsed, a, parsed', b, _, _, rfl, by simp [Pool.initial], told⟩

end Mooncache
