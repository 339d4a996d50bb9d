import Mooncache.Gateway.CacheAccess
import Mooncache.Gateway.NonCaching

/-! What a request has stored when it is answered, and what its header says of it. -/
namespace Mooncache
open Program

/-- No call has changed the cache. -/
def Untouched (past : List GatewayEvent) : Prop := ∀ event ∈ past, event.request.isChange = false

/-- Between a reservation and its end: a chunk is written, or `put_end` fails. -/
def GatewayEvent.Lingers : GatewayEvent → Prop
  | ⟨.writePreallocatedChunk _ _ _ _ _, _⟩ => True
  | ⟨.putEnd _ _, reply⟩ => ∃ err, reply = .error err
  | _ => False

/-- The events are a reservation that was granted and not yet ended. -/
def Holds (tenantId : TenantId) (cacheKey : CacheKey) (len : Nat) (new : List GatewayEvent) : Prop :=
  ∃ replicas middle, new = ⟨.putStart tenantId cacheKey len replicaCount, .ok replicas⟩ :: middle ∧
    ∀ event ∈ middle, GatewayEvent.Lingers event

/-- There is one reservation, and it is ended while it is held. -/
def InOrder (new : List GatewayEvent) : Call → Prop
  | .putStart _ _ _ _ => new = []
  | .putEnd tenantId cacheKey | .putRevoke tenantId cacheKey => ∃ len, Holds tenantId cacheKey len new
  | _ => True

/-- The same, after calls that change nothing. -/
def OrderedAfter (past : List GatewayEvent) (call : Call) : Prop :=
  ∃ before new, past = before ++ new ∧ Untouched before ∧ InOrder new call

/-- How `write_cached_bytes` goes: refused, committed with every replica written, or taken back. -/
inductive WriteOutcome (tenantId : TenantId) (cacheKey : CacheKey) (bytes : List UInt8) :
    List GatewayEvent → GatewayResult CacheWriteStatus → Prop
  | refused (err : GatewayError) :
    WriteOutcome tenantId cacheKey bytes [⟨.putStart tenantId cacheKey bytes.length replicaCount, .error err⟩] (.error err)
  | committed {replicas : List ReplicaDescriptor} {writes : List GatewayEvent} :
    (∀ event ∈ writes, GatewayEvent.Lingers event) →
    (∀ replica ∈ replicas, CacheClient.Written tenantId cacheKey bytes writes replica) →
    WriteOutcome tenantId cacheKey bytes
      (⟨.putStart tenantId cacheKey bytes.length replicaCount, .ok replicas⟩ :: writes ++
        [⟨.putEnd tenantId cacheKey, .ok ()⟩]) (.ok .committed)
  | revoked {replicas : List ReplicaDescriptor} {middle : List GatewayEvent} (reply : GatewayResult Unit)
      (err : GatewayError) : (∀ event ∈ middle, GatewayEvent.Lingers event) →
    WriteOutcome tenantId cacheKey bytes
      (⟨.putStart tenantId cacheKey bytes.length replicaCount, .ok replicas⟩ :: middle ++
        [⟨.putRevoke tenantId cacheKey, reply⟩]) (.error err)

section
variable {tenantId : TenantId} {cacheKey : CacheKey} {bytes : List UInt8} {replicas : List ReplicaDescriptor}
  {past later : List GatewayEvent}

theorem Untouched.nil : Untouched [] := nofun

theorem Untouched.append (h : Untouched past) (h' : Untouched later) : Untouched (past ++ later) :=
  fun event member => (List.mem_append.mp member).elim (h event) (h' event)

theorem orderedAfter_of_unchanging {call : Call} (h : call.isChange = false) (past : List GatewayEvent) :
    OrderedAfter past call :=
  ⟨[], past, rfl, .nil, by cases call <;> trivial⟩

/-- The loop over the replicas, with those still to be written. -/
private theorem writeReservedReplicas_lingers (rest : List ReplicaDescriptor) {writes : List GatewayEvent}
    (lingers : ∀ event ∈ writes, GatewayEvent.Lingers event)
    (written : ∀ replica ∈ replicas, replica ∈ rest ∨ CacheClient.Written tenantId cacheKey bytes writes replica) :
    (Flow.writeReservedReplicas tenantId cacheKey bytes rest).Meets InOrder
      (fun past result => ∃ writes,
        past = ⟨.putStart tenantId cacheKey bytes.length replicaCount, .ok replicas⟩ :: writes ∧
        (∀ event ∈ writes, GatewayEvent.Lingers event) ∧
        (result = .ok () → ∀ replica ∈ replicas, CacheClient.Written tenantId cacheKey bytes writes replica))
      (⟨.putStart tenantId cacheKey bytes.length replicaCount, .ok replicas⟩ :: writes) := by
  induction rest generalizing writes with
  | nil => exact ⟨writes, rfl, lingers, fun _ replica member => (written replica member).resolve_left (by simp)⟩
  | cons replica rest ih =>
    refine ⟨trivial, fun reply => ?_⟩
    have more : ∀ event ∈ writes ++ [⟨.writePreallocatedChunk replica.nodeId tenantId cacheKey (.fromReplica replica)
        bytes, reply⟩], GatewayEvent.Lingers event := by
      intro event member
      rcases List.mem_append.mp member with earlier | last
      · exact lingers event earlier
      · rw [List.mem_singleton.mp last]
        trivial
    cases reply with
    | error err => exact ⟨_, rfl, more, nofun⟩
    | ok done =>
      refine ih more fun other member => ?_
      rcases written other member with left | done
      · rcases List.mem_cons.mp left with rfl | left
        · exact .inr (List.mem_append_right _ (List.mem_singleton_self _))
        · exact .inl left
      · exact .inr (done.snoc _)

private theorem revoke_outcome {middle : List GatewayEvent} (lingers : ∀ event ∈ middle, GatewayEvent.Lingers event)
    (err : GatewayError) :
    (do return .error (← Flow.revokeReservationAfterWriteFailure tenantId cacheKey err) :
      Flow (GatewayResult CacheWriteStatus)).Meets InOrder (WriteOutcome tenantId cacheKey bytes)
      (⟨.putStart tenantId cacheKey bytes.length replicaCount, .ok replicas⟩ :: middle) := by
  refine ⟨⟨_, replicas, middle, rfl, lingers⟩, fun reply => ?_⟩
  cases reply <;> exact .revoked _ _ lingers

theorem writeCachedBytes_outcome (tenantId : TenantId) (cacheKey : CacheKey) (bytes : List UInt8) :
    (Flow.writeCachedBytes tenantId cacheKey bytes).Meets InOrder (WriteOutcome tenantId cacheKey bytes) [] := by
  refine ⟨rfl, fun reply => ?_⟩
  cases reply with
  | error err => exact .refused err
  | ok replicas =>
    have nothing : ∀ event ∈ ([] : List GatewayEvent), GatewayEvent.Lingers event := nofun
    refine (writeReservedReplicas_lingers replicas nothing fun _ member => .inl member).bind ?_
    rintro past (err | done) ⟨writes, rfl, lingers, written⟩
    · exact revoke_outcome lingers err
    · refine ⟨⟨_, replicas, writes, rfl, lingers⟩, fun reply => ?_⟩
      cases reply with
      | ok done => exact .committed lingers (written rfl)
      | error err =>
        have more : ∀ event ∈ writes ++ [⟨.putEnd tenantId cacheKey, .error err⟩], GatewayEvent.Lingers event := by
          intro event member
          rcases List.mem_append.mp member with earlier | last
          · exact lingers event earlier
          · rw [List.mem_singleton.mp last]
            exact ⟨err, rfl⟩
        exact revoke_outcome more err

end

/-! The functions of the flow. -/

/-- `unwrap_or(Failed)`. -/
def writeStatusOf : GatewayResult CacheWriteStatus → CacheWriteStatus
  | .ok writeStatus => writeStatus
  | .error _ => .failed

def GatewayResponse.SaysWrite (response : GatewayResponse) (writeStatus : CacheWriteStatus) : Prop :=
  response.headers.lookup "x-cache-write" = some writeStatus.asHeaderValue

variable [JsonWriter] [JsonReader]

/-- The bytes to be stored: the vendor's body, or its whole stream with the final body. -/
def Artifact (past : List GatewayEvent) (bytes : List UInt8) : Prop :=
  (∃ request body, ⟨.complete request, .ok body⟩ ∈ past ∧ bytes = toVec body) ∨
  ∃ request stream captured, ⟨.stream request, .ok stream⟩ ∈ past ∧ Captures stream captured ∧
    bytes = serializeStreamObject captured

/-- A request has stored nothing and does not say so, or, where that is what it is to do, it has tried to
store the vendor's answer under its key and says how that went. -/
inductive Concluded (writing : Prop) (tenantId : TenantId) (cacheKey : CacheKey) (past : List GatewayEvent) :
    GatewayResult GatewayResponse → Prop
  | unwritten {result : GatewayResult GatewayResponse} : Untouched past →
    (∀ response, result = .ok response → ∃ writeStatus, writeStatus ≠ .committed ∧ response.SaysWrite writeStatus) →
    Concluded writing tenantId cacheKey past result
  | wrote {before new after : List GatewayEvent} {bytes : List UInt8} {outcome : GatewayResult CacheWriteStatus}
      {response : GatewayResponse} : writing → past = before ++ new ++ after → Untouched before → Untouched after →
    WriteOutcome tenantId cacheKey bytes new outcome → Artifact before bytes →
    response.SaysWrite (writeStatusOf outcome) → Concluded writing tenantId cacheKey past (.ok response)

section
variable {tenantId : TenantId} {cacheKey : CacheKey} {past later : List GatewayEvent}

omit [JsonWriter] [JsonReader] in
/-- What a program adds that changes nothing. -/
theorem Program.Meets.untouched {α : Type} {p : Flow α} {post : List GatewayEvent → α → Prop}
    (h : p.Meets (fun _ call => call.isChange = false) post past) :
    p.Meets OrderedAfter (fun later value => (∃ new, later = past ++ new ∧ Untouched new) ∧ post later value) past :=
  h.adds.mono (fun _ _ unchanging => orderedAfter_of_unchanging unchanging _) fun _ _ met => met

omit [JsonWriter] [JsonReader] in
/-- Writing is skipped in read-only mode, and has its outcome in the others. -/
theorem storeMiss_outcome (untouched : Untouched past) (cacheControl : CacheControl) (bytes : List UInt8) :
    (Flow.storeMiss cacheControl (Flow.writeCachedBytes tenantId cacheKey bytes)).Meets OrderedAfter
      (fun later writeStatus => (later = past ∧ writeStatus = .skipped) ∨
        cacheControl ≠ .readOnly ∧ ∃ new outcome, later = past ++ new ∧
          WriteOutcome tenantId cacheKey bytes new outcome ∧ writeStatus = writeStatusOf outcome) past := by
  unfold Flow.storeMiss
  split
  · exact .inl ⟨rfl, rfl⟩
  · rename_i writing
    have written := (writeCachedBytes_outcome tenantId cacheKey bytes).shift past
    rw [List.append_nil] at written
    refine Meets.bind (written.mono (fun later call ordered => ?_) fun _ _ => id) ?_
    · obtain ⟨new, rfl, ordered⟩ := ordered
      exact ⟨past, new, rfl, untouched, ordered⟩
    · rintro later outcome ⟨new, rfl, went⟩
      cases outcome with
      | error err => exact .inr ⟨writing, new, _, rfl, went, rfl⟩
      | ok writeStatus => exact .inr ⟨writing, new, _, rfl, went, rfl⟩

/-- A response after a miss, once its calls that change nothing are made. -/
theorem concluded_of_stored {cacheControl : CacheControl} {bytes : List UInt8} {writeStatus : CacheWriteStatus}
    {middle after : List GatewayEvent} {response : GatewayResponse} {writing : Prop}
    (mode : cacheControl ≠ .readOnly → writing) (untouched : Untouched past) (artifact : Artifact past bytes)
    (stored : (middle = past ∧ writeStatus = .skipped) ∨ cacheControl ≠ .readOnly ∧ ∃ new outcome,
      middle = past ++ new ∧ WriteOutcome tenantId cacheKey bytes new outcome ∧ writeStatus = writeStatusOf outcome)
    (rest : Untouched after) (header : response.SaysWrite writeStatus) :
    Concluded writing tenantId cacheKey (middle ++ after) (.ok response) := by
  rcases stored with ⟨rfl, rfl⟩ | ⟨writes, new, outcome, rfl, went, rfl⟩
  · refine .unwritten (untouched.append rest) ?_
    rintro _ ⟨⟩
    exact ⟨.skipped, nofun, header⟩
  · exact .wrote (mode writes) rfl untouched rest went artifact header

/-- Further calls that change nothing leave what is concluded, and so do other headers. -/
theorem Concluded.grow {writing : Prop} {response answer : GatewayResponse} {new : List GatewayEvent}
    (h : Concluded writing tenantId cacheKey past (.ok response)) (untouched : Untouched new)
    (same : ∀ writeStatus, response.SaysWrite writeStatus → answer.SaysWrite writeStatus) :
    Concluded writing tenantId cacheKey (past ++ new) (.ok answer) := by
  cases h with
  | unwritten before answers =>
    refine .unwritten (before.append untouched) ?_
    rintro _ ⟨⟩
    obtain ⟨writeStatus, uncommitted, header⟩ := answers response rfl
    exact ⟨writeStatus, uncommitted, same _ header⟩
  | wrote writes split before after went artifact header =>
    refine .wrote writes ?_ before (after.append untouched) went artifact (same _ header)
    rw [split, List.append_assoc]

variable {writing : Prop}

/-- A program that changes nothing, and an answer that says so. -/
theorem Program.Meets.concludes {p : Flow (GatewayResult GatewayResponse)}
    {post : List GatewayEvent → GatewayResult GatewayResponse → Prop}
    (h : p.Meets (fun _ call => call.isChange = false) post past) (untouched : Untouched past)
    (header : ∀ later result, post later result → ∀ response, result = .ok response →
      ∃ writeStatus, writeStatus ≠ .committed ∧ response.SaysWrite writeStatus) :
    p.Meets OrderedAfter (Concluded writing tenantId cacheKey) past := by
  refine h.untouched.mono (fun _ _ => id) fun later result met => ?_
  obtain ⟨⟨new, rfl, more⟩, met⟩ := met
  exact Concluded.unwritten (untouched.append more) (header _ result met)

theorem vendorResponse_unwritten (untouched : Untouched past) (request : ResponsesRequest) (cacheStatus : CacheStatus)
    (writeStatus : CacheWriteStatus) (uncommitted : writeStatus ≠ .committed) (key : Option CacheKey) :
    (Flow.vendorResponse request cacheStatus writeStatus key).Meets OrderedAfter
      (Concluded writing tenantId cacheKey) past := by
  refine Meets.concludes ((vendorResponse_uncached past request cacheStatus writeStatus key).mono
    (fun _ _ => Call.unchanging_of_isCache) fun _ _ => id) untouched fun _ _ met response answer => ?_
  exact ⟨writeStatus, uncommitted, (met response answer).2.write⟩

theorem vendorStreamResponse_unwritten (untouched : Untouched past) (request : ResponsesRequest)
    (cacheStatus : CacheStatus) (writeStatus : CacheWriteStatus) (uncommitted : writeStatus ≠ .committed)
    (key : Option CacheKey) : (Flow.vendorStreamResponse request cacheStatus writeStatus key).Meets OrderedAfter
      (Concluded writing tenantId cacheKey) past := by
  refine Meets.concludes ((vendorStreamResponse_uncached past request cacheStatus writeStatus key).mono
    (fun _ _ => Call.unchanging_of_isCache) fun _ _ => id) untouched fun _ _ met response answer => ?_
  exact ⟨writeStatus, uncommitted, (met response answer).2.write⟩

theorem recordSimple_unwritten (untouched : Untouched past) (cacheStatus : CacheStatus) {response : GatewayResponse}
    (header : response.SaysWrite .skipped) :
    (do Flow.recordSimple cacheStatus .skipped; return .ok response : Flow (GatewayResult GatewayResponse)).Meets
      OrderedAfter (Concluded writing tenantId cacheKey) past := by
  refine (recordSimple_unchanging past cacheStatus .skipped).untouched.bind ?_
  rintro later _ ⟨⟨new, rfl, more⟩, _⟩
  refine Concluded.unwritten (untouched.append more) ?_
  rintro _ ⟨⟩
  exact ⟨.skipped, nofun, header⟩

theorem cacheOnlyMiss_unwritten (untouched : Untouched past) (key : CacheKey) :
    (Flow.cacheOnlyMiss key).Meets OrderedAfter (Concluded writing tenantId cacheKey) past :=
  recordSimple_unwritten untouched .cacheOnlyMiss ((GatewayResponse.labelled_error ..).withCacheKey key).write

theorem cacheableNonStreamingMiss_concluded (untouched : Untouched past) {cacheControl : CacheControl}
    (mode : cacheControl ≠ .readOnly → writing) (request : ResponsesRequest) :
    (Flow.cacheableNonStreamingMiss tenantId cacheControl request cacheKey).Meets OrderedAfter
      (Concluded writing tenantId cacheKey) past := by
  have answered := (completeVendor_plain past request).and (completeVendor_unchanging past request)
  refine ((answered.mono (fun _ _ => And.right) fun _ _ => And.left).untouched).bind ?_
  rintro later (err | body) ⟨⟨new, rfl, more⟩, met⟩
  · exact Concluded.unwritten (untouched.append more) nofun
  · refine (storeMiss_outcome (untouched.append more) cacheControl (toVec body)).bind fun middle writeStatus stored => ?_
    refine ⟨orderedAfter_of_unchanging rfl _, fun _ => ⟨orderedAfter_of_unchanging rfl _, fun _ => ?_⟩⟩
    rw [List.append_assoc]
    refine concluded_of_stored mode (untouched.append more) (.inl ⟨request, body, met, rfl⟩) stored ?_ ?_
    · simp [Untouched, Call.isChange]
    · exact (GatewayResponse.labelled_ok ..).write

theorem streamingMiss_concluded (untouched : Untouched past) {cacheControl : CacheControl}
    (mode : cacheControl ≠ .readOnly → writing) (request : ResponsesRequest) :
    (Flow.streamingMiss tenantId cacheControl request cacheKey).Meets OrderedAfter
      (Concluded writing tenantId cacheKey) past := by
  have answered := (collectVendor_plain past request).and (collectVendor_unchanging past request)
  refine ((answered.mono (fun _ _ => And.right) fun _ _ => And.left).untouched).bind ?_
  rintro later (err | captured) ⟨⟨new, rfl, more⟩, met⟩
  · exact Concluded.unwritten (untouched.append more) nofun
  · obtain ⟨stream, member, collected⟩ := met
    refine (storeMiss_outcome (untouched.append more) cacheControl (serializeStreamObject captured)).bind
      fun middle writeStatus stored => ?_
    refine ⟨orderedAfter_of_unchanging rfl _, fun _ => ⟨orderedAfter_of_unchanging rfl _,
      fun _ => ⟨orderedAfter_of_unchanging rfl _, fun _ => ?_⟩⟩⟩
    rw [List.append_assoc, List.append_assoc]
    refine concluded_of_stored mode (untouched.append more)
      (.inr ⟨request, stream, captured, member, collectStream_captures collected, rfl⟩) stored ?_ ?_
    · simp [Untouched, Call.isChange]
    · exact (GatewayResponse.labelled_okStream ..).write

omit [JsonWriter] [JsonReader] in
theorem GatewayResponse.SaysWrite.withCacheCoalesced {response : GatewayResponse} {writeStatus : CacheWriteStatus}
    (h : response.SaysWrite writeStatus) (role : String) : (response.withCacheCoalesced role).SaysWrite writeStatus :=
  (Finmap.lookup_insert_of_ne _ (by decide)).trans h

theorem coalescedMiss_concluded (untouched : Untouched past) {cacheControl : CacheControl}
    (mode : cacheControl ≠ .readOnly → writing) (request : ResponsesRequest) :
    (Flow.coalescedMiss tenantId cacheControl request cacheKey).Meets OrderedAfter
      (Concluded writing tenantId cacheKey) past := by
  refine ⟨orderedAfter_of_unchanging rfl _, fun reply => ?_⟩
  have begun (reply : Except SingleflightError BegunFlight) (key : SingleflightKey) :
      Untouched (past ++ [⟨.begin key, reply⟩]) := untouched.append (by simp [Untouched, Call.isChange])
  rcases reply with err | leader | waiter | _
  · exact Concluded.unwritten (begun _ _) nofun
  · refine ⟨orderedAfter_of_unchanging rfl _, fun _ => ?_⟩
    have recorded := (begun (.ok (.leader leader)) ⟨tenantId, cacheKey, Flow.singleflightWriteMode cacheControl⟩).append
      (show Untouched [⟨.recordSingleflight .leader, ()⟩] by simp [Untouched, Call.isChange])
    refine (cacheableNonStreamingMiss_concluded recorded mode request).bind ?_
    rintro later (err | response) concluded
    · refine ⟨orderedAfter_of_unchanging rfl _, fun _ => ⟨orderedAfter_of_unchanging rfl _, fun _ => ?_⟩⟩
      cases concluded with
      | unwritten before _ =>
        refine Concluded.unwritten ((before.append ?_).append ?_) nofun <;> simp [Untouched, Call.isChange]
    · refine ⟨orderedAfter_of_unchanging rfl _, fun _ => ⟨orderedAfter_of_unchanging rfl _, fun _ => ?_⟩⟩
      rw [List.append_assoc]
      exact concluded.grow (by simp [Untouched, Call.isChange]) fun _ header => header.withCacheCoalesced "leader"
  · refine ⟨orderedAfter_of_unchanging rfl _, fun reply => ?_⟩
    rcases reply with message | shared
    · refine Concluded.unwritten ((begun _ _).append ?_) nofun
      simp [Untouched, Call.isChange]
    · refine ⟨orderedAfter_of_unchanging rfl _, fun _ => ⟨orderedAfter_of_unchanging rfl _,
        fun _ => ⟨orderedAfter_of_unchanging rfl _, fun _ => Concluded.unwritten ?_ ?_⟩⟩⟩
      · simp only [List.append_assoc]
        refine untouched.append ?_
        simp [Untouched, Call.isChange]
      · rintro _ ⟨⟩
        exact ⟨.skipped, nofun, Finmap.lookup_insert _⟩
  · refine ⟨orderedAfter_of_unchanging rfl _, fun _ => cacheableNonStreamingMiss_concluded ?_ mode request⟩
    exact (begun _ _).append (by simp [Untouched, Call.isChange])

omit [JsonWriter] [JsonReader] in
/-- A lookup finds the cache as it was, and leaves it so. -/
theorem lookUp_untouched {α : Type} {cacheControl : CacheControl}
    {read : Flow (GatewayResult (Option (Flow.CachedPayload α)))}
    (reads : read.Meets (fun _ call => call.isLookup = true) (fun _ _ => True) past) :
    (Flow.lookUp cacheControl read).Meets OrderedAfter
      (fun later _ => (∃ new, later = past ++ new ∧ Untouched new) ∧ True) past := by
  unfold Flow.lookUp
  split
  · exact ⟨⟨[], (List.append_nil past).symm, .nil⟩, trivial⟩
  · exact (reads.mono (fun _ _ => Call.unchanging_of_isLookup) fun _ _ => id).untouched

/-- The mode and the eligibility in which a miss is stored. -/
def Writing (cacheControl : CacheControl) (eligibility : EligibilityDecision) : Prop :=
  cacheControl ∉ [.bypass, .readOnly, .cacheOnly] ∧ eligibility = .cacheable

omit [JsonWriter] [JsonReader] in
theorem writing_of_not_readOnly {cacheControl : CacheControl} (used : cacheControl ≠ .bypass)
    (missing : cacheControl ≠ .cacheOnly) (stores : cacheControl ≠ .readOnly) : Writing cacheControl .cacheable :=
  ⟨by simp [used, missing, stores], rfl⟩

theorem nonStreamingResponse_concluded (untouched : Untouched past) (cacheAvailable : Bool)
    (cacheControl : CacheControl) (request : ResponsesRequest) (eligibility : EligibilityDecision) :
    (Flow.nonStreamingResponse cacheAvailable tenantId cacheControl request eligibility cacheKey).Meets OrderedAfter
      (Concluded (Writing cacheControl eligibility) tenantId cacheKey) past := by
  unfold Flow.nonStreamingResponse
  split
  · exact vendorResponse_unwritten untouched request .bypass .skipped nofun none
  · rename_i used
    cases eligibility with
    | bypass reason => exact vendorResponse_unwritten untouched request .ineligible .skipped nofun (some cacheKey)
    | cacheable =>
      dsimp only
      split
      · split
        · exact cacheOnlyMiss_unwritten untouched cacheKey
        · exact vendorResponse_unwritten untouched request .degraded .failed nofun (some cacheKey)
      · refine (lookUp_untouched (readCachedBody_lookups past tenantId cacheKey)).bind ?_
        rintro later (err | _ | payload) ⟨⟨new, rfl, more⟩, _⟩
        · exact Concluded.unwritten (untouched.append more) nofun
        · dsimp only
          split
          · exact cacheOnlyMiss_unwritten (untouched.append more) cacheKey
          · rename_i missing
            exact coalescedMiss_concluded (untouched.append more) (writing_of_not_readOnly used missing) request
        · exact recordSimple_unwritten (untouched.append more) .hit (GatewayResponse.labelled_ok ..).write

theorem streamingResponse_concluded (untouched : Untouched past) (cacheControl : CacheControl)
    (request : ResponsesRequest) (eligibility : EligibilityDecision) :
    (Flow.streamingResponse tenantId cacheControl request eligibility cacheKey).Meets OrderedAfter
      (Concluded (Writing cacheControl eligibility) tenantId cacheKey) past := by
  unfold Flow.streamingResponse
  split
  · exact vendorStreamResponse_unwritten untouched request .bypass .skipped nofun none
  · rename_i used
    cases eligibility with
    | bypass reason => exact vendorStreamResponse_unwritten untouched request .ineligible .skipped nofun (some cacheKey)
    | cacheable =>
      refine (lookUp_untouched (readCachedStreamObject_lookups past tenantId cacheKey)).bind ?_
      rintro later (err | _ | payload) ⟨⟨new, rfl, more⟩, _⟩
      · exact Concluded.unwritten (untouched.append more) nofun
      · dsimp only
        split
        · exact cacheOnlyMiss_unwritten (untouched.append more) cacheKey
        · rename_i missing
          exact streamingMiss_concluded (untouched.append more) (writing_of_not_readOnly used missing) request
      · exact recordSimple_unwritten (untouched.append more) .hit (GatewayResponse.labelled_okStream ..).write

/-- The request may store its answer: it is eligible and in a writing mode. -/
def GatewayRequest.Stores [Sha256] (request : GatewayRequest) (state : GatewayState) (tenantId : TenantId) : Prop :=
  ∃ cacheControl parsed, state.authenticate request.authorization = some tenantId ∧
    state.tenantAllowsVendor tenantId state.vendorId = true ∧
    CacheControl.parse (request.cacheControl.getD "") = .ok cacheControl ∧
    ResponsesRequest.fromValue request.body = .ok parsed ∧
    Writing cacheControl (request.eligibility state parsed cacheControl)

/-- What every request comes to. -/
theorem program_concluded [Sha256] (request : GatewayRequest) (state : GatewayState) :
    (request.program state).Meets OrderedAfter
      (fun later result => ∃ tenantId cacheKey,
        Concluded (request.Stores state tenantId) tenantId cacheKey later result) [] := by
  by_cases entered : request.Entered state
  · obtain ⟨tenantId, cacheControl, authenticated, allowed, controlled⟩ := entered
    cases typed : ResponsesRequest.fromValue request.body with
    | error err =>
      rw [GatewayRequest.program_malformed authenticated allowed controlled typed]
      exact ⟨tenantId, ⟨""⟩, .unwritten .nil nofun⟩
    | ok parsed =>
      rw [GatewayRequest.program_eq authenticated allowed controlled typed]
      refine ⟨orderedAfter_of_unchanging rfl _, fun reply => ?_⟩
      have resolved : Untouched [⟨.resolveModelVersion parsed.model, reply⟩] := by simp [Untouched, Call.isChange]
      have stores {cacheKey : CacheKey} {later : List GatewayEvent} {result : GatewayResult GatewayResponse}
          (h : Concluded (Writing cacheControl (request.eligibility state parsed cacheControl)) tenantId cacheKey
            later result) : ∃ tenantId cacheKey, Concluded (request.Stores state tenantId) tenantId cacheKey
              later result := by
        refine ⟨tenantId, cacheKey, ?_⟩
        cases h with
        | unwritten before header => exact .unwritten before header
        | wrote writes split before after went artifact header =>
          exact .wrote ⟨cacheControl, parsed, authenticated, allowed, controlled, typed, writes⟩ split before after
            went artifact header
      cases reply with
      | error err => exact ⟨tenantId, ⟨""⟩, .unwritten resolved nofun⟩
      | ok version =>
        dsimp only
        split
        · exact (streamingResponse_concluded resolved ..).mono (fun _ _ => id) fun _ _ => stores
        · exact (nonStreamingResponse_concluded resolved ..).mono (fun _ _ => id) fun _ _ => stores
  · obtain ⟨statusCode, message, _, program⟩ := GatewayRequest.program_refused entered
    rw [program]
    exact (recordSimple_unwritten .nil .bypass (GatewayResponse.labelled_error ..).write).mono (fun _ _ => id)
      fun _ _ met => ⟨⟨""⟩, ⟨""⟩, met⟩

end
end Mooncache
