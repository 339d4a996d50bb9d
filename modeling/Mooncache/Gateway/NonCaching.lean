import Mooncache.Gateway.CacheOnly
import Mooncache.Gateway.NodeServer
import Mooncache.Gateway.RequestOutlines

/-! Requests that leave the cache alone, and read-only requests, which only look into it. -/
namespace Mooncache
open Program

/-- The request asks for lookups only. -/
def GatewayRequest.IsReadOnly (request : GatewayRequest) : Prop :=
  CacheControl.parse (request.cacheControl.getD "") = .ok .readOnly

section
variable [JsonReader] (past : List GatewayEvent)

/-- An answer is the vendor's own. -/
def Vendored (later : List GatewayEvent) (result : GatewayResult GatewayResponse) : Prop :=
  ∀ response, result = .ok response → FromVendor later response

variable {past} in
theorem Uncached.vendored {cacheStatus : CacheStatus} {writeStatus : CacheWriteStatus}
    {p : Flow (GatewayResult GatewayResponse)}
    (h : p.Meets (fun _ call => call.isCache = false) (Uncached cacheStatus writeStatus) past) :
    p.Meets (fun _ call => call.isCache = false) Vendored past :=
  h.mono (fun _ _ uncached => uncached) fun _ _ met response answer => (met response answer).1

variable [JsonWriter] {cacheControl : CacheControl} {eligibility : EligibilityDecision}

theorem streamingResponse_vendored (plain : cacheControl = .bypass ∨ eligibility ≠ .cacheable) (tenantId : TenantId)
    (request : ResponsesRequest) (cacheKey : CacheKey) :
    (Flow.streamingResponse tenantId cacheControl request eligibility cacheKey).Meets
      (fun _ call => call.isCache = false) Vendored past := by
  unfold Flow.streamingResponse
  split
  · exact Uncached.vendored (vendorStreamResponse_uncached past ..)
  · rename_i used
    cases eligibility with
    | bypass reason => exact Uncached.vendored (vendorStreamResponse_uncached past ..)
    | cacheable => exact absurd rfl (plain.resolve_left used)

theorem nonStreamingResponse_vendored (plain : cacheControl = .bypass ∨ eligibility ≠ .cacheable)
    (cacheAvailable : Bool) (tenantId : TenantId) (request : ResponsesRequest) (cacheKey : CacheKey) :
    (Flow.nonStreamingResponse cacheAvailable tenantId cacheControl request eligibility cacheKey).Meets
      (fun _ call => call.isCache = false) Vendored past := by
  unfold Flow.nonStreamingResponse
  split
  · exact Uncached.vendored (vendorResponse_uncached past ..)
  · rename_i used
    cases eligibility with
    | bypass reason => exact Uncached.vendored (vendorResponse_uncached past ..)
    | cacheable => exact absurd rfl (plain.resolve_left used)

variable [Sha256] {request : GatewayRequest} {state : GatewayState}

omit past in
/-- A request that is refused, malformed, in bypass mode or ineligible makes no call to the cache, and what is
answered after its checks comes from the vendor. -/
theorem program_uncached (plain : ¬ request.Cacheable state) :
    (request.program state).Meets (fun _ call => call.isCache = false)
      (fun later result => request.Entered state → Vendored later result) [] := by
  by_cases entered : request.Entered state
  · refine Meets.mono ?_ (fun _ _ uncached => uncached) fun _ _ vendored _ => vendored
    obtain ⟨tenantId, cacheControl, authenticated, allowed, controlled⟩ := entered
    cases typed : ResponsesRequest.fromValue request.body with
    | error err =>
      rw [GatewayRequest.program_malformed authenticated allowed controlled typed]
      exact nofun
    | ok parsed =>
      rw [GatewayRequest.cacheable_iff authenticated allowed controlled typed, not_and_or, not_ne_iff] at plain
      rw [GatewayRequest.program_eq authenticated allowed controlled typed]
      refine ⟨rfl, fun reply => ?_⟩
      cases reply with
      | error err => exact nofun
      | ok version =>
        dsimp only
        split
        · exact streamingResponse_vendored _ plain ..
        · exact nonStreamingResponse_vendored _ plain ..
  · obtain ⟨statusCode, message, _, program⟩ := GatewayRequest.program_refused entered
    rw [program]
    exact (recordSimple_alone [] .bypass .skipped).bind fun _ _ _ refused => absurd refused entered

end

/-! Read-only requests. -/

section
variable (past : List GatewayEvent)

theorem completeVendor_unchanging (request : ResponsesRequest) :
    (Flow.completeVendor request).Meets (fun _ call => call.isChange = false) (fun _ _ => True) past := by
  refine ⟨rfl, fun reply => ⟨rfl, fun _ => ?_⟩⟩
  cases reply <;> trivial

theorem recordSimple_unchanging (cacheStatus : CacheStatus) (writeStatus : CacheWriteStatus) :
    (Flow.recordSimple cacheStatus writeStatus).Meets (fun _ call => call.isChange = false) (fun _ _ => True) past :=
  ⟨rfl, fun _ => ⟨rfl, fun _ => ⟨rfl, fun _ => trivial⟩⟩⟩

theorem Call.unchanging_of_isCache {call : Call} (h : call.isCache = false) : call.isChange = false := by
  cases call <;> first | rfl | cases h

theorem Call.unchanging_of_isLookup {call : Call} (h : call.isLookup = true) : call.isChange = false := by
  cases call <;> first | rfl | cases h

variable [JsonWriter]

theorem cacheableNonStreamingMiss_unchanging (tenantId : TenantId) (request : ResponsesRequest) (cacheKey : CacheKey) :
    (Flow.cacheableNonStreamingMiss tenantId .readOnly request cacheKey).Meets (fun _ call => call.isChange = false)
      (fun _ _ => True) past := by
  refine (completeVendor_unchanging past request).bind ?_
  rintro later (err | body) _
  · trivial
  · exact ⟨rfl, fun _ => ⟨rfl, fun _ => trivial⟩⟩

theorem coalescedMiss_unchanging (tenantId : TenantId) (request : ResponsesRequest) (cacheKey : CacheKey) :
    (Flow.coalescedMiss tenantId .readOnly request cacheKey).Meets (fun _ call => call.isChange = false)
      (fun _ _ => True) past := by
  refine ⟨rfl, fun reply => ?_⟩
  rcases reply with err | leader | waiter | _
  · trivial
  · refine ⟨rfl, fun _ => (cacheableNonStreamingMiss_unchanging _ tenantId request cacheKey).bind ?_⟩
    rintro later (err | response) _
    · exact ⟨rfl, fun _ => ⟨rfl, fun _ => trivial⟩⟩
    · exact ⟨rfl, fun _ => ⟨rfl, fun _ => trivial⟩⟩
  · refine ⟨rfl, fun reply => ?_⟩
    rcases reply with message | response
    · trivial
    · exact ⟨rfl, fun _ => ⟨rfl, fun _ => ⟨rfl, fun _ => trivial⟩⟩⟩
  · exact ⟨rfl, fun _ => cacheableNonStreamingMiss_unchanging _ tenantId request cacheKey⟩

variable [JsonReader]

omit [JsonWriter] in
theorem collectVendor_unchanging (request : ResponsesRequest) :
    (Flow.collectVendor request).Meets (fun _ call => call.isChange = false) (fun _ _ => True) past := by
  refine ⟨rfl, fun reply => ?_⟩
  cases reply with
  | error err => trivial
  | ok stream =>
    simp only [Program.bind]
    cases collectStream stream with
    | error err => trivial
    | ok captured => exact ⟨rfl, fun _ => trivial⟩

theorem streamingMiss_unchanging (tenantId : TenantId) (request : ResponsesRequest) (cacheKey : CacheKey) :
    (Flow.streamingMiss tenantId .readOnly request cacheKey).Meets (fun _ call => call.isChange = false)
      (fun _ _ => True) past := by
  refine (collectVendor_unchanging past request).bind ?_
  rintro later (err | captured) _
  · trivial
  · exact ⟨rfl, fun _ => ⟨rfl, fun _ => ⟨rfl, fun _ => trivial⟩⟩⟩

theorem streamingResponse_unchanging (tenantId : TenantId) (request : ResponsesRequest)
    (eligibility : EligibilityDecision) (cacheKey : CacheKey) :
    (Flow.streamingResponse tenantId .readOnly request eligibility cacheKey).Meets
      (fun _ call => call.isChange = false) (fun _ _ => True) past := by
  cases eligibility with
  | bypass reason =>
    exact (vendorStreamResponse_uncached past ..).mono (fun _ _ => Call.unchanging_of_isCache) fun _ _ _ => trivial
  | cacheable =>
    have looks : (Flow.readCachedStreamObject tenantId cacheKey).Meets (fun _ call => call.isChange = false)
        (fun _ _ => True) past :=
      (readCachedStreamObject_lookups past tenantId cacheKey).mono (fun _ _ => Call.unchanging_of_isLookup)
        fun _ _ _ => trivial
    refine looks.bind ?_
    rintro later (err | _ | payload) _
    · trivial
    · exact streamingMiss_unchanging later tenantId request cacheKey
    · exact (recordSimple_unchanging later .hit .skipped).bind fun _ _ _ => trivial

theorem nonStreamingResponse_unchanging (cacheAvailable : Bool) (tenantId : TenantId) (request : ResponsesRequest)
    (eligibility : EligibilityDecision) (cacheKey : CacheKey) :
    (Flow.nonStreamingResponse cacheAvailable tenantId .readOnly request eligibility cacheKey).Meets
      (fun _ call => call.isChange = false) (fun _ _ => True) past := by
  cases eligibility with
  | bypass reason =>
    exact (vendorResponse_uncached past ..).mono (fun _ _ => Call.unchanging_of_isCache) fun _ _ _ => trivial
  | cacheable =>
    cases cacheAvailable with
    | false =>
      exact (vendorResponse_uncached past ..).mono (fun _ _ => Call.unchanging_of_isCache) fun _ _ _ => trivial
    | true =>
      have looks : (Flow.readCachedBody tenantId cacheKey).Meets (fun _ call => call.isChange = false)
          (fun _ _ => True) past :=
        (readCachedBody_lookups past tenantId cacheKey).mono (fun _ _ => Call.unchanging_of_isLookup)
          fun _ _ _ => trivial
      refine looks.bind ?_
      rintro later (err | _ | payload) _
      · trivial
      · exact coalescedMiss_unchanging later tenantId request cacheKey
      · exact (recordSimple_unchanging later .hit .skipped).bind fun _ _ _ => trivial

omit past in
/-- A read-only request looks the cache up and changes nothing in it. -/
theorem program_readOnly [Sha256] {request : GatewayRequest} {state : GatewayState} (readOnly : request.IsReadOnly) :
    (request.program state).Meets (fun _ call => call.isChange = false) (fun _ _ => True) [] := by
  by_cases plain : ¬ request.Cacheable state
  · exact (program_uncached plain).mono (fun _ _ => Call.unchanging_of_isCache) fun _ _ _ => trivial
  · obtain ⟨tenantId, cacheControl, parsed, authenticated, allowed, controlled, _, typed, _⟩ := not_not.mp plain
    cases readOnly.symm.trans controlled
    rw [GatewayRequest.program_eq authenticated allowed controlled typed]
    refine ⟨rfl, fun reply => ?_⟩
    cases reply with
    | error err => trivial
    | ok version =>
      dsimp only
      split
      · exact streamingResponse_unchanging ..
      · exact nonStreamingResponse_unchanging ..

end

/-! The effects of single calls. -/

/-- The master's objects and quotas are as before, and so are the stores but for a copy. -/
structure CacheWorld.Undisturbed [Sha256] [ChaCha20Poly1305] (call : Call) (s s' : CacheWorld GatewayStores) :
    Prop where
  objects : s'.master.objects = s.master.objects
  quotas : s'.master.quotas = s.master.quotas
  stores : GatewayStores.Copies call s.stores s'.stores

namespace CacheWorld
variable [Sha256] [ChaCha20Poly1305] {nodeUrls : NodeUrls} {s s' : CacheWorld GatewayStores} {call : Call}

theorem Undisturbed.refl (call : Call) (s : CacheWorld GatewayStores) : Undisturbed call s s := ⟨rfl, rfl, .none _ _⟩

theorem ServesTiered.undisturbed {reply : call.Reply} (served : s.ServesTiered nodeUrls call reply s')
    (keeps : call.isChange = false) : Undisturbed call s s' := by
  cases call with
  | readChunk tenantId cacheKey handle =>
    obtain ⟨stores, read, rfl⟩ := served
    exact ⟨rfl, rfl, read.copies⟩
  | getReplicaList tenantId cacheKey =>
    obtain ⟨nowMs, _, rfl⟩ := served ⟨fun _ _ _ _ => .error .poisonedLock, fun s _ _ _ _ _ => (.ok (), s)⟩
    rcases s.master.getReplicaList_cases tenantId cacheKey nowMs with same | ⟨_, _, _, _, _, _, same⟩
    · rw [same]
      exact .refl _ s
    · rw [same]
      exact ⟨rfl, rfl, .none _ _⟩
  | putStart | putEnd | putRevoke | writePreallocatedChunk => cases keeps
  | _ => cases served ⟨fun _ _ _ _ => .error .poisonedLock, fun s _ _ _ _ _ => (.ok (), s)⟩

theorem tieredServer_undisturbed {reply : call.Reply} (served : (tieredServer nodeUrls).serve s call reply s')
    (keeps : call.isChange = false) : Undisturbed call s s' := by
  rcases served with served | ⟨_, rfl | ⟨sent, served⟩⟩
  · exact served.undisturbed keeps
  · exact .refl _ s'
  · exact served.undisturbed keeps

/-- What the vendor, the flights and the metrics answer leaves the cache alone. -/
theorem serves_undisturbed {vendor : (call : Call) → call.Reply → Prop}
    {world world' : GatewayWorld (CacheWorld GatewayStores)} {reply : call.Reply}
    (served : world.Serves (tieredServer nodeUrls) vendor call reply world') (keeps : call.isChange = false) : Undisturbed call world.cache world'.cache := by
  cases call with
  | getReplicaList | readChunk =>
    obtain ⟨after, served, rfl⟩ := served
    exact tieredServer_undisturbed served keeps
  | putStart | putEnd | putRevoke | writePreallocatedChunk => cases keeps
  | resolveModelVersion | complete | stream | begin =>
    obtain ⟨_, rfl⟩ := served
    exact .refl _ _
  | publish | send =>
    obtain ⟨_, _, rfl⟩ := served
    exact .refl _ _
  | wait =>
    obtain ⟨_, _, rfl⟩ := served
    exact .refl _ _
  | _ =>
    cases served
    exact .refl _ _

end CacheWorld

theorem Call.subsingleton_reply {call : Call} (uncached : call.isCache = false) (metric : call.isVendor = false) :
    Subsingleton call.Reply := by
  cases call with
  | resolveModelVersion | complete | stream => cases metric
  | recordCacheStatus | recordWrite | recordSingleflight | recordVendorCall => exact inferInstanceAs (Subsingleton Unit)
  | _ => cases uncached

/-- Requests that are not for the cache neither reach it nor depend on it, and read-only requests only read. -/
theorem non_caching_requests [Sha256] [JsonWriter] [JsonReader] [ChaCha20Poly1305] {I : Type} [DecidableEq I]
    (requests : I → GatewayRequest) (state : GatewayState) (i : I) :
    (¬ (requests i).Cacheable state → ∀ {C A : Type} {cache : Server C A Call Call.Reply}
      {vendor : (call : Call) → call.Reply → Prop} {world : GatewayWorld C} {trace s},
      Run (Pool.Step (GatewayWorld.server cache vendor)) (Pool.initial world (programs requests state)) trace s →
        (∀ event ∈ Pool.own s.history i, event.request.isCache = false) ∧
        ∀ result, s.threads i = .done result →
          ((requests i).Entered state → Vendored (Pool.own s.history i) result) ∧
          ∀ {C' A' : Type} {cache' : Server C' A' Call Call.Reply} {vendor' : (call : Call) → call.Reply → Prop}
            {world' : GatewayWorld C'} {trace' s'},
            Run (Pool.Step (GatewayWorld.server cache' vendor')) (Pool.initial world' (programs requests state))
              trace' s' →
            ∀ result', s'.threads i = .done result' →
              (Pool.own s'.history i).filter (·.request.isVendor) = (Pool.own s.history i).filter (·.request.isVendor) →
              result' = result) ∧
    ((requests i).IsReadOnly → ∀ {nodeUrls : NodeUrls} {vendor : (call : Call) → call.Reply → Prop}
      {world : GatewayWorld (CacheWorld GatewayStores)} {trace s},
      Run (Pool.Step (GatewayWorld.server (CacheWorld.tieredServer nodeUrls) vendor))
        (Pool.initial world (programs requests state)) trace s →
      ∀ call reply s', Pool.Step (GatewayWorld.server (CacheWorld.tieredServer nodeUrls) vendor) s
        (.call i ⟨call, reply⟩) s' → CacheWorld.Undisturbed call s.world.cache s'.world.cache) := by
  constructor
  · intro plain C A cache vendor world trace s run
    have met : (programs requests state i).Meets (fun _ call => call.isCache = false)
      (fun later result => (requests i).Entered state → Vendored later result) [] := program_uncached plain
    refine ⟨fun event member => ?_, fun result ended => ⟨fun entered => ?_, ?_⟩⟩
    · obtain ⟨before, after, split⟩ := List.append_of_mem member
      exact Pool.run_called met run split
    · have results := Pool.run_meets met run
      rw [ended] at results
      exact results entered
    · intro C' A' cache' vendor' world' trace' s' run' result' ended' same
      have taken := Pool.run_trace run i
      have taken' := Pool.run_trace run' i
      rw [ended] at taken
      rw [ended'] at taken'
      exact Meets.determined (met.mono (fun _ _ => Call.subsingleton_reply) fun _ _ => id) taken' taken same
  · intro readOnly nodeUrls vendor world trace s run call reply s' step
    have met : (programs requests state i).Meets (fun _ call => call.isChange = false) (fun _ _ => True) [] :=
      program_readOnly readOnly
    cases step with
    | call pending served =>
      have ready := Pool.run_meets met run
      rw [pending] at ready
      exact CacheWorld.serves_undisturbed served ready.1

/-- A node after a restart: the object is on SSD, and DRAM is empty. -/
private def coldNode : StoreNodeState where
  dram := .withCapacity 16
  ssd := some sampleSsd
  ssdObjects := ∅
  ssdBytesCapacity := 0
  files := (∅ : Files).insert ⟨true, ["ssd", "tenant-a", greetingKey.value ++ ".mcobj"]⟩
    (fileMagic ++ sealedGreeting.nonce ++ sealedGreeting.ciphertext)

private def coldMaster : MasterState :=
  (((freshCache "node-a" 16 0).master.putStart ⟨"tenant-a"⟩ greetingKey 4 1).2.putEnd ⟨"tenant-a"⟩ greetingKey).2

private theorem coldMaster_lists : cacheResult (coldMaster.getReplicaList ⟨"tenant-a"⟩ greetingKey 0).1 =
    .ok ⟨[⟨"node-a", 0, 4⟩], ⟨"lease-1", 5000⟩⟩ := rfl

private def coldWorld : GatewayWorld (CacheWorld GatewayStores) :=
  ⟨⟨coldMaster, .remote fun _ => coldNode⟩, .new 1024⟩

private def oneNode : NodeUrls := ⟨[("node-a", "http://node-a")], by decide⟩

private def nullVendor : (call : Call) → call.Reply → Prop
  | .resolveModelVersion model, reply => reply = .ok model
  | .complete _, reply => reply = .ok .null
  | _, _ => False

private def greetingWith (cacheControl : String) : GatewayRequest :=
  { greetingRequest with cacheControl := some cacheControl }

private theorem greeting_readOnly : (greetingWith "read-only").IsReadOnly := by
  unfold GatewayRequest.IsReadOnly
  decide

/-- The node after it has read the object. -/
private def warmedNode : StoreNodeState :=
  (@StoreNodeState.request greetingDigests (soleCipher sealedGreeting) (.healthy 0) coldNode
    (.readChunk ⟨0, 4⟩ (some "tenant-a") (some greetingKey.value))).2

private theorem warmedNode_ne : warmedNode ≠ coldNode := by
  intro same
  have read : @MemoryStore.readChunk greetingDigests warmedNode.dram ⟨0, 4⟩ = .ok [34, 104, 105, 34] := by decide
  rw [same] at read
  exact absurd read (by decide)

private theorem coldNode_reads : @GatewayStores.Read greetingDigests (soleCipher sealedGreeting) oneNode ⟨"tenant-a"⟩
    greetingKey ⟨0, 4⟩ (.remote fun _ => coldNode) (.ok ⟨[34, 104, 105, 34], "ssd"⟩)
      (.remote (Function.update (fun _ => coldNode) "http://node-a" warmedNode)) := by
  let _ := greetingDigests
  let _ := soleCipher sealedGreeting
  have query : ReadChunkQuery.fromQuery (pathQuery (RemoteStoreClient.readChunkPath ⟨"tenant-a"⟩ greetingKey ⟨0, 4⟩)) =
      some ⟨some "tenant-a", some greetingKey.value⟩ := by
    refine (read_iff greeting_decoded ⟨0, 4⟩).mpr ?_
    decide
  simp only [GatewayStores.Read, oneNode, List.head?_cons, query]
  exact ⟨.healthy 0, rfl, rfl⟩

private theorem readOnly_program : @GatewayRequest.program greetingDigests greetingTexts greetingReader
    (greetingWith "read-only") openGateway = .call (.resolveModelVersion "gpt-x") fun
      | .error err => .done (.error (.vendor err))
      | .ok _ => @Flow.nonStreamingResponse greetingReader greetingTexts true ⟨"tenant-a"⟩ .readOnly
          ⟨"gpt-x", .object [("input", .string "hi")]⟩ .cacheable greetingKey := by
  let _ := greetingDigests
  let _ := greetingTexts
  let _ := greetingReader
  have controlled : CacheControl.parse ((greetingWith "read-only").cacheControl.getD "") = .ok .readOnly := by decide
  refine (@GatewayRequest.program_eq _ _ _ (greetingWith "read-only") _ _ _ _ greeting_authenticated rfl controlled
    rfl).trans (congrArg (Program.call _) ?_)
  funext reply
  cases reply <;> rfl

/-- A read-only request reads the object from a node that has been restarted. -/
private theorem cold_read :
    let _ := greetingDigests
    let _ := greetingTexts
    let _ := greetingReader
    let _ := soleCipher sealedGreeting
    ∃ trace s call reply s', Run (Pool.Step (GatewayWorld.server (CacheWorld.tieredServer oneNode) nullVendor))
        (Pool.initial coldWorld (programs (fun _ : Unit => greetingWith "read-only") openGateway)) trace s ∧
      Pool.Step (GatewayWorld.server (CacheWorld.tieredServer oneNode) nullVendor) s (.call () ⟨call, reply⟩) s' ∧
      s'.world.cache.stores ≠ s.world.cache.stores := by
  intro _ _ _ _
  have idle : Run (Pool.Step (GatewayWorld.server (CacheWorld.tieredServer oneNode) nullVendor))
    (Pool.initial coldWorld (programs (fun _ : Unit => greetingWith "read-only") openGateway)) [] _ := .start
  have run := idle.snoc (.call (i := ()) readOnly_program ⟨rfl, rfl⟩)
    |>.snoc (GatewayWorld.call_step () (.getReplicaList ⟨"tenant-a"⟩ greetingKey)
      (.ok ⟨[⟨"node-a", 0, 4⟩], ⟨"lease-1", 5000⟩⟩) rfl ⟨_, .inl fun _ => ⟨0, coldMaster_lists.symm, rfl⟩, rfl⟩)
  -- With `@` the elaborator does not evaluate the read to look for arguments.
  refine ⟨_, _, .readChunk ⟨"tenant-a"⟩ greetingKey ⟨0, 4⟩, _, _, run,
    GatewayWorld.call_step () (.readChunk ⟨"tenant-a"⟩ greetingKey ⟨0, 4⟩) _ rfl
      ⟨_, .inl ⟨_, by exact @coldNode_reads, rfl⟩, rfl⟩, fun same => ?_⟩
  have nodes := GatewayStores.remote.inj same
  have warmed := congrFun nodes "http://node-a"
  rw [Function.update_self] at warmed
  exact warmedNode_ne warmed

private theorem bypassed :
    let _ := greetingDigests
    let _ := greetingTexts
    let _ := greetingReader
    let _ := soleCipher sealedGreeting
    ∃ trace s result, Run (Pool.Step (GatewayWorld.server (CacheWorld.tieredServer oneNode) nullVendor))
        (Pool.initial coldWorld (programs (fun _ : Unit => greetingWith "bypass") openGateway)) trace s ∧
      s.threads () = .done result := by
  intro _ _ _ _
  have controlled : CacheControl.parse ((greetingWith "bypass").cacheControl.getD "") = .ok .bypass := by decide
  have program := @GatewayRequest.program_eq _ _ _ (greetingWith "bypass") _ _ _ _ greeting_authenticated rfl
    controlled rfl
  have idle : Run (Pool.Step (GatewayWorld.server (CacheWorld.tieredServer oneNode) nullVendor))
    (Pool.initial coldWorld (programs (fun _ : Unit => greetingWith "bypass") openGateway)) [] _ := .start
  have run := idle.snoc (.call (i := ()) program ⟨rfl, rfl⟩) |>.snoc (.call (i := ()) rfl ⟨rfl, rfl⟩)
    |>.snoc (GatewayWorld.call_step () .recordVendorCall () rfl rfl)
    |>.snoc (GatewayWorld.call_step () (.recordCacheStatus .bypass) () rfl rfl)
    |>.snoc (GatewayWorld.call_step () (.recordWrite .skipped) () rfl rfl)
    |>.snoc (GatewayWorld.call_step () (.recordSingleflight .none) () rfl rfl)
  exact ⟨_, _, _, run, rfl⟩

/-- A bypassed request is answered by the vendor, and a read-only one that warms a node changes nothing else. -/
theorem bypassed_and_read_only :
    let _ := greetingDigests
    let _ := greetingTexts
    let _ := greetingReader
    let _ := soleCipher sealedGreeting
    (∃ s : GatewayPool Unit (CacheWorld GatewayStores), ∃ result, s.threads () = .done result ∧
      Vendored (Pool.own s.history ()) result ∧ ∀ event ∈ Pool.own s.history (), event.request.isCache = false) ∧
    ∃ s s' : GatewayPool Unit (CacheWorld GatewayStores), ∃ call : Call,
      s'.world.cache.stores ≠ s.world.cache.stores ∧ CacheWorld.Undisturbed call s.world.cache s'.world.cache := by
  intro _ _ _ _
  constructor
  · obtain ⟨trace, s, result, run, ended⟩ := bypassed
    have controlled : CacheControl.parse ((greetingWith "bypass").cacheControl.getD "") = .ok .bypass := by decide
    have plain : ¬ (greetingWith "bypass").Cacheable openGateway := by
      rintro ⟨_, _, _, _, _, same, used, _⟩
      cases controlled.symm.trans same
      exact used rfl
    have entered : (greetingWith "bypass").Entered openGateway := ⟨⟨"tenant-a"⟩, .bypass, by decide, rfl, controlled⟩
    obtain ⟨uncached, answers⟩ :=
      (non_caching_requests (fun _ : Unit => greetingWith "bypass") openGateway ()).1 plain run
    exact ⟨s, result, ended, (answers result ended).1 entered, uncached⟩
  · obtain ⟨trace, s, call, reply, s', run, step, warmed⟩ := cold_read
    exact ⟨s, s', call, warmed, (non_caching_requests (fun _ : Unit => greetingWith "read-only") openGateway ()).2
      greeting_readOnly run call reply s' step⟩

/-- A read-only request warms a node's DRAM. -/
theorem read_only_warms_node :
    ¬ ∀ [Sha256] [JsonWriter] [JsonReader] [ChaCha20Poly1305] (request : GatewayRequest) (state : GatewayState)
      (nodeUrls : NodeUrls) (vendor : (call : Call) → call.Reply → Prop)
      (world : GatewayWorld (CacheWorld GatewayStores)) trace s, request.IsReadOnly →
      Run (Pool.Step (GatewayWorld.server (CacheWorld.tieredServer nodeUrls) vendor))
        (Pool.initial world (programs (fun _ : Unit => request) state)) trace s →
      ∀ call reply s', Pool.Step (GatewayWorld.server (CacheWorld.tieredServer nodeUrls) vendor) s
        (.call () ⟨call, reply⟩) s' → s'.world.cache.stores = s.world.cache.stores := by
  intro unchanged
  let _ := greetingDigests
  let _ := greetingTexts
  let _ := greetingReader
  let _ := soleCipher sealedGreeting
  obtain ⟨trace, s, call, reply, s', run, step, warmed⟩ := cold_read
  exact warmed (unchanged _ _ _ _ _ trace s greeting_readOnly run call reply s' step)

end Mooncache
