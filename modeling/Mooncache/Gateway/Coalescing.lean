import Mooncache.Gateway.RequestOutlines

/-! Identical requests that miss together: how often they call the vendor, and what they
all answer. -/
namespace Mooncache
open Program

/-- A plain request in the default mode that may be cached, past every check of the gateway. -/
structure GatewayRequest.Coalesces [Sha256] [JsonReader] (request : GatewayRequest) (state : GatewayState)
    (tenantId : TenantId) (parsed : ResponsesRequest) : Prop where
  authenticated : state.authenticate request.authorization = some tenantId
  allowed : state.tenantAllowsVendor tenantId state.vendorId = true
  controlled : CacheControl.parse (request.cacheControl.getD "") = .ok .default
  typed : ResponsesRequest.fromValue request.body = .ok parsed
  plain : request.isStreaming = false
  eligible : request.eligibility state parsed .default = .cacheable
  available : state.cacheAvailable = true

/-- The flight of a request in the default mode. -/
def GatewayRequest.flightKey [Sha256] [JsonWriter] (request : GatewayRequest) (state : GatewayState)
    (tenantId : TenantId) (version : String) : SingleflightKey where
  tenantId
  cacheKey := request.cacheKey state tenantId .default version
  writeMode := .writable

section
variable {I : Type} [DecidableEq I] [Fintype I] [Sha256] [JsonWriter] [JsonReader]
  {vendor : (call : Call) → call.Reply → Prop} {initial : CacheWorld MemoryStore} {maxWaiters : Nat}
  {request : GatewayRequest} {state : GatewayState} {tenantId : TenantId} {parsed : ResponsesRequest} {version : String}

theorem program_outlined (coalesces : request.Coalesces state tenantId parsed)
    (few : Fintype.card I ≤ maxWaiters + 1)
    (absent : initial.master.objects.lookup (tenantId, request.cacheKey state tenantId .default version) = none)
    (completes : VendorCompletes vendor initial (request.flightKey state tenantId version) parsed.model version) (i : I) :
    Outlined vendor initial maxWaiters request state (request.flightKey state tenantId version) i Served .nothing
      ((Pool.initial (⟨initial, .new maxWaiters⟩ : GatewayWorld (CacheWorld MemoryStore))
        (programs (fun _ : I => request) state)).threads i) := by
  simp only [Pool.initial, programs]
  rw [GatewayRequest.program_eq coalesces.authenticated coalesces.allowed coalesces.controlled coalesces.typed]
  refine aside_outlined (fun {s s' reply} served => congrArg _ served.2) rfl fun {s s' reply} served => ?_
  cases completes.resolves reply served.1
  simp only [coalesces.plain, coalesces.eligible, coalesces.available, Bool.false_eq_true, ↓reduceIte]
  exact nonStreamingResponse_outlined few absent completes rfl parsed

omit [Fintype I] in
private theorem act_coalesced {key : SingleflightKey} {s s' : GatewayPool I (CacheWorld MemoryStore)}
    {action : GatewayAction Empty} {knowledge : I → Knowledge} (step : MissStep vendor s (.act action) s')
    (holds : Coalesced initial key s knowledge) : Coalesced initial key s' knowledge := by
  obtain ⟨undisturbed, _, acted⟩ := step
  obtain ⟨progress, tracks, rest⟩ := holds
  cases acted with
  | @act _ world acted =>
    cases action with
    | cache action => exact action.elim
    | wake waiter =>
      obtain ⟨flights, _, rfl⟩ := acted
      exact ⟨progress, ⟨tracks.cache, tracks.calls, tracks.begun, tracks.published⟩, rest⟩
    | _ => cases undisturbed

omit [DecidableEq I] [Fintype I] [JsonReader] in
theorem VendorCompletes.answers_all {key : SingleflightKey} {model : String}
    (completes : VendorCompletes vendor initial key model version) : Answers localCache vendor := by
  intro s call unshared
  cases call with
  | getReplicaList tenantId cacheKey => exact ⟨_, _, _, ⟨0, rfl, rfl⟩, rfl⟩
  | putStart _ _ _ _ | putEnd _ _ | putRevoke _ _ | readChunk _ _ _ | writePreallocatedChunk _ _ _ _ _ =>
    exact ⟨_, _, _, ⟨rfl, rfl⟩, rfl⟩
  | resolveModelVersion model =>
    obtain ⟨reply, answered⟩ := completes.answers (.resolveModelVersion model) rfl
    exact ⟨reply, s, answered, rfl⟩
  | complete request =>
    obtain ⟨reply, answered⟩ := completes.answers (.complete request) rfl
    exact ⟨reply, s, answered, rfl⟩
  | stream request =>
    obtain ⟨reply, answered⟩ := completes.answers (.stream request) rfl
    exact ⟨reply, s, answered, rfl⟩
  | begin _ | publish _ _ | send _ | wait _ => cases unshared
  | _ => exact ⟨(), s, rfl⟩

/-- While every request that asks for a flight finds one or no committed object, and what is
read is what the vendor answered, the vendor is called once: every request that has ended
carries that call's body. Any request can be brought to its end. -/
theorem one_vendor_call (coalesces : request.Coalesces state tenantId parsed)
    (few : Fintype.card I ≤ maxWaiters + 1)
    (absent : initial.master.objects.lookup (tenantId, request.cacheKey state tenantId .default version) = none)
    (completes : VendorCompletes vendor initial (request.flightKey state tenantId version) parsed.model version) :
    (∀ trace s, Run (Guarded Timely (GatewayStep vendor))
        (Pool.initial ⟨initial, .new maxWaiters⟩ (programs (fun _ : I => request) state)) trace s → Uncancelled trace →
      (vendorCalls s.history).length ≤ 1 ∧
      ∀ i result, s.threads i = .done result → ∃ body response, vendorCalls s.history = [.ok body] ∧
        result = .ok response ∧ response.statusCode = 200 ∧ response.body = body) ∧
    ∀ trace s, Run (GatewayStep vendor)
        (Pool.initial ⟨initial, .new maxWaiters⟩ (programs (fun _ : I => request) state)) trace s → Uncancelled trace →
      ∀ i, ∃ later s', Run (GatewayStep vendor) s later s' ∧ Uncancelled later ∧ ∃ result, s'.threads i = .done result := by
  refine ⟨fun trace s run uncancelled => ?_, fun trace s run uncancelled i =>
    request_finishes completes.answers_all (programs_meet (fun _ : I => request) state) (fun _ _ _ met => met.1) _ run
      uncancelled rfl⟩
  have undisturbed : Run (MissStep vendor) _ trace s := run.guarded_of_mem fun label member => by
    rcases label with _ | _ | _ | number | number <;> first | trivial | skip
    · exact (uncancelled number).1 member
    · exact (uncancelled number).2 member
  have start : Coalesced initial (request.flightKey state tenantId version)
      (Pool.initial ⟨initial, .new maxWaiters⟩ (programs (fun _ : I => request) state)) fun _ => .nothing :=
    ⟨none, ⟨rfl, rfl, fun led => absurd rfl led, nofun⟩, fun _ => trivial, nofun⟩
  obtain ⟨knowledge, ⟨progress, tracks, knows, _⟩, outlined⟩ := Outline.run gatewayStep_of_missStep start
    (program_outlined coalesces few absent completes) (fun _ => act_coalesced) undisturbed
  rw [tracks.calls]
  refine ⟨by cases progress.bind Progress.body <;> simp, fun i result finished => ?_⟩
  have served := outlined i
  rw [finished] at served
  obtain ⟨body, response, held, rfl, status, carries⟩ := served
  refine ⟨body, response, ?_, rfl, status, carries⟩
  have known := knows i
  rcases held with held | ⟨replica, held⟩ <;> rw [held] at known
  · rw [show progress.bind Progress.body = some body from known]
    rfl
  · rw [show progress = some (.committed body replica) from known]
    rfl

end

/-- A vendor that greets. -/
private def twinVendor : (call : Call) → call.Reply → Prop
  | .resolveModelVersion _, reply => reply = .ok "gpt-x"
  | .complete _, reply => reply = .ok (.string "hi")
  | .stream _, reply => reply = .ok []
  | _, _ => False

private def twinPrograms : Bool → Flow (GatewayResult GatewayResponse) :=
  @programs Bool greetingDigests greetingTexts greetingReader (fun _ => greetingRequest) openGateway

private abbrev twinStep := @GatewayStep Bool greetingDigests _ twinVendor

private def twinStart : GatewayPool Bool (CacheWorld MemoryStore) :=
  Pool.initial ⟨freshCache "store-0" 16 16, .new 1024⟩ twinPrograms

private theorem twins_coalesce : @GatewayRequest.Coalesces greetingDigests greetingReader greetingRequest openGateway
    ⟨"tenant-a"⟩ ⟨"gpt-x", .object [("input", .string "hi")]⟩ := by
  let _ := greetingDigests
  let _ := greetingReader
  exact ⟨by decide, rfl, by decide, rfl, rfl, rfl, rfl⟩

private theorem twins_absent : (freshCache "store-0" 16 16).master.objects.lookup (⟨"tenant-a"⟩,
    @GatewayRequest.cacheKey greetingDigests greetingTexts greetingRequest openGateway ⟨"tenant-a"⟩ .default "gpt-x") =
      none := rfl

private theorem twins_complete : @VendorCompletes greetingTexts twinVendor (freshCache "store-0" 16 16)
    (@GatewayRequest.flightKey greetingDigests greetingTexts greetingRequest openGateway ⟨"tenant-a"⟩ "gpt-x")
    "gpt-x" "gpt-x" := by
  let _ := greetingDigests
  let _ := greetingTexts
  refine ⟨fun call vendor => ?_, fun reply h => h, fun request reply h => ⟨_, h, ?_⟩⟩
  · cases call <;> first | exact ⟨_, rfl⟩ | cases vendor
  · exact ⟨_, _, rfl, by decide⟩

/-- The second request is served from the cache with what the vendor told the first. -/
theorem twins_share_one_call : ∃ trace s,
    Run (Guarded (@Timely Bool greetingTexts greetingReader) twinStep) twinStart trace s ∧
    ∃ result, s.threads false = .done result ∧ ∃ body response, vendorCalls s.history = [.ok body] ∧
      result = .ok response ∧ response.statusCode = 200 ∧ response.body = body := by
  let _ := greetingDigests
  let _ := greetingTexts
  let _ := greetingReader
  have idle : Run (Guarded Timely twinStep) twinStart [] _ := .start
  have stored := idle.snoc ⟨by trivial, .call (i := true) greeting_program ⟨rfl, rfl⟩⟩
    |>.snoc ⟨by trivial, .call (i := true) rfl ⟨_, ⟨0, rfl, rfl⟩, rfl⟩⟩
    |>.snoc ⟨by exact .inr (fun _ found => nomatch found), .call (i := true) rfl ⟨rfl, rfl⟩⟩
    |>.snoc ⟨by trivial, GatewayWorld.call_step true (.recordSingleflight .leader) () rfl rfl⟩
    |>.snoc ⟨by trivial, .call (i := true) rfl ⟨rfl, rfl⟩⟩
    |>.snoc ⟨by trivial, GatewayWorld.call_step true .recordVendorCall () rfl rfl⟩
    |>.snoc ⟨by trivial, .call (i := true) rfl ⟨_, ⟨rfl, rfl⟩, rfl⟩⟩
    |>.snoc ⟨by trivial, .call (i := true) rfl ⟨_, ⟨rfl, rfl⟩, rfl⟩⟩
    |>.snoc ⟨by trivial, .call (i := true) rfl ⟨_, ⟨rfl, rfl⟩, rfl⟩⟩
  have read := stored.snoc ⟨by trivial, .call (i := false) greeting_program ⟨rfl, rfl⟩⟩
    |>.snoc ⟨by trivial, .call (i := false) rfl ⟨_, ⟨0, rfl, rfl⟩, rfl⟩⟩
    |>.snoc ⟨by
      intro body answered
      cases List.mem_singleton.mp answered
      rfl, .call (i := false) rfl ⟨_, ⟨rfl, rfl⟩, rfl⟩⟩
    |>.snoc ⟨by trivial, GatewayWorld.call_step false (.recordCacheStatus .hit) () rfl rfl⟩
    |>.snoc ⟨by trivial, GatewayWorld.call_step false (.recordWrite .skipped) () rfl rfl⟩
    |>.snoc ⟨by trivial, GatewayWorld.call_step false (.recordSingleflight .none) () rfl rfl⟩
  have few : Fintype.card Bool ≤ 1024 + 1 := by decide
  exact ⟨_, _, read, _, rfl, ((one_vendor_call twins_coalesce few twins_absent twins_complete).1 _ _ read
    (by simp [Uncancelled])).2 false _ rfl⟩

/-- A request that has missed before the other stored its body, and asks for a flight after
that flight is over, calls the vendor again. -/
theorem late_miss_calls_again :
    @GatewayRequest.Coalesces greetingDigests greetingReader greetingRequest openGateway ⟨"tenant-a"⟩
      ⟨"gpt-x", .object [("input", .string "hi")]⟩ ∧
    (freshCache "store-0" 16 16).master.objects.lookup (⟨"tenant-a"⟩,
      @GatewayRequest.cacheKey greetingDigests greetingTexts greetingRequest openGateway ⟨"tenant-a"⟩ .default "gpt-x") =
        none ∧
    @VendorCompletes greetingTexts twinVendor (freshCache "store-0" 16 16)
      (@GatewayRequest.flightKey greetingDigests greetingTexts greetingRequest openGateway ⟨"tenant-a"⟩ "gpt-x")
      "gpt-x" "gpt-x" ∧
    ¬ ∀ trace s, Run twinStep twinStart trace s → Uncancelled trace → (vendorCalls s.history).length ≤ 1 := by
  let _ := greetingDigests
  let _ := greetingTexts
  let _ := greetingReader
  refine ⟨twins_coalesce, twins_absent, twins_complete, fun claimed => ?_⟩
  have idle : Run twinStep twinStart [] _ := .start
  have missed := idle.snoc (.call (i := false) greeting_program ⟨rfl, rfl⟩)
    |>.snoc (.call (i := false) rfl ⟨_, ⟨0, rfl, rfl⟩, rfl⟩)
  have stored := missed.snoc (.call (i := true) greeting_program ⟨rfl, rfl⟩)
    |>.snoc (.call (i := true) rfl ⟨_, ⟨0, rfl, rfl⟩, rfl⟩) |>.snoc (.call (i := true) rfl ⟨rfl, rfl⟩)
    |>.snoc (GatewayWorld.call_step true (.recordSingleflight .leader) () rfl rfl)
    |>.snoc (.call (i := true) rfl ⟨rfl, rfl⟩) |>.snoc (GatewayWorld.call_step true .recordVendorCall () rfl rfl)
    |>.snoc (.call (i := true) rfl ⟨_, ⟨rfl, rfl⟩, rfl⟩) |>.snoc (.call (i := true) rfl ⟨_, ⟨rfl, rfl⟩, rfl⟩)
    |>.snoc (.call (i := true) rfl ⟨_, ⟨rfl, rfl⟩, rfl⟩)
    |>.snoc (GatewayWorld.call_step true (.recordCacheStatus .miss) () rfl rfl)
    |>.snoc (GatewayWorld.call_step true (.recordWrite .committed) () rfl rfl)
    |>.snoc (GatewayWorld.call_step true (.publish 0 _) () rfl ⟨_, ⟨⟨Nat.one_pos, rfl⟩, rfl⟩, rfl⟩)
  have again := stored.snoc (.call (i := false) rfl ⟨rfl, rfl⟩)
    |>.snoc (GatewayWorld.call_step false (.recordSingleflight .leader) () rfl rfl)
    |>.snoc (.call (i := false) rfl ⟨rfl, rfl⟩)
  have twice := claimed _ _ again (by simp [Uncancelled])
  exact absurd twice (by decide)

end Mooncache
