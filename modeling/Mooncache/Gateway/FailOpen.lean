import Mooncache.Gateway.CacheServer
import Mooncache.Gateway.Completion
import Mooncache.Store.Ssd

/-! What a gateway's requests end with while the cache behind it does as it likes. -/
namespace Mooncache
open Program

section
variable {I A C : Type} [DecidableEq I]

/-- The second request leads the flight that the first has waited for. -/
def Awaits (s : GatewayPool I C) (i j : I) : Prop :=
  ∃ waiter reply key, ⟨.wait waiter, reply⟩ ∈ Pool.own s.history i ∧
    ⟨.begin key, .ok (.leader (s.world.flights.waiters waiter).receiver)⟩ ∈ Pool.own s.history j

variable [JsonReader]

/-- The vendor calls that a request needs do not fail: its own, and those of the request
whose flight it waits for, which is not cancelled. -/
structure VendorServes (trace : List (Pool.Label I (GatewayAction A) Call Call.Reply)) (s : GatewayPool I C)
    (i : I) : Prop where
  calls : ∀ j, j = i ∨ Awaits s i j → ∀ event ∈ Pool.own s.history j, ¬ VendorFails event
  uncancelled : ∀ waiter reply, ⟨.wait waiter, reply⟩ ∈ Pool.own s.history i →
    .act (.cancelLeader (s.world.flights.waiters waiter).receiver) ∉ trace

/-- A 200 response that carries a body of the vendor, or of an object that was read. -/
def ServedWith (s : GatewayPool I C) (i : I) (response : GatewayResponse) : Prop :=
  response.statusCode = 200 ∧ ∃ j, (j = i ∨ Awaits s i j) ∧ Carries (Pool.own s.history j) response.body

variable [JsonWriter] [Sha256] {cache : Server C A Call Call.Reply} {vendor : (call : Call) → call.Reply → Prop}
  {store : C} {maxWaiters : Nat} {requests : I → GatewayRequest} {state : GatewayState}
  {trace : List (Pool.Label I (GatewayAction A) Call Call.Reply)} {s : GatewayPool I C}

omit [DecidableEq I] in
variable (requests state) in
theorem programs_meet (i : I) : (programs requests state i).Meets RequestCalls
    (fun later result => Settled later ∧ ((requests i).Admitted state → Outcome later result)) [] :=
  handleResponseRequest_outcome (requests i) state

/-- While the vendor serves a waiter, its leader has published a 200 response of the vendor. -/
private theorem VendorServes.shared (run : Run (Pool.Step (GatewayWorld.server cache vendor))
      (Pool.initial ⟨store, .new maxWaiters⟩ (programs requests state)) trace s) {i : I}
    (serves : VendorServes trace s i) {waiter : Nat} {reply : SharedResult GatewayResponse}
    (waited : ⟨.wait waiter, reply⟩ ∈ Pool.own s.history i) :
    ∃ response, reply = .ok response ∧ ServedWith s i response := by
  rcases waited_cases run (Pool.mem_own.mp waited) with ⟨j, published⟩ | cancelled
  · obtain ⟨⟨key, leads⟩, told⟩ := published_past (programs_meet requests state) run (Pool.mem_own.mpr published)
    have awaits : Awaits s i j := ⟨waiter, reply, key, waited, leads⟩
    rcases told with ⟨event, member, fails⟩ | ⟨response, rfl, status, request, member⟩
    · exact absurd fails (serves.calls j (.inr awaits) event member)
    · exact ⟨response, rfl, status, j, .inr awaits, .inl ⟨request, member⟩⟩
  · exact absurd cancelled (serves.uncancelled waiter reply waited)

/-- What a request that the vendor serves ends with. -/
private theorem VendorServes.outcome (run : Run (Pool.Step (GatewayWorld.server cache vendor))
      (Pool.initial ⟨store, .new maxWaiters⟩ (programs requests state)) trace s) {i : I}
    (serves : VendorServes trace s i) {result : GatewayResult GatewayResponse}
    (outcome : Outcome (Pool.own s.history i) result) :
    (∃ event ∈ Pool.own s.history i, LookupFails event) ∧ (∃ err, result = .error err) ∨
      (∀ event ∈ Pool.own s.history i, ¬ LookupFails event) ∧
        ∃ response, result = .ok response ∧ ServedWith s i response := by
  cases outcome with
  | vendorFailed fails =>
    obtain ⟨event, member, fails⟩ := fails
    exact absurd fails (serves.calls i (.inl rfl) event member)
  | flightFailed fails =>
    rcases fails with ⟨key, err, begun⟩ | ⟨waiter, message, waited⟩
    · exact absurd (Pool.mem_own.mp begun) ((run_linked run).granted i key err)
    · obtain ⟨_, ⟨⟩, _⟩ := serves.shared run waited
  | lookupFailed fails => exact .inl ⟨fails, _, rfl⟩
  | served unfailed status carries => exact .inr ⟨unfailed, _, rfl, status, i, .inl rfl, carries⟩
  | shared unfailed waited status body =>
    obtain ⟨shared, same, served⟩ := serves.shared run waited
    cases same
    exact .inr ⟨unfailed, _, rfl, status.trans served.1, by rw [body]; exact served.2⟩

/-- Once the vendor serves a request, it is answered exactly when no lookup of its own
fails: storing an object and the singleflight group do no harm. It always has an end. -/
theorem served_iff_lookups_answered (run : Run (Pool.Step (GatewayWorld.server cache vendor))
      (Pool.initial ⟨store, .new maxWaiters⟩ (programs requests state)) trace s) {i : I}
    (admitted : (requests i).Admitted state) :
    (∀ result, s.threads i = .done result → VendorServes trace s i →
      ((∃ response, result = .ok response ∧ ServedWith s i response) ↔
        ∀ event ∈ Pool.own s.history i, ¬ LookupFails event)) ∧
    (Answers cache vendor → Uncancelled trace →
      ∃ later s', Run (Pool.Step (GatewayWorld.server cache vendor)) s later s' ∧ Uncancelled later ∧
        ∃ result, s'.threads i = .done result) := by
  refine ⟨fun result finished serves => ?_, fun answers uncancelled =>
    request_finishes answers (programs_meet requests state) (fun _ _ _ met => met.1) _ run uncancelled rfl⟩
  have met := Pool.run_meets (programs_meet requests state i) run
  rw [finished] at met
  rcases serves.outcome run (met.2 admitted) with ⟨⟨event, member, fails⟩, err, rfl⟩ | ⟨unfailed, served⟩
  · refine iff_of_false ?_ fun unfailed => unfailed event member fails
    rintro ⟨_, ⟨⟩, _⟩
  · exact iff_of_true served unfailed

end

/-- A master that answers every lookup with this error and reserves nothing. -/
private def failingReply (lookup : GatewayError) : (call : Call) → call.Reply → Prop
  | .getReplicaList _ _, reply => reply = .error lookup
  | .putStart _ _ _ _, reply => reply = .error (.masterUpstream "unavailable")
  | _, _ => False

private def failingCache (lookup : GatewayError) : Server Unit Empty Call Call.Reply where
  serve _ call reply _ := failingReply lookup call reply
  act _ _ _ := False

/-- A vendor that answers every completion. -/
private def greetingVendor : (call : Call) → call.Reply → Prop
  | .resolveModelVersion _, reply => reply = .ok "gpt-x"
  | .complete _, reply => reply = .ok (.string "hi")
  | _, _ => False

def openGateway : GatewayState where
  tenantId := ⟨"tenant-a"⟩
  tenantConfigs := none
  vendorId := "openai"
  adapterVersion := "openai-responses-v1"
  modelCacheEligible _ := true
  cacheAvailable := true

def greetingRequest : GatewayRequest where
  authorization := some "Bearer test-api-key"
  cacheControl := none
  body := .object [("model", .string "gpt-x"), ("input", .string "hi")]

/-- A reader of one text. -/
@[reducible] def greetingReader : JsonReader := ⟨fun _ => .ok (.string "hi"), fun _ _ => ""⟩

/-- The compact texts of a greeting and of its fingerprint. -/
@[reducible] def greetingTexts : JsonWriter where
  toVec
    | .string _ => [34, 104, 105, 34]
    | _ => 123 :: ("\"adapter_version\":\"openai-responses-v1\",\"body\":\x7b\"input\":\"hi\",\"model\":\"gpt-x\"\x7d," ++
        "\"cache_policy\":\"default\",\"endpoint_version\":\"responses-v1\",\"resolved_model_version\":\"gpt-x\"," ++
        "\"tenant_id\":\"tenant-a\",\"vendor_id\":\"openai\"\x7d").toUTF8.toList

/-- Their digests. -/
@[reducible] def greetingDigests : Sha256 where
  sha256
  | 123 :: _ => (#v[21, 31, 68, 246, 248, 18, 193, 155, 110, 110, 132, 160, 255, 82, 248, 53] : Vector UInt8 16) ++
    (#v[88, 80, 57, 147, 31, 177, 47, 176, 61, 93, 239, 125, 214, 95, 2, 140] : Vector UInt8 16)
  | _ => #v[180, 145, 119, 224, 88, 104, 183, 175, 142, 130, 166, 68, 193, 206, 32, 229,
    33, 175, 70, 73, 122, 222, 175, 254, 134, 29, 41, 77, 155, 75, 183, 94]

def greetingKey : CacheKey := ⟨"151f44f6f812c19b6e6e84a0ff52f835585039931fb12fb03d5def7dd65f028c"⟩

theorem greeting_decoded : CacheKey.fromHex greetingKey.value = .ok greetingKey := by decide

/-- ChaCha20-Poly1305 of the text `"hi"` under `sampleKey`, for one tenant's object of this key. -/
@[reducible] def sealedGreeting : SealedMessage :=
  ⟨.replicate 12 0, aad "tenant-a" greetingKey.value, [34, 104, 105, 34],
    [246, 60, 194, 189, 104, 114, 45, 31, 51, 95, 8, 192, 113, 248, 133, 147, 77, 166, 140, 60]⟩

theorem greeting_authenticated [Sha256] :
    openGateway.authenticate greetingRequest.authorization = some ⟨"tenant-a"⟩ := rfl

private def greetingPrograms : Unit → Flow (GatewayResult GatewayResponse) :=
  @programs Unit greetingDigests greetingTexts greetingReader (fun _ => greetingRequest) openGateway

theorem greeting_program : @GatewayRequest.program greetingDigests greetingTexts greetingReader greetingRequest
    openGateway = .call (.resolveModelVersion "gpt-x") fun
      | .error err => .done (.error (.vendor err))
      | .ok _ => @Flow.nonStreamingResponse greetingReader greetingTexts true ⟨"tenant-a"⟩ .default
          ⟨"gpt-x", .object [("input", .string "hi")]⟩ .cacheable greetingKey := by
  let _ := greetingDigests
  let _ := greetingTexts
  let _ := greetingReader
  have controlled : CacheControl.parse (greetingRequest.cacheControl.getD "") = .ok .default := by decide
  refine (GatewayRequest.program_eq greeting_authenticated rfl controlled rfl).trans (congrArg (Program.call _) ?_)
  funext reply
  cases reply <;> rfl

/-- The events of one request, none of which is a vendor's or a lookup's failure or a wait. -/
private theorem harmless {s : GatewayPool Unit Unit} (events : List GatewayEvent)
    (history : s.history = events.map fun event => ((), event))
    (ok : ∀ event ∈ events, ¬ @VendorFails greetingReader event ∧ ∀ waiter reply, event ≠ ⟨.wait waiter, reply⟩)
    (trace : List (Pool.Label Unit (GatewayAction Empty) Call Call.Reply)) :
    @VendorServes _ _ _ _ greetingReader trace s () ∧ Pool.own s.history () = events := by
  let _ := greetingReader
  have own : Pool.own s.history () = events := by
    rw [history, Pool.own, List.filterMap_map]
    simp
  exact ⟨⟨fun _ _ event member => (ok event (own ▸ member)).1,
    fun waiter reply member => absurd rfl ((ok _ (own ▸ member)).2 waiter reply)⟩, own⟩

/-- A request that finds nothing and cannot store its body is served with it. -/
theorem served_despite_failed_write : ∃ trace s,
    Run (Pool.Step (GatewayWorld.server (failingCache (.cache .notFound)) greetingVendor))
      (Pool.initial ⟨(), .new 1024⟩ greetingPrograms) trace s ∧
    ∃ response, s.threads () = .done (.ok response) ∧ @ServedWith _ _ _ greetingReader s () response := by
  let _ := greetingDigests
  let _ := greetingTexts
  let _ := greetingReader
  have idle : Run (Pool.Step (GatewayWorld.server (failingCache (.cache .notFound)) greetingVendor))
    (Pool.initial ⟨(), .new 1024⟩ greetingPrograms) [] _ := .start
  have run := idle.snoc (.call (i := ()) greeting_program ⟨rfl, rfl⟩)
    |>.snoc (.call (i := ()) rfl ⟨(), rfl, rfl⟩) |>.snoc (.call (i := ()) rfl ⟨rfl, rfl⟩)
    |>.snoc (GatewayWorld.call_step () (.recordSingleflight .leader) () rfl rfl)
    |>.snoc (.call (i := ()) rfl ⟨rfl, rfl⟩) |>.snoc (GatewayWorld.call_step () .recordVendorCall () rfl rfl)
    |>.snoc (.call (i := ()) rfl ⟨(), rfl, rfl⟩)
    |>.snoc (GatewayWorld.call_step () (.recordCacheStatus .miss) () rfl rfl)
    |>.snoc (GatewayWorld.call_step () (.recordWrite .failed) () rfl rfl)
    |>.snoc (GatewayWorld.call_step () (.publish 0 _) () rfl ⟨_, ⟨⟨Nat.one_pos, rfl⟩, rfl⟩, rfl⟩)
    |>.snoc (GatewayWorld.call_step () (.send 0) () rfl ⟨_, ⟨⟨Nat.one_pos, _, _, rfl⟩, rfl⟩, rfl⟩)
  obtain ⟨trace, s, response, events, run, finished, history, ok⟩ : ∃ trace s response,
      ∃ events : List GatewayEvent, Run (Pool.Step (GatewayWorld.server (failingCache (.cache .notFound))
        greetingVendor)) (Pool.initial ⟨(), .new 1024⟩ greetingPrograms) trace s ∧
      s.threads () = .done (.ok response) ∧ s.history = events.map (fun event => ((), event)) ∧
      ∀ event ∈ events, (¬ VendorFails event ∧ ∀ waiter reply, event ≠ ⟨.wait waiter, reply⟩) ∧ ¬ LookupFails event := by
    refine ⟨_, _, _, [_, _, _, _, _, _, _, _, _, _, _], run, rfl, rfl, ?_⟩
    simp [VendorFails, LookupFails]
  obtain ⟨serves, own⟩ := harmless events history (fun event member => (ok event member).1) trace
  have admitted : greetingRequest.Admitted openGateway :=
    ⟨⟨⟨"tenant-a"⟩, by decide, rfl⟩, ⟨.default, by decide, by decide⟩, _, rfl⟩
  obtain ⟨response', same, served⟩ := ((served_iff_lookups_answered run (i := ()) admitted).1 _ finished serves).mpr
    fun event member => (ok event (own ▸ member)).2
  cases same
  exact ⟨trace, s, run, response, finished, served⟩

/-- A lookup that the master fails to answer is the end of a request that the vendor
would have served. -/
theorem failed_lookup_is_an_error :
    (∀ call reply, greetingVendor call reply → ¬ @VendorFails greetingReader ⟨call, reply⟩) ∧
    ¬ ∀ trace s, Run (Pool.Step (GatewayWorld.server (failingCache (.masterUpstream "unavailable")) greetingVendor))
      (Pool.initial ⟨(), .new 1024⟩ greetingPrograms) trace s →
        ∀ result, s.threads () = .done result → @VendorServes _ _ _ _ greetingReader trace s () →
          ∃ response, result = .ok response ∧ @ServedWith _ _ _ greetingReader s () response := by
  let _ := greetingReader
  refine ⟨fun call reply answered => ?_, fun claimed => ?_⟩
  · cases call <;> cases answered <;> exact id
  · have idle : Run (Pool.Step (GatewayWorld.server (failingCache (.masterUpstream "unavailable")) greetingVendor))
      (Pool.initial ⟨(), .new 1024⟩ greetingPrograms) [] _ := .start
    have run := idle.snoc (.call (i := ()) greeting_program ⟨rfl, rfl⟩)
      |>.snoc (.call (i := ()) rfl ⟨(), rfl, rfl⟩)
    obtain ⟨_, ⟨⟩, _⟩ := claimed _ _ run _ rfl (harmless [_, _] rfl (by simp [VendorFails]) _).1

end Mooncache
