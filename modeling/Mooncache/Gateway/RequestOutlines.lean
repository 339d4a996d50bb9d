import Mooncache.Foundation.Outline
import Mooncache.Gateway.FailOpen
import Mooncache.Gateway.FlightProgress
import Mathlib.Data.Fintype.Card

/-! Outlines of a request's program: each of its functions with what the request knows before
and after it, while nobody else uses the cache. -/
namespace Mooncache
open Program

def Call.isVendor : Call → Bool
  | resolveModelVersion _ | complete _ | stream _ => true
  | _ => false

def Call.isMetric : Call → Bool
  | recordCacheStatus _ | recordWrite _ | recordSingleflight _ | recordVendorCall => true
  | _ => false

/-- `LocalMasterClient` and `LocalStoreClient` without faults, used by nobody else. -/
def localCache [Sha256] : Server (CacheWorld MemoryStore) Empty Call Call.Reply where
  serve := CacheWorld.Serves localStoreClient
  act _ _ _ := False

/-- A vendor that answers every call, with one version of the model, and completes every
request with a body that there is room for. -/
structure VendorCompletes [JsonWriter] (vendor : (call : Call) → call.Reply → Prop) (initial : CacheWorld MemoryStore)
    (key : SingleflightKey) (model version : String) : Prop where
  answers : ∀ call, call.isVendor = true → ∃ reply, vendor call reply
  resolves : ∀ reply, vendor (.resolveModelVersion model) reply → reply = .ok version
  completes : ∀ request reply, vendor (.complete request) reply → ∃ body, reply = .ok body ∧ HasRoom initial key body

section
variable {I : Type}

/-- No request is cancelled. -/
def Undisturbed : Pool.Label I (GatewayAction Empty) Call Call.Reply → Prop
  | .act (.cancelLeader _) | .act (.cancelWaiter _) => False
  | _ => True

variable [Sha256] [JsonWriter] [JsonReader]

/-- A request that asks for a flight finds one, or the object is not committed; and when the
object is read, what the vendor answered reads back as itself. -/
def Timely (s : GatewayPool I (CacheWorld MemoryStore)) : Pool.Label I (GatewayAction Empty) Call Call.Reply → Prop
  | .call _ ⟨.begin key, _⟩ => (s.world.flights.group.inner.lookup key).isSome = true ∨
    ∀ object, s.world.cache.master.objects.lookup (key.tenantId, key.cacheKey) = some object → object.status ≠ .committed
  | .call _ ⟨.readChunk _ _ _, _⟩ =>
    ∀ body, .ok body ∈ vendorCalls s.history → cachedBodyFromBytes (toVec body) = .ok body
  | _ => True

variable [DecidableEq I] (vendor : (call : Call) → call.Reply → Prop)

/-- A step of the gateway over its own cache. -/
abbrev GatewayStep : GatewayPool I (CacheWorld MemoryStore) → Pool.Label I (GatewayAction Empty) Call Call.Reply →
    GatewayPool I (CacheWorld MemoryStore) → Prop :=
  Pool.Step (GatewayWorld.server localCache vendor)

abbrev MissStep : GatewayPool I (CacheWorld MemoryStore) → Pool.Label I (GatewayAction Empty) Call Call.Reply →
    GatewayPool I (CacheWorld MemoryStore) → Prop :=
  Guarded (fun _ label => Undisturbed label) (Guarded Timely (GatewayStep vendor))

end

section
variable {I : Type} [DecidableEq I] [Sha256] [JsonWriter] [JsonReader] {initial : CacheWorld MemoryStore}
  {key : SingleflightKey} {vendor : (call : Call) → call.Reply → Prop} {s s' : GatewayPool I (CacheWorld MemoryStore)}

theorem gatewayStep_of_missStep {label : Pool.Label I (GatewayAction Empty) Call Call.Reply}
    (taken : MissStep vendor s label s') : GatewayStep vendor s label s' := taken.2.2

theorem call_served {i : I} {event : GatewayEvent} (taken : MissStep vendor s (.call i event) s') :
    s.world.Serves localCache vendor event.request event.reply s'.world ∧ s'.history = s.history ++ [(i, event)] ∧
      Timely s (.call i event) ∧ ∃ next, s.threads i = .call event.request next := by
  obtain ⟨_, met, step⟩ := taken
  cases step with
  | call pending served => exact ⟨served, rfl, met, _, pending⟩

end

section
variable {I α : Type} [DecidableEq I] [Sha256] [JsonWriter] [JsonReader] (vendor : (call : Call) → call.Reply → Prop)
  (initial : CacheWorld MemoryStore) (maxWaiters : Nat) (request : GatewayRequest) (state : GatewayState)
  (key : SingleflightKey) (i : I)

/-- An outline of one of the requests of a gateway. -/
abbrev Outlined (post : Knowledge → α → Prop) (known : Knowledge) (p : Flow α) : Prop :=
  Outline (MissStep vendor) (Pool.initial ⟨initial, .new maxWaiters⟩ (programs (fun _ => request) state))
    (Coalesced initial key) i post known p

variable {vendor initial maxWaiters request state key i} {post : Knowledge → α → Prop} {known : Knowledge}

/-- A call that touches neither the cache nor the flights' results. -/
theorem aside_outlined {call : Call} {next : call.Reply → Flow α}
    (aside : ∀ {s s' : GatewayWorld (CacheWorld MemoryStore)} {reply}, s.Serves localCache vendor call reply s' →
      s'.cache = s.cache)
    (other : call.tellsBody = false)
    (rest : ∀ {s s' : GatewayWorld (CacheWorld MemoryStore)} {reply}, s.Serves localCache vendor call reply s' →
      Outlined vendor initial maxWaiters request state key i post known (next reply)) :
    Outlined vendor initial maxWaiters request state key i post known (.call call next) := by
  intro trace s s' knowledge reply run taken holds mine
  obtain ⟨served, history, _⟩ := call_served taken
  obtain ⟨progress, tracks, knows, alone⟩ := holds
  refine ⟨known, ⟨progress, tracks.next history other ?_ rfl .inl fun _ _ _ => rfl, ?_, ?_⟩, rest served⟩
  · rw [aside served]
    exact tracks.cache
  all_goals rwa [← mine, Function.update_eq_self]

theorem record_outlined {call : Call} {next : call.Reply → Flow α} (metric : call.isMetric = true)
    (rest : ∀ reply, Outlined vendor initial maxWaiters request state key i post known (next reply)) :
    Outlined vendor initial maxWaiters request state key i post known (.call call next) := by
  refine aside_outlined (fun {s s' reply} served => ?_) ?_ fun {_ _ reply} _ => rest reply
  · cases call <;> first | (cases metric; done) | exact congrArg _ served
  · cases call <;> first | rfl | cases metric

/-- A call by which the leader moves the cache on. -/
theorem lead_outlined {own : Progress} {call : Call} {next : call.Reply → Flow α}
    (cached : ∀ {s s' : GatewayWorld (CacheWorld MemoryStore)} {reply}, s.Serves localCache vendor call reply s' →
      ∃ after, s.cache.Serves localStoreClient call reply after ∧ s' = s.setCache after)
    (other : call.tellsBody = false)
    (uncommitted : own.isCommitted = false)
    (rest : ∀ {cache after : CacheWorld MemoryStore} {reply}, LeftBy initial key (some own) cache →
      cache.Serves localStoreClient call reply after → ∃ further, further.body = own.body ∧
        LeftBy initial key (some further) after ∧
          Outlined vendor initial maxWaiters request state key i post (.leads further) (next reply)) :
    Outlined vendor initial maxWaiters request state key i post (.leads own) (.call call next) := by
  intro trace s s' knowledge reply run taken holds mine
  obtain ⟨served, history, _⟩ := call_served taken
  obtain ⟨after, answered, same⟩ := cached served
  obtain ⟨progress, tracks, knows, alone⟩ := holds
  obtain rfl := (knows i).led mine
  obtain ⟨further, body, left, outlined⟩ := rest tracks.cache answered
  refine ⟨.leads further, Coalesced.advance (tracks.next history other (by rw [same]; exact left) body
    (fun _ => .inl nofun) fun body replica committed => ?_) knows alone mine (fun _ => body ▸ id) uncommitted, outlined⟩
  cases Option.some.inj committed
  cases uncommitted

theorem putStart_outlined (body : Value) : Outlined vendor initial maxWaiters request state key i
    (fun known result => ∃ replica, known = .leads (.reserved body replica) ∧ result = .ok [replica])
    (.leads (.answered body)) (Flow.putStart key.tenantId key.cacheKey (toVec body).length replicaCount) := by
  refine lead_outlined id rfl rfl fun {cache after reply} left served => ?_
  obtain ⟨rfl, room⟩ := left
  obtain ⟨replica, master, started, reserved⟩ := room.started
  obtain ⟨rfl, rfl⟩ := served
  rw [started]
  exact ⟨.reserved body replica, rfl, ⟨reserved, rfl⟩, replica, rfl, rfl⟩

theorem writePreallocatedChunk_outlined (body : Value) (replica : ReplicaDescriptor) :
    Outlined vendor initial maxWaiters request state key i
      (fun known result => known = .leads (.written body replica) ∧ result = .ok ())
      (.leads (.reserved body replica)) (Flow.writePreallocatedChunk replica.nodeId key.tenantId key.cacheKey
        (.fromReplica replica) (toVec body)) := by
  refine lead_outlined id rfl rfl fun {cache after reply} left served => ?_
  obtain ⟨started, stores⟩ := left
  have written := MemoryStore.writePreallocatedChunk_of_fits started.len started.fits
  obtain ⟨rfl, rfl⟩ := served
  simp only [StoreClient.write, localStoreClient, stores, written]
  exact ⟨.written body replica, rfl, ⟨started, MemoryStore.readChunk_filled started.len started.fits⟩, rfl, rfl⟩

theorem putEnd_outlined (body : Value) (replica : ReplicaDescriptor) :
    Outlined vendor initial maxWaiters request state key i
      (fun known result => known = .leads (.committed body replica) ∧ result = .ok ())
      (.leads (.written body replica)) (Flow.putEnd key.tenantId key.cacheKey) := by
  refine lead_outlined id rfl rfl fun {cache after reply} left served => ?_
  obtain ⟨started, read⟩ := left
  obtain ⟨rfl, rfl⟩ := served
  simp only [MasterState.putEnd, started.object]
  exact ⟨.committed body replica, rfl, ⟨⟨_, Finmap.lookup_insert _, rfl, rfl⟩, read⟩, rfl, rfl⟩

theorem writeCachedBody_outlined (body : Value) : Outlined vendor initial maxWaiters request state key i
    (fun known result => ∃ replica, known = .leads (.committed body replica) ∧ result = .ok .committed)
    (.leads (.answered body)) (Flow.writeCachedBody key.tenantId key.cacheKey body) := by
  refine Outline.bind (putStart_outlined body) ?_
  rintro _ _ ⟨replica, rfl, rfl⟩
  refine Outline.bind (m := fun known result => known = .leads (.written body replica) ∧ result = .ok ())
    (Outline.bind (writePreallocatedChunk_outlined body replica) ?_) ?_
  · rintro _ _ ⟨rfl, rfl⟩
    exact ⟨rfl, rfl⟩
  · rintro _ _ ⟨rfl, rfl⟩
    refine Outline.bind (putEnd_outlined body replica) ?_
    rintro _ _ ⟨rfl, rfl⟩
    exact ⟨replica, rfl, rfl⟩

/-- A request that has looked the object up. -/
def LookedFor (known : Knowledge) (body : Option Value) : Prop :=
  known = .nothing ∧ body = none ∨ ∃ found, known = .holds found ∧ body = some found

theorem getReplicaList_outlined (absent : initial.master.objects.lookup (key.tenantId, key.cacheKey) = none) :
    Outlined vendor initial maxWaiters request state key i
      (fun known result => known = .nothing ∧ result = .error (.cache .notFound) ∨
        ∃ replica list, known = .located (.fromReplica replica) ∧ result = .ok list ∧ list.replicas = [replica])
      .nothing (Flow.getReplicaList key.tenantId key.cacheKey) := by
  intro trace s s' knowledge reply run taken holds mine
  obtain ⟨⟨after, ⟨nowMs, rfl, rfl⟩, same⟩, history, _⟩ := call_served taken
  obtain ⟨progress, tracks, knows, alone⟩ := holds
  have step {learnt : Knowledge} (left : LeftBy initial key progress s'.world.cache) (known : Knows progress learnt)
      (follows : learnt.isLeader = false) : Coalesced initial key s' (Function.update knowledge i learnt) :=
    .learn (tracks.next history rfl left rfl .inl fun _ _ _ => rfl) knows alone known follows
  rcases tracks.cache.lookup absent nowMs with he | ⟨body, replica, list, master, committed, he, replicas, objects⟩
  · refine ⟨.nothing, step ?_ trivial rfl, .inl ⟨rfl, by rw [he]; rfl⟩⟩
    rw [same, he]
    exact tracks.cache
  · refine ⟨.located (.fromReplica replica), step ?_ ⟨body, replica, committed, rfl⟩ rfl,
      .inr ⟨replica, list, rfl, by rw [he]; rfl, replicas⟩⟩
    have left := tracks.cache
    rw [committed] at left ⊢
    rw [same, he]
    exact ⟨objects ▸ left.1, left.2⟩

theorem readChunk_outlined (handle : ChunkHandle) : Outlined vendor initial maxWaiters request state key i
    (fun known result => ∃ body, known = .holds body ∧ result = .ok ⟨toVec body, "dram"⟩ ∧
      cachedBodyFromBytes (toVec body) = .ok body)
    (.located handle) (Flow.readChunk key.tenantId key.cacheKey handle) := by
  intro trace s s' knowledge reply run taken holds mine
  obtain ⟨⟨after, ⟨rfl, rfl⟩, same⟩, history, met, _⟩ := call_served taken
  obtain ⟨progress, tracks, knows, alone⟩ := holds
  have located := knows i
  rw [mine] at located
  obtain ⟨body, replica, rfl, rfl⟩ := located
  have left : LeftBy initial key (some (.committed body replica)) s'.world.cache := by
    rw [same]
    exact tracks.cache
  refine ⟨.holds body, .learn (tracks.next history rfl left rfl .inl fun _ _ _ => rfl) knows alone rfl rfl,
    body, rfl, ?_, met body (by rw [tracks.calls]; exact List.mem_singleton_self _)⟩
  simp only [localStoreClient, tracks.cache.2]

theorem readCachedBody_outlined (absent : initial.master.objects.lookup (key.tenantId, key.cacheKey) = none) :
    Outlined vendor initial maxWaiters request state key i
      (fun known result => ∃ found : Option (Flow.CachedPayload Value), result = .ok found ∧
        LookedFor known (found.map (·.value)))
      .nothing (Flow.readCachedBody key.tenantId key.cacheKey) := by
  refine Outline.bind (m := fun known result => known = .nothing ∧ result = .ok none ∨ ∃ body,
    known = .holds body ∧ result = .ok (some ⟨toVec body, "dram"⟩) ∧ cachedBodyFromBytes (toVec body) = .ok body)
    (Outline.bind (getReplicaList_outlined absent) ?_) ?_
  · rintro _ _ (⟨rfl, rfl⟩ | ⟨replica, list, rfl, rfl, replicas⟩)
    · exact .inl ⟨rfl, rfl⟩
    · simp only [replicas, List.head?_cons]
      refine Outline.bind (readChunk_outlined _) ?_
      rintro _ _ ⟨body, rfl, rfl, reads⟩
      exact .inr ⟨body, rfl, rfl, reads⟩
  · rintro _ _ (⟨rfl, rfl⟩ | ⟨body, rfl, rfl, reads⟩)
    · exact ⟨none, rfl, .inl ⟨rfl, rfl⟩⟩
    · simp only [reads]
      exact ⟨some ⟨body, "dram"⟩, rfl, .inr ⟨body, rfl, rfl⟩⟩

theorem completeVendor_outlined {model version : String}
    (completes : VendorCompletes vendor initial key model version) (parsed : ResponsesRequest) :
    Outlined vendor initial maxWaiters request state key i
      (fun known result => ∃ body, known = .leads (.answered body) ∧ result = .ok body)
      (.leads .opened) (Flow.completeVendor parsed) := by
  intro trace s s' knowledge reply run taken holds mine
  obtain ⟨⟨answered, same⟩, history, _⟩ := call_served taken
  obtain ⟨body, rfl, room⟩ := completes.completes _ _ answered
  obtain ⟨progress, tracks, knows, alone⟩ := holds
  obtain rfl := (knows i).led mine
  refine ⟨.leads (.answered body), .advance ⟨?_, ?_, fun _ => ?_, fun j leader result member => ?_⟩ knows alone
    mine nofun rfl, record_outlined rfl fun _ => ⟨body, rfl, rfl⟩⟩
  · rw [same]
    exact ⟨tracks.cache, room⟩
  · rw [history]
    exact (List.filterMap_append ..).trans (by rw [show List.filterMap _ s.history = _ from tracks.calls]; rfl)
  · obtain ⟨j, leader, member⟩ := tracks.begun nofun
    exact ⟨j, leader, history ▸ List.mem_append_left _ member⟩
  · rw [history] at member
    rcases List.mem_append.mp member with member | last
    · obtain ⟨_, _, _, committed, _⟩ := tracks.published j leader result member
      cases committed
    · cases List.mem_singleton.mp last

theorem cacheableNonStreamingMiss_outlined {model version : String}
    (completes : VendorCompletes vendor initial key model version) (parsed : ResponsesRequest) :
    Outlined vendor initial maxWaiters request state key i
      (fun known result => ∃ body replica response, known = .leads (.committed body replica) ∧ result = .ok response ∧
        response.statusCode = 200 ∧ response.body = body)
      (.leads .opened) (Flow.cacheableNonStreamingMiss key.tenantId .default parsed key.cacheKey) := by
  refine Outline.bind (completeVendor_outlined completes parsed) ?_
  rintro _ _ ⟨body, rfl, rfl⟩
  refine Outline.bind (m := fun known _ => ∃ replica, known = .leads (.committed body replica))
    (Outline.bind (writeCachedBody_outlined body) ?_) ?_
  · rintro _ _ ⟨replica, rfl, rfl⟩
    exact ⟨replica, rfl⟩
  · rintro _ writeStatus ⟨replica, rfl⟩
    exact record_outlined rfl fun _ => record_outlined rfl fun _ => ⟨body, replica, _, rfl, rfl, by simp, by simp⟩

theorem publish_outlined (leader : Nat) {body : Value} (replica : ReplicaDescriptor) {response : GatewayResponse}
    (status : response.statusCode = 200) (carries : response.body = body) :
    Outlined vendor initial maxWaiters request state key i
      (fun known _ => known = .leads (.committed body replica)) (.leads (.committed body replica))
      (Flow.publish leader (.ok response)) := by
  intro trace s s' knowledge reply run taken holds mine
  obtain ⟨⟨flights, _, same⟩, history, _⟩ := call_served taken
  obtain ⟨progress, tracks, knows, alone⟩ := holds
  obtain rfl := (knows i).led mine
  refine ⟨.leads (.committed body replica), ⟨some (.committed body replica), ⟨?_, ?_, fun led => ?_, fun j other result member => ?_⟩,
    ?_, ?_⟩, aside_outlined ?_ rfl fun _ => rfl⟩
  · rw [same]
    exact tracks.cache
  · rw [history, ← tracks.calls]
    exact (List.filterMap_append ..).trans (List.append_nil _)
  · obtain ⟨j, leader, member⟩ := tracks.begun led
    exact ⟨j, leader, history ▸ List.mem_append_left _ member⟩
  · rw [history] at member
    rcases List.mem_append.mp member with member | last
    · exact tracks.published j other result member
    · cases List.mem_singleton.mp last
      exact ⟨body, replica, response, rfl, rfl, status, carries⟩
  · rwa [← mine, Function.update_eq_self]
  · rwa [← mine, Function.update_eq_self]
  · rintro s s' reply ⟨flights, _, rfl⟩
    rfl

theorem wait_outlined (waiter : Nat) : Outlined vendor initial maxWaiters request state key i
    (fun known result => ∃ body response, known = .holds body ∧ result = .ok response ∧ response.statusCode = 200 ∧
      response.body = body)
    .nothing (Flow.wait waiter) := by
  intro trace s s' knowledge reply run taken holds mine
  obtain ⟨⟨_, _, same⟩, history, _⟩ := call_served taken
  obtain ⟨progress, tracks, knows, alone⟩ := holds
  have member : (i, ⟨.wait waiter, reply⟩) ∈ s'.history := by simp [history]
  rcases waited_cases (run.snoc taken).of_guarded.of_guarded member with ⟨j, published⟩ | cancelled
  · rw [history] at published
    rcases List.mem_append.mp published with published | last
    · obtain ⟨body, replica, response, rfl, rfl, status, carries⟩ := tracks.published _ _ _ published
      refine ⟨.holds body, .learn (tracks.next history rfl ?_ rfl .inl fun _ _ _ => rfl) knows alone rfl rfl,
        body, response, rfl, rfl, status, carries⟩
      rw [same]
      exact tracks.cache
    · cases List.mem_singleton.mp last
  · exact ((run.snoc taken).mem_of_guarded _ cancelled).elim

/-- Every waiter that has joined is another request's, apart from one that leads and one
that has not asked for a flight. -/
private theorem joined_le [Fintype I] {trace : List (Pool.Label I (GatewayAction Empty) Call Call.Reply)}
    {s : GatewayPool I (CacheWorld MemoryStore)}
    (run : Run (GatewayStep vendor) (Pool.initial ⟨initial, .new maxWaiters⟩ (programs (fun _ => request) state)) trace s)
    (quiet : Quiet (Pool.own s.history i)) {j : I} {leader : Nat}
    (leads : (j, ⟨.begin key, .ok (.leader leader)⟩) ∈ s.history) :
    s.world.flights.joined + 2 ≤ Fintype.card I := by
  have meets := programs_meet (fun _ : I => request) state
  have asked : ∀ waiter : Fin s.world.flights.joined, ∃ k, ∃ key,
      (k, ⟨.begin key, .ok (.waiter waiter.val)⟩) ∈ s.history :=
    fun waiter => ((run_linked run).waiter waiter.val).mp waiter.isLt
  choose owner keys owns using asked
  have injective : Function.Injective owner := by
    rintro ⟨a, ha⟩ ⟨b, hb⟩ same
    have first := owns ⟨a, ha⟩
    have second := owns ⟨b, hb⟩
    generalize keys ⟨a, ha⟩ = k at first
    generalize keys ⟨b, hb⟩ = k' at second
    cases begun_once meets run (Pool.mem_own.mpr first) (Pool.mem_own.mpr (same ▸ second))
    rfl
  have apart : i ≠ j := by
    rintro rfl
    cases quiet _ (Pool.mem_own.mpr leads)
  have others : Finset.univ.map ⟨owner, injective⟩ ⊆ ({i, j} : Finset I)ᶜ := by
    intro k member
    obtain ⟨waiter, _, rfl⟩ := Finset.mem_map.mp member
    simp only [Finset.mem_compl, Finset.mem_insert, Finset.mem_singleton, Function.Embedding.coeFn_mk, not_or]
    refine ⟨fun same => ?_, fun same => ?_⟩
    · cases quiet _ (Pool.mem_own.mpr (same ▸ owns waiter))
    · cases begun_once meets run (Pool.mem_own.mpr leads) (Pool.mem_own.mpr (same ▸ owns waiter))
  have bound := Finset.card_le_card others
  have two : ({i, j} : Finset I).card ≤ Fintype.card I := Finset.card_le_univ _
  rw [Finset.card_map, Finset.card_univ, Fintype.card_fin, Finset.card_compl, Finset.card_pair apart] at bound
  rw [Finset.card_pair apart] at two
  omega

theorem begin_outlined [Fintype I] (few : Fintype.card I ≤ maxWaiters + 1) :
    Outlined vendor initial maxWaiters request state key i
      (fun known result => known = .leads .opened ∧ (∃ leader, result = .ok (.leader leader)) ∨
        known = .nothing ∧ ∃ waiter, result = .ok (.waiter waiter))
      .nothing (Flow.begin key) := by
  intro trace s s' knowledge reply guarded taken holds mine
  have run := guarded.of_guarded.of_guarded
  obtain ⟨⟨rfl, same⟩, history, met, _, pending⟩ := call_served taken
  obtain ⟨progress, tracks, knows, alone⟩ := holds
  have quiet : Quiet (Pool.own s.history i) := by
    have ready := Pool.run_meets (programs_meet (fun _ : I => request) state i) run
    rw [pending] at ready
    exact ready.1
  have coherent := Flights.run_coherent (run_flights run)
  have cache : s'.world.cache = s.world.cache := by rw [same]; rfl
  rcases s.world.flights.begun_cases key with ⟨free, begun, _⟩ | ⟨inFlight, found, ⟨full, _, _⟩ | ⟨_, begun, _⟩⟩
  · have unled : progress = none := by
      by_contra led
      obtain ⟨j, leader, begun⟩ := tracks.begun led
      have unpublished (result : SharedResult GatewayResponse) :
          ⟨.publish leader result, ()⟩ ∉ Pool.own s.history j := by
        intro published
        obtain ⟨body, replica, _, rfl, _⟩ := tracks.published j leader result (Pool.mem_own.mp published)
        obtain ⟨object, present, committed, _⟩ := tracks.cache.1
        rcases met with flying | uncommitted
        · rw [free] at flying
          cases flying
        · exact uncommitted object present committed
      obtain ⟨opened, live⟩ := leader_live (programs_meet (fun _ : I => request) state) run
        (Pool.mem_own.mpr begun) unpublished (guarded.mem_of_guarded _)
      obtain ⟨waiters, entry⟩ := coherent.own_entry opened live
      rw [(run_linked run).leads j key leader begun, free] at entry
      cases entry
    subst unled
    rw [begun] at history ⊢
    exact ⟨.leads .opened, .opens (tracks.next history rfl (cache ▸ tracks.cache) rfl (fun _ => .inr ⟨_, rfl⟩) nofun)
      knows, .inl ⟨rfl, _, rfl⟩⟩
  · obtain ⟨opened, _, waiters⟩ := coherent.entry key inFlight found
    obtain ⟨j, _, leads⟩ := ((run_linked run).leader inFlight.sender).mp opened
    have joined := joined_le run quiet leads
    have most : (s.world.flights.joinedTo inFlight.sender).card ≤ s.world.flights.joined :=
      (Finset.card_filter_le _ _).trans (Finset.card_range _).le
    have limit : s.world.flights.group.maxWaitersPerKey = maxWaiters := Flights.run_limit (run_flights run)
    omega
  · rw [begun] at history ⊢
    exact ⟨.nothing, .learn (tracks.next history rfl (cache ▸ tracks.cache) rfl .inl fun _ _ _ => rfl) knows alone
      trivial rfl, .inr ⟨rfl, _, rfl⟩⟩

/-- A 200 response with the body that the request has come to know. -/
def Served (known : Knowledge) (result : GatewayResult GatewayResponse) : Prop :=
  ∃ body response, (known = .holds body ∨ ∃ replica, known = .leads (.committed body replica)) ∧
    result = .ok response ∧ response.statusCode = 200 ∧ response.body = body

theorem coalescedMiss_outlined [Fintype I] (few : Fintype.card I ≤ maxWaiters + 1) {model version : String}
    (completes : VendorCompletes vendor initial key model version) (writable : key.writeMode = .writable)
    (parsed : ResponsesRequest) : Outlined vendor initial maxWaiters request state key i Served .nothing
      (Flow.coalescedMiss key.tenantId .default parsed key.cacheKey) := by
  have same : (⟨key.tenantId, key.cacheKey, Flow.singleflightWriteMode .default⟩ : SingleflightKey) = key := by
    obtain ⟨tenantId, cacheKey, mode⟩ := key
    cases writable
    rfl
  unfold Flow.coalescedMiss
  rw [same]
  refine Outline.bind (begin_outlined few) ?_
  rintro _ _ (⟨rfl, leader, rfl⟩ | ⟨rfl, waiter, rfl⟩)
  · refine record_outlined rfl fun _ => Outline.bind
      (p := Flow.cacheableNonStreamingMiss key.tenantId .default parsed key.cacheKey)
      (cacheableNonStreamingMiss_outlined completes parsed) ?_
    rintro _ _ ⟨body, replica, response, rfl, rfl, status, carries⟩
    refine Outline.bind (publish_outlined leader replica status carries) ?_
    rintro _ _ rfl
    exact ⟨body, _, .inr ⟨replica, rfl⟩, rfl, status, carries⟩
  · refine Outline.bind (wait_outlined waiter) ?_
    rintro _ _ ⟨body, response, rfl, rfl, status, carries⟩
    exact record_outlined rfl fun _ => record_outlined rfl fun _ => record_outlined rfl fun _ =>
      ⟨body, _, .inl rfl, rfl, status, carries⟩

theorem nonStreamingResponse_outlined [Fintype I] (few : Fintype.card I ≤ maxWaiters + 1) {model version : String}
    (absent : initial.master.objects.lookup (key.tenantId, key.cacheKey) = none)
    (completes : VendorCompletes vendor initial key model version) (writable : key.writeMode = .writable)
    (parsed : ResponsesRequest) : Outlined vendor initial maxWaiters request state key i Served .nothing
      (Flow.nonStreamingResponse true key.tenantId .default parsed .cacheable key.cacheKey) := by
  refine Outline.bind (readCachedBody_outlined absent) ?_
  rintro _ _ ⟨found, rfl, ⟨rfl, missed⟩ | ⟨body, rfl, hit⟩⟩
  · cases Option.map_eq_none_iff.mp missed
    exact coalescedMiss_outlined few completes writable parsed
  · obtain ⟨payload, rfl, rfl⟩ := Option.map_eq_some_iff.mp hit
    exact record_outlined rfl fun _ => record_outlined rfl fun _ => record_outlined rfl fun _ =>
      ⟨_, _, .inl rfl, rfl, by simp, by simp⟩

end

end Mooncache
