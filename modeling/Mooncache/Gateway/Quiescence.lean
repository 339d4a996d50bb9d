import Mooncache.Gateway.Completion
import Mooncache.Gateway.LocalCommit

/-! What is unfinished in a gateway belongs to a request that is not: a reservation to its
writer, and an entry of the singleflight group to its leader. -/
namespace Mooncache
open Program

namespace MasterState
variable {s s' : MasterState} {key : ObjectKey}

/-- Every event but a start leaves an object that is not being written. -/
theorem Moved.closed {event : Lifecycle} (moved : Moved s key event s') (silent : event.replicas = none) :
    Closed key s' := by
  intro object found
  have left := moved.status
  rw [found, Option.map_some] at left
  cases event with
  | started replicas => cases silent
  | removed => cases left
  | ended => exact .inl (Option.some.inj left)
  | revoked | evicted => exact .inr (by rw [Option.some.inj left]; rfl)

/-- An object that is still being written after events that start none was there before them. -/
theorem Moves.kept_of_open {events : LifecycleHistory} (moves : Moves s events s')
    (quiet : ∀ event ∈ events.eventsOf key, event.replicas = none) (opened : ¬ Closed key s') :
    s'.objects.lookup key = s.objects.lookup key := by
  induction moves with
  | nil same => rw [same]
  | @cons s middle s' other event rest moved further ih =>
    have later : ∀ event ∈ rest.eventsOf key, event.replicas = none := fun event member =>
      quiet event (LifecycleHistory.mem_eventsOf.mpr
        (List.mem_cons_of_mem _ (LifecycleHistory.mem_eventsOf.mp member)))
    rw [ih later opened]
    rcases eq_or_ne key other with rfl | hne
    · have silent := quiet event (LifecycleHistory.mem_eventsOf.mpr List.mem_cons_self)
      exact absurd (further.closed later (moved.closed silent)) opened
    · exact moved.others key hne

/-- An operation that starts nothing under a key opens nothing there. -/
theorem kept_of_open {op : MasterOp} (quiet : ∀ event ∈ (s.lifecycle op).eventsOf key, event.replicas = none)
    (opened : ¬ Closed key (op.apply s)) : (op.apply s).objects.lookup key = s.objects.lookup key :=
  (lifecycle_moves s op).kept_of_open quiet opened

theorem lifecycle_unstarted {op : MasterOp} (other : ∀ tenant key len count, op ≠ .putStart tenant key len count) :
    ∀ event ∈ (s.lifecycle op).eventsOf key, event.replicas = none := by
  intro event member
  replace member := LifecycleHistory.mem_eventsOf.mp member
  cases op with
  | putStart tenant key len count => exact absurd rfl (other tenant key len count)
  | setTenantQuota | mountSegment | getReplicaList => cases member
  | putEnd tenant cacheKey | putRevoke tenant cacheKey | remove tenant cacheKey =>
    simp only [lifecycle] at member
    split at member
    · cases List.mem_singleton.mp member
      rfl
    · cases member
  | evictForTenant tenant target nowMs order =>
    obtain ⟨_, _, same⟩ := List.mem_map.mp member
    cases same
    rfl

theorem putEnd_closed (s : MasterState) {tenant : TenantId} {cacheKey : CacheKey}
    (done : (s.putEnd tenant cacheKey).1 = .ok ()) : Closed (tenant, cacheKey) (s.putEnd tenant cacheKey).2 := by
  rcases s.putEnd_cases tenant cacheKey with ⟨err, he⟩ | ⟨object, _, _, he⟩
  · cases (congrArg Prod.fst he).symm.trans done
  · intro other found
    rw [he] at found
    cases Option.some.inj ((Finmap.lookup_insert _).symm.trans found)
    exact .inl rfl

theorem putRevoke_closed (s : MasterState) {tenant : TenantId} {cacheKey : CacheKey}
    (done : (s.putRevoke tenant cacheKey).1 = .ok ()) :
    Closed (tenant, cacheKey) (s.putRevoke tenant cacheKey).2 := by
  rcases s.putRevoke_cases tenant cacheKey with ⟨_, he⟩ | ⟨object, _, he⟩
  · cases (congrArg Prod.fst he).symm.trans done
  · intro other found
    rw [he, retire_objects] at found
    cases Option.some.inj ((Finmap.lookup_insert _).symm.trans found)
    exact .inr rfl

end MasterState

/-- A request was granted the extents of an object that it has neither committed nor taken back. -/
def Writes (events : List GatewayEvent) (key : ObjectKey) (object : CacheObjectMeta) : Prop :=
  (∃ count, ⟨.putStart key.1 key.2 object.len count, .ok object.replicas⟩ ∈ events) ∧
    ⟨.putEnd key.1 key.2, .ok ()⟩ ∉ events ∧ ⟨.putRevoke key.1 key.2, .ok ()⟩ ∉ events

namespace CacheWorld
variable {S : Type} {client : StoreClient S} {world world' : CacheWorld S} {call : Call} {reply : call.Reply}
  {key : ObjectKey} {object : CacheObjectMeta}

/-- An object that is being written after a call was put there by the call, or was there before it. -/
theorem open_after (served : world.Serves client call reply world' ∨ world.Fails client call reply world')
    (opened : ¬ MasterState.Closed key world'.master) (found : world'.master.objects.lookup key = some object) :
    (∃ count, (⟨call, reply⟩ : GatewayEvent) = ⟨.putStart key.1 key.2 object.len count, .ok object.replicas⟩) ∨
      world.master.objects.lookup key = some object ∧
        (⟨call, reply⟩ : GatewayEvent) ≠ ⟨.putEnd key.1 key.2, .ok ()⟩ ∧
        (⟨call, reply⟩ : GatewayEvent) ≠ ⟨.putRevoke key.1 key.2, .ok ()⟩ := by
  have kept (op : MasterOp) (other : ∀ tenant key len count, op ≠ .putStart tenant key len count)
      (after : world'.master = op.apply world.master) : world.master.objects.lookup key = some object := by
    rw [after] at opened found
    exact (MasterState.kept_of_open (MasterState.lifecycle_unstarted other) opened).symm.trans found
  cases call with
  | getReplicaList tenant cacheKey =>
    obtain ⟨nowMs, _, rfl⟩ := served.resolve_right id
    exact .inr ⟨kept (.getReplicaList tenant cacheKey nowMs) nofun rfl, nofun, nofun⟩
  | readChunk tenant cacheKey handle =>
    obtain ⟨_, rfl⟩ := served.resolve_right id
    exact .inr ⟨found, nofun, nofun⟩
  | writePreallocatedChunk nodeId tenant cacheKey handle bytes =>
    refine .inr ⟨?_, nofun, nofun⟩
    rcases served with ⟨_, rfl⟩ | ⟨_, rfl | rfl⟩ <;> exact found
  | putStart tenant cacheKey len count =>
    obtain ⟨rfl, rfl⟩ := served.resolve_right id
    rcases world.master.putStart_cases tenant cacheKey len count with
      ⟨err, he⟩ | ⟨reserved, _, _, _, _, _, _, _, _, _, _, he⟩
    · rw [he] at found
      exact .inr ⟨found, nofun, nofun⟩
    · rw [he] at found ⊢
      by_cases here : key = (tenant, cacheKey)
      · subst here
        cases Option.some.inj ((Finmap.lookup_insert _).symm.trans found)
        exact .inl ⟨count, rfl⟩
      · exact .inr ⟨(Finmap.lookup_insert_of_ne _ here).symm.trans found, nofun, nofun⟩
  | putEnd tenant cacheKey =>
    have before : world.master.objects.lookup key = some object := by
      rcases served with ⟨_, rfl⟩ | ⟨_, rfl | rfl⟩
      · exact kept (.putEnd tenant cacheKey) nofun rfl
      · exact found
      · exact kept (.putEnd tenant cacheKey) nofun rfl
    refine .inr ⟨before, ?_, nofun⟩
    rintro ⟨⟩
    obtain ⟨replied, rfl⟩ := served.resolve_right fun failed => nomatch failed.1
    exact opened (world.master.putEnd_closed (cacheResult_eq_ok.mp replied.symm))
  | putRevoke tenant cacheKey =>
    have before : world.master.objects.lookup key = some object := by
      rcases served with ⟨_, rfl⟩ | ⟨_, rfl | rfl⟩
      · exact kept (.putRevoke tenant cacheKey) nofun rfl
      · exact found
      · exact kept (.putRevoke tenant cacheKey) nofun rfl
    refine .inr ⟨before, nofun, ?_⟩
    rintro ⟨⟩
    obtain ⟨replied, rfl⟩ := served.resolve_right fun failed => nomatch failed.1
    exact opened (world.master.putRevoke_closed (cacheResult_eq_ok.mp replied.symm))
  | _ => exact (served.elim id id).elim

end CacheWorld

/-- Only a cache call reaches the cache. -/
theorem GatewayWorld.Serves.cache_cases {C A : Type} {cache : Server C A Call Call.Reply}
    {vendor : (call : Call) → call.Reply → Prop} {world world' : GatewayWorld C} {call : Call} {reply : call.Reply}
    (served : world.Serves cache vendor call reply world') :
    (call.isChange = false ∧ call.isLookup = false) ∧ world'.cache = world.cache ∨
      cache.serve world.cache call reply world'.cache := by
  cases call with
  | getReplicaList | putStart | putEnd | putRevoke | readChunk | writePreallocatedChunk =>
    obtain ⟨_, served, rfl⟩ := served
    exact .inr served
  | recordCacheStatus | recordWrite | recordSingleflight | recordVendorCall =>
    cases served
    exact .inl ⟨⟨rfl, rfl⟩, rfl⟩
  | wait => exact .inl ⟨⟨rfl, rfl⟩, congrArg GatewayWorld.cache served.2.2⟩
  | begin =>
    obtain ⟨_, rfl⟩ := served
    exact .inl ⟨⟨rfl, rfl⟩, rfl⟩
  | resolveModelVersion | complete | stream => exact .inl ⟨⟨rfl, rfl⟩, congrArg GatewayWorld.cache served.2⟩
  | publish | send =>
    obtain ⟨_, _, rfl⟩ := served
    exact .inl ⟨⟨rfl, rfl⟩, rfl⟩

/-- A request that is granted extents and has ended took them back in vain, if it did not commit them. -/
theorem WriteOutcome.of_writes {tenantId : TenantId} {cacheKey : CacheKey} {bytes : List UInt8}
    {new : List GatewayEvent} {outcome : GatewayResult CacheWriteStatus} {key : ObjectKey} {object : CacheObjectMeta}
    (h : WriteOutcome tenantId cacheKey bytes new outcome) (writes : Writes new key object) :
    ∃ err, ⟨.putRevoke key.1 key.2, .error err⟩ ∈ new := by
  obtain ⟨tenant, cacheKey⟩ := key
  obtain ⟨_, _, len, _, replicas, _, _⟩ := object
  obtain ⟨⟨count, started⟩, unended, unrevoked⟩ := writes
  have unstarted {events : List GatewayEvent} (lingers : ∀ event ∈ events, GatewayEvent.Lingers event) :
      ⟨.putStart tenant cacheKey len count, .ok replicas⟩ ∉ events := fun member => lingers _ member
  cases h with
  | refused err => cases List.mem_singleton.mp started
  | committed lingers written =>
    rcases List.mem_append.mp started with first | last
    · rcases List.mem_cons.mp first with same | middle
      · cases same
        exact absurd (List.mem_append_right _ (List.mem_singleton_self _)) unended
      · exact absurd middle (unstarted lingers)
    · cases List.mem_singleton.mp last
  | revoked reply err lingers =>
    rcases List.mem_append.mp started with first | last
    · rcases List.mem_cons.mp first with same | middle
      · cases same
        cases reply with
        | ok done => exact absurd (List.mem_append_right _ (List.mem_singleton_self _)) unrevoked
        | error err => exact ⟨err, List.mem_append_right _ (List.mem_singleton_self _)⟩
      · exact absurd middle (unstarted lingers)
    · cases List.mem_singleton.mp last

theorem Concluded.of_writes [JsonWriter] [JsonReader] {writing : Prop} {tenantId : TenantId} {cacheKey : CacheKey}
    {past : List GatewayEvent} {result : GatewayResult GatewayResponse} {key : ObjectKey} {object : CacheObjectMeta}
    (h : Concluded writing tenantId cacheKey past result) (writes : Writes past key object) :
    ∃ err, ⟨.putRevoke key.1 key.2, .error err⟩ ∈ past := by
  obtain ⟨⟨count, started⟩, unended, unrevoked⟩ := writes
  cases h with
  | unwritten untouched _ => exact absurd started (untouched.not_mem rfl)
  | @wrote before new after bytes outcome response writes split untouched rest went artifact header =>
    have within {event : GatewayEvent} (member : event ∈ new) : event ∈ past :=
      split ▸ List.mem_append_left _ (List.mem_append_right _ member)
    rw [split, List.mem_append, List.mem_append] at started
    have granted := (started.resolve_right (rest.not_mem rfl)).resolve_left (untouched.not_mem rfl)
    obtain ⟨err, revoked⟩ := went.of_writes ⟨⟨count, granted⟩, mt within unended, mt within unrevoked⟩
    exact ⟨err, within revoked⟩

section
variable {I S : Type} [DecidableEq I] [Sha256] [JsonWriter] [JsonReader] {client : StoreClient S}
  {allowed : MasterOp → Prop} {vendor : (call : Call) → call.Reply → Prop} {world : CacheWorld S} {maxWaiters : Nat}
  {requests : I → GatewayRequest} {state : GatewayState}
  {trace : List (Pool.Label I (GatewayAction MasterOp) Call Call.Reply)} {s s' : GatewayPool I (CacheWorld S)}
  {label : Pool.Label I (GatewayAction MasterOp) Call Call.Reply}

/-- Whatever is being written is being written by a request. -/
def Attended (s : GatewayPool I (CacheWorld S)) : Prop :=
  ∀ key object, s.world.cache.master.objects.lookup key = some object →
    ¬ MasterState.Closed key s.world.cache.master → ∃ i, Writes (Pool.own s.history i) key object

omit [DecidableEq I] [Sha256] [JsonWriter] [JsonReader] in
/-- The same of a call to the gateway's world. -/
private theorem gateway_open_after {world world' : GatewayWorld (CacheWorld S)} {call : Call} {reply : call.Reply}
    (served : world.Serves (CacheWorld.server client allowed) vendor call reply world') {key : ObjectKey}
    {object : CacheObjectMeta} (opened : ¬ MasterState.Closed key world'.cache.master)
    (found : world'.cache.master.objects.lookup key = some object) :
    (∃ count, (⟨call, reply⟩ : GatewayEvent) = ⟨.putStart key.1 key.2 object.len count, .ok object.replicas⟩) ∨
      world.cache.master.objects.lookup key = some object ∧
        (⟨call, reply⟩ : GatewayEvent) ≠ ⟨.putEnd key.1 key.2, .ok ()⟩ ∧
        (⟨call, reply⟩ : GatewayEvent) ≠ ⟨.putRevoke key.1 key.2, .ok ()⟩ := by
  rcases served.cache_cases with ⟨⟨unchanging, _⟩, same⟩ | served
  · rw [same] at found
    refine .inr ⟨found, ?_, ?_⟩ <;>
      · intro same
        cases same
        cases unchanging
  · exact CacheWorld.open_after served opened found

omit [Sha256] [JsonWriter] [JsonReader] in
/-- The writer of an object goes on, or has not ended its reservation by another call. -/
private theorem Writes.grow {history : List (I × GatewayEvent)} {i j : I} {event : GatewayEvent} {key : ObjectKey}
    {object : CacheObjectMeta} (h : Writes (Pool.own history j) key object)
    (ends : event ≠ ⟨.putEnd key.1 key.2, .ok ()⟩) (revokes : event ≠ ⟨.putRevoke key.1 key.2, .ok ()⟩) :
    Writes (Pool.own (history ++ [(i, event)]) j) key object := by
  rcases eq_or_ne j i with rfl | hne
  · obtain ⟨⟨count, started⟩, unended, unrevoked⟩ := h
    rw [Pool.own_snoc_self]
    refine ⟨⟨count, List.mem_append_left _ started⟩, fun member => ?_, fun member => ?_⟩
    · exact (List.mem_append.mp member).elim unended fun last => ends (List.mem_singleton.mp last).symm
    · exact (List.mem_append.mp member).elim unrevoked fun last => revokes (List.mem_singleton.mp last).symm
  · rwa [Pool.own_snoc_of_ne _ hne]

omit [Sha256] [JsonWriter] [JsonReader] in
private theorem Attended.step (h : Attended s)
    (others : ∀ tenant key len count, ¬ allowed (.putStart tenant key len count))
    (ordered : ∀ i, (s.threads i).Meets OrderedAfter (fun _ _ => True) (Pool.own s.history i))
    (step : Pool.Step (GatewayWorld.server (CacheWorld.server client allowed) vendor) s label s') : Attended s' := by
  have before {key : ObjectKey} {object : CacheObjectMeta}
      (opened : ¬ MasterState.Closed key s'.world.cache.master)
      (found : s'.world.cache.master.objects.lookup key = some object)
      (kept : s.world.cache.master.objects.lookup key = some object) :
      ∃ i, Writes (Pool.own s.history i) key object :=
    h key object kept fun closed => opened fun other there =>
      closed other (by rw [kept, ← found, there])
  intro key object found opened
  cases step with
  | @call i call next reply after pending served =>
    rcases gateway_open_after served opened found with ⟨count, event⟩ | ⟨kept, ends, revokes⟩
    · refine ⟨i, ?_⟩
      have ready := ordered i
      rw [pending] at ready
      cases event
      obtain ⟨earlier, new, split, untouched, rfl⟩ := ready.1
      rw [List.append_nil] at split
      rw [← split] at untouched
      rw [Pool.own_snoc_self]
      refine ⟨⟨count, List.mem_append_right _ (List.mem_singleton_self _)⟩, fun member => ?_, fun member => ?_⟩
      · rcases List.mem_append.mp member with early | last
        · exact untouched.not_mem rfl early
        · cases List.mem_singleton.mp last
      · rcases List.mem_append.mp member with early | last
        · exact untouched.not_mem rfl early
        · cases List.mem_singleton.mp last
    · obtain ⟨j, writes⟩ := before opened found kept
      exact ⟨j, writes.grow ends revokes⟩
  | @act action after acted =>
    cases action with
    | cache op =>
      obtain ⟨cache, ⟨permitted, ⟨_, master⟩, _⟩, rfl⟩ := acted
      have unstarted : ∀ tenant key len count, op ≠ .putStart tenant key len count := by
        rintro tenant key len count rfl
        exact others tenant key len count permitted
      refine before opened found ?_
      simp only [GatewayWorld.setCache, master] at found opened
      exact (MasterState.kept_of_open (MasterState.lifecycle_unstarted unstarted) opened).symm.trans found
    | _ =>
      obtain ⟨_, _, rfl⟩ := acted
      exact h key object found opened

private theorem run_attended (run : Run (Pool.Step (GatewayWorld.server (CacheWorld.server client allowed) vendor))
      (Pool.initial ⟨world, .new maxWaiters⟩ (programs requests state)) trace s)
    (others : ∀ tenant key len count, ¬ allowed (.putStart tenant key len count))
    (closed : ∀ key, MasterState.Closed key world.master) : Attended s :=
  run.invariant (P := fun _ s => Attended s) (fun key _ _ opened => absurd (closed key) opened)
    fun before h step => h.step others (fun i => (Pool.run_meets (i := i) (program_concluded (requests i) state)
      before).mono (fun _ _ => id) fun _ _ _ => trivial) step

/-- An entry of the singleflight group is its leader's, who has not published. -/
private theorem entry_attended (run : Run (Pool.Step (GatewayWorld.server (CacheWorld.server client allowed) vendor))
      (Pool.initial ⟨world, .new maxWaiters⟩ (programs requests state)) trace s) {key : SingleflightKey}
    {inFlight : SharedInFlight} (found : s.world.flights.group.inner.lookup key = some inFlight) :
    ∃ i, (i, ⟨.begin key, .ok (.leader inFlight.sender)⟩) ∈ s.history ∧ ∀ result, s.threads i ≠ .done result := by
  have linked := run_linked run
  obtain ⟨opened, live, _⟩ := (Flights.run_coherent (run_flights run)).entry key inFlight found
  obtain ⟨i, own, begun⟩ := (linked.leader inFlight.sender).mp opened
  obtain rfl : key = own := by rw [← linked.leads i own _ begun, live]
  refine ⟨i, begun, fun result ended => ?_⟩
  have met := Pool.run_meets (i := i) (handleResponseRequest_outcome (requests i) state) run
  rw [ended] at met
  have sent := (met.1 key _ (Pool.mem_own.mpr begun)).2
  have finished := (leader_finished run sent).2
  rw [live] at finished
  cases finished

/-- Whatever else happens to the cache but reservations: an object that is being written is being
written by a request that is not done, unless the call that takes it back was answered with an error, and an
open flight is led by a request that is not done. So where all requests are done nothing is left over. -/
theorem nothing_left_over (run : Run (Pool.Step (GatewayWorld.server (CacheWorld.server client allowed) vendor))
      (Pool.initial ⟨world, .new maxWaiters⟩ (programs requests state)) trace s)
    (others : ∀ tenant key len count, ¬ allowed (.putStart tenant key len count))
    (closed : ∀ key, MasterState.Closed key world.master) :
    (∀ key object, s.world.cache.master.objects.lookup key = some object → object.status.live = true →
      object.status ≠ .committed → ∃ i, Writes (Pool.own s.history i) key object ∧
        ∀ result, s.threads i = .done result → ∃ err, (i, ⟨.putRevoke key.1 key.2, .error err⟩) ∈ s.history) ∧
    (∀ key inFlight, s.world.flights.group.inner.lookup key = some inFlight →
      ∃ i, (i, ⟨.begin key, .ok (.leader inFlight.sender)⟩) ∈ s.history ∧ ∀ result, s.threads i ≠ .done result) ∧
    ((∀ i, ∃ result, s.threads i = .done result) →
      (∀ i tenantId cacheKey err, (i, ⟨.putRevoke tenantId cacheKey, .error err⟩) ∉ s.history) →
      (∀ key, MasterState.Closed key s.world.cache.master) ∧ s.world.flights.group.inner = ∅) := by
  have written (key : ObjectKey) (object : CacheObjectMeta)
      (found : s.world.cache.master.objects.lookup key = some object)
      (opened : ¬ MasterState.Closed key s.world.cache.master) : ∃ i, Writes (Pool.own s.history i) key object ∧
        ∀ result, s.threads i = .done result → ∃ err, (i, ⟨.putRevoke key.1 key.2, .error err⟩) ∈ s.history := by
    obtain ⟨i, writes⟩ := run_attended run others closed key object found opened
    refine ⟨i, writes, fun result ended => ?_⟩
    have met := Pool.run_meets (i := i) (program_concluded (requests i) state) run
    rw [ended] at met
    obtain ⟨tenantId, cacheKey, concluded⟩ := met
    obtain ⟨err, revoked⟩ := concluded.of_writes writes
    exact ⟨err, Pool.mem_own.mp revoked⟩
  refine ⟨fun key object found live uncommitted => written key object found fun shut => ?_,
    fun key inFlight => entry_attended run, fun ended unfailed => ⟨fun key => ?_, ?_⟩⟩
  · rcases shut object found with committed | dead
    · exact uncommitted committed
    · rw [live] at dead
      cases dead
  · by_contra opened
    cases found : s.world.cache.master.objects.lookup key with
    | none => exact opened fun object there => by cases found.symm.trans there
    | some object =>
      obtain ⟨i, _, revoked⟩ := written key object found opened
      obtain ⟨result, done⟩ := ended i
      obtain ⟨err, member⟩ := revoked result done
      exact unfailed i _ _ err member
  · refine Finmap.ext_lookup fun key => ?_
    cases found : s.world.flights.group.inner.lookup key with
    | none => simp
    | some inFlight =>
      obtain ⟨i, _, unfinished⟩ := entry_attended run found
      obtain ⟨result, done⟩ := ended i
      exact absurd done (unfinished result)

end

/-- Two greetings, of which one has reserved its extent: it is not done. -/
theorem greeting_left_reserving : ∃ s : GatewayPool Bool (CacheWorld MemoryStore), ∃ key object,
    s.world.cache.master.objects.lookup key = some object ∧ object.status = .reserving ∧
      ∃ i, Writes (Pool.own s.history i) key object ∧
        ∀ result, s.threads i = .done result → ∃ err, (i, ⟨.putRevoke key.1 key.2, .error err⟩) ∈ s.history := by
  let _ := greetingDigests
  let _ := greetingTexts
  let _ := greetingReader
  have idle : Run (Pool.Step (GatewayWorld.server (CacheWorld.server localStoreClient fun op => op.grows = false)
    fun _ _ => True)) (Pool.initial ⟨freshCache "store-0" 16 16, .new 1024⟩
      (programs (fun _ : Bool => greetingRequest) openGateway)) [] _ := .start
  have run := idle.snoc (GatewayWorld.call_step true (.resolveModelVersion "gpt-x") (.ok "gpt-x") greeting_program
      ⟨trivial, rfl⟩)
    |>.snoc (.call (i := true) rfl ⟨_, .inl ⟨0, rfl, rfl⟩, rfl⟩)
    |>.snoc (.call (i := true) rfl ⟨rfl, rfl⟩)
    |>.snoc (GatewayWorld.call_step true (.recordSingleflight .leader) () rfl rfl)
    |>.snoc (GatewayWorld.call_step true (.complete _) (.ok (.string "hi")) rfl ⟨trivial, rfl⟩)
    |>.snoc (GatewayWorld.call_step true .recordVendorCall () rfl rfl)
    |>.snoc (.call (i := true) rfl ⟨_, .inl ⟨rfl, rfl⟩, rfl⟩)
  have closed : ∀ key, MasterState.Closed key (freshCache "store-0" 16 16).master := fun key object found => by
    simp [freshCache, MasterState.mountSegment, MasterState.new] at found
  have others : ∀ tenant key len count, ¬ (MasterOp.putStart tenant key len count).grows = false := by
    simp [MasterOp.grows]
  have left := (nothing_left_over run others closed).1 (⟨"tenant-a"⟩, greetingKey)
    ⟨_, _, _, .reserving, _, _, _⟩ rfl rfl (by decide)
  exact ⟨_, _, _, rfl, rfl, left⟩

end Mooncache
