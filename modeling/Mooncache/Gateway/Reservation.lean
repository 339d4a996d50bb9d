import Mooncache.Gateway.CacheServer
import Mooncache.Master.Lifecycle
import Mooncache.Master.QuotaAccounting

/-! What becomes of the reservation of `write_cached_bytes` when the request may be cancelled
at any await, and the calls it makes may be answered with an error after they took effect. -/
namespace Mooncache

/-- The operation ends a reservation of the key. -/
def MasterOp.EndsAt (key : ObjectKey) : MasterOp → Prop
  | putEnd tenant cacheKey | putRevoke tenant cacheKey | remove tenant cacheKey => (tenant, cacheKey) = key
  | _ => False

instance (key : ObjectKey) : (op : MasterOp) → Decidable (op.EndsAt key)
  | .putEnd tenant cacheKey | .putRevoke tenant cacheKey | .remove tenant cacheKey =>
    inferInstanceAs (Decidable ((tenant, cacheKey) = key))
  | .setTenantQuota _ _ _ | .mountSegment _ _ | .putStart _ _ _ _ | .getReplicaList _ _ _ | .evictForTenant _ _ _ _ =>
    .isFalse id

namespace MasterState
variable {key : ObjectKey} {s s' : MasterState}

/-- The event is an operation that ends a reservation of the key. -/
def LifeEvent.EndsAt (key : ObjectKey) : LifeEvent → Prop
  | .op performed => performed.EndsAt key
  | .restore _ _ => False

instance : (event : LifeEvent) → Decidable (event.EndsAt key)
  | .op performed => inferInstanceAs (Decidable (performed.EndsAt key))
  | .restore _ _ => .isFalse id

/-- Whether the event puts an object under the key. -/
def startsAt (s : MasterState) (key : ObjectKey) : LifeEvent → Bool
  | .op performed => ((s.lifecycle performed).lastStarted key).isSome
  | .restore _ _ => false

/-- An object that the request put under the key is committed when it is live, and without a
live object there the tenant's quota counts the bytes of the other objects. -/
structure Settled (own : Bool) (key : ObjectKey) (s : MasterState) : Prop where
  ended : own → ∀ object, s.objects.lookup key = some object → object.status.live = true →
    object.status = .committed
  usage : ∀ quota, s.quotas.lookup key.1 = some quota →
    (∀ object, s.objects.lookup key = some object → object.status.live = false) →
    quota.usedDramBytes = Table.total (fun _ object => tenantBytes key.1 object) (s.objects.erase key)

/-- Exact accounting counts only what is live. -/
theorem Accounted.usage_elsewhere (accounted : s.Accounted) {quota : TenantQuota}
    (found : s.quotas.lookup key.1 = some quota)
    (dead : ∀ object, s.objects.lookup key = some object → object.status.live = false) :
    quota.usedDramBytes = Table.total (fun _ object => tenantBytes key.1 object) (s.objects.erase key) := by
  rw [accounted.exact key.1 quota found, liveBytes]
  cases held : s.objects.lookup key with
  | none => rw [Table.erase_of_absent held]
  | some object =>
    have none : tenantBytes key.1 object = 0 := by
      simp [tenantBytes, quotaReservedBytes, dead object held]
    rw [Table.total_of_lookup _ held, none, Nat.zero_add]

/-- The key holds a reservation. -/
def Reserved (key : ObjectKey) (s : MasterState) : Prop :=
  (s.objects.lookup key).map (·.status) = some .reserving

/-- An object under the key is committed, or holds no reservation. -/
def Closed (key : ObjectKey) (s : MasterState) : Prop :=
  ∀ object, s.objects.lookup key = some object → object.status = .committed ∨ object.status.live = false

theorem Moves.closed {events : LifecycleHistory} (moves : Moves s events s')
    (quiet : ∀ event ∈ events.eventsOf key, event.replicas = none) (h : Closed key s) : Closed key s' := by
  induction moves with
  | nil same =>
    rw [Closed, same]
    exact h
  | @cons s middle s' other event rest moved _ ih =>
    have later : ∀ event ∈ rest.eventsOf key, event.replicas = none := fun event member =>
      quiet event (LifecycleHistory.mem_eventsOf.mpr
        (List.mem_cons_of_mem _ (LifecycleHistory.mem_eventsOf.mp member)))
    refine ih later fun object found => ?_
    rcases eq_or_ne key other with rfl | hne
    · have silent := quiet event (LifecycleHistory.mem_eventsOf.mpr List.mem_cons_self)
      have left := moved.status
      rw [found, Option.map_some] at left
      cases event with
      | started replicas => cases silent
      | removed => cases left
      | ended => exact .inl (Option.some.inj left)
      | revoked | evicted => exact .inr (by rw [Option.some.inj left]; rfl)
    · rw [moved.others key hne] at found
      exact h object found

/-- Only a new reservation opens a closed key. -/
theorem LifeStep.closed {event : LifeEvent} (keyed : s.Keyed) (step : LifeStep s event s')
    (quiet : s.startsAt key event = false) (h : Closed key s) : Closed key s' := by
  cases event with
  | op performed =>
    obtain ⟨_, rfl⟩ := step
    refine (lifecycle_moves s performed).closed ?_ h
    rw [startsAt, Option.isSome_eq_false_iff, Option.isNone_iff_eq_none, LifecycleHistory.lastStarted,
      List.getLast?_eq_none_iff, List.filterMap_eq_nil_iff] at quiet
    exact quiet
  | restore objects quotas =>
    obtain ⟨enumerated, rfl⟩ := step
    rw [restored_eq keyed enumerated]
    exact h

/-- No operation but one that ends a reservation touches an object that is not committed. -/
theorem Step.eventsOf_uncommitted {op : MasterOp} {object : CacheObjectMeta} (step : Step s op s')
    (held : s.objects.lookup key = some object) (uncommitted : object.status ≠ .committed) (away : ¬ op.EndsAt key) :
    (s.lifecycle op).eventsOf key = [] := by
  obtain ⟨enabled, rfl⟩ := step
  cases op with
  | setTenantQuota | mountSegment | getReplicaList => rfl
  | putStart tenant cacheKey len count =>
    rcases putStart_cases s tenant cacheKey len count with ⟨err, he⟩ | ⟨_, _, _, _, absent, _, _, _, _, _, _, he⟩
    · simp only [lifecycle, he]
      rfl
    · simp only [lifecycle, he]
      refine LifecycleHistory.eventsOf_single_of_ne ?_ _
      rintro rfl
      cases absent.symm.trans held
  | putEnd tenant cacheKey | putRevoke tenant cacheKey | remove tenant cacheKey =>
    simp only [lifecycle]
    split
    · exact LifecycleHistory.eventsOf_single_of_ne (Ne.symm away) _
    · rfl
  | evictForTenant tenant target nowMs order =>
    refine List.eq_nil_iff_forall_not_mem.mpr fun event member => ?_
    obtain ⟨_, picked, same⟩ := List.mem_map.mp (LifecycleHistory.mem_eventsOf.mp member)
    cases same
    -- only committed objects are candidates
    obtain ⟨entry, shown, rfl, cls, chosen⟩ := pickedKeys_candidate picked
    have found : s.objects.lookup entry.1 = some entry.2 := by
      rw [Finmap.lookup_eq_some_iff, ← enabled.2]
      exact shown
    cases found.symm.trans held
    exact uncommitted (candidateClass_committed chosen).1

/-- No operation but one that ends it touches a reservation. -/
theorem Step.eventsOf_reserved {op : MasterOp} (step : Step s op s') (held : Reserved key s)
    (away : ¬ op.EndsAt key) : (s.lifecycle op).eventsOf key = [] := by
  obtain ⟨object, found, reserving⟩ := Option.map_eq_some_iff.mp held
  exact step.eventsOf_uncommitted found (by rw [reserving]; exact nofun) away

/-- An operation that ends the reservation of a key closes it. -/
theorem Step.closes {op : MasterOp} (step : Step s op s') (held : Reserved key s) (ends : op.EndsAt key) :
    Closed key s' := by
  obtain ⟨_, rfl⟩ := step
  obtain ⟨object, found, reserving⟩ := Option.map_eq_some_iff.mp held
  cases op with
  | putEnd tenant cacheKey =>
    cases ends
    simp [MasterOp.apply, putEnd, found, reserving, Closed]
  | putRevoke tenant cacheKey =>
    cases ends
    simp [MasterOp.apply, putRevoke, found, Closed, ObjectStatus.live]
  | remove tenant cacheKey =>
    cases ends
    rcases remove_cases s tenant cacheKey with ⟨absent, _⟩ | ⟨_, _, _, leases, he⟩
    · cases found.symm.trans absent
    · simp [MasterOp.apply, he, Closed]
  | _ => exact ends.elim

/-- What others do to a reservation: it stays, or it is ended. -/
theorem LifeStep.reserved {event : LifeEvent} (keyed : s.Keyed) (step : LifeStep s event s') (held : Reserved key s) :
    if event.EndsAt key then Closed key s' else Reserved key s' ∧ s.startsAt key event = false := by
  cases event with
  | op performed =>
    split
    · exact Step.closes step held ‹_›
    · have quiet := Step.eventsOf_reserved step held ‹_›
      obtain ⟨_, rfl⟩ := step
      refine ⟨?_, by simp [startsAt, LifecycleHistory.lastStarted, quiet]⟩
      rw [Reserved, (lifecycle_moves s performed).lookup_of_quiet quiet]
      exact held
  | restore objects quotas =>
    obtain ⟨enumerated, rfl⟩ := step
    refine (if_neg id).mpr ⟨?_, rfl⟩
    rw [restored_eq keyed enumerated]
    exact held

end MasterState

/-- A call that reserved a key. -/
def GatewayEvent.Reserves : GatewayEvent → Prop
  | ⟨.putStart _ _ _ _, reply⟩ => ∃ replicas, reply = .ok replicas
  | _ => False

instance (event : GatewayEvent) : Decidable event.Reserves := by
  obtain ⟨request, reply⟩ := event
  cases request <;> unfold GatewayEvent.Reserves <;> try infer_instance
  cases reply with
  | ok replicas => exact isTrue ⟨replicas, rfl⟩
  | error err => exact isFalse nofun

/-- A call that ended a reservation. -/
def GatewayEvent.Settles : GatewayEvent → Prop
  | ⟨.putEnd _ _, reply⟩ | ⟨.putRevoke _ _, reply⟩ => reply = .ok ()
  | _ => False

instance (event : GatewayEvent) : Decidable event.Settles := by
  obtain ⟨request, reply⟩ := event
  cases request <;> unfold GatewayEvent.Settles <;> infer_instance

/-- The steps that may fail: `put_start`, a chunk write, `put_end`. -/
def Call.Errs : (call : Call) → call.Reply → Prop
  | .putStart _ _ _ _, reply => ∃ err, reply = .error err
  | .putEnd _ _, reply | .writePreallocatedChunk _ _ _ _ _, reply => ∃ err, reply = .error err
  | _, _ => False

/-- A request in `write_cached_bytes`, with what is left of it unless it was cancelled.
`own` is a history variable: the last object put under the key is the request's. -/
structure WriteAttempt (S : Type) where
  world : CacheWorld S
  rest : Option (Flow (GatewayResult CacheWriteStatus))
  own : Bool

namespace WriteAttempt
variable {S : Type}

def initial (world : CacheWorld S) (key : ObjectKey) (bytes : List UInt8) : WriteAttempt S :=
  ⟨world, some (Flow.writeCachedBytes key.1 key.2 bytes), false⟩

/-- The request was cancelled, or has returned. -/
def Over (s : WriteAttempt S) : Prop := s.rest = none ∨ ∃ result, s.rest = some (.done result)

/-- What happens to the call a request awaits: it is answered, it is answered with an error of
the way, or the request is dropped. In the last two it may have taken effect all the same. -/
inductive Label where
  | answered (event : GatewayEvent)
  | failed (effect : Option GatewayEvent)
  | cancelled (effect : Option GatewayEvent)
  | other (event : MasterState.LifeEvent)

/-- The call with the reply it had at the master or the store, if it took effect. -/
def TakesEffect (client : StoreClient S) (s : CacheWorld S) (request : Call) (s' : CacheWorld S) :
    Option GatewayEvent → Prop
  | none => s' = s
  | some event => event.request = request ∧ s.Serves client event.request event.reply s'

/-- Whether the last object put under the key is the request's after a call of its own. -/
def ownsAfter (own : Bool) (effect : Option GatewayEvent) : Bool := own || decide (∃ event ∈ effect, event.Reserves)

theorem ownsAfter_of_reserves {own : Bool} {effect : Option GatewayEvent} (h : ∃ event ∈ effect, event.Reserves) :
    ownsAfter own effect = true := by
  rw [ownsAfter, decide_eq_true h, Bool.or_true]

theorem ownsAfter_of_not_reserves {own : Bool} {effect : Option GatewayEvent}
    (h : ¬ ∃ event ∈ effect, event.Reserves) : ownsAfter own effect = own := by
  rw [ownsAfter, decide_eq_false h, Bool.or_false]

/-- One step of the request, or of others at the master and the stores. -/
inductive Step (client : StoreClient S) (key : ObjectKey) (s : WriteAttempt S) : Label → WriteAttempt S → Prop
  | answered {request : Call} {next : request.Reply → Flow (GatewayResult CacheWriteStatus)} {reply : request.Reply}
      {world : CacheWorld S} : s.rest = some (.call request next) → s.world.Serves client request reply world →
      Step client key s (.answered ⟨request, reply⟩)
        ⟨world, some (next reply), ownsAfter s.own (some ⟨request, reply⟩)⟩
  | failed {request : Call} {next : request.Reply → Flow (GatewayResult CacheWriteStatus)} {reply : request.Reply}
      {effect : Option GatewayEvent} {world : CacheWorld S} : s.rest = some (.call request next) →
      request.Errs reply → TakesEffect client s.world request world effect →
      Step client key s (.failed effect) ⟨world, some (next reply), ownsAfter s.own effect⟩
  | cancelled {request : Call} {next : request.Reply → Flow (GatewayResult CacheWriteStatus)}
      {effect : Option GatewayEvent} {world : CacheWorld S} : s.rest = some (.call request next) →
      TakesEffect client s.world request world effect →
      Step client key s (.cancelled effect) ⟨world, none, ownsAfter s.own effect⟩
  | other {event : MasterState.LifeEvent} {world : CacheWorld S} : s.world.master.UsageFits event →
      MasterState.LifeStep s.world.master event world.master →
      Step client key s (.other event) ⟨world, s.rest, s.own && !s.world.master.startsAt key event⟩

end WriteAttempt

/-- How far a request has come with its reservation. It is lost when `put_start` took effect
but the request was cancelled or saw an error, and dropped when the request was cancelled
before `put_end` or `put_revoke` took effect. -/
inductive WritePhase where
  | waiting
  | refused
  | lost
  | holding
  | dropped
  | settled
  deriving DecidableEq

namespace WritePhase
open WriteAttempt (Label)

/-- A reservation can also be ended by others. -/
def next (key : ObjectKey) : WritePhase → Label → WritePhase
  | lost, .other event => if event.EndsAt key then settled else lost
  | holding, .other event => if event.EndsAt key then settled else holding
  | dropped, .other event => if event.EndsAt key then settled else dropped
  | waiting, .answered event => if event.Reserves then holding else refused
  | waiting, .failed effect | waiting, .cancelled effect =>
    if ∃ event ∈ effect, event.Reserves then lost else refused
  | holding, .answered event => if event.Settles then settled else holding
  | holding, .failed effect => if ∃ event ∈ effect, event.Settles then settled else holding
  | holding, .cancelled effect => if ∃ event ∈ effect, event.Settles then settled else dropped
  | phase, _ => phase

def along (key : ObjectKey) (trace : List Label) : WritePhase := trace.foldl (next key) waiting

@[simp] theorem along_nil (key : ObjectKey) : along key [] = waiting := rfl

@[simp] theorem along_snoc (key : ObjectKey) (trace : List Label) (label : Label) :
    along key (trace ++ [label]) = (along key trace).next key label := by
  simp [along]

end WritePhase

namespace WriteAttempt
open MasterState (Reserved Closed)
variable {S : Type} {client : StoreClient S} {key : ObjectKey} {s s' : WriteAttempt S}

/-- A program that holds a reservation, and ends it before it returns. -/
def Cleans (key : ObjectKey) : Flow (GatewayResult CacheWriteStatus) → Prop
  | .call (.writePreallocatedChunk _ _ _ _ _) next => ∀ reply, Cleans key (next reply)
  | .call (.putEnd tenant cacheKey) next =>
    (tenant, cacheKey) = key ∧ (∃ result, next (.ok ()) = .done result) ∧ ∀ err, Cleans key (next (.error err))
  | .call (.putRevoke tenant cacheKey) next => (tenant, cacheKey) = key ∧ ∀ reply, ∃ result, next reply = .done result
  | _ => False

private theorem writeReservedReplicas_cleans {key : ObjectKey} (bytes : List UInt8) (replicas : List ReplicaDescriptor)
    {rest : GatewayResult Unit → Flow (GatewayResult CacheWriteStatus)} (cleans : ∀ result, Cleans key (rest result)) :
    Cleans key (Flow.writeReservedReplicas key.1 key.2 bytes replicas >>= rest) := by
  induction replicas with
  | nil => exact cleans (.ok ())
  | cons replica replicas ih =>
    intro reply
    cases reply with
    | ok => exact ih
    | error err => exact cleans (.error err)

private theorem revoke_cleans (key : ObjectKey) (err : GatewayError) :
    Cleans key (do return .error (← Flow.revokeReservationAfterWriteFailure key.1 key.2 err)) := by
  refine ⟨rfl, fun reply => ?_⟩
  cases reply <;> exact ⟨_, rfl⟩

/-- What `write_cached_bytes` does with a reservation. -/
theorem writeCachedBytes_cleans (key : ObjectKey) (bytes : List UInt8) :
    ∃ next, Flow.writeCachedBytes key.1 key.2 bytes = .call (.putStart key.1 key.2 bytes.length replicaCount) next ∧
      (∀ err, ∃ result, next (.error err) = .done result) ∧ ∀ replicas, Cleans key (next (.ok replicas)) := by
  refine ⟨_, rfl, fun err => ⟨_, rfl⟩, fun replicas => writeReservedReplicas_cleans bytes replicas ?_⟩
  rintro (err | done)
  · exact revoke_cleans key err
  · exact ⟨rfl, ⟨_, rfl⟩, revoke_cleans key⟩

/-- What is true of a request in each phase. -/
def Fits (key : ObjectKey) (bytes : List UInt8) (s : WriteAttempt S) : WritePhase → Prop
  | .waiting => s.rest = some (Flow.writeCachedBytes key.1 key.2 bytes) ∧ s.own = false
  | .refused => s.Over ∧ s.own = false
  | .lost | .dropped => s.Over ∧ s.own = true ∧ Reserved key s.world.master
  | .holding => (∃ p, s.rest = some p ∧ Cleans key p) ∧ s.own = true ∧ Reserved key s.world.master
  | .settled => (∀ p, s.rest = some p → Cleans key p ∨ ∃ result, p = .done result) ∧
    (s.own = true → Closed key s.world.master)

/-- Calls change the master by its own operations. -/
theorem served_accounted {world world' : CacheWorld S} {call : Call} {reply : call.Reply}
    (served : world.Serves client call reply world') (h : world.master.Accounted) : world'.master.Accounted := by
  have changed (op : MasterOp) (plain : ∀ tenantId dramBytes ssdBytes, op ≠ .setTenantQuota tenantId dramBytes ssdBytes)
      (same : world'.master = op.apply world.master) : world'.master.Accounted := by
    rw [same]
    rcases MasterState.apply_cases world.master op with ⟨_, _, _, he⟩ | ⟨nodeId, len, rfl⟩ | changes
    · exact absurd he (plain _ _ _)
    · exact ⟨h.keyed, h.exact⟩
    · exact changes.accounted h
  cases call with
  | getReplicaList tenant cacheKey =>
    obtain ⟨nowMs, _, rfl⟩ := served
    exact changed (.getReplicaList tenant cacheKey nowMs) nofun rfl
  | putStart tenant cacheKey len count =>
    obtain ⟨_, rfl⟩ := served
    exact changed (.putStart tenant cacheKey len count) nofun rfl
  | putEnd tenant cacheKey =>
    obtain ⟨_, rfl⟩ := served
    exact changed (.putEnd tenant cacheKey) nofun rfl
  | putRevoke tenant cacheKey =>
    obtain ⟨_, rfl⟩ := served
    exact changed (.putRevoke tenant cacheKey) nofun rfl
  | readChunk | writePreallocatedChunk =>
    obtain ⟨_, rfl⟩ := served
    exact h
  | _ => exact served.elim

/-- A `put_start` that takes effect leaves a reservation. -/
private theorem putStart_effect {world world' : CacheWorld S} {len count : Nat} {effect : Option GatewayEvent}
    (taken : TakesEffect client world (.putStart key.1 key.2 len count) world' effect)
    (reserves : ∃ event ∈ effect, event.Reserves) : Reserved key world'.master := by
  obtain ⟨⟨request, reply⟩, ⟨⟩, reserves⟩ := reserves
  obtain ⟨rfl, replied, rfl⟩ := taken
  obtain ⟨replicas, reserved⟩ := reserves
  rcases MasterState.putStart_cases world.master key.1 key.2 len count with
    ⟨err, he⟩ | ⟨_, _, _, _, _, _, _, _, _, _, _, he⟩
  · rw [he] at replied
    cases replied.symm.trans reserved
  · rw [he, Reserved, Finmap.lookup_insert]
    rfl

/-- Only `put_start` makes the object under the key the request's. -/
private theorem Cleans.owns {world world' : CacheWorld S} {request : Call}
    {next : request.Reply → Flow (GatewayResult CacheWriteStatus)} {effect : Option GatewayEvent}
    (cleans : Cleans key (.call request next)) (taken : TakesEffect client world request world' effect) (own : Bool) :
    ownsAfter own effect = own := by
  refine ownsAfter_of_not_reserves ?_
  rintro ⟨⟨called, reply⟩, ⟨⟩, reserves⟩
  obtain ⟨rfl, _⟩ := taken
  cases called with
  | putStart => exact cleans
  | _ => exact reserves

/-- The end of a reservation that takes effect leaves none. -/
private theorem cleaning_effect {world world' : CacheWorld S} {request : Call}
    {next : request.Reply → Flow (GatewayResult CacheWriteStatus)} {effect : Option GatewayEvent}
    (cleans : Cleans key (.call request next)) (h : Reserved key world.master)
    (taken : TakesEffect client world request world' effect) :
    if ∃ event ∈ effect, event.Settles then Closed key world'.master else Reserved key world'.master := by
  cases effect with
  | none =>
    cases taken
    simpa using h
  | some event =>
    obtain ⟨called, reply⟩ := event
    obtain ⟨rfl, served⟩ := taken
    cases called with
    | writePreallocatedChunk =>
      obtain ⟨_, rfl⟩ := served
      refine (if_neg ?_).mpr h
      rintro ⟨_, ⟨⟩, settles⟩
      exact settles
    | putEnd tenant cacheKey =>
      obtain ⟨rfl, _⟩ := cleans
      obtain ⟨replied, rfl⟩ := served
      rcases MasterState.putEnd_cases world.master tenant cacheKey with ⟨err, he⟩ | ⟨object, _, _, he⟩
      · rw [he] at replied ⊢
        refine (if_neg ?_).mpr h
        rintro ⟨_, ⟨⟩, settles⟩
        cases replied.symm.trans settles
      · rw [he] at replied ⊢
        exact (if_pos ⟨_, rfl, replied⟩).mpr (by simp [Closed])
    | putRevoke tenant cacheKey =>
      obtain ⟨rfl, _⟩ := cleans
      obtain ⟨replied, rfl⟩ := served
      rcases MasterState.putRevoke_cases world.master tenant cacheKey with ⟨absent, _⟩ | ⟨object, _, he⟩
      · simp [Reserved, absent] at h
      · rw [he] at replied ⊢
        exact (if_pos ⟨_, rfl, replied⟩).mpr (by simp [Closed, ObjectStatus.live])
    | _ => exact cleans.elim

private theorem closed_effect {world world' : CacheWorld S} {request : Call}
    {next : request.Reply → Flow (GatewayResult CacheWriteStatus)} {effect : Option GatewayEvent}
    (cleans : Cleans key (.call request next)) (h : Closed key world.master)
    (taken : TakesEffect client world request world' effect) : Closed key world'.master := by
  cases effect with
  | none =>
    cases taken
    exact h
  | some event =>
    obtain ⟨called, reply⟩ := event
    obtain ⟨rfl, served⟩ := taken
    cases called with
    | writePreallocatedChunk =>
      obtain ⟨_, rfl⟩ := served
      exact h
    | putEnd tenant cacheKey =>
      obtain ⟨rfl, _⟩ := cleans
      obtain ⟨_, rfl⟩ := served
      rcases MasterState.putEnd_cases world.master tenant cacheKey with ⟨err, he⟩ | ⟨object, _, _, he⟩
      · simpa [he] using h
      · simp [he, Closed]
    | putRevoke tenant cacheKey =>
      obtain ⟨rfl, _⟩ := cleans
      obtain ⟨_, rfl⟩ := served
      rcases MasterState.putRevoke_cases world.master tenant cacheKey with ⟨_, he⟩ | ⟨object, _, he⟩
      · simpa [he] using h
      · simp [he, Closed, ObjectStatus.live]
    | _ => exact cleans.elim

/-- What others do takes the request to the phase the event says. -/
private theorem Fits.other {bytes : List UInt8} {phase : WritePhase} (h : Fits key bytes s phase)
    {event : MasterState.LifeEvent} {world : CacheWorld S} (keyed : s.world.master.Keyed)
    (step : MasterState.LifeStep s.world.master event world.master) :
    Fits key bytes ⟨world, s.rest, s.own && !s.world.master.startsAt key event⟩ (phase.next key (.other event)) := by
  have returned (ended : s.Over) : ∀ p, s.rest = some p → Cleans key p ∨ ∃ result, p = .done result := by
    intro p rest
    rcases ended with none | ⟨result, done⟩
    · cases none.symm.trans rest
    · exact .inr ⟨result, Option.some.inj (rest.symm.trans done)⟩
  cases phase with
  | waiting | refused => exact ⟨h.1, by simp [h.2]⟩
  | lost | dropped =>
    obtain ⟨ended, own, held⟩ := h
    have after := step.reserved keyed held
    rw [WritePhase.next]
    split
    · rw [if_pos ‹_›] at after
      exact ⟨returned ended, fun _ => after⟩
    · rw [if_neg ‹_›] at after
      exact ⟨ended, by simp [own, after.2], after.1⟩
  | holding =>
    obtain ⟨⟨p, rest, cleans⟩, own, held⟩ := h
    have after := step.reserved keyed held
    rw [WritePhase.next]
    split
    · rw [if_pos ‹_›] at after
      exact ⟨fun q left => .inl (Option.some.inj (rest.symm.trans left) ▸ cleans), fun _ => after⟩
    · rw [if_neg ‹_›] at after
      exact ⟨⟨p, rest, cleans⟩, by simp [own, after.2], after.1⟩
  | settled =>
    refine ⟨h.1, fun own => ?_⟩
    rw [Bool.and_eq_true, Bool.not_eq_true'] at own
    exact step.closed keyed own.2 (h.2 own.1)

private theorem not_over {request : Call} {next : request.Reply → Flow (GatewayResult CacheWriteStatus)}
    (pending : s.rest = some (.call request next)) : ¬ s.Over := by
  rintro (none | ⟨result, done⟩)
  · cases pending.symm.trans none
  · cases pending.symm.trans done

section
variable {request : Call} {next : request.Reply → Flow (GatewayResult CacheWriteStatus)} {reply : request.Reply}

/-- After any answer the program returns or goes on to end the reservation. -/
private theorem Cleans.continues (cleans : Cleans key (.call request next)) (reply : request.Reply) :
    Cleans key (next reply) ∨ ∃ result, next reply = .done result := by
  cases request with
  | writePreallocatedChunk => exact .inl (cleans reply)
  | putEnd tenant cacheKey =>
    cases reply with
    | ok => exact .inr cleans.2.1
    | error err => exact .inl (cleans.2.2 err)
  | putRevoke tenant cacheKey => exact .inr (cleans.2 reply)
  | _ => exact cleans.elim

/-- It goes on after an error. -/
private theorem Cleans.after_error (cleans : Cleans key (.call request next)) (errs : request.Errs reply) :
    Cleans key (next reply) := by
  cases request with
  | writePreallocatedChunk => exact cleans reply
  | putEnd tenant cacheKey =>
    obtain ⟨err, rfl⟩ := errs
    exact cleans.2.2 err
  | putRevoke tenant cacheKey => exact errs.elim
  | _ => exact cleans.elim

/-- It goes on unless the answer ended the reservation. -/
private theorem Cleans.goes_on {world world' : CacheWorld S} (cleans : Cleans key (.call request next))
    (h : Reserved key world.master) (served : world.Serves client request reply world')
    (held : ¬ GatewayEvent.Settles ⟨request, reply⟩) : Cleans key (next reply) := by
  cases request with
  | writePreallocatedChunk => exact cleans reply
  | putEnd tenant cacheKey =>
    cases reply with
    | ok => exact absurd rfl held
    | error err => exact cleans.2.2 err
  | putRevoke tenant cacheKey =>
    obtain ⟨rfl, _⟩ := cleans
    obtain ⟨replied, _⟩ := served
    rcases MasterState.putRevoke_cases world.master tenant cacheKey with ⟨absent, _⟩ | ⟨object, _, he⟩
    · simp [Reserved, absent] at h
    · rw [he] at replied
      exact absurd replied held
  | _ => exact cleans.elim

end

section
variable {bytes : List UInt8} {request : Call} {next : request.Reply → Flow (GatewayResult CacheWriteStatus)}
  {reply : request.Reply} {effect : Option GatewayEvent} {world : CacheWorld S}

private theorem Fits.waiting_answered (h : Fits key bytes s .waiting) (pending : s.rest = some (.call request next))
    (served : s.world.Serves client request reply world) :
    Fits key bytes ⟨world, some (next reply), ownsAfter s.own (some ⟨request, reply⟩)⟩
      (WritePhase.waiting.next key (.answered ⟨request, reply⟩)) := by
  obtain ⟨begin, program, refused, kept⟩ := writeCachedBytes_cleans key bytes
  cases (h.1.symm.trans pending).symm.trans (congrArg some program)
  have taken : TakesEffect client s.world _ world (some ⟨_, reply⟩) := ⟨rfl, served⟩
  cases reply with
  | ok replicas =>
    have reserves : GatewayEvent.Reserves ⟨.putStart key.1 key.2 bytes.length replicaCount, .ok replicas⟩ :=
      ⟨replicas, rfl⟩
    rw [WritePhase.next, if_pos reserves]
    exact ⟨⟨_, rfl, kept replicas⟩, by simp [ownsAfter, reserves], putStart_effect taken ⟨_, rfl, reserves⟩⟩
  | error err =>
    have refuses : ¬ GatewayEvent.Reserves ⟨.putStart key.1 key.2 bytes.length replicaCount, .error err⟩ := nofun
    rw [WritePhase.next, if_neg refuses]
    obtain ⟨result, done⟩ := refused err
    exact ⟨.inr ⟨result, by rw [done]⟩, by simp [ownsAfter, h.2, refuses]⟩

/-- A request that is over without having seen its reservation succeed. -/
private theorem Fits.waiting_lost (h : Fits key bytes s .waiting) (pending : s.rest = some (.call request next))
    (taken : TakesEffect client s.world request world effect)
    {rest : Option (Flow (GatewayResult CacheWriteStatus))} (ended : Over ⟨world, rest, ownsAfter s.own effect⟩) :
    Fits key bytes ⟨world, rest, ownsAfter s.own effect⟩
      (if ∃ event ∈ effect, event.Reserves then .lost else .refused) := by
  obtain ⟨begin, program, _⟩ := writeCachedBytes_cleans key bytes
  cases (h.1.symm.trans pending).symm.trans (congrArg some program)
  split
  next reserves => exact ⟨ended, ownsAfter_of_reserves reserves, putStart_effect taken reserves⟩
  next refuses => exact ⟨ended, (ownsAfter_of_not_reserves refuses).trans h.2⟩

/-- A call of a request whose reservation is ended keeps it so. -/
private theorem Fits.settled_after (h : Fits key bytes s .settled) (pending : s.rest = some (.call request next))
    (taken : TakesEffect client s.world request world effect) {rest : Option (Flow (GatewayResult CacheWriteStatus))}
    (left : Cleans key (.call request next) → ∀ p, rest = some p → Cleans key p ∨ ∃ result, p = .done result) :
    Fits key bytes ⟨world, rest, ownsAfter s.own effect⟩ .settled := by
  rcases h.1 _ pending with cleans | ⟨_, done⟩
  · exact ⟨left cleans, fun own => closed_effect cleans (h.2 ((cleans.owns taken _).symm.trans own)) taken⟩
  · cases done

end

/-- Each step takes the request to the phase its label says. -/
theorem Fits.step {bytes : List UInt8} {phase : WritePhase} {label : Label} (h : Fits key bytes s phase)
    (keyed : s.world.master.Keyed) (step : Step client key s label s') :
    Fits key bytes s' (phase.next key label) := by
  cases step with
  | other fits step => exact h.other keyed step
  | @answered request next reply world pending served =>
    have taken : TakesEffect client s.world request world (some ⟨request, reply⟩) := ⟨rfl, served⟩
    cases phase with
    | waiting => exact h.waiting_answered pending served
    | refused | lost | dropped => exact absurd h.1 (not_over pending)
    | holding =>
      obtain ⟨⟨p, rest, cleans⟩, own, reserved⟩ := h
      cases rest.symm.trans pending
      have effect := cleaning_effect cleans reserved taken
      by_cases settles : GatewayEvent.Settles ⟨request, reply⟩
      · rw [if_pos ⟨_, rfl, settles⟩] at effect
        rw [WritePhase.next, if_pos settles]
        refine ⟨?_, fun _ => effect⟩
        rintro _ ⟨⟩
        exact cleans.continues reply
      · rw [if_neg (by rintro ⟨_, ⟨⟩, h⟩; exact settles h)] at effect
        rw [WritePhase.next, if_neg settles]
        exact ⟨⟨_, rfl, cleans.goes_on reserved served settles⟩, (cleans.owns taken _).trans own, effect⟩
    | settled =>
      refine h.settled_after pending taken fun cleans => ?_
      rintro _ ⟨⟩
      exact cleans.continues reply
  | @failed request next reply effect world pending errs taken =>
    cases phase with
    | waiting =>
      refine h.waiting_lost pending taken (.inr ?_)
      obtain ⟨_, program, refused, _⟩ := writeCachedBytes_cleans key bytes
      cases (h.1.symm.trans pending).symm.trans (congrArg some program)
      obtain ⟨err, rfl⟩ := errs
      obtain ⟨result, done⟩ := refused err
      exact ⟨result, by rw [done]⟩
    | refused | lost | dropped => exact absurd h.1 (not_over pending)
    | holding =>
      obtain ⟨⟨p, rest, cleans⟩, own, reserved⟩ := h
      cases rest.symm.trans pending
      have effected := cleaning_effect cleans reserved taken
      rw [WritePhase.next]
      split
      · rw [if_pos ‹_›] at effected
        refine ⟨?_, fun _ => effected⟩
        rintro _ ⟨⟩
        exact cleans.continues reply
      · rw [if_neg ‹_›] at effected
        exact ⟨⟨_, rfl, cleans.after_error errs⟩, (cleans.owns taken _).trans own, effected⟩
    | settled =>
      refine h.settled_after pending taken fun cleans => ?_
      rintro _ ⟨⟩
      exact cleans.continues reply
  | @cancelled request next effect world pending taken =>
    cases phase with
    | waiting => exact h.waiting_lost pending taken (.inl rfl)
    | refused | lost | dropped => exact absurd h.1 (not_over pending)
    | holding =>
      obtain ⟨⟨p, rest, cleans⟩, own, reserved⟩ := h
      cases rest.symm.trans pending
      have effected := cleaning_effect cleans reserved taken
      rw [WritePhase.next]
      split
      · rw [if_pos ‹_›] at effected
        exact ⟨nofun, fun _ => effected⟩
      · rw [if_neg ‹_›] at effected
        exact ⟨.inl rfl, (cleans.owns taken _).trans own, effected⟩
    | settled => exact h.settled_after pending taken fun _ => nofun

theorem run_fits {world : CacheWorld S} {bytes : List UInt8} {trace : List Label} (accounted : world.master.Accounted)
    (run : Run (Step client key) (initial world key bytes) trace s) :
    s.world.master.Accounted ∧ Fits key bytes s (.along key trace) := by
  induction run with
  | start => exact ⟨accounted, rfl, rfl⟩
  | snoc run last ih =>
    obtain ⟨before, fits⟩ := ih
    rw [WritePhase.along_snoc]
    refine ⟨?_, fits.step before.keyed last⟩
    have effected {request : Call} {world : CacheWorld S} {effect : Option GatewayEvent} {old : CacheWorld S}
        (h : old.master.Accounted) (taken : TakesEffect client old request world effect) : world.master.Accounted := by
      cases effect with
      | none =>
        cases taken
        exact h
      | some event => exact served_accounted taken.2 h
    cases last with
    | answered _ served => exact served_accounted served before
    | failed _ _ taken => exact effected before taken
    | cancelled _ taken => exact effected before taken
    | other fits step => exact MasterState.LifeStep.accounted before fits step

/-- Once a request is over, it has left no reservation behind exactly when, unless others ended
it, its `put_start` did not take effect unseen and it was not cancelled with the reservation in hand. -/
theorem reservation_settled_iff {world : CacheWorld S} {life : List MasterState.LifeEvent}
    (reached : Run (Guarded MasterState.UsageFits MasterState.LifeStep) .new life world.master) {bytes : List UInt8}
    {trace : List Label} (run : Run (Step client key) (initial world key bytes) trace s) (ended : s.Over) :
    MasterState.Settled s.own key s.world.master ↔
      WritePhase.along key trace ≠ .lost ∧ WritePhase.along key trace ≠ .dropped := by
  obtain ⟨accounted, fits⟩ := run_fits (MasterState.life_accounted reached) run
  have usage := fun quota => @MasterState.Accounted.usage_elsewhere key _ accounted quota
  have reserved (own : s.own = true) (h : Reserved key s.world.master) :
      ¬ MasterState.Settled s.own key s.world.master := by
    intro settled
    obtain ⟨object, found, reserving⟩ := Option.map_eq_some_iff.mp h
    have committed := settled.ended own object found (by rw [reserving]; rfl)
    rw [reserving] at committed
    cases committed
  generalize WritePhase.along key trace = phase at fits
  cases phase with
  | waiting =>
    obtain ⟨begin, program, _⟩ := writeCachedBytes_cleans key bytes
    exact absurd ended (not_over (fits.1.trans (congrArg some program)))
  | refused => exact iff_of_true ⟨by simp [fits.2], usage⟩ ⟨nofun, nofun⟩
  | lost => exact iff_of_false (reserved fits.2.1 fits.2.2) fun h => h.1 rfl
  | dropped => exact iff_of_false (reserved fits.2.1 fits.2.2) fun h => h.2 rfl
  | holding =>
    obtain ⟨p, rest, cleans⟩ := fits.1
    rcases ended with none | ⟨_, done⟩
    · cases rest.symm.trans none
    · cases rest.symm.trans done
      exact cleans.elim
  | settled =>
    refine iff_of_true ⟨fun own object found live => ?_, usage⟩ ⟨nofun, nofun⟩
    exact (fits.2 own object found).resolve_right (by simp [live])

private def greeting : ObjectKey := (⟨"tenant-a"⟩, ⟨"greeting"⟩)

private abbrev greetingStep : WriteAttempt MemoryStore → Label → WriteAttempt MemoryStore → Prop :=
  Step (@localStoreClient shortTextDigests) greeting

private theorem fresh_reached : Run (Guarded MasterState.UsageFits MasterState.LifeStep) .new
    [.op (.mountSegment "store-0" 16)] (freshCache "store-0" 16 16).master :=
  Run.start.snoc ⟨trivial, by decide, rfl⟩

private theorem greeting_reserved : ∃ s, Run greetingStep (initial (freshCache "store-0" 16 16) greeting [104, 105])
    [.answered ⟨.putStart greeting.1 greeting.2 2 1, .ok [⟨"store-0", 0, 2⟩]⟩] s ∧
      (∃ request next, s.rest = some (.call request next)) ∧ s.own = true ∧
      s.world.master.objects.lookup greeting =
        some ⟨greeting.1, greeting.2, 2, .reserving, [⟨"store-0", 0, 2⟩], false, none⟩ := by
  have ready : Run greetingStep (initial (freshCache "store-0" 16 16) greeting [104, 105]) [] _ := .start
  exact ⟨_, ready.snoc (.answered rfl ⟨rfl, rfl⟩), ⟨_, _, rfl⟩, by decide, by decide⟩

/-- A request that is dropped while it writes its chunk leaves its reservation behind. -/
theorem cancelled_write_keeps_reservation :
    ¬ ∀ (world : CacheWorld MemoryStore) (life : List MasterState.LifeEvent),
      Run (Guarded MasterState.UsageFits MasterState.LifeStep) .new life world.master →
      ∀ (key : ObjectKey) (bytes : List UInt8) (trace : List Label) (s : WriteAttempt MemoryStore),
        Run (Step (@localStoreClient shortTextDigests) key) (initial world key bytes) trace s → s.Over →
        MasterState.Settled s.own key s.world.master := by
  intro settles
  obtain ⟨s, run, ⟨_, _, pending⟩, own, found⟩ := greeting_reserved
  have dropped := run.snoc (.cancelled pending (show TakesEffect _ _ _ _ none from rfl))
  have settled := settles _ _ fresh_reached _ _ _ _ dropped (.inl rfl)
  cases settled.ended (by simp [ownsAfter, own]) _ found rfl

/-- A request that stores its bytes has ended its reservation. -/
theorem stored_write_settled : ∃ s : WriteAttempt MemoryStore, s.rest = some (.done (.ok .committed)) ∧
    s.own = true ∧ MasterState.Settled s.own greeting s.world.master := by
  let _ := shortTextDigests
  have ready : Run greetingStep (initial (freshCache "store-0" 16 16) greeting [104, 105]) [] _ := .start
  have run := ((ready.snoc (.answered rfl ⟨rfl, rfl⟩)).snoc (.answered rfl ⟨rfl, rfl⟩)).snoc (.answered rfl ⟨rfl, rfl⟩)
  exact ⟨_, rfl, by decide, (reservation_settled_iff fresh_reached run (.inr ⟨_, rfl⟩)).mpr (by decide)⟩

end WriteAttempt
end Mooncache
