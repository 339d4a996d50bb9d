import Mooncache.Master.Operations

/-! The lifecycle events of each key over a run, and what they say of its object:
its status is given by the last event, its replicas by the last start. -/
namespace Mooncache

/-- A successful step in the life of an object. -/
inductive Lifecycle where
  | started (replicas : List ReplicaDescriptor)
  | ended
  | revoked
  | removed
  | evicted
  deriving DecidableEq, Repr

namespace Lifecycle

/-- The status an event leaves, if it leaves an object. -/
def status : Lifecycle → Option ObjectStatus
  | started _ => some .reserving
  | ended => some .committed
  | revoked => some .revoked
  | removed => none
  | evicted => some .evicted

def replicas : Lifecycle → Option (List ReplicaDescriptor)
  | started replicas => some replicas
  | _ => none

end Lifecycle

/-- The events of a run with their keys, oldest first. -/
abbrev LifecycleHistory := List (ObjectKey × Lifecycle)

namespace LifecycleHistory

def eventsOf (history : LifecycleHistory) (key : ObjectKey) : List Lifecycle :=
  history.filterMap fun entry => if entry.1 = key then some entry.2 else none

def lastEvent (history : LifecycleHistory) (key : ObjectKey) : Option Lifecycle :=
  (history.eventsOf key).getLast?

/-- The replicas of the last start. -/
def lastStarted (history : LifecycleHistory) (key : ObjectKey) : Option (List ReplicaDescriptor) :=
  ((history.eventsOf key).filterMap Lifecycle.replicas).getLast?

@[simp] theorem eventsOf_nil (key : ObjectKey) : eventsOf [] key = [] := rfl

theorem eventsOf_append (history more : LifecycleHistory) (key : ObjectKey) :
    eventsOf (history ++ more) key = history.eventsOf key ++ more.eventsOf key :=
  List.filterMap_append

@[simp] theorem eventsOf_single_self (key : ObjectKey) (event : Lifecycle) :
    eventsOf [(key, event)] key = [event] := by
  simp [eventsOf]

@[simp] theorem eventsOf_single_of_ne {key other : ObjectKey} (h : other ≠ key) (event : Lifecycle) :
    eventsOf [(key, event)] other = [] := by
  simp [eventsOf, h.symm]

theorem mem_eventsOf {history : LifecycleHistory} {key : ObjectKey} {event : Lifecycle} :
    event ∈ history.eventsOf key ↔ (key, event) ∈ history := by
  simp only [eventsOf, List.mem_filterMap, Option.ite_none_right_eq_some, Option.some.injEq]
  constructor
  · rintro ⟨⟨other, found⟩, member, rfl, rfl⟩
    exact member
  · exact fun member => ⟨(key, event), member, rfl, rfl⟩

end LifecycleHistory

namespace MasterState

/-- The keys the loop of `evict_candidate_keys` evicts. -/
def evictedKeys (tenant : TenantId) (target : Nat) : List CacheKey → Nat → MasterState → List ObjectKey
  | [], _, _ => []
  | key :: rest, reclaimed, s =>
    if reclaimed ≥ target then []
    else match s.objects.lookup (tenant, key) with
      | none => evictedKeys tenant target rest reclaimed s
      | some object =>
        (tenant, key) :: evictedKeys tenant target rest
          (saturatingAdd reclaimed (quotaReservedBytes object)) (s.evictObject (tenant, key) object)

/-- The keys `evict_for_tenant` picks, in order. -/
def pickedKeys (s : MasterState) (tenant : TenantId) (target nowMs : Nat)
    (order : List (Entry ObjectKey CacheObjectMeta)) : List ObjectKey :=
  let (reclaimed, after) := evictCandidateKeys tenant target (s.candidates tenant nowMs .normal order) 0 s
  evictedKeys tenant target (s.candidates tenant nowMs .normal order) 0 s ++
    if reclaimed < target then
      evictedKeys tenant (target - reclaimed) (s.candidates tenant nowMs .softPinned order) 0 after
    else []

private theorem evictedKeys_subset (tenant : TenantId) (target : Nat) (keys : List CacheKey) (reclaimed : Nat)
    (s : MasterState) {key : ObjectKey} (h : key ∈ evictedKeys tenant target keys reclaimed s) :
    key.1 = tenant ∧ key.2 ∈ keys := by
  induction keys generalizing reclaimed s with
  | nil => simp [evictedKeys] at h
  | cons first rest ih =>
    unfold evictedKeys at h
    split at h
    · simp at h
    · split at h
      · exact (ih _ _ h).imp_right (List.mem_cons_of_mem _)
      · rcases List.mem_cons.mp h with rfl | h
        · exact ⟨rfl, List.mem_cons_self⟩
        · exact (ih _ _ h).imp_right (List.mem_cons_of_mem _)

/-- What `evict_for_tenant` picks is a candidate among the objects it was shown. -/
theorem pickedKeys_candidate {s : MasterState} {tenant : TenantId} {target nowMs : Nat}
    {order : List (Entry ObjectKey CacheObjectMeta)} {key : ObjectKey}
    (picked : key ∈ s.pickedKeys tenant target nowMs order) :
    ∃ entry ∈ order, entry.1 = key ∧ ∃ cls,
      candidateClass entry.2 (hasActiveLease s.leases entry.1 nowMs) nowMs = some cls := by
  have among (cls : EvictionCandidateClass) (same : key.1 = tenant) (member : key.2 ∈ s.candidates tenant nowMs cls order) :
      ∃ entry ∈ order, entry.1 = key ∧ ∃ cls,
        candidateClass entry.2 (hasActiveLease s.leases entry.1 nowMs) nowMs = some cls := by
    simp only [candidates, List.mem_filterMap, Option.ite_none_right_eq_some, Option.some.injEq] at member
    obtain ⟨entry, shown, ⟨owner, chosen⟩, named⟩ := member
    exact ⟨entry, shown, Prod.ext (owner.trans same.symm) named, cls, chosen⟩
  simp only [pickedKeys, List.mem_append] at picked
  rcases picked with first | second
  · obtain ⟨same, candidate⟩ := evictedKeys_subset _ _ _ _ _ first
    exact among .normal same candidate
  · split at second
    · obtain ⟨same, candidate⟩ := evictedKeys_subset _ _ _ _ _ second
      exact among .softPinned same candidate
    · simp at second

/-- The lifecycle events of one operation. -/
def lifecycle (s : MasterState) : MasterOp → LifecycleHistory
  | .putStart tenant key len replicaCount =>
    match (s.putStart tenant key len replicaCount).1 with
    | .ok replicas => [((tenant, key), .started replicas)]
    | .error _ => []
  | .putEnd tenant key =>
    match (s.putEnd tenant key).1 with
    | .ok () => [((tenant, key), .ended)]
    | .error _ => []
  | .putRevoke tenant key =>
    match (s.putRevoke tenant key).1 with
    | .ok () => [((tenant, key), .revoked)]
    | .error _ => []
  | .remove tenant key =>
    match (s.remove tenant key).1 with
    | .ok () => [((tenant, key), .removed)]
    | .error _ => []
  | .evictForTenant tenant target nowMs order =>
    (s.pickedKeys tenant target nowMs order).map fun key => (key, .evicted)
  | .setTenantQuota _ _ _ | .mountSegment _ _ | .getReplicaList _ _ _ => []

/-- The lifecycle events of a sequence of operations. -/
def history : MasterState → List MasterOp → LifecycleHistory
  | _, [] => []
  | s, op :: rest => s.lifecycle op ++ history (op.apply s) rest

/-- What one event does to the object map. -/
structure Moved (s : MasterState) (key : ObjectKey) (event : Lifecycle) (s' : MasterState) : Prop where
  others : ∀ other, other ≠ key → s'.objects.lookup other = s.objects.lookup other
  status : (s'.objects.lookup key).map (·.status) = event.status
  replicas : ∀ object, s'.objects.lookup key = some object →
    event.replicas = some object.replicas ∨
      event.replicas = none ∧ (s.objects.lookup key).map (·.replicas) = some object.replicas

/-- What a sequence of events does to the object map. -/
inductive Moves : MasterState → LifecycleHistory → MasterState → Prop
  | nil {s s' : MasterState} : s'.objects = s.objects → Moves s [] s'
  | cons {s middle s' : MasterState} {key : ObjectKey} {event : Lifecycle} {rest : LifecycleHistory} :
      Moved s key event middle → Moves middle rest s' → Moves s ((key, event) :: rest) s'

theorem Moves.single {s s' : MasterState} {key : ObjectKey} {event : Lifecycle}
    (h : Moved s key event s') : Moves s [(key, event)] s' := .cons h (.nil rfl)

theorem Moves.append {s middle s' : MasterState} {first last : LifecycleHistory}
    (h : Moves s first middle) (h' : Moves middle last s') : Moves s (first ++ last) s' := by
  induction h with
  | @nil s middle same =>
    cases h' with
    | nil next => exact .nil (next.trans same)
    | cons moved rest => exact .cons ⟨by rw [← same]; exact moved.others, moved.status, by rw [← same]; exact moved.replicas⟩ rest
  | cons moved _ ih => exact .cons moved (ih h')

/-- An event that gives an object another status. -/
theorem Moved.of_status {s s' : MasterState} {key : ObjectKey} {object : CacheObjectMeta} {event : Lifecycle}
    {status : ObjectStatus} (found : s.objects.lookup key = some object) (kind : event.status = some status)
    (quiet : event.replicas = none)
    (objects : s'.objects = s.objects.insert key { object with status := status }) : Moved s key event s' where
  others other hne := by rw [objects, Finmap.lookup_insert_of_ne _ hne]
  status := by rw [objects, Finmap.lookup_insert, kind, Option.map_some]
  replicas changed h := by
    rw [objects, Finmap.lookup_insert, Option.some.injEq] at h
    exact .inr ⟨quiet, by rw [found, ← h, Option.map_some]⟩

theorem evictObject_moved {s : MasterState} {key : ObjectKey} {object : CacheObjectMeta}
    (found : s.objects.lookup key = some object) : Moved s key .evicted (s.evictObject key object) :=
  .of_status found rfl rfl (retire_objects s key object .evicted)

theorem evictCandidateKeys_moves (tenant : TenantId) (target : Nat) (keys : List CacheKey) (reclaimed : Nat)
    (s : MasterState) :
    Moves s ((evictedKeys tenant target keys reclaimed s).map fun key => (key, .evicted))
      (evictCandidateKeys tenant target keys reclaimed s).2 := by
  induction keys generalizing reclaimed s with
  | nil => exact .nil rfl
  | cons key rest ih =>
    unfold evictedKeys evictCandidateKeys
    split
    · exact .nil rfl
    · cases found : s.objects.lookup (tenant, key) with
      | none => exact ih reclaimed s
      | some object => exact .cons (evictObject_moved found) (ih _ _)

theorem evictForTenant_moves (s : MasterState) (tenant : TenantId) (target nowMs : Nat)
    (order : List (Entry ObjectKey CacheObjectMeta)) :
    Moves s ((s.pickedKeys tenant target nowMs order).map fun key => (key, .evicted))
      (s.evictForTenant tenant target nowMs order).2 := by
  have first := evictCandidateKeys_moves tenant target (s.candidates tenant nowMs .normal order) 0 s
  simp only [pickedKeys, evictForTenant, List.map_append]
  split
  · exact first.append (evictCandidateKeys_moves tenant _ _ 0 _)
  · exact first.append (.nil rfl)

/-- Every operation does to the objects what its lifecycle events say. -/
theorem lifecycle_moves (s : MasterState) (op : MasterOp) : Moves s (s.lifecycle op) (op.apply s) := by
  cases op with
  | setTenantQuota tenantId dramBytes ssdBytes =>
    refine .nil ?_
    simp only [MasterOp.apply, setTenantQuota]
    split <;> rfl
  | mountSegment nodeId len => exact .nil rfl
  | putStart tenant key len replicaCount =>
    rcases putStart_cases s tenant key len replicaCount with
      ⟨err, he⟩ | ⟨reserved, allocations, after, _, _, _, _, _, _, _, _, he⟩
    · simp only [lifecycle, MasterOp.apply, he]
      exact .nil rfl
    · simp only [lifecycle, MasterOp.apply, he]
      refine .single ⟨fun other hne => Finmap.lookup_insert_of_ne _ hne, ?_, fun object h => .inl ?_⟩
      · rw [Finmap.lookup_insert]
        rfl
      · rw [Finmap.lookup_insert, Option.some.injEq] at h
        rw [← h]
        rfl
  | putEnd tenant key =>
    rcases putEnd_cases s tenant key with ⟨err, he⟩ | ⟨object, found, _, he⟩ <;>
      simp only [lifecycle, MasterOp.apply, he]
    · exact .nil rfl
    · exact .single (.of_status found rfl rfl rfl)
  | putRevoke tenant key =>
    rcases putRevoke_cases s tenant key with ⟨_, he⟩ | ⟨object, found, he⟩ <;>
      simp only [lifecycle, MasterOp.apply, he]
    · exact .nil rfl
    · exact .single (.of_status found rfl rfl (retire_objects _ _ _ _))
  | getReplicaList tenant key nowMs =>
    rcases getReplicaList_cases s tenant key nowMs with he | ⟨_, _, _, _, _, _, he⟩ <;>
      simp only [lifecycle, MasterOp.apply, he] <;> exact .nil rfl
  | remove tenant key =>
    rcases remove_cases s tenant key with ⟨_, he⟩ | ⟨object, found, ok, leases, he⟩
    · simp only [lifecycle, MasterOp.apply, he]
      exact .nil rfl
    · have objects : (s.remove tenant key).2.objects = s.objects.erase (tenant, key) := by
        rw [he]
        exact releaseTenantQuota_objects _ _ _
      simp only [lifecycle, MasterOp.apply, ok]
      refine .single ⟨fun other hne => ?_, ?_, fun left h => ?_⟩
      · rw [objects, Finmap.lookup_erase_ne hne]
      · rw [objects, Finmap.lookup_erase]
        rfl
      · rw [objects, Finmap.lookup_erase] at h
        cases h
  | evictForTenant tenant target nowMs order => exact evictForTenant_moves s tenant target nowMs order

theorem Moves.lookup_of_quiet {s s' : MasterState} {events : LifecycleHistory} (moves : Moves s events s')
    {key : ObjectKey} (quiet : events.eventsOf key = []) : s'.objects.lookup key = s.objects.lookup key := by
  induction moves with
  | nil same => rw [same]
  | @cons s middle s' other event rest moved _ ih =>
    rcases eq_or_ne key other with rfl | hne
    · simp [LifecycleHistory.eventsOf] at quiet
    · have later : rest.eventsOf key = [] := by simpa [LifecycleHistory.eventsOf, hne.symm] using quiet
      rw [ih later, moved.others key hne]

/-- The object map a history describes. -/
structure Follows (history : LifecycleHistory) (s : MasterState) : Prop where
  status : ∀ key, (s.objects.lookup key).map (·.status) = (history.lastEvent key).bind Lifecycle.status
  replicas : ∀ key object, s.objects.lookup key = some object → history.lastStarted key = some object.replicas

theorem new_follows : Follows [] new where
  status key := rfl
  replicas key object h := by simp [new] at h

theorem Follows.moved {history : LifecycleHistory} {s s' : MasterState} {key : ObjectKey} {event : Lifecycle}
    (h : Follows history s) (moved : Moved s key event s') : Follows (history ++ [(key, event)]) s' := by
  refine ⟨fun other => ?_, fun other object found => ?_⟩
  · rcases eq_or_ne other key with rfl | hne
    · rw [moved.status, LifecycleHistory.lastEvent, LifecycleHistory.eventsOf_append,
        LifecycleHistory.eventsOf_single_self, List.getLast?_concat, Option.bind_some]
    · rw [moved.others other hne, h.status, LifecycleHistory.lastEvent, LifecycleHistory.lastEvent,
        LifecycleHistory.eventsOf_append, LifecycleHistory.eventsOf_single_of_ne hne, List.append_nil]
  · rcases eq_or_ne other key with rfl | hne
    · rw [LifecycleHistory.lastStarted, LifecycleHistory.eventsOf_append,
        LifecycleHistory.eventsOf_single_self, List.filterMap_append]
      rcases moved.replicas object found with started | ⟨quiet, before⟩
      · simp [started]
      · obtain ⟨old, hold, same⟩ := Option.map_eq_some_iff.mp before
        have kept := h.replicas other old hold
        rw [LifecycleHistory.lastStarted] at kept
        simp [quiet, kept, same]
    · rw [moved.others other hne] at found
      rw [LifecycleHistory.lastStarted, LifecycleHistory.eventsOf_append,
        LifecycleHistory.eventsOf_single_of_ne hne, List.append_nil]
      exact h.replicas other object found

theorem Follows.moves {history more : LifecycleHistory} {s s' : MasterState} (h : Follows history s)
    (moves : Moves s more s') : Follows (history ++ more) s' := by
  induction moves generalizing history with
  | nil same => exact ⟨by simpa [same] using h.status, by simpa [same] using h.replicas⟩
  | cons moved _ ih => simpa using ih (h.moved moved)

theorem history_append (s : MasterState) (first last : List MasterOp) :
    s.history (first ++ last) =
      s.history first ++ (first.foldl MasterOp.apply s).history last := by
  induction first generalizing s with
  | nil => rfl
  | cons op rest ih => simp [history, ih]

/-- A run ends in the state its operations compute. -/
theorem run_foldl {init s : MasterState} {trace : List MasterOp} (run : Run Step init trace s) :
    s = trace.foldl MasterOp.apply init := by
  induction run with
  | start => rfl
  | snoc _ last ih => rw [List.foldl_append, ← ih, last.2, List.foldl_cons, List.foldl_nil]

theorem run_follows {s : MasterState} {trace : List MasterOp} (run : Run Step new trace s) :
    Follows (new.history trace) s := by
  induction run with
  | start => exact new_follows
  | snoc run last ih =>
    obtain ⟨_, rfl⟩ := last
    rw [history_append, ← run_foldl run, history, history, List.append_nil]
    exact ih.moves (lifecycle_moves _ _)

theorem getReplicaList_ok_iff (s : MasterState) (tenant : TenantId) (key : CacheKey) (nowMs : Nat) :
    (∃ list, (s.getReplicaList tenant key nowMs).1 = .ok list) ↔
      (s.objects.lookup (tenant, key)).map (·.status) = some .committed := by
  cases found : s.objects.lookup (tenant, key) with
  | none => simp [getReplicaList, found]
  | some object =>
    by_cases committed : object.status = .committed
    · simp [getReplicaList, found, committed]
    · simp [getReplicaList, found, committed]

/-- An object can be read exactly when the last event of its key ended a write, and it is
read from the replicas of the last start. -/
theorem visible_iff_last_ended {s : MasterState} {trace : List MasterOp} (run : Run Step new trace s)
    (tenant : TenantId) (key : CacheKey) (nowMs : Nat) :
    ((∃ list, (s.getReplicaList tenant key nowMs).1 = .ok list) ↔
      (new.history trace).lastEvent (tenant, key) = some .ended) ∧
    ∀ list, (s.getReplicaList tenant key nowMs).1 = .ok list →
      (new.history trace).lastStarted (tenant, key) = some list.replicas := by
  have follows := run_follows run
  refine ⟨?_, fun list read => ?_⟩
  · rw [getReplicaList_ok_iff, follows.status]
    cases (new.history trace).lastEvent (tenant, key) with
    | none => simp
    | some event => cases event <;> simp [Lifecycle.status]
  · obtain ⟨object, found, _, same⟩ := getReplicaList_replicas read
    rw [same]
    exact follows.replicas (tenant, key) object found

private def writtenOnce : List MasterOp :=
  [.mountSegment "store-0" 16, .putStart ⟨"tenant-a"⟩ ⟨"key"⟩ 4 1, .putEnd ⟨"tenant-a"⟩ ⟨"key"⟩]

private theorem writtenOnce_run : Run Step new writtenOnce (writtenOnce.foldl MasterOp.apply new) :=
  ((Run.start.snoc ⟨by decide, rfl⟩).snoc ⟨by decide, rfl⟩).snoc ⟨trivial, rfl⟩

/-- A reply written once is read from the extent it was given. -/
theorem visible_after_end :
    ∃ list, ((writtenOnce.foldl MasterOp.apply new).getReplicaList ⟨"tenant-a"⟩ ⟨"key"⟩ 0).1 = .ok list ∧
      list.replicas = [⟨"store-0", 0, 4⟩] := by
  have visible := visible_iff_last_ended writtenOnce_run ⟨"tenant-a"⟩ ⟨"key"⟩ 0
  obtain ⟨list, read⟩ := visible.1.mpr (by decide)
  have started : (new.history writtenOnce).lastStarted (⟨"tenant-a"⟩, ⟨"key"⟩) = some [⟨"store-0", 0, 4⟩] := by
    decide
  exact ⟨list, read, Option.some.inj ((visible.2 list read).symm.trans started)⟩

end MasterState
end Mooncache
