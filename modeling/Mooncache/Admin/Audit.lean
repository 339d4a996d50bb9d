import Mooncache.Common.Ids
import Mooncache.Foundation.Table

/-! The roles and actions of the admin API, its audit log and its metrics. -/
namespace Mooncache

inductive Role where
  | noAccess
  | viewer
  | operator
  | admin
  deriving DecidableEq, Repr

inductive AdminAction where
  | readMetrics
  | readNodes
  | readAuditLog
  | debugCacheFingerprint
  | drainNode
  | removeCacheObject
  | warmupCache
  | patchTenantPolicy
  | patchVendorPolicy
  | manageUsers
  deriving DecidableEq, Repr

def Role.allows : Role → AdminAction → Bool
  | .noAccess, _ => false
  | .viewer, action => (action matches .readMetrics | .readNodes | .readAuditLog | .debugCacheFingerprint)
  | .operator, action => (action matches .readMetrics | .readNodes | .readAuditLog | .debugCacheFingerprint
      | .drainNode | .removeCacheObject | .warmupCache)
  | .admin, _ => true

/-- The action's debug text. -/
def AdminAction.debug : AdminAction → String
  | .readMetrics => "ReadMetrics"
  | .readNodes => "ReadNodes"
  | .readAuditLog => "ReadAuditLog"
  | .debugCacheFingerprint => "DebugCacheFingerprint"
  | .drainNode => "DrainNode"
  | .removeCacheObject => "RemoveCacheObject"
  | .warmupCache => "WarmupCache"
  | .patchTenantPolicy => "PatchTenantPolicy"
  | .patchVendorPolicy => "PatchVendorPolicy"
  | .manageUsers => "ManageUsers"

def adminActionLabel : AdminAction → String
  | .readMetrics => "read_metrics"
  | .readNodes => "read_nodes"
  | .readAuditLog => "read_audit_log"
  | .debugCacheFingerprint => "debug_cache_fingerprint"
  | .drainNode => "drain_node"
  | .removeCacheObject => "remove_cache_object"
  | .warmupCache => "warmup_cache"
  | .patchTenantPolicy => "patch_tenant_policy"
  | .patchVendorPolicy => "patch_vendor_policy"
  | .manageUsers => "manage_users"

theorem adminActionLabel_injective {action other : AdminAction}
    (same : adminActionLabel action = adminActionLabel other) : action = other := by
  cases action <;> cases other <;> first | rfl | exact absurd same (by decide)

/-- A UUID. -/
structure RequestId where
  value : BitVec 128
  deriving DecidableEq, Repr

inductive AuditResult where
  | success
  | denied
  | failed (message : String)
  deriving DecidableEq, Repr

structure AuditEvent where
  actor : String
  role : Role
  action : AdminAction
  resource : String
  tenantScope : Option String
  beforeSummary : Option String
  afterSummary : Option String
  requestId : RequestId
  timestampMs : Nat
  result : AuditResult
  deriving DecidableEq, Repr

inductive AuditError where
  | unavailable
  deriving DecidableEq, Repr

/-- The error's display text. -/
def AuditError.text : AuditError → String
  | .unavailable => "audit sink is unavailable"

/-- A value behind a lock, poisoned once a thread has panicked while it held the lock. -/
structure Mutex (α : Type) where
  value : α
  poisoned : Bool
  deriving DecidableEq

namespace Mutex
variable {α : Type}

def new (value : α) : Mutex α := ⟨value, false⟩

def lock (mutex : Mutex α) : Option α := if mutex.poisoned then none else some mutex.value

def set (mutex : Mutex α) (value : α) : Mutex α := { mutex with value := value }

@[simp] theorem set_value (mutex : Mutex α) (value : α) : (mutex.set value).value = value := rfl

@[simp] theorem set_poisoned (mutex : Mutex α) (value : α) : (mutex.set value).poisoned = mutex.poisoned := rfl

theorem lock_of_clean {mutex : Mutex α} (clean : mutex.poisoned = false) : mutex.lock = some mutex.value := by
  simp [lock, clean]

end Mutex

/-- `isize::MAX`: no vector holds more elements, unless these take no space. -/
def vecMax : Nat := 9223372036854775807

/-- `Vec::push`, which panics at the limit of the capacity. -/
def push {α : Type} (elements : List α) (element : α) : Option (List α) :=
  if elements.length < vecMax then some (elements ++ [element]) else none

structure InMemoryAuditSink where
  events : Mutex (List AuditEvent)
  deriving DecidableEq

namespace InMemoryAuditSink

/-- Nothing stands for a panic. -/
def append (sink : InMemoryAuditSink) (event : AuditEvent) : Option (Except AuditError Unit × InMemoryAuditSink) :=
  match sink.events.lock with
  | none => some (.error .unavailable, sink)
  | some events =>
    match push events event with
    | none => none
    | some events => some (.ok (), ⟨sink.events.set events⟩)

def list (sink : InMemoryAuditSink) : Except AuditError (List AuditEvent) :=
  match sink.events.lock with
  | none => .error .unavailable
  | some events => .ok events

/-- The sink can take one more event. -/
def Available (sink : InMemoryAuditSink) : Prop :=
  sink.events.poisoned = false ∧ sink.events.value.length < vecMax

instance (sink : InMemoryAuditSink) : Decidable sink.Available := inferInstanceAs (Decidable (_ ∧ _))

theorem append_of_available {sink : InMemoryAuditSink} (available : sink.Available) (event : AuditEvent) :
    sink.append event = some (.ok (), ⟨sink.events.set (sink.events.value ++ [event])⟩) := by
  simp only [append, Mutex.lock_of_clean available.1, push, if_pos available.2]

theorem list_of_available {sink : InMemoryAuditSink} (available : sink.Available) :
    sink.list = .ok sink.events.value := by
  simp only [list, Mutex.lock_of_clean available.1]

end InMemoryAuditSink

inductive AdminActionResult where
  | success
  | denied
  | failed
  deriving DecidableEq, Repr

def adminActionResult : AuditResult → AdminActionResult
  | .success => .success
  | .denied => .denied
  | .failed _ => .failed

structure AdminMetrics where
  auditEventsTotal : Nat
  auditSuccessTotal : Nat
  auditDeniedTotal : Nat
  auditFailedTotal : Nat
  actionCounts : Mutex (Table String Nat)

structure AdminMetricsSnapshot where
  auditEventsTotal : Nat
  auditSuccessTotal : Nat
  auditDeniedTotal : Nat
  auditFailedTotal : Nat
  actionCounts : Table String Nat
  deriving DecidableEq

/-- One more in the word type: `fetch_add` wraps, as the sum of a release build does. -/
def increment (count : Nat) : Nat := (count + 1) % (wordMax + 1)

theorem increment_of_lt {count : Nat} (h : count < wordMax) : increment count = count + 1 :=
  Nat.mod_eq_of_lt (Nat.succ_lt_succ h)

namespace AdminMetrics

def default : AdminMetrics := ⟨0, 0, 0, 0, .new ∅⟩

/-- The table of counts is used even if its lock is poisoned. -/
def recordAction (metrics : AdminMetrics) (action : String) (result : AdminActionResult) : AdminMetrics :=
  let metrics := { metrics with auditEventsTotal := increment metrics.auditEventsTotal }
  let metrics := match result with
    | .success => { metrics with auditSuccessTotal := increment metrics.auditSuccessTotal }
    | .denied => { metrics with auditDeniedTotal := increment metrics.auditDeniedTotal }
    | .failed => { metrics with auditFailedTotal := increment metrics.auditFailedTotal }
  let counts := metrics.actionCounts.value
  let counted := counts.insert action (increment ((counts.lookup action).getD 0))
  { metrics with actionCounts := metrics.actionCounts.set counted }

def snapshot (metrics : AdminMetrics) : AdminMetricsSnapshot where
  auditEventsTotal := metrics.auditEventsTotal
  auditSuccessTotal := metrics.auditSuccessTotal
  auditDeniedTotal := metrics.auditDeniedTotal
  auditFailedTotal := metrics.auditFailedTotal
  actionCounts := metrics.actionCounts.value

/-- How many of the events ended this way. -/
def ended (events : List AuditEvent) (result : AdminActionResult) : Nat :=
  events.countP fun event => adminActionResult event.result = result

/-- How many of the events record this action. -/
def recorded (events : List AuditEvent) (action : AdminAction) : Nat :=
  events.countP fun event => event.action = action

/-- The counters say of a log how long it is, how its events ended and which actions they record. -/
structure Counts (metrics : AdminMetrics) (events : List AuditEvent) : Prop where
  total : metrics.auditEventsTotal = events.length
  success : metrics.auditSuccessTotal = ended events .success
  denied : metrics.auditDeniedTotal = ended events .denied
  failed : metrics.auditFailedTotal = ended events .failed
  actions : ∀ action, (metrics.actionCounts.value.lookup (adminActionLabel action)).getD 0 = recorded events action

theorem default_counts : default.Counts [] where
  total := rfl
  success := rfl
  denied := rfl
  failed := rfl
  actions _ := by simp [default, Mutex.new, recorded]

/-- Every event ended in one of the three ways. -/
theorem length_eq_ended (events : List AuditEvent) :
    events.length = ended events .success + ended events .denied + ended events .failed := by
  induction events with
  | nil => rfl
  | cons event rest ih =>
    simp only [ended, List.countP_cons, List.length_cons] at ih ⊢
    cases adminActionResult event.result <;> simp <;> omega

private theorem ended_snoc (events : List AuditEvent) (event : AuditEvent) (result : AdminActionResult) :
    ended (events ++ [event]) result =
      ended events result + if adminActionResult event.result = result then 1 else 0 := by
  simp [ended, List.countP_append, List.countP_cons]

/-- While the log is shorter than a counter can say, recording an event keeps the counters true. -/
theorem Counts.record {metrics : AdminMetrics} {events : List AuditEvent} (h : metrics.Counts events)
    (room : events.length < wordMax) (event : AuditEvent) :
    (metrics.recordAction (adminActionLabel event.action) (adminActionResult event.result)).Counts
      (events ++ [event]) := by
  have bound (result : AdminActionResult) : ended events result < wordMax :=
    Nat.lt_of_le_of_lt (List.countP_le_length) room
  have more (result : AdminActionResult) : increment (ended events result) = ended events result + 1 :=
    increment_of_lt (bound result)
  refine ⟨?_, ?_, ?_, ?_, fun action => ?_⟩
  · have total := increment_of_lt room
    cases adminActionResult event.result <;> simp [recordAction, total, h.total]
  · cases result : adminActionResult event.result <;> simp [recordAction, ended_snoc, result, h.success, more]
  · cases result : adminActionResult event.result <;> simp [recordAction, ended_snoc, result, h.denied, more]
  · cases result : adminActionResult event.result <;> simp [recordAction, ended_snoc, result, h.failed, more]
  · have counts : (metrics.recordAction (adminActionLabel event.action) (adminActionResult event.result)).actionCounts.value =
        metrics.actionCounts.value.insert (adminActionLabel event.action) (increment (recorded events event.action)) := by
      rw [← h.actions]
      cases adminActionResult event.result <;> rfl
    have one : recorded (events ++ [event]) action = recorded events action + if event.action = action then 1 else 0 := by
      simp [recorded, List.countP_append, List.countP_cons]
    rw [counts, one]
    by_cases here : event.action = action
    · subst here
      rw [Finmap.lookup_insert, if_pos rfl]
      exact increment_of_lt (Nat.lt_of_le_of_lt List.countP_le_length room)
    · have apart : adminActionLabel action ≠ adminActionLabel event.action := fun same =>
        here (adminActionLabel_injective same).symm
      rw [Finmap.lookup_insert_of_ne _ apart, if_neg here]
      exact h.actions action

end AdminMetrics
end Mooncache
