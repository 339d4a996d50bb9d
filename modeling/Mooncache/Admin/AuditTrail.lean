import Mooncache.Admin.Service
import Mooncache.Foundation.Runs

/-! The audit trail of the admin service: every call leaves one event that says who made it, what it
was and how it ended, and the metrics agree with the log. -/
namespace Mooncache

/-- A call of the admin service, with the master that the caller lends it. The caller reads the key of an object
with `from_hex`. -/
inductive AdminCall where
  | metricsSnapshot
  | drainNode (nodeId : String)
  | debugCacheFingerprint (request : CacheFingerprintDebugRequest)
  | deleteCacheObject (master : MasterState) (tenantId : TenantId) (cacheKey : CacheKey)
      (hex : CacheKey.fromHex cacheKey.value = .ok cacheKey)
  | auditEvents

namespace AdminCall

def action : AdminCall → AdminAction
  | metricsSnapshot => .readMetrics
  | drainNode _ => .drainNode
  | debugCacheFingerprint _ => .debugCacheFingerprint
  | deleteCacheObject .. => .removeCacheObject
  | auditEvents => .readAuditLog

def lent : AdminCall → Option MasterState
  | deleteCacheObject master _ _ _ => some master
  | _ => none

end AdminCall

inductive AdminReply where
  | metrics (snapshot : AdminMetricsSnapshot)
  | node (view : NodeView)
  | fingerprint (response : CacheFingerprintDebugResponse)
  | deleted
  | events (events : List AuditEvent)
  deriving DecidableEq

/-- How the audit log states what a call returned. -/
def auditResultOf {α : Type} : Except AdminError α → AuditResult
  | .ok _ => .success
  | .error (.forbidden _) => .denied
  | .error err => .failed err.text

/-- One call that was made, what it returned, and the lent master after it. -/
structure AdminEvent where
  context : AdminRequestContext
  nowMs : Nat
  call : AdminCall
  result : Except AdminError AdminReply
  left : Option MasterState

/-- The audit event of a call names its actor, role and action, and how it ended. -/
structure AdminEvent.Records (event : AdminEvent) (logged : AuditEvent) : Prop where
  actor : logged.actor = event.context.actor
  role : logged.role = event.context.role
  action : logged.action = event.call.action
  result : logged.result = auditResultOf event.result
  requestId : logged.requestId = event.context.requestId
  timestampMs : logged.timestampMs = event.nowMs

def AdminAnswer.map {α β : Type} (f : α → β) (answer : AdminAnswer α) : AdminAnswer β :=
  Option.map (fun (result, after) => (result.map f, after)) answer

namespace AdminService
variable [Sha256] [JsonWriter]

/-- A call's reply and the service after it, with the lent master after the call. -/
def perform (service : AdminService) (context : AdminRequestContext) (nowMs : Nat) :
    AdminCall → AdminAnswer AdminReply × Option MasterState
  | .metricsSnapshot => ((service.metricsSnapshot context nowMs).map .metrics, none)
  | .drainNode nodeId => ((service.drainNode context nowMs nodeId).map .node, none)
  | .debugCacheFingerprint request => ((service.debugCacheFingerprint context nowMs request).map .fingerprint, none)
  | .deleteCacheObject master tenantId cacheKey _ =>
    let (answer, left) := service.deleteCacheObject context nowMs master tenantId cacheKey
    (answer.map fun () => .deleted, some left)
  | .auditEvents => ((service.auditEvents context nowMs).map .events, none)

/-- A call that returns while the audit sink is available. -/
inductive Step (service : AdminService) : AdminEvent → AdminService → Prop
  | call {context : AdminRequestContext} {nowMs : Nat} {call : AdminCall} {result : Except AdminError AdminReply}
      {after : AdminService} (available : service.audit.Available)
      (returned : (service.perform context nowMs call).1 = some (result, after)) :
      Step service ⟨context, nowMs, call, result, (service.perform context nowMs call).2⟩ after

/-- The service once an event is recorded. -/
def logged (service : AdminService) (context : AdminRequestContext) (nowMs : Nat) (record : AuditRecord) :
    AdminService :=
  { service with
    audit := ⟨service.audit.events.set (service.audit.events.value ++ [auditEvent context nowMs record])⟩
    metrics := service.metrics.recordAction (adminActionLabel record.action) (adminActionResult record.result) }

omit [Sha256] [JsonWriter] in
theorem audited_of_available {α : Type} {service : AdminService} (available : service.audit.Available)
    (context : AdminRequestContext) (nowMs : Nat) (record : AuditRecord) (reply : AdminService → Except AdminError α) :
    service.audited context nowMs record reply =
      some (reply (service.logged context nowMs record), service.logged context nowMs record) := by
  simp only [audited, recordAudit, InMemoryAuditSink.append_of_available available, logged]

/-- What every call does: it records one event of its action with the result it returns. Where that
is an error it has left the nodes alone, and the lent master as well. -/
def Writes {α : Type} (service : AdminService) (context : AdminRequestContext) (nowMs : Nat) (action : AdminAction)
    (answer : AdminAnswer α) (kept : Prop) : Prop :=
  ∃ record nodes result, record.action = action ∧ record.result = auditResultOf result ∧
    answer = some (result, { service with nodes := service.nodes.set nodes }.logged context nowMs record) ∧
    ∀ err, result = .error err → nodes = service.nodes.value ∧ kept

section
omit [Sha256] [JsonWriter]
variable {α β : Type} {service : AdminService} {context : AdminRequestContext} {nowMs : Nat} {record : AuditRecord}
  {action : AdminAction} {kept : Prop}

theorem Writes.map {answer : AdminAnswer α} (h : service.Writes context nowMs action answer kept) (f : α → β) :
    service.Writes context nowMs action (answer.map f) kept := by
  obtain ⟨record, nodes, result, same, reports, rfl, untouched⟩ := h
  refine ⟨record, nodes, result.map f, same, ?_, rfl, ?_⟩
  · cases result with
    | error err => cases err <;> exact reports
    | ok reply => exact reports
  · cases result with
    | error err => exact fun other _ => untouched err rfl
    | ok reply => exact fun other failed => nomatch failed

theorem Writes.mono {answer : AdminAnswer α} {other : Prop} (h : service.Writes context nowMs action answer kept)
    (implies : kept → other) : service.Writes context nowMs action answer other := by
  obtain ⟨record, nodes, result, same, reports, writes, untouched⟩ := h
  exact ⟨record, nodes, result, same, reports, writes, fun err failed => (untouched err failed).imp_right implies⟩

/-- A call that fails, or is denied, records just that. -/
theorem writes_error (available : service.audit.Available) (same : record.action = action) {err : AdminError} (left : kept)
    (reports : record.result = auditResultOf (.error err : Except AdminError α)) :
    service.Writes context nowMs action
      (service.audited context nowMs record fun _ => (.error err : Except AdminError α)) kept :=
  ⟨record, service.nodes.value, .error err, same, reports, audited_of_available available context nowMs record _,
    fun _ _ => ⟨rfl, left⟩⟩

/-- A call that succeeds may have written the nodes first. -/
theorem writes_ok (available : service.audit.Available) (same : record.action = action)
    (nodes : Table String NodeState) (reply : AdminService → α) (reports : record.result = .success) :
    service.Writes context nowMs action
      ({ service with nodes := service.nodes.set nodes }.audited context nowMs record fun after => .ok (reply after))
      kept := by
  refine ⟨record, nodes, _, same, ?_, audited_of_available ?_ context nowMs record _, fun _ failed => ?_⟩
  · exact reports
  · exact available
  · cases failed

theorem metricsSnapshot_writes (available : service.audit.Available) :
    service.Writes context nowMs .readMetrics (service.metricsSnapshot context nowMs) True := by
  rw [metricsSnapshot]
  split
  · refine writes_error available ?_ trivial ?_ <;> rfl
  · refine writes_ok available ?_ service.nodes.value _ ?_ <;> rfl

theorem drainNode_writes (available : service.audit.Available) (clean : service.nodes.poisoned = false) (nodeId : String) :
    service.Writes context nowMs .drainNode (service.drainNode context nowMs nodeId) True := by
  rw [drainNode, Mutex.lock_of_clean clean]
  split
  · refine writes_error available ?_ trivial ?_ <;> rfl
  · cases found : service.nodes.value.lookup nodeId with
    | none =>
      simp only [found]
      refine writes_error available ?_ trivial ?_ <;> rfl
    | some node =>
      simp only [found]
      refine writes_ok available ?_ _ _ ?_ <;> rfl

theorem auditEvents_writes (available : service.audit.Available) :
    service.Writes context nowMs .readAuditLog (service.auditEvents context nowMs) True := by
  rw [auditEvents, InMemoryAuditSink.list_of_available available]
  split
  · refine writes_error available ?_ trivial ?_ <;> rfl
  · refine writes_ok available ?_ service.nodes.value _ ?_ <;> rfl

theorem deleteCacheObject_writes (available : service.audit.Available) (master : MasterState) (tenantId : TenantId)
    {cacheKey : CacheKey} (hex : CacheKey.fromHex cacheKey.value = .ok cacheKey) :
    service.Writes context nowMs .removeCacheObject
      (service.deleteCacheObject context nowMs master tenantId cacheKey).1
      ((service.deleteCacheObject context nowMs master tenantId cacheKey).2 = master) := by
  rw [deleteCacheObject, CacheKey.redacted_of_hex hex]
  dsimp only
  split
  · refine writes_error available ?_ rfl ?_ <;> rfl
  · rcases MasterState.remove_cases master tenantId cacheKey with ⟨_, missing⟩ | ⟨_, _, removed, _⟩
    · rw [missing]
      refine writes_error available ?_ rfl ?_ <;> rfl
    · have split : master.remove tenantId cacheKey = (.ok (), (master.remove tenantId cacheKey).2) :=
        Prod.ext removed rfl
      rw [split]
      refine writes_ok available ?_ service.nodes.value _ ?_ <;> rfl

end

theorem debugCacheFingerprint_writes {service : AdminService} (available : service.audit.Available)
    (context : AdminRequestContext) (nowMs : Nat) (request : CacheFingerprintDebugRequest) :
    service.Writes context nowMs .debugCacheFingerprint (service.debugCacheFingerprint context nowMs request) True := by
  unfold debugCacheFingerprint
  simp only []
  split
  · refine writes_error available ?_ trivial ?_ <;> rfl
  · cases computed : computeCacheKey request.input with
    | error err => refine writes_error available ?_ trivial ?_ <;> rfl
    | ok cacheKey =>
      obtain ⟨redacted, same⟩ := redacted_of_computeCacheKey computed
      simp only [same]
      refine writes_ok available ?_ service.nodes.value _ ?_ <;> rfl

theorem perform_writes {service : AdminService} (clean : service.nodes.poisoned = false)
    (available : service.audit.Available) (context : AdminRequestContext) (nowMs : Nat) (call : AdminCall) :
    service.Writes context nowMs call.action (service.perform context nowMs call).1
      ((service.perform context nowMs call).2 = call.lent) := by
  cases call with
  | metricsSnapshot => exact ((metricsSnapshot_writes available).map _).mono fun _ => rfl
  | drainNode nodeId => exact ((drainNode_writes available clean nodeId).map _).mono fun _ => rfl
  | debugCacheFingerprint request =>
    exact ((debugCacheFingerprint_writes available context nowMs request).map _).mono fun _ => rfl
  | deleteCacheObject master tenantId cacheKey hex =>
    exact ((deleteCacheObject_writes available master tenantId hex).map _).mono fun kept => congrArg some kept
  | auditEvents => exact ((auditEvents_writes available).map _).mono fun _ => rfl

/-- What holds of a service in use: no lock is poisoned, and the metrics count what the log holds. -/
structure Audited (service : AdminService) : Prop where
  nodes : service.nodes.poisoned = false
  sink : service.audit.events.poisoned = false
  room : service.audit.events.value.length ≤ vecMax
  counts : service.metrics.Counts service.audit.events.value

omit [Sha256] [JsonWriter] in
theorem newForTest_audited (nodeIds : List String) : (newForTest nodeIds).Audited where
  nodes := rfl
  sink := rfl
  room := Nat.zero_le _
  counts := AdminMetrics.default_counts

/-- A step appends one event, which records its call, and keeps the rest of the state if it fails. -/
theorem Step.records {service after : AdminService} {event : AdminEvent} (h : service.Audited)
    (step : service.Step event after) :
    after.Audited ∧
    (∃ logged, event.Records logged ∧ after.audit.events.value = service.audit.events.value ++ [logged]) ∧
    ∀ err, event.result = .error err → after.nodes = service.nodes ∧ event.left = event.call.lent := by
  obtain ⟨available, returned⟩ := step
  rename_i context nowMs call result
  obtain ⟨record, nodes, answer, action, reports, writes, kept⟩ := perform_writes h.nodes available context nowMs call
  rw [returned, Option.some.injEq, Prod.mk.injEq] at writes
  obtain ⟨rfl, rfl⟩ := writes
  refine ⟨⟨h.nodes, h.sink, ?_, ?_⟩, ⟨auditEvent context nowMs record, ⟨rfl, rfl, action, reports, rfl, rfl⟩, rfl⟩, ?_⟩
  · simp only [logged, Mutex.set_value, List.length_append, List.length_singleton]
    exact available.2
  · exact h.counts.record (Nat.lt_trans available.2 (by decide)) (auditEvent context nowMs record)
  · intro err failed
    obtain ⟨same, left⟩ := kept err failed
    exact ⟨by rw [same]; rfl, left⟩

theorem run_audited {nodeIds : List String} {trace : List AdminEvent} {service : AdminService}
    (run : Run Step (newForTest nodeIds) trace service) :
    service.Audited ∧ List.Forall₂ AdminEvent.Records trace service.audit.events.value := by
  induction run with
  | start => exact ⟨newForTest_audited nodeIds, .nil⟩
  | snoc _ last ih =>
    obtain ⟨audited, ⟨logged, records, appended⟩, _⟩ := last.records ih.1
    rw [appended]
    exact ⟨audited, List.rel_append ih.2 (.cons records .nil)⟩

/-- The log has one event for every call, in order, that records it; the metrics count the log; and what
a call does next is to append one event, or with an error that alone. -/
theorem audit_trail_agrees {nodeIds : List String} {trace : List AdminEvent} {service : AdminService}
    (run : Run Step (newForTest nodeIds) trace service) :
    List.Forall₂ AdminEvent.Records trace service.audit.events.value ∧
    service.metrics.auditEventsTotal = service.audit.events.value.length ∧
    service.metrics.auditEventsTotal = service.metrics.auditSuccessTotal + service.metrics.auditDeniedTotal +
      service.metrics.auditFailedTotal ∧
    (∀ action, (service.metrics.actionCounts.value.lookup (adminActionLabel action)).getD 0 =
      service.audit.events.value.countP fun logged => logged.action = action) ∧
    (∀ context nowMs call, service.audit.Available → (service.perform context nowMs call).1.isSome) ∧
    ∀ event after, service.Step event after →
      (∃ logged, event.Records logged ∧ after.audit.events.value = service.audit.events.value ++ [logged]) ∧
      ∀ err, event.result = .error err → after.nodes = service.nodes ∧ event.left = event.call.lent := by
  obtain ⟨audited, records⟩ := run_audited run
  have counts := audited.counts
  refine ⟨records, counts.total, ?_, counts.actions, fun context nowMs call available => ?_,
    fun event after step => (step.records audited).2⟩
  · rw [counts.total, counts.success, counts.denied, counts.failed]
    exact AdminMetrics.length_eq_ended _
  · obtain ⟨record, nodes, result, _, _, writes, _⟩ := perform_writes audited.nodes available context nowMs call
    rw [writes]
    rfl

private def operator : AdminRequestContext := ⟨"ops@example.com", .operator, ⟨1⟩⟩

private def viewer : AdminRequestContext := ⟨"reader@example.com", .viewer, ⟨2⟩⟩

private def drainRecord (before after : Option String) (result : AuditResult) : AuditRecord :=
  ⟨.drainNode, "node:node-a", none, before, after, result⟩

private def drained : AdminService :=
  { newForTest ["node-a"] with nodes := .new (Table.collect [("node-a", ⟨true⟩)]) }.logged operator 10
    (drainRecord (some "draining=false") (some "draining=true") .success)

private def refused : AdminService := drained.logged viewer 20 (drainRecord none none .denied)

omit [Sha256] [JsonWriter] in
/-- An operator drains a node and a viewer may not: both calls are in the log and in the metrics.
Neither digests or writes anything. -/
theorem denied_drain_audited :
    let _ : Sha256 := ⟨fun _ => Vector.replicate 32 0⟩
    let _ : JsonWriter := ⟨fun _ => []⟩
    ∃ trace service, Run Step (newForTest ["node-a"]) trace service ∧ trace.length = 2 ∧
      service.metrics.auditEventsTotal = service.audit.events.value.length ∧
      (service.metrics.actionCounts.value.lookup "drain_node").getD 0 = 2 ∧
      service.metrics.auditDeniedTotal = 1 ∧
      service.nodes.value.lookup "node-a" = some ⟨true⟩ := by
  intro digest writer
  have first : ((newForTest ["node-a"]).perform operator 10 (.drainNode "node-a")).1 =
      some (.ok (.node ⟨"node-a", true⟩), drained) := rfl
  have second : (drained.perform viewer 20 (.drainNode "node-a")).1 = some (.error (.forbidden .drainNode), refused) := rfl
  have run : Run Step (newForTest ["node-a"]) _ refused :=
    (Run.start.snoc (.call (by decide) first)).snoc (.call (by decide) second)
  obtain ⟨_, total, _, actions, _⟩ := audit_trail_agrees run
  exact ⟨_, refused, run, rfl, total, (actions .drainNode).trans (by decide), by decide, by decide⟩

end AdminService
end Mooncache
