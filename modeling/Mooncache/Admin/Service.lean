import Mooncache.Admin.Audit
import Mooncache.Fingerprint.CacheKey
import Mooncache.Master.Operations

/-! The admin service: its calls act on the nodes, the audit log and the metrics, and one of them
on a master that the caller lends. -/
namespace Mooncache

structure AdminRequestContext where
  actor : String
  role : Role
  requestId : RequestId
  deriving DecidableEq, Repr

structure NodeView where
  nodeId : String
  draining : Bool
  deriving DecidableEq, Repr

structure CacheFingerprintDebugRequest where
  tenantId : TenantId
  endpointVersion : String
  vendorId : String
  resolvedModelVersion : String
  adapterVersion : String
  cachePolicy : String
  body : Value

structure CacheFingerprintDebugResponse where
  cacheKey : CacheKey
  deriving DecidableEq, Repr

inductive AdminError where
  | forbidden (action : AdminAction)
  | notFound (resource : String)
  | cache (err : CacheError)
  | audit (err : AuditError)
  | stateUnavailable
  deriving DecidableEq, Repr

/-- The error's display text. -/
def AdminError.text : AdminError → String
  | .forbidden action => "forbidden: " ++ action.debug ++ " requires elevated role"
  | .notFound resource => "not found: " ++ resource
  | .cache err => err.text
  | .audit err => err.text
  | .stateUnavailable => "admin service state is unavailable"

structure NodeState where
  draining : Bool
  deriving DecidableEq, Repr

structure AuditRecord where
  action : AdminAction
  resource : String
  tenantScope : Option String
  beforeSummary : Option String
  afterSummary : Option String
  result : AuditResult

structure AdminService where
  nodes : Mutex (Table String NodeState)
  audit : InMemoryAuditSink
  metrics : AdminMetrics

/-- What a call returns and the service after it; nothing stands for a panic. -/
abbrev AdminAnswer (α : Type) := Option (Except AdminError α × AdminService)

def fingerprintDebugSummary (request : CacheFingerprintDebugRequest) : String :=
  "endpoint_version=" ++ request.endpointVersion ++ " vendor_id=" ++ request.vendorId ++ " resolved_model_version=" ++
    request.resolvedModelVersion ++ " adapter_version=" ++ request.adapterVersion ++ " cache_policy=" ++
    request.cachePolicy ++ " body=redacted"

def CacheFingerprintDebugRequest.input (request : CacheFingerprintDebugRequest) : FingerprintInput where
  tenantId := request.tenantId
  endpointVersion := request.endpointVersion
  vendorId := request.vendorId
  resolvedModelVersion := request.resolvedModelVersion
  adapterVersion := request.adapterVersion
  cachePolicy := request.cachePolicy
  body := request.body

namespace AdminService
variable {α : Type}

def newForTest (nodeIds : List String) : AdminService where
  nodes := .new (Table.collect (nodeIds.map fun nodeId => (nodeId, ⟨false⟩)))
  audit := ⟨.new []⟩
  metrics := .default

/-- The event that records a call. -/
def auditEvent (context : AdminRequestContext) (nowMs : Nat) (record : AuditRecord) : AuditEvent where
  actor := context.actor
  role := context.role
  action := record.action
  resource := record.resource
  tenantScope := record.tenantScope
  beforeSummary := record.beforeSummary
  afterSummary := record.afterSummary
  requestId := context.requestId
  timestampMs := nowMs
  result := record.result

def recordAudit (service : AdminService) (context : AdminRequestContext) (nowMs : Nat) (record : AuditRecord) :
    AdminAnswer Unit :=
  match service.audit.append (auditEvent context nowMs record) with
  | none => none
  | some (.error err, audit) => some (.error (.audit err), { service with audit := audit })
  | some (.ok (), audit) => some (.ok (), { service with
      audit := audit
      metrics := service.metrics.recordAction (adminActionLabel record.action) (adminActionResult record.result) })

/-- Record, and then reply unless that has failed. -/
def audited (service : AdminService) (context : AdminRequestContext) (nowMs : Nat) (record : AuditRecord)
    (reply : AdminService → Except AdminError α) : AdminAnswer α :=
  match service.recordAudit context nowMs record with
  | none => none
  | some (.error err, after) => some (.error err, after)
  | some (.ok (), after) => some (reply after, after)

def metricsSnapshot (service : AdminService) (context : AdminRequestContext) (nowMs : Nat) :
    AdminAnswer AdminMetricsSnapshot :=
  let action := AdminAction.readMetrics
  let resource := "metrics"
  if !context.role.allows action then
    service.audited context nowMs ⟨action, resource, none, none, none, .denied⟩ fun _ => .error (.forbidden action)
  else
    service.audited context nowMs ⟨action, resource, none, none, some "snapshot_returned", .success⟩ fun after =>
      .ok after.metrics.snapshot

def drainNode (service : AdminService) (context : AdminRequestContext) (nowMs : Nat) (nodeId : String) :
    AdminAnswer NodeView :=
  let action := AdminAction.drainNode
  let resource := "node:" ++ nodeId
  if !context.role.allows action then
    service.audited context nowMs ⟨action, resource, none, none, none, .denied⟩ fun _ => .error (.forbidden action)
  else match service.nodes.lock with
    | none => some (.error .stateUnavailable, service)
    | some nodes =>
      match nodes.lookup nodeId with
      | none =>
        let err := AdminError.notFound ("node:" ++ nodeId)
        service.audited context nowMs ⟨action, resource, none, none, none, .failed err.text⟩ fun _ => .error err
      | some node =>
        let before := "draining=" ++ toString node.draining
        let after := "draining=" ++ toString true
        let drained := { service with nodes := service.nodes.set (nodes.insert nodeId ⟨true⟩) }
        drained.audited context nowMs ⟨action, resource, none, some before, some after, .success⟩ fun _ =>
          .ok ⟨nodeId, true⟩

def deleteCacheObject (service : AdminService) (context : AdminRequestContext) (nowMs : Nat) (master : MasterState)
    (tenantId : TenantId) (cacheKey : CacheKey) : AdminAnswer Unit × MasterState :=
  let action := AdminAction.removeCacheObject
  match cacheKey.redacted with
  | none => (none, master)
  | some redacted =>
    let resource := "cache_object:" ++ tenantId.value ++ "/" ++ redacted
    let tenantScope := some tenantId.value
    if !context.role.allows action then
      (service.audited context nowMs ⟨action, resource, tenantScope, none, none, .denied⟩ fun _ =>
        .error (.forbidden action), master)
    else match master.remove tenantId cacheKey with
      | (.ok (), removed) =>
        (service.audited context nowMs
          ⟨action, resource, tenantScope, some "delete requested", some "deleted", .success⟩ fun _ => .ok (), removed)
      | (.error err, kept) =>
        (service.audited context nowMs
          ⟨action, resource, tenantScope, some "delete requested", none, .failed err.text⟩ fun _ =>
            .error (.cache err), kept)

def auditEvents (service : AdminService) (context : AdminRequestContext) (nowMs : Nat) :
    AdminAnswer (List AuditEvent) :=
  let action := AdminAction.readAuditLog
  let resource := "audit_log"
  if !context.role.allows action then
    service.audited context nowMs ⟨action, resource, none, none, none, .denied⟩ fun _ => .error (.forbidden action)
  else match service.audit.list with
    | .error err => some (.error (.audit err), service)
    | .ok events =>
      let listed := "listed_events=" ++ toString events.length
      service.audited context nowMs ⟨action, resource, none, none, some listed, .success⟩ fun _ => .ok events

variable [Sha256] [JsonWriter]

def debugCacheFingerprint (service : AdminService) (context : AdminRequestContext) (nowMs : Nat)
    (request : CacheFingerprintDebugRequest) : AdminAnswer CacheFingerprintDebugResponse :=
  let action := AdminAction.debugCacheFingerprint
  let tenantScope := some request.tenantId.value
  let baseResource := "cache_fingerprint:" ++ request.tenantId.value
  let requestSummary := some (fingerprintDebugSummary request)
  if !context.role.allows action then
    service.audited context nowMs ⟨action, baseResource, tenantScope, requestSummary, none, .denied⟩ fun _ =>
      .error (.forbidden action)
  else match computeCacheKey request.input with
    | .error err =>
      service.audited context nowMs
        ⟨action, baseResource, tenantScope, requestSummary, none, .failed err.text⟩ fun _ => .error (.cache err)
    | .ok cacheKey =>
      match cacheKey.redacted with
      | none => none
      | some redacted =>
        service.audited context nowMs ⟨action, baseResource ++ "/" ++ redacted, tenantScope, requestSummary,
          some ("cache_key=" ++ redacted), .success⟩ fun _ => .ok ⟨cacheKey⟩

end AdminService
end Mooncache
