import Mooncache.Common.Json
import Mooncache.Foundation.Program
import Mooncache.Master.State

/-! The master's HTTP handlers as programs: every operation under the lock is a call, and so are the
snapshot and the save of `persist_metadata`, and the step with which a handler resumes after its save. -/
namespace Mooncache

structure LeadershipState where
  localId : String
  leaderId : String
  deriving DecidableEq, Repr

namespace LeadershipState

def leader (localId : String) : LeadershipState := ⟨localId, localId⟩

def standby (localId leaderId : String) : LeadershipState := ⟨localId, leaderId⟩

def isLeader (leadership : LeadershipState) : Bool := leadership.localId = leadership.leaderId

end LeadershipState

/-- A status code and a JSON body. -/
structure MasterResponse where
  status : Nat
  body : Value

def MasterResponse.Success (response : MasterResponse) : Prop := 200 ≤ response.status ∧ response.status < 300

inductive MasterCall where
  | putStart (tenant : TenantId) (key : CacheKey) (len replicaCount : Nat)
  | putEnd (tenant : TenantId) (key : CacheKey)
  | putRevoke (tenant : TenantId) (key : CacheKey)
  | getReplicaList (tenant : TenantId) (key : CacheKey)
  | remove (tenant : TenantId) (key : CacheKey)
  | setTenantQuota (tenantId : String) (dramBytes ssdBytes : Nat)
  | mountSegment (nodeId : String) (len : Nat)
  | metadataSnapshot
  | save (snapshot : MasterMetadataSnapshot)
  | resume

abbrev MasterCall.Reply : MasterCall → Type
  | putStart _ _ _ _ => CacheResult (List ReplicaDescriptor)
  | putEnd _ _ | putRevoke _ _ | remove _ _ | setTenantQuota _ _ _ => CacheResult Unit
  | getReplicaList _ _ => CacheResult ReplicaList
  | mountSegment _ _ | resume => Unit
  | metadataSnapshot => MasterMetadataSnapshot
  | save _ => Except String Unit

abbrev Handler := Program MasterCall MasterCall.Reply

abbrev MasterEvent := Event MasterCall MasterCall.Reply

structure PutStartRequest where
  tenantId : String
  cacheKey : String
  len : Nat
  replicaCount : Nat

structure PutEndRequest where
  tenantId : String
  cacheKey : String

structure SetQuotaRequest where
  tenantId : String
  dramBytes : Nat
  ssdBytes : Nat

structure MountSegmentRequest where
  nodeId : String
  len : Nat

structure ReplicaListQuery where
  tenantId : String
  cacheKey : String

def ReplicaDescriptor.toValue (replica : ReplicaDescriptor) : Value :=
  .object [("node_id", .string replica.nodeId), ("offset", .number (.posInt replica.offset)),
    ("len", .number (.posInt replica.len))]

def ReplicaList.toValue (list : ReplicaList) : Value :=
  .object [("replicas", .array (list.replicas.map ReplicaDescriptor.toValue)),
    ("lease", .object [("lease_id", .string list.lease.leaseId),
      ("expires_at_ms", .number (.posInt list.lease.expiresAtMs))])]

namespace MasterResponse

def error (status : Nat) (message : String) : MasterResponse := ⟨status, .object [("error", .string message)]⟩

/-- `{"ok": true}`. -/
def acknowledged : MasterResponse := ⟨200, .object [("ok", .bool true)]⟩

theorem acknowledged_success : acknowledged.Success := ⟨le_rfl, by decide⟩

def statusOf : CacheError → Nat
  | .notFound => 404
  | .conflict _ => 409
  | .quotaExceeded _ => 413
  | .emptyTenantId | .invalidCacheKey | .invalidId _ => 400
  | .upstreamUnavailable _ => 503

/-- `error_response`. -/
def ofError (err : CacheError) : MasterResponse := error (statusOf err) err.text

end MasterResponse

namespace Handler
open Program (perform)

def requireLeader (leadership : LeadershipState) : Except MasterResponse Unit :=
  if leadership.isLeader then .ok () else .error (.error 503 "master is not leader")

/-- The save is awaited: it takes effect in the store before the handler resumes with its reply. -/
def persistMetadata : Handler (Except MasterResponse Unit) := do
  let snapshot ← perform (E := MasterCall) .metadataSnapshot
  let saved ← perform (MasterCall.save snapshot)
  let () ← perform MasterCall.resume
  match saved with
  | .ok () => pure (.ok ())
  | .error err => pure (.error (.error 503 ("metadata persistence failed: " ++ err)))

/-- The end of every mutating handler: persist what was accepted, then answer. -/
def acknowledge {α : Type} (result : CacheResult α) (answer : α → MasterResponse) : Handler MasterResponse :=
  match result with
  | .error err => pure (.ofError err)
  | .ok value => do
    match ← persistMetadata with
    | .ok () => pure (answer value)
    | .error response => pure response

/-- The start of every handler that names an object. -/
def withObject (tenantId cacheKey : String) (handler : TenantId → CacheKey → Handler MasterResponse) :
    Handler MasterResponse :=
  match TenantId.parse tenantId with
  | .error err => pure (.ofError err)
  | .ok tenant =>
    match CacheKey.fromHex cacheKey with
    | .error err => pure (.ofError err)
    | .ok key => handler tenant key

def asLeader (leadership : LeadershipState) (handler : Handler MasterResponse) : Handler MasterResponse :=
  match requireLeader leadership with
  | .error response => pure response
  | .ok () => handler

def putStart (leadership : LeadershipState) (body : PutStartRequest) : Handler MasterResponse :=
  asLeader leadership <| withObject body.tenantId body.cacheKey fun tenant key => do
    acknowledge (← perform (MasterCall.putStart tenant key body.len body.replicaCount)) fun replicas =>
      ⟨200, .object [("replicas", .array (replicas.map ReplicaDescriptor.toValue))]⟩

def putEnd (leadership : LeadershipState) (body : PutEndRequest) : Handler MasterResponse :=
  asLeader leadership <| withObject body.tenantId body.cacheKey fun tenant key => do
    acknowledge (← perform (MasterCall.putEnd tenant key)) fun () => .acknowledged

def putRevoke (leadership : LeadershipState) (body : PutEndRequest) : Handler MasterResponse :=
  asLeader leadership <| withObject body.tenantId body.cacheKey fun tenant key => do
    acknowledge (← perform (MasterCall.putRevoke tenant key)) fun () => .acknowledged

/-- The one handler that asks for no leader. -/
def getReplicaList (query : ReplicaListQuery) : Handler MasterResponse :=
  withObject query.tenantId query.cacheKey fun tenant key => do
    match ← perform (MasterCall.getReplicaList tenant key) with
    | .ok replicaList => pure ⟨200, replicaList.toValue⟩
    | .error err => pure (.ofError err)

def removeObject (leadership : LeadershipState) (query : ReplicaListQuery) : Handler MasterResponse :=
  asLeader leadership <| withObject query.tenantId query.cacheKey fun tenant key => do
    acknowledge (← perform (MasterCall.remove tenant key)) fun () => .acknowledged

def setTenantQuota (leadership : LeadershipState) (body : SetQuotaRequest) : Handler MasterResponse :=
  asLeader leadership do
    acknowledge (← perform (MasterCall.setTenantQuota body.tenantId body.dramBytes body.ssdBytes)) fun () =>
      .acknowledged

def mountSegment (leadership : LeadershipState) (body : MountSegmentRequest) : Handler MasterResponse :=
  asLeader leadership do
    let () ← perform (MasterCall.mountSegment body.nodeId body.len)
    acknowledge (.ok ()) fun () => .acknowledged

end Handler

inductive MasterRequest where
  | putStart (body : PutStartRequest)
  | putEnd (body : PutEndRequest)
  | putRevoke (body : PutEndRequest)
  | getReplicaList (query : ReplicaListQuery)
  | removeObject (query : ReplicaListQuery)
  | setTenantQuota (body : SetQuotaRequest)
  | mountSegment (body : MountSegmentRequest)

/-- The route of a request. -/
def MasterRequest.handle (leadership : LeadershipState) : MasterRequest → Handler MasterResponse
  | putStart body => Handler.putStart leadership body
  | putEnd body => Handler.putEnd leadership body
  | putRevoke body => Handler.putRevoke leadership body
  | getReplicaList query => Handler.getReplicaList query
  | removeObject query => Handler.removeObject leadership query
  | setTenantQuota body => Handler.setTenantQuota leadership body
  | mountSegment body => Handler.mountSegment leadership body

/-! The numbers of a call or a request are words. -/

def MasterCall.Words : MasterCall → Prop
  | .putStart _ _ len _ => len ≤ wordMax
  | .setTenantQuota _ dramBytes ssdBytes => dramBytes ≤ wordMax ∧ ssdBytes ≤ wordMax
  | .mountSegment _ len => len ≤ wordMax
  | _ => True

def MasterRequest.Words : MasterRequest → Prop
  | .putStart body => body.len ≤ wordMax
  | .setTenantQuota body => body.dramBytes ≤ wordMax ∧ body.ssdBytes ≤ wordMax
  | .mountSegment body => body.len ≤ wordMax
  | _ => True

end Mooncache
