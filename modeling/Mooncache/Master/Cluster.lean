import Mooncache.Foundation.Threads
import Mooncache.Master.Handlers
import Mooncache.Master.Snapshot

/-! A leading master with the store its metadata is saved in, and the standby masters that
loaded that store when they started. -/
namespace Mooncache
namespace MasterState

/-- The value is a snapshot of the state, taken in some order of its maps. -/
def Snapshots (s : MasterState) (snapshot : MasterMetadataSnapshot) : Prop :=
  ∃ objects quotas, s.Enumerates objects quotas ∧ snapshot = s.metadataSnapshot objects quotas

/-- One call under the lock of a master. -/
def Serves (s : MasterState) : (call : MasterCall) → call.Reply → MasterState → Prop
  | .putStart tenant key len replicaCount, reply, s' => (reply, s') = s.putStart tenant key len replicaCount
  | .putEnd tenant key, reply, s' => (reply, s') = s.putEnd tenant key
  | .putRevoke tenant key, reply, s' => (reply, s') = s.putRevoke tenant key
  | .getReplicaList tenant key, reply, s' => ∃ nowMs, (reply, s') = s.getReplicaList tenant key nowMs
  | .remove tenant key, reply, s' => (reply, s') = s.remove tenant key
  | .setTenantQuota tenantId dramBytes ssdBytes, reply, s' =>
    (reply, s') = s.setTenantQuota tenantId dramBytes ssdBytes
  | .mountSegment nodeId len, _, s' => s' = s.mountSegment nodeId len
  | .metadataSnapshot, reply, s' => s.Snapshots reply ∧ s' = s
  | .save _, _, _ => False
  | .resume, _, s' => s' = s

end MasterState

/-- What `build_router_from_config` makes of the stored metadata. -/
def loadedMaster (persisted : Option MasterMetadataSnapshot) : MasterState :=
  ((persisted.map MasterState.fromMetadataSnapshot).getD .new).mountSegment "default" 1048576

structure Cluster (J : Type) where
  leader : MasterState
  persisted : Option MasterMetadataSnapshot
  standbys : J → Option MasterState

namespace Cluster
variable {J : Type}

/-- A call at the leader. A save overwrites the whole value; one that fails may have done so too. -/
def Serves (saves : Except String Unit → Prop) (s : Cluster J) :
    (call : MasterCall) → call.Reply → Cluster J → Prop
  | .save snapshot, reply, s' =>
    saves reply ∧ (s' = { s with persisted := some snapshot } ∨ reply ≠ .ok () ∧ s' = s)
  | call, reply, s' => ∃ leader, s.leader.Serves call reply leader ∧ s' = { s with leader := leader }

/-- A standby starts, or answers a request from the state it has. -/
inductive Action (J : Type) where
  | start (j : J)
  | answer (j : J) (request : MasterRequest) (response : MasterResponse)

variable [DecidableEq J]

def Acts (s : Cluster J) : Action J → Cluster J → Prop
  | .start j, s' => s.standbys j = none ∧
    s' = { s with standbys := Function.update s.standbys j (some (loadedMaster s.persisted)) }
  | .answer j request response, s' => ∃ standby standby' leadership,
    s.standbys j = some standby ∧ leadership.isLeader = false ∧
    Program.Finishes MasterState.Serves standby (request.handle leadership) standby' response ∧
    s' = { s with standbys := Function.update s.standbys j (some standby') }

def server (saves : Except String Unit → Prop) : Server (Cluster J) (Action J) MasterCall MasterCall.Reply where
  serve := Serves saves
  act := Acts

end Cluster
end Mooncache
