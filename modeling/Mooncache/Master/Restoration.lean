import Mooncache.Master.QuotaAccounting

/-! A master restored from a snapshot answers the metadata calls as the one it was taken
from. Clock readings, and with them the leases, may differ between the two. -/
namespace Mooncache

/-- What a call returns, its lease aside. -/
inductive MasterReply where
  | done
  | replicas (replicas : List ReplicaDescriptor)
  | reclaimed (bytes : Nat)
  deriving DecidableEq, Repr

/-- The second call is the first one issued again, perhaps at another time. -/
inductive MasterOp.Reissued : MasterOp → MasterOp → Prop
  | setTenantQuota (tenantId : String) (dramBytes ssdBytes : Nat) :
      Reissued (.setTenantQuota tenantId dramBytes ssdBytes) (.setTenantQuota tenantId dramBytes ssdBytes)
  | putEnd (tenant : TenantId) (key : CacheKey) : Reissued (.putEnd tenant key) (.putEnd tenant key)
  | putRevoke (tenant : TenantId) (key : CacheKey) : Reissued (.putRevoke tenant key) (.putRevoke tenant key)
  | remove (tenant : TenantId) (key : CacheKey) : Reissued (.remove tenant key) (.remove tenant key)
  | getReplicaList (tenant : TenantId) (key : CacheKey) (nowMs laterMs : Nat) :
      Reissued (.getReplicaList tenant key nowMs) (.getReplicaList tenant key laterMs)

namespace MasterState

def reply (s : MasterState) : MasterOp → CacheResult MasterReply
  | .setTenantQuota tenantId dramBytes ssdBytes =>
    (s.setTenantQuota tenantId dramBytes ssdBytes).1.map fun () => .done
  | .mountSegment _ _ => .ok .done
  | .putStart tenant key len replicaCount => (s.putStart tenant key len replicaCount).1.map .replicas
  | .putEnd tenant key => (s.putEnd tenant key).1.map fun () => .done
  | .putRevoke tenant key => (s.putRevoke tenant key).1.map fun () => .done
  | .getReplicaList tenant key nowMs => (s.getReplicaList tenant key nowMs).1.map fun list => .replicas list.replicas
  | .remove tenant key => (s.remove tenant key).1.map fun () => .done
  | .evictForTenant tenant target nowMs order => (s.evictForTenant tenant target nowMs order).1.map .reclaimed

/-- The replies to a sequence of calls. -/
def replies : MasterState → List MasterOp → List (CacheResult MasterReply)
  | _, [] => []
  | s, op :: rest => s.reply op :: replies (op.apply s) rest

/-- Two masters with the same objects and quotas. -/
structure SameMetadata (s s' : MasterState) : Prop where
  objects : s'.objects = s.objects
  quotas : s'.quotas = s.quotas

theorem SameMetadata.release {s s' : MasterState} (h : SameMetadata s s') (tenant : TenantId) (bytes : Nat) :
    SameMetadata (s.releaseTenantQuota tenant bytes) (s'.releaseTenantQuota tenant bytes) := by
  refine ⟨by simp only [releaseTenantQuota_objects, h.objects], ?_⟩
  unfold releaseTenantQuota
  rw [h.quotas]
  split
  · exact h.quotas
  · rfl

theorem SameMetadata.retire {s s' : MasterState} (h : SameMetadata s s') (key : ObjectKey)
    (object : CacheObjectMeta) (status : ObjectStatus) :
    SameMetadata (s.retire key object status) (s'.retire key object status) := by
  have marked : SameMetadata { s with objects := s.objects.insert key { object with status := status } }
      { s' with objects := s'.objects.insert key { object with status := status } } :=
    ⟨by simp only [h.objects], h.quotas⟩
  have released := marked.release key.1 (quotaReservedBytes object)
  exact ⟨released.objects, released.quotas⟩

/-- A call issued to two masters with the same metadata gets the same reply and leaves the same metadata. -/
theorem SameMetadata.reissued {s s' : MasterState} (h : SameMetadata s s') {op op' : MasterOp}
    (again : op.Reissued op') : s'.reply op' = s.reply op ∧ SameMetadata (op.apply s) (op'.apply s') := by
  cases again with
  | setTenantQuota tenantId dramBytes ssdBytes =>
    simp only [reply, MasterOp.apply, setTenantQuota]
    cases TenantId.parse tenantId with
    | error err => exact ⟨rfl, h⟩
    | ok tenant => exact ⟨rfl, h.objects, by simp only [h.objects, h.quotas]⟩
  | putEnd tenant key =>
    simp only [reply, MasterOp.apply, putEnd, h.objects]
    split
    · exact ⟨rfl, h⟩
    · split
      · exact ⟨rfl, rfl, h.quotas⟩
      · exact ⟨rfl, rfl, h.quotas⟩
      · exact ⟨rfl, h⟩
      · exact ⟨rfl, h⟩
      · exact ⟨rfl, h⟩
  | putRevoke tenant key =>
    simp only [reply, MasterOp.apply, putRevoke, h.objects]
    split
    · exact ⟨rfl, h⟩
    · exact ⟨rfl, h.retire _ _ _⟩
  | remove tenant key =>
    simp only [reply, MasterOp.apply, remove, h.objects]
    split
    · exact ⟨rfl, h⟩
    · rename_i object _
      have erased : SameMetadata { s with objects := s.objects.erase (tenant, key) }
          { s' with objects := s.objects.erase (tenant, key) } := ⟨rfl, h.quotas⟩
      have released := erased.release tenant (quotaReservedBytes object)
      exact ⟨rfl, released.objects, released.quotas⟩
  | getReplicaList tenant key nowMs laterMs =>
    simp only [reply, MasterOp.apply, getReplicaList, h.objects]
    split
    · exact ⟨rfl, h⟩
    · split
      · exact ⟨rfl, h⟩
      · exact ⟨rfl, rfl, h.quotas⟩

theorem SameMetadata.replies {ops ops' : List MasterOp} (again : List.Forall₂ MasterOp.Reissued ops ops')
    {s s' : MasterState} (h : SameMetadata s s') :
    s'.replies ops' = s.replies ops ∧ SameMetadata (ops.foldl MasterOp.apply s) (ops'.foldl MasterOp.apply s') := by
  induction again generalizing s s' with
  | nil => exact ⟨rfl, h⟩
  | cons first _ ih =>
    obtain ⟨reply, same⟩ := h.reissued first
    obtain ⟨rest, final⟩ := ih same
    exact ⟨congrArg₂ List.cons reply rest, final⟩

theorem LifeStep.keyed {s s' : MasterState} {event : LifeEvent} (h : s.Keyed) (step : LifeStep s event s') :
    s'.Keyed := by
  cases event with
  | op op =>
    obtain ⟨_, rfl⟩ := step
    exact apply_keyed h op
  | restore objects quotas =>
    obtain ⟨he, rfl⟩ := step
    rw [restored_eq h he]
    exact h

theorem life_keyed {trace : List LifeEvent} {s : MasterState} (run : Run LifeStep new trace s) : s.Keyed := by
  induction run with
  | start => exact new_keyed
  | snoc _ last ih => exact last.keyed ih

/-- A restored master has the objects, quotas and eviction count of the one it was taken
from, and answers every later sequence of metadata calls as that one would. -/
theorem restored_same_behaviour {trace : List LifeEvent} {s : MasterState} (run : Run LifeStep new trace s)
    {objects : List (Entry ObjectKey CacheObjectMeta)} {quotas : List (Entry TenantId TenantQuota)}
    (enumerated : s.Enumerates objects quotas) :
    ((s.restored objects quotas).objects = s.objects ∧ (s.restored objects quotas).quotas = s.quotas ∧
      (s.restored objects quotas).evictionsTotal = s.evictionsTotal) ∧
    ∀ ops ops', List.Forall₂ MasterOp.Reissued ops ops' →
      (s.restored objects quotas).replies ops' = s.replies ops ∧
      (ops'.foldl MasterOp.apply (s.restored objects quotas)).objects = (ops.foldl MasterOp.apply s).objects ∧
      (ops'.foldl MasterOp.apply (s.restored objects quotas)).quotas = (ops.foldl MasterOp.apply s).quotas := by
  have same := restored_eq (life_keyed run) enumerated
  have start : SameMetadata s (s.restored objects quotas) := ⟨by rw [same], by rw [same]⟩
  refine ⟨⟨start.objects, start.quotas, by rw [same]⟩, fun ops ops' again => ?_⟩
  obtain ⟨replies, final⟩ := SameMetadata.replies again start
  exact ⟨replies, final.objects, final.quotas⟩

private def pendingWrite : MasterState :=
  ((new.mountSegment "store-0" 16).putStart ⟨"tenant-a"⟩ ⟨"key"⟩ 4 1).2

private theorem pendingWrite_run : Run LifeStep new [.op (.mountSegment "store-0" 16),
    .op (.putStart ⟨"tenant-a"⟩ ⟨"key"⟩ 4 1)] pendingWrite :=
  (Run.start.snoc ⟨by decide, rfl⟩).snoc ⟨by decide, rfl⟩

private def pendingObjects : List (Entry ObjectKey CacheObjectMeta) :=
  [⟨(⟨"tenant-a"⟩, ⟨"key"⟩), ⟨⟨"tenant-a"⟩, ⟨"key"⟩, 4, .reserving, [⟨"store-0", 0, 4⟩], false, none⟩⟩]

/-- A write started before a failover ends after it, and is read from the same extent. -/
theorem restored_write_ends :
    (pendingWrite.restored pendingObjects []).replies
        [.putEnd ⟨"tenant-a"⟩ ⟨"key"⟩, .getReplicaList ⟨"tenant-a"⟩ ⟨"key"⟩ 7000] =
      [.ok .done, .ok (.replicas [⟨"store-0", 0, 4⟩])] := by
  have same := (@restored_same_behaviour _ _ pendingWrite_run pendingObjects [] ⟨by decide, by decide⟩).2 _ _ (.cons (.putEnd ⟨"tenant-a"⟩ ⟨"key"⟩)
      (.cons (.getReplicaList ⟨"tenant-a"⟩ ⟨"key"⟩ 10 7000) .nil))
  exact same.1.trans (by decide)

end MasterState
end Mooncache
