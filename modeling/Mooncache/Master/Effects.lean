import Mooncache.Master.QuotaAccounting

/-! What an operation leaves alone: everything when it fails, and always the records of
the tenants it does not name. -/
namespace Mooncache

/-- What a call returns when it succeeds. -/
inductive MasterResult where
  | done
  | reserved (replicas : List ReplicaDescriptor)
  | leased (list : ReplicaList)
  | reclaimed (bytes : Nat)
  deriving DecidableEq, Repr

/-- The operation names the tenant. -/
def MasterOp.Names (tenant : TenantId) : MasterOp → Prop
  | setTenantQuota tenantId _ _ => tenantId = tenant.value
  | putStart named _ _ _ | putEnd named _ | putRevoke named _ | getReplicaList named _ _ | remove named _
  | evictForTenant named _ _ _ => named = tenant
  | mountSegment _ _ => False

instance (tenant : TenantId) : (op : MasterOp) → Decidable (op.Names tenant)
  | .setTenantQuota tenantId _ _ => inferInstanceAs (Decidable (tenantId = tenant.value))
  | .putStart named _ _ _ | .putEnd named _ | .putRevoke named _ | .getReplicaList named _ _ | .remove named _
  | .evictForTenant named _ _ _ => inferInstanceAs (Decidable (named = tenant))
  | .mountSegment _ _ => .isFalse id

namespace MasterState
variable {s s' : MasterState} {tenant : TenantId}

def result (s : MasterState) : MasterOp → CacheResult MasterResult
  | .setTenantQuota tenantId dramBytes ssdBytes =>
    (s.setTenantQuota tenantId dramBytes ssdBytes).1.map fun () => .done
  | .mountSegment _ _ => .ok .done
  | .putStart tenant key len replicaCount => (s.putStart tenant key len replicaCount).1.map .reserved
  | .putEnd tenant key => (s.putEnd tenant key).1.map fun () => .done
  | .putRevoke tenant key => (s.putRevoke tenant key).1.map fun () => .done
  | .getReplicaList tenant key nowMs => (s.getReplicaList tenant key nowMs).1.map .leased
  | .remove tenant key => (s.remove tenant key).1.map fun () => .done
  | .evictForTenant tenant target nowMs order => (s.evictForTenant tenant target nowMs order).1.map .reclaimed

theorem setTenantQuota_cases (s : MasterState) (tenantId : String) (dramBytes ssdBytes : Nat) :
    (∃ err, s.setTenantQuota tenantId dramBytes ssdBytes = (.error err, s)) ∨
    s.setTenantQuota tenantId dramBytes ssdBytes = (.ok (), { s with
      quotas := s.quotas.insert ⟨tenantId⟩ (.withUsage dramBytes ssdBytes
        (Table.saturatingTotal (fun _ object => tenantBytes ⟨tenantId⟩ object) s.objects)) }) := by
  unfold setTenantQuota
  cases parsed : TenantId.parse tenantId with
  | error err => exact .inl ⟨err, rfl⟩
  | ok named =>
    cases TenantId.parse_eq_ok parsed
    exact .inr rfl

/-- An operation that fails leaves the whole state as it was. -/
theorem failed_call_unchanged {op : MasterOp} {err : CacheError} (failed : s.result op = .error err) :
    op.apply s = s := by
  cases op with
  | setTenantQuota tenantId dramBytes ssdBytes =>
    rcases setTenantQuota_cases s tenantId dramBytes ssdBytes with ⟨_, he⟩ | he
    · rw [MasterOp.apply, he]
    · rw [result, he] at failed
      cases failed
  | mountSegment => cases failed
  | putStart tenant key len replicaCount =>
    rcases putStart_cases s tenant key len replicaCount with ⟨_, he⟩ | ⟨_, _, _, _, _, _, _, _, _, _, _, he⟩
    · rw [MasterOp.apply, he]
    · rw [result, he] at failed
      cases failed
  | putEnd tenant key =>
    rcases putEnd_cases s tenant key with ⟨_, he⟩ | ⟨_, _, _, he⟩
    · rw [MasterOp.apply, he]
    · rw [result, he] at failed
      cases failed
  | putRevoke tenant key =>
    rcases putRevoke_cases s tenant key with ⟨_, he⟩ | ⟨_, _, he⟩
    · rw [MasterOp.apply, he]
    · rw [result, he] at failed
      cases failed
  | getReplicaList tenant key nowMs =>
    rcases getReplicaList_cases s tenant key nowMs with he | ⟨_, _, _, _, _, _, he⟩
    · rw [MasterOp.apply, he]
    · rw [result, he] at failed
      cases failed
  | remove tenant key =>
    rcases remove_cases s tenant key with ⟨_, he⟩ | ⟨_, _, done, _, _⟩
    · rw [MasterOp.apply, he]
    · rw [result, done] at failed
      cases failed
  | evictForTenant tenant target nowMs order =>
    unfold result evictForTenant at failed
    dsimp only at failed
    split at failed <;> cases failed

private def halfMounted : MasterState :=
  ((new.setTenantQuota "tenant-a" 10 0).2.mountSegment "store-0" 4)

/-- A reservation within the quota that no segment has room for gives its quota back. -/
theorem unplaced_reservation_unchanged :
    (halfMounted.result (.putStart ⟨"tenant-a"⟩ ⟨"key"⟩ 8 1)).toBool = false ∧
      (MasterOp.putStart ⟨"tenant-a"⟩ ⟨"key"⟩ 8 1).apply halfMounted = halfMounted := by
  have failed : halfMounted.result (.putStart ⟨"tenant-a"⟩ ⟨"key"⟩ 8 1) =
      .error (.conflict "insufficient mounted segment capacity") := by decide
  exact ⟨by rw [failed]; rfl, failed_call_unchanged failed⟩

/-- The objects, the quota record and the leases of a tenant are the same. -/
structure SameRecords (tenant : TenantId) (s s' : MasterState) : Prop where
  objects : ∀ key, s'.objects.lookup (tenant, key) = s.objects.lookup (tenant, key)
  quota : s'.quotas.lookup tenant = s.quotas.lookup tenant
  leases : ∀ key, s'.leases.lookup (tenant, key) = s.leases.lookup (tenant, key)

theorem SameRecords.refl (tenant : TenantId) (s : MasterState) : SameRecords tenant s s :=
  ⟨fun _ => rfl, rfl, fun _ => rfl⟩

theorem SameRecords.trans {middle : MasterState} (h : SameRecords tenant s middle)
    (h' : SameRecords tenant middle s') : SameRecords tenant s s' :=
  ⟨fun key => (h'.objects key).trans (h.objects key), h'.quota.trans h.quota,
    fun key => (h'.leases key).trans (h.leases key)⟩

theorem releaseTenantQuota_lookup_of_ne {named : TenantId} (h : tenant ≠ named) (s : MasterState) (bytes : Nat) :
    (s.releaseTenantQuota named bytes).quotas.lookup tenant = s.quotas.lookup tenant := by
  rw [releaseTenantQuota_lookup]
  simp [h]

private theorem other_key {named : TenantId} (h : tenant ≠ named) (cacheKey key : CacheKey) :
    (tenant, cacheKey) ≠ (named, key) := fun same => h (congrArg Prod.fst same)

private theorem retire_sameRecords {key : ObjectKey} (h : tenant ≠ key.1) (s : MasterState)
    (object : CacheObjectMeta) (status : ObjectStatus) : SameRecords tenant s (s.retire key object status) where
  objects cacheKey := by rw [retire_objects, Finmap.lookup_insert_of_ne _ (other_key h cacheKey key.2)]
  quota := releaseTenantQuota_lookup_of_ne h _ _
  leases cacheKey := by
    rw [retire, Finmap.lookup_erase_ne (other_key h cacheKey key.2), releaseTenantQuota_frame]

private theorem evictCandidateKeys_sameRecords {named : TenantId} (h : tenant ≠ named) (target : Nat)
    (keys : List CacheKey) (reclaimed : Nat) (s : MasterState) :
    SameRecords tenant s (evictCandidateKeys named target keys reclaimed s).2 := by
  induction keys generalizing reclaimed s with
  | nil => exact .refl tenant s
  | cons key rest ih =>
    unfold evictCandidateKeys
    split
    · exact .refl tenant s
    · split
      · exact ih reclaimed s
      · rename_i object _
        have evicted : SameRecords tenant s (s.evictObject (named, key) object) :=
          ⟨(retire_sameRecords h s object .evicted).objects, (retire_sameRecords h s object .evicted).quota,
            (retire_sameRecords h s object .evicted).leases⟩
        exact evicted.trans (ih _ _)

/-- An operation leaves the records of the tenants it does not name. -/
theorem unnamed_sameRecords (s : MasterState) {op : MasterOp} (other : ¬ op.Names tenant) :
    SameRecords tenant s (op.apply s) := by
  cases op with
  | setTenantQuota tenantId dramBytes ssdBytes =>
    rcases setTenantQuota_cases s tenantId dramBytes ssdBytes with ⟨_, he⟩ | he <;> rw [MasterOp.apply, he]
    · exact .refl tenant s
    · have away : tenant ≠ ⟨tenantId⟩ := fun same => other (by rw [same]; rfl)
      exact ⟨fun _ => rfl, Finmap.lookup_insert_of_ne _ away, fun _ => rfl⟩
  | mountSegment => exact ⟨fun _ => rfl, rfl, fun _ => rfl⟩
  | putStart named key len replicaCount =>
    have away : tenant ≠ named := Ne.symm other
    rcases putStart_cases s named key len replicaCount with
      ⟨_, he⟩ | ⟨reserved, _, _, _, _, reserve, _, _, _, _, _, he⟩ <;> rw [MasterOp.apply, he]
    · exact .refl tenant s
    · have frame := reserveTenantQuota_frame reserve
      refine ⟨fun cacheKey => Finmap.lookup_insert_of_ne _ (other_key away cacheKey key), ?_, fun _ => by rw [frame]⟩
      rw [reserveTenantQuota_lookup reserve]
      simp [away]
  | putEnd named key =>
    have away : tenant ≠ named := Ne.symm other
    rcases putEnd_cases s named key with ⟨_, he⟩ | ⟨_, _, _, he⟩ <;> rw [MasterOp.apply, he]
    · exact .refl tenant s
    · exact ⟨fun cacheKey => Finmap.lookup_insert_of_ne _ (other_key away cacheKey key), rfl, fun _ => rfl⟩
  | putRevoke named key =>
    rcases putRevoke_cases s named key with ⟨_, he⟩ | ⟨object, _, he⟩ <;> rw [MasterOp.apply, he]
    · exact .refl tenant s
    · have away : tenant ≠ ((named, key) : ObjectKey).1 := Ne.symm other
      exact retire_sameRecords away s object .revoked
  | getReplicaList named key nowMs =>
    have away : tenant ≠ named := Ne.symm other
    simp only [MasterOp.apply, getReplicaList]
    split
    · exact .refl tenant s
    · split
      · exact .refl tenant s
      · exact ⟨fun _ => rfl, rfl, fun cacheKey => Finmap.lookup_insert_of_ne _ (other_key away cacheKey key)⟩
  | remove named key =>
    have away : tenant ≠ named := Ne.symm other
    simp only [MasterOp.apply, remove]
    split
    · exact .refl tenant s
    · refine ⟨fun cacheKey => ?_, releaseTenantQuota_lookup_of_ne away _ _, fun cacheKey => ?_⟩
      · rw [releaseTenantQuota_objects, Finmap.lookup_erase_ne (other_key away cacheKey key)]
      · rw [Finmap.lookup_erase_ne (other_key away cacheKey key), releaseTenantQuota_frame]
  | evictForTenant named target nowMs order =>
    have away : tenant ≠ named := Ne.symm other
    have first := evictCandidateKeys_sameRecords away target (s.candidates named nowMs .normal order) 0 s
    simp only [MasterOp.apply, evictForTenant]
    split
    · exact first.trans (evictCandidateKeys_sameRecords away _ _ 0 _)
    · exact first

end MasterState
end Mooncache
