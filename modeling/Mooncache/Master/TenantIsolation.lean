import Mooncache.Master.Effects

/-! Two masters that serve the same calls of one tenant, among arbitrary calls of others:
the tenant cannot tell them apart, but for where its replicas are and how leases are named. -/
namespace Mooncache

def ReplicaDescriptor.unplaced (replica : ReplicaDescriptor) : ReplicaDescriptor :=
  { replica with nodeId := "", offset := 0 }

def CacheObjectMeta.unplaced (object : CacheObjectMeta) : CacheObjectMeta :=
  { object with replicas := object.replicas.map ReplicaDescriptor.unplaced }

/-- A result without replica locations and lease ids. -/
def MasterResult.unplaced : MasterResult → MasterResult
  | done => done
  | reserved replicas => reserved (replicas.map ReplicaDescriptor.unplaced)
  | leased list => leased ⟨list.replicas.map ReplicaDescriptor.unplaced, { list.lease with leaseId := "" }⟩
  | reclaimed bytes => reclaimed bytes

namespace MasterOp

def reserves : MasterOp → Bool
  | putStart _ _ _ _ => true
  | _ => false

/-- The tenant's keys in the order in which the object map was enumerated. -/
def keysOf (tenant : TenantId) (order : List (Entry ObjectKey CacheObjectMeta)) : List ObjectKey :=
  (order.map (·.1)).filter (·.1 = tenant)

/-- The same call; an eviction sees the tenant's objects in the same order. -/
def Alike (tenant : TenantId) : MasterOp → MasterOp → Prop
  | evictForTenant named target nowMs order, op => ∃ order',
    op = evictForTenant named target nowMs order' ∧ keysOf tenant order' = keysOf tenant order
  | op, op' => op' = op

end MasterOp

/-- A call with its result. -/
abbrev MasterExchange := MasterOp × CacheResult MasterResult

def MasterExchange.Refused (exchange : MasterExchange) : Prop := ∃ err, exchange.2 = .error err

/-- The same call of the tenant; a reservation succeeds in both or in neither. -/
structure MasterExchange.SameCall (tenant : TenantId) (exchange exchange' : MasterExchange) : Prop where
  op : MasterOp.Alike tenant exchange.1 exchange'.1
  admitted : exchange.1.reserves = true → (exchange.Refused ↔ exchange'.Refused)

/-- The same result, locations and lease ids aside. A reservation may be refused for different reasons. -/
def MasterExchange.SameResult (exchange exchange' : MasterExchange) : Prop :=
  exchange'.2.map MasterResult.unplaced = exchange.2.map MasterResult.unplaced ∨
    exchange.1.reserves = true ∧ exchange.Refused ∧ exchange'.Refused

namespace MasterState
variable {s s' : MasterState} {tenant : TenantId}

/-- The exchanges of one tenant over a sequence of calls. -/
def exchanges (tenant : TenantId) : MasterState → List MasterOp → List MasterExchange
  | _, [] => []
  | s, op :: rest =>
    if op.Names tenant then (op, s.result op) :: exchanges tenant (op.apply s) rest
    else exchanges tenant (op.apply s) rest

/-- What the tenant can see of a master. -/
structure SameView (tenant : TenantId) (s s' : MasterState) : Prop where
  objects : ∀ key, (s'.objects.lookup (tenant, key)).map CacheObjectMeta.unplaced =
    (s.objects.lookup (tenant, key)).map CacheObjectMeta.unplaced
  quota : s'.quotas.lookup tenant = s.quotas.lookup tenant
  leases : ∀ key, (s'.leases.lookup (tenant, key)).map (·.expiresAtMs) =
    (s.leases.lookup (tenant, key)).map (·.expiresAtMs)

theorem SameRecords.sameView (h : SameRecords tenant s s') : SameView tenant s s' :=
  ⟨fun key => by rw [h.objects], h.quota, fun key => by rw [h.leases]⟩

namespace SameView

theorem refl (tenant : TenantId) (s : MasterState) : SameView tenant s s := (SameRecords.refl tenant s).sameView

theorem symm (h : SameView tenant s s') : SameView tenant s' s :=
  ⟨fun key => (h.objects key).symm, h.quota.symm, fun key => (h.leases key).symm⟩

theorem trans {middle : MasterState} (h : SameView tenant s middle) (h' : SameView tenant middle s') :
    SameView tenant s s' :=
  ⟨fun key => (h'.objects key).trans (h.objects key), h'.quota.trans h.quota,
    fun key => (h'.leases key).trans (h.leases key)⟩

/-- An object in one view is in the other, with replicas elsewhere. -/
theorem cases (h : SameView tenant s s') (key : CacheKey) :
    (s.objects.lookup (tenant, key) = none ∧ s'.objects.lookup (tenant, key) = none) ∨
    ∃ object object', s.objects.lookup (tenant, key) = some object ∧
      s'.objects.lookup (tenant, key) = some object' ∧ object'.unplaced = object.unplaced := by
  have same := h.objects key
  cases found : s.objects.lookup (tenant, key) with
  | none =>
    rw [found, Option.map_none, Option.map_eq_none_iff] at same
    exact .inl ⟨rfl, same⟩
  | some object =>
    rw [found, Option.map_some, Option.map_eq_some_iff] at same
    obtain ⟨object', found', alike⟩ := same
    exact .inr ⟨object, object', rfl, found', alike⟩

section
variable {object object' : CacheObjectMeta} {key : CacheKey}

theorem status_eq (alike : object'.unplaced = object.unplaced) : object'.status = object.status :=
  congrArg (·.status) alike

theorem reservedBytes_eq (alike : object'.unplaced = object.unplaced) :
    quotaReservedBytes object' = quotaReservedBytes object := by
  have same : quotaReservedBytes object'.unplaced = quotaReservedBytes object.unplaced := by rw [alike]
  exact same

theorem with_status (alike : object'.unplaced = object.unplaced) (status : ObjectStatus) :
    ({ object' with status := status } : CacheObjectMeta).unplaced =
      ({ object with status := status } : CacheObjectMeta).unplaced :=
  congrArg (fun seen : CacheObjectMeta => { seen with status := status }) alike

/-- Both masters put objects under a key that look the same. -/
theorem insert (h : SameView tenant s s') (alike : object'.unplaced = object.unplaced) (key : CacheKey) :
    SameView tenant { s with objects := s.objects.insert (tenant, key) object }
      { s' with objects := s'.objects.insert (tenant, key) object' } := by
  refine ⟨fun other => ?_, h.quota, h.leases⟩
  rcases eq_or_ne other key with rfl | hne
  · simp only [Finmap.lookup_insert, Option.map_some, alike]
  · have away : (tenant, other) ≠ (tenant, key) := fun same => hne (congrArg Prod.snd same)
    simp only [Finmap.lookup_insert_of_ne _ away, h.objects]

theorem erase (h : SameView tenant s s') (key : CacheKey) :
    SameView tenant { s with objects := s.objects.erase (tenant, key) }
      { s' with objects := s'.objects.erase (tenant, key) } := by
  refine ⟨fun other => ?_, h.quota, h.leases⟩
  rcases eq_or_ne other key with rfl | hne
  · simp only [Finmap.lookup_erase]
  · have away : (tenant, other) ≠ (tenant, key) := fun same => hne (congrArg Prod.snd same)
    simp only [Finmap.lookup_erase_ne away, h.objects]

theorem release (h : SameView tenant s s') (bytes : Nat) :
    SameView tenant (s.releaseTenantQuota tenant bytes) (s'.releaseTenantQuota tenant bytes) := by
  refine ⟨fun key => ?_, ?_, fun key => ?_⟩
  · rw [releaseTenantQuota_objects, releaseTenantQuota_objects, h.objects]
  · rw [releaseTenantQuota_lookup, releaseTenantQuota_lookup, h.quota]
  · rw [releaseTenantQuota_frame, releaseTenantQuota_frame s, h.leases]

theorem unlease (h : SameView tenant s s') (key : CacheKey) :
    SameView tenant { s with leases := s.leases.erase (tenant, key) }
      { s' with leases := s'.leases.erase (tenant, key) } := by
  refine ⟨h.objects, h.quota, fun other => ?_⟩
  rcases eq_or_ne other key with rfl | hne
  · simp only [Finmap.lookup_erase]
  · have away : (tenant, other) ≠ (tenant, key) := fun same => hne (congrArg Prod.snd same)
    simp only [Finmap.lookup_erase_ne away, h.leases]

theorem retire (h : SameView tenant s s') (alike : object'.unplaced = object.unplaced) (key : CacheKey)
    (status : ObjectStatus) :
    SameView tenant (s.retire (tenant, key) object status) (s'.retire (tenant, key) object' status) := by
  have released := (h.insert (with_status alike status) key).release (quotaReservedBytes object)
  rw [MasterState.retire, MasterState.retire, reservedBytes_eq alike]
  exact released.unlease key

theorem evict (h : SameView tenant s s') (alike : object'.unplaced = object.unplaced) (key : CacheKey) :
    SameView tenant (s.evictObject (tenant, key) object) (s'.evictObject (tenant, key) object') :=
  ⟨(h.retire alike key .evicted).objects, (h.retire alike key .evicted).quota, (h.retire alike key .evicted).leases⟩

end

/-- The eviction loop picks the same keys and reclaims the same bytes. -/
theorem evictCandidateKeys (target : Nat) (keys : List CacheKey) (reclaimed : Nat) (h : SameView tenant s s') :
    (MasterState.evictCandidateKeys tenant target keys reclaimed s').1 =
        (MasterState.evictCandidateKeys tenant target keys reclaimed s).1 ∧
      SameView tenant (MasterState.evictCandidateKeys tenant target keys reclaimed s).2
        (MasterState.evictCandidateKeys tenant target keys reclaimed s').2 := by
  induction keys generalizing reclaimed s s' with
  | nil => exact ⟨rfl, h⟩
  | cons key rest ih =>
    unfold MasterState.evictCandidateKeys
    split
    · exact ⟨rfl, h⟩
    · rcases h.cases key with ⟨absent, absent'⟩ | ⟨object, object', found, found', alike⟩
      · simp only [absent, absent']
        exact ih reclaimed h
      · simp only [found, found', reservedBytes_eq alike]
        exact ih _ (h.evict alike key)

end SameView

/-- The class of the object under a key. -/
def keyClass (s : MasterState) (nowMs : Nat) (key : ObjectKey) : Option EvictionCandidateClass :=
  (s.objects.lookup key).bind fun object => candidateClass object (hasActiveLease s.leases key nowMs) nowMs

/-- The candidates of a class, from the tenant's keys in the order of the map. -/
theorem candidates_eq {order : List (Entry ObjectKey CacheObjectMeta)} (enumerated : (order : Multiset _) = s.objects.entries)
    (tenant : TenantId) (nowMs : Nat) (cls : EvictionCandidateClass) :
    s.candidates tenant nowMs cls order =
      ((MasterOp.keysOf tenant order).filter (s.keyClass nowMs · = some cls)).map (·.2) := by
  have held : ∀ entry ∈ order, s.objects.lookup entry.1 = some entry.2 := fun entry member => by
    rw [Finmap.lookup_eq_some_iff, ← enumerated]
    exact member
  clear enumerated
  induction order with
  | nil => rfl
  | cons entry rest ih =>
    have tail := ih fun other member => held other (List.mem_cons_of_mem _ member)
    have here : s.keyClass nowMs entry.1 = candidateClass entry.2 (hasActiveLease s.leases entry.1 nowMs) nowMs := by
      rw [keyClass, held entry List.mem_cons_self, Option.bind_some]
    simp only [candidates, MasterOp.keysOf] at tail ⊢
    by_cases mine : entry.1.1 = tenant
    · by_cases chosen : candidateClass entry.2 (hasActiveLease s.leases entry.1 nowMs) nowMs = some cls
      · simp [mine, here, chosen, tail]
      · simp [mine, here, chosen, tail]
    · simp [mine, tail]

theorem SameView.keyClass_eq (h : SameView tenant s s') (nowMs : Nat) (key : CacheKey) :
    s'.keyClass nowMs (tenant, key) = s.keyClass nowMs (tenant, key) := by
  have active : hasActiveLease s'.leases (tenant, key) nowMs = hasActiveLease s.leases (tenant, key) nowMs := by
    have same := h.leases key
    unfold hasActiveLease
    cases here : s.leases.lookup (tenant, key) <;> cases there : s'.leases.lookup (tenant, key) <;>
      simp_all
  rcases h.cases key with ⟨absent, absent'⟩ | ⟨object, object', found, found', alike⟩
  · simp [keyClass, absent, absent']
  · have same : candidateClass object'.unplaced = candidateClass object.unplaced := by rw [alike]
    simp only [keyClass, found, found', active, Option.bind_some]
    exact congrFun (congrFun same _) nowMs

theorem SameView.liveBytes_eq (h : SameView tenant s s') (keyed : s.Keyed) (keyed' : s'.Keyed) :
    s'.liveBytes tenant = s.liveBytes tenant := by
  refine Table.total_congr fun key => ?_
  obtain ⟨named, cacheKey⟩ := key
  rcases eq_or_ne named tenant with rfl | hne
  · rcases h.cases cacheKey with ⟨absent, absent'⟩ | ⟨object, object', found, found', alike⟩
    · rw [absent, absent']
    · have same : tenantBytes named object'.unplaced = tenantBytes named object.unplaced := by rw [alike]
      rw [found, found']
      exact same
  · have weightless {m : MasterState} (keyed : m.Keyed) :
        (m.objects.lookup (named, cacheKey)).elim 0 (fun object => tenantBytes tenant object) = 0 := by
      cases found : m.objects.lookup (named, cacheKey) with
      | none => rfl
      | some object =>
        have owner : object.tenantId = named := congrArg Prod.fst (keyed _ _ found)
        simp [tenantBytes, owner, hne]
    rw [weightless keyed, weightless keyed']

theorem putStart_unplaced {key : CacheKey} {len replicaCount : Nat} {replicas : List ReplicaDescriptor}
    (started : (s.putStart tenant key len replicaCount).1 = .ok replicas) :
    replicas.map ReplicaDescriptor.unplaced = List.replicate replicaCount ⟨"", 0, len⟩ := by
  rcases putStart_cases s tenant key len replicaCount with
    ⟨err, he⟩ | ⟨_, allocations, _, indexes, _, _, _, _, _, count, spec, he⟩
  · rw [he] at started
    cases started
  · rw [he] at started
    cases started
    rw [List.eq_replicate_iff, List.length_map, List.length_map, ← spec.extents.length_eq]
    refine ⟨count, fun replica member => ?_⟩
    obtain ⟨_, placed, rfl⟩ := List.mem_map.mp member
    obtain ⟨allocation, taken, rfl⟩ := List.mem_map.mp placed
    obtain ⟨i, bound, rfl⟩ := List.getElem_of_mem taken
    obtain ⟨_, _, _, _, _, extent⟩ := spec.extent_at (List.getElem?_eq_getElem bound)
    rw [extent]
    rfl

open MasterExchange (SameCall SameResult Refused)

section
variable {key : CacheKey}

private theorem SameView.setTenantQuota (h : SameView tenant s s') (keyed : s.Keyed) (keyed' : s'.Keyed)
    (dramBytes ssdBytes : Nat) :
    (s'.setTenantQuota tenant.value dramBytes ssdBytes).1 = (s.setTenantQuota tenant.value dramBytes ssdBytes).1 ∧
      SameView tenant (s.setTenantQuota tenant.value dramBytes ssdBytes).2
        (s'.setTenantQuota tenant.value dramBytes ssdBytes).2 := by
  unfold MasterState.setTenantQuota
  cases parsed : TenantId.parse tenant.value with
  | error err => exact ⟨rfl, h⟩
  | ok named =>
    cases TenantId.parse_eq_ok parsed
    have used (m : MasterState) : Table.saturatingTotal (fun _ object => tenantBytes ⟨tenant.value⟩ object) m.objects =
        min (m.liveBytes tenant) wordMax := Table.saturatingTotal_eq _ _
    refine ⟨rfl, h.objects, ?_, h.leases⟩
    simp only [used, h.liveBytes_eq keyed keyed', Finmap.lookup_insert]

private theorem SameView.putStart (h : SameView tenant s s') {len replicaCount : Nat}
    {replicas replicas' : List ReplicaDescriptor} (started : (s.putStart tenant key len replicaCount).1 = .ok replicas)
    (started' : (s'.putStart tenant key len replicaCount).1 = .ok replicas') :
    SameView tenant (s.putStart tenant key len replicaCount).2 (s'.putStart tenant key len replicaCount).2 := by
  have places := putStart_unplaced started
  have places' := putStart_unplaced started'
  rcases putStart_cases s tenant key len replicaCount with
    ⟨err, he⟩ | ⟨reserved, allocations, _, _, _, reserve, _, _, _, _, _, he⟩
  · rw [he] at started
    cases started
  rcases putStart_cases s' tenant key len replicaCount with
    ⟨err, he'⟩ | ⟨reserved', allocations', _, _, _, reserve', _, _, _, _, _, he'⟩
  · rw [he'] at started'
    cases started'
  rw [he] at started ⊢
  rw [he'] at started' ⊢
  cases started
  cases started'
  have seen : (⟨tenant, key, len, .reserving, allocations'.map replicaOf, false, none⟩ : CacheObjectMeta).unplaced =
      (⟨tenant, key, len, .reserving, allocations.map replicaOf, false, none⟩ : CacheObjectMeta).unplaced := by
    simp only [CacheObjectMeta.unplaced, places, places']
  refine ⟨(h.insert seen key).objects, ?_, ?_⟩
  · simp only [reserveTenantQuota_lookup reserve, reserveTenantQuota_lookup reserve', h.quota]
  · rw [reserveTenantQuota_frame reserve, reserveTenantQuota_frame reserve']
    exact h.leases

private theorem putStart_refused {len replicaCount : Nat} {err : CacheError}
    (refused : (s.putStart tenant key len replicaCount).1 = .error err) :
    (s.putStart tenant key len replicaCount).2 = s := by
  rcases putStart_cases s tenant key len replicaCount with ⟨_, he⟩ | ⟨_, _, _, _, _, _, _, _, _, _, _, he⟩
  · rw [he]
  · rw [he] at refused
    cases refused

private theorem SameView.getReplicaList (h : SameView tenant s s') (key : CacheKey) (nowMs : Nat) :
    ((s'.getReplicaList tenant key nowMs).1.map .leased).map MasterResult.unplaced =
        ((s.getReplicaList tenant key nowMs).1.map .leased).map MasterResult.unplaced ∧
      SameView tenant (s.getReplicaList tenant key nowMs).2 (s'.getReplicaList tenant key nowMs).2 := by
  unfold MasterState.getReplicaList
  rcases h.cases key with ⟨absent, absent'⟩ | ⟨object, object', found, found', seen⟩
  · simp only [absent, absent']
    exact ⟨trivial, h⟩
  · simp only [found, found', status_eq seen]
    by_cases committed : object.status = .committed
    · have replicas : object'.replicas.map ReplicaDescriptor.unplaced = object.replicas.map ReplicaDescriptor.unplaced :=
        congrArg (·.replicas) seen
      simp only [ne_eq, committed, not_true_eq_false, ↓reduceIte]
      refine ⟨?_, h.objects, h.quota, fun other => ?_⟩
      · simp only [Except.map, MasterResult.unplaced, replicas, Lease.newAt]
      · rcases eq_or_ne other key with rfl | hne
        · simp only [Finmap.lookup_insert, Option.map_some, Lease.newAt]
        · have away : (tenant, other) ≠ (tenant, key) := fun same => hne (congrArg Prod.snd same)
          simp only [Finmap.lookup_insert_of_ne _ away, h.leases]
    · simp only [ne_eq, committed, not_false_eq_true, ↓reduceIte]
      exact ⟨trivial, h⟩

private theorem SameView.evictForTenant (h : SameView tenant s s') (target nowMs : Nat)
    {order order' : List (Entry ObjectKey CacheObjectMeta)} (enumerated : (order : Multiset _) = s.objects.entries)
    (enumerated' : (order' : Multiset _) = s'.objects.entries)
    (shown : MasterOp.keysOf tenant order' = MasterOp.keysOf tenant order) :
    (s'.evictForTenant tenant target nowMs order').1 = (s.evictForTenant tenant target nowMs order).1 ∧
      SameView tenant (s.evictForTenant tenant target nowMs order).2 (s'.evictForTenant tenant target nowMs order').2 := by
  have same (cls : EvictionCandidateClass) :
      s'.candidates tenant nowMs cls order' = s.candidates tenant nowMs cls order := by
    rw [candidates_eq enumerated, candidates_eq enumerated', shown]
    refine congrArg (List.map Prod.snd) (List.filter_congr fun key member => ?_)
    obtain ⟨owner, cacheKey⟩ := key
    cases (show owner = tenant by simpa using (List.mem_filter.mp member).2)
    rw [h.keyClass_eq]
  obtain ⟨first, between⟩ := SameView.evictCandidateKeys target (s.candidates tenant nowMs .normal order) 0 h
  simp only [MasterState.evictForTenant, same, first]
  split
  · obtain ⟨second, final⟩ := SameView.evictCandidateKeys
      (target - (MasterState.evictCandidateKeys tenant target (s.candidates tenant nowMs .normal order) 0 s).1)
      (s.candidates tenant nowMs .softPinned order) 0 between
    exact ⟨by rw [second], final⟩
  · exact ⟨rfl, between⟩

end

/-- Both masters refuse the reservation or both grant it. -/
private theorem SameView.start (h : SameView tenant s s') {key : CacheKey} {len replicaCount : Nat}
    (admitted : Refused (.putStart tenant key len replicaCount, s.result (.putStart tenant key len replicaCount)) ↔
      Refused (.putStart tenant key len replicaCount, s'.result (.putStart tenant key len replicaCount))) :
    SameResult (.putStart tenant key len replicaCount, s.result (.putStart tenant key len replicaCount))
        (.putStart tenant key len replicaCount, s'.result (.putStart tenant key len replicaCount)) ∧
      SameView tenant (s.putStart tenant key len replicaCount).2 (s'.putStart tenant key len replicaCount).2 := by
  cases started : (s.putStart tenant key len replicaCount).1 with
  | error err =>
    have refused : s.result (.putStart tenant key len replicaCount) = .error err := by
      simp only [result, started, Except.map]
    have both := admitted.mp ⟨err, refused⟩
    cases started' : (s'.putStart tenant key len replicaCount).1 with
    | error err' =>
      refine ⟨.inr ⟨rfl, ⟨err, refused⟩, both⟩, ?_⟩
      rw [putStart_refused started, putStart_refused started']
      exact h
    | ok replicas =>
      obtain ⟨_, refused'⟩ := both
      simp only [result, started', Except.map, reduceCtorEq] at refused'
  | ok replicas =>
    cases started' : (s'.putStart tenant key len replicaCount).1 with
    | error err =>
      obtain ⟨_, refused⟩ := admitted.mpr ⟨err, by simp only [result, started', Except.map]⟩
      simp only [result, started, Except.map, reduceCtorEq] at refused
    | ok replicas' =>
      refine ⟨.inl ?_, h.putStart started started'⟩
      simp only [result, started, started', Except.map, MasterResult.unplaced, putStart_unplaced started,
        putStart_unplaced started']

private theorem SameView.putEnd (h : SameView tenant s s') (key : CacheKey) :
    (s'.putEnd tenant key).1 = (s.putEnd tenant key).1 ∧
      SameView tenant (s.putEnd tenant key).2 (s'.putEnd tenant key).2 := by
  unfold MasterState.putEnd
  rcases h.cases key with ⟨absent, absent'⟩ | ⟨object, object', found, found', seen⟩
  · simp only [absent, absent']
    exact ⟨trivial, h⟩
  · simp only [found, found', status_eq seen]
    split
    · exact ⟨rfl, h.insert (with_status seen .committed) key⟩
    · exact ⟨rfl, h.insert (with_status seen .committed) key⟩
    · exact ⟨rfl, h⟩
    · exact ⟨rfl, h⟩
    · exact ⟨rfl, h⟩

private theorem SameView.putRevoke (h : SameView tenant s s') (key : CacheKey) :
    (s'.putRevoke tenant key).1 = (s.putRevoke tenant key).1 ∧
      SameView tenant (s.putRevoke tenant key).2 (s'.putRevoke tenant key).2 := by
  unfold MasterState.putRevoke
  rcases h.cases key with ⟨absent, absent'⟩ | ⟨object, object', found, found', seen⟩
  · simp only [absent, absent']
    exact ⟨trivial, h⟩
  · simp only [found, found']
    exact ⟨trivial, h.retire seen key .revoked⟩

private theorem SameView.remove (h : SameView tenant s s') (key : CacheKey) :
    (s'.remove tenant key).1 = (s.remove tenant key).1 ∧
      SameView tenant (s.remove tenant key).2 (s'.remove tenant key).2 := by
  unfold MasterState.remove
  rcases h.cases key with ⟨absent, absent'⟩ | ⟨object, object', found, found', seen⟩
  · simp only [absent, absent']
    exact ⟨trivial, h⟩
  · simp only [found, found', reservedBytes_eq seen]
    exact ⟨trivial, ((h.erase key).release (quotaReservedBytes object)).unlease key⟩

/-- The same call of the tenant, made to two masters it cannot tell apart. -/
theorem SameView.call (h : SameView tenant s s') (keyed : s.Keyed) (keyed' : s'.Keyed) {op op' : MasterOp}
    (enabled : op.Enabled s) (enabled' : op'.Enabled s') (mine : op.Names tenant)
    (same : SameCall tenant (op, s.result op) (op', s'.result op')) :
    SameResult (op, s.result op) (op', s'.result op') ∧ SameView tenant (op.apply s) (op'.apply s') := by
  obtain ⟨alike, admitted⟩ := same
  cases op with
  | setTenantQuota tenantId dramBytes ssdBytes =>
    cases alike
    cases mine
    obtain ⟨answer, final⟩ := h.setTenantQuota keyed keyed' dramBytes ssdBytes
    exact ⟨.inl (by simp only [result, answer]), final⟩
  | mountSegment => exact mine.elim
  | putStart named key len replicaCount =>
    cases alike
    cases mine
    exact h.start (admitted rfl)
  | putEnd named key =>
    cases alike
    cases mine
    obtain ⟨answer, final⟩ := h.putEnd key
    exact ⟨.inl (by simp only [result, answer]), final⟩
  | putRevoke named key =>
    cases alike
    cases mine
    obtain ⟨answer, final⟩ := h.putRevoke key
    exact ⟨.inl (by simp only [result, answer]), final⟩
  | getReplicaList named key nowMs =>
    cases alike
    cases mine
    obtain ⟨answer, final⟩ := h.getReplicaList key nowMs
    exact ⟨.inl answer, final⟩
  | remove named key =>
    cases alike
    cases mine
    obtain ⟨answer, final⟩ := h.remove key
    exact ⟨.inl (by simp only [result, answer]), final⟩
  | evictForTenant named target nowMs order =>
    obtain ⟨order', rfl, shown⟩ := alike
    cases mine
    obtain ⟨answer, final⟩ := h.evictForTenant target nowMs enabled.2 enabled'.2 shown
    exact ⟨.inl (by simp only [result, answer]), final⟩

/-- After calls that do not name the tenant, the first one that does. -/
private theorem exchanges_eq_cons {trace : List MasterOp} {exchange : MasterExchange} {rest : List MasterExchange}
    (keyed : s.Keyed) (allowed : Run.Allowed MasterOp.Enabled MasterOp.apply s trace)
    (made : s.exchanges tenant trace = exchange :: rest) :
    ∃ middle op later, SameView tenant s middle ∧ middle.Keyed ∧ op.Enabled middle ∧ op.Names tenant ∧
      exchange = (op, middle.result op) ∧ rest = (op.apply middle).exchanges tenant later ∧
      Run.Allowed MasterOp.Enabled MasterOp.apply (op.apply middle) later ∧
      trace.foldl MasterOp.apply s = later.foldl MasterOp.apply (op.apply middle) := by
  induction trace generalizing s with
  | nil => cases made
  | cons op trace ih =>
    by_cases mine : op.Names tenant
    · simp only [exchanges, if_pos mine, List.cons.injEq] at made
      exact ⟨s, op, trace, .refl tenant s, keyed, allowed.1, mine, made.1.symm, made.2.symm, allowed.2, rfl⟩
    · simp only [exchanges, if_neg mine] at made
      obtain ⟨middle, next, later, seen, found⟩ := ih (apply_keyed keyed op) allowed.2 made
      exact ⟨middle, next, later, (unnamed_sameRecords s mine).sameView.trans seen, found⟩

private theorem exchanges_eq_nil {trace : List MasterOp} (none : s.exchanges tenant trace = []) :
    SameView tenant s (trace.foldl MasterOp.apply s) := by
  induction trace generalizing s with
  | nil => exact .refl tenant s
  | cons op trace ih =>
    by_cases mine : op.Names tenant
    · simp [exchanges, if_pos mine] at none
    · simp only [exchanges, if_neg mine] at none
      exact (unnamed_sameRecords s mine).sameView.trans (ih none)

/-- Two masters the tenant cannot tell apart stay so while they serve the same calls of it. -/
theorem SameView.calls {trace trace' : List MasterOp} (h : SameView tenant s s') (keyed : s.Keyed) (keyed' : s'.Keyed)
    (allowed : Run.Allowed MasterOp.Enabled MasterOp.apply s trace)
    (allowed' : Run.Allowed MasterOp.Enabled MasterOp.apply s' trace')
    (same : List.Forall₂ (SameCall tenant) (s.exchanges tenant trace) (s'.exchanges tenant trace')) :
    List.Forall₂ SameResult (s.exchanges tenant trace) (s'.exchanges tenant trace') ∧
      SameView tenant (trace.foldl MasterOp.apply s) (trace'.foldl MasterOp.apply s') := by
  generalize made : s.exchanges tenant trace = calls at same ⊢
  generalize made' : s'.exchanges tenant trace' = calls' at same ⊢
  induction same generalizing s s' trace trace' with
  | nil => exact ⟨.nil, (exchanges_eq_nil made).symm.trans (h.trans (exchanges_eq_nil made'))⟩
  | cons first _ ih =>
    obtain ⟨middle, op, later, seen, keyed, enabled, mine, rfl, rfl, allowed, final⟩ :=
      exchanges_eq_cons keyed allowed made
    obtain ⟨middle', op', later', seen', keyed', enabled', _, rfl, rfl, allowed', final'⟩ :=
      exchanges_eq_cons keyed' allowed' made'
    obtain ⟨result, next⟩ := (seen.symm.trans (h.trans seen')).call keyed keyed' enabled enabled' mine first
    obtain ⟨results, view⟩ := ih next (apply_keyed keyed op) (apply_keyed keyed' op') allowed allowed' rfl rfl
    rw [final, final']
    exact ⟨.cons result results, view⟩

/-- A tenant's records stay the same under operations of others, and in two runs that make the
same calls of the tenant it sees the same, whatever the calls of others between them. -/
theorem tenant_noninterference (tenant : TenantId) :
    (∀ trace s, Run Step new trace s → ∀ op : MasterOp, ¬ op.Names tenant → SameRecords tenant s (op.apply s)) ∧
    ∀ trace trace' s s', Run Step new trace s → Run Step new trace' s' →
      List.Forall₂ (SameCall tenant) (new.exchanges tenant trace) (new.exchanges tenant trace') →
      List.Forall₂ SameResult (new.exchanges tenant trace) (new.exchanges tenant trace') ∧ SameView tenant s s' := by
  refine ⟨fun trace s _ op other => unnamed_sameRecords s other, fun trace trace' s s' run run' same => ?_⟩
  have replay : Run.Allowed MasterOp.Enabled MasterOp.apply new trace ∧ s = trace.foldl MasterOp.apply new :=
    run.replayed id
  have replay' : Run.Allowed MasterOp.Enabled MasterOp.apply new trace' ∧ s' = trace'.foldl MasterOp.apply new :=
    run'.replayed id
  rw [replay.2, replay'.2]
  exact (SameView.refl tenant new).calls new_keyed new_keyed replay.1 replay'.1 same

private def alone : List MasterOp := [.mountSegment "store-0" 16, .putStart ⟨"tenant-a"⟩ ⟨"key"⟩ 4 1]

private def amongOthers : List MasterOp :=
  [.mountSegment "store-0" 16, .putStart ⟨"tenant-b"⟩ ⟨"key"⟩ 8 1, .putStart ⟨"tenant-a"⟩ ⟨"key"⟩ 4 1]

private theorem alone_run : Run Step new alone (alone.foldl MasterOp.apply new) :=
  (Run.start.snoc ⟨by decide, rfl⟩).snoc ⟨by decide, rfl⟩

private theorem amongOthers_run : Run Step new amongOthers (amongOthers.foldl MasterOp.apply new) :=
  ((Run.start.snoc ⟨by decide, rfl⟩).snoc ⟨by decide, rfl⟩).snoc ⟨by decide, rfl⟩

/-- A reservation beside another tenant's is placed elsewhere and looks the same. -/
theorem reservation_unaffected_by_other_tenant :
    new.exchanges ⟨"tenant-a"⟩ alone =
        [(.putStart ⟨"tenant-a"⟩ ⟨"key"⟩ 4 1, .ok (.reserved [⟨"store-0", 0, 4⟩]))] ∧
      new.exchanges ⟨"tenant-a"⟩ amongOthers =
        [(.putStart ⟨"tenant-a"⟩ ⟨"key"⟩ 4 1, .ok (.reserved [⟨"store-0", 8, 4⟩]))] ∧
      SameView ⟨"tenant-a"⟩ (alone.foldl MasterOp.apply new) (amongOthers.foldl MasterOp.apply new) := by
  have first : new.exchanges ⟨"tenant-a"⟩ alone =
    [(.putStart ⟨"tenant-a"⟩ ⟨"key"⟩ 4 1, .ok (.reserved [⟨"store-0", 0, 4⟩]))] := by rfl
  have second : new.exchanges ⟨"tenant-a"⟩ amongOthers =
    [(.putStart ⟨"tenant-a"⟩ ⟨"key"⟩ 4 1, .ok (.reserved [⟨"store-0", 8, 4⟩]))] := by rfl
  refine ⟨first, second, ((tenant_noninterference ⟨"tenant-a"⟩).2 _ _ _ _ alone_run amongOthers_run ?_).2⟩
  rw [first, second]
  exact .cons ⟨rfl, fun _ => iff_of_false nofun nofun⟩ .nil

end MasterState
end Mooncache
