import Mooncache.Master.Snapshot

/-! Quota accounting over the whole life of a master, restarts included: the used
bytes of a quota record are the exact total of the tenant's live objects. -/
namespace Mooncache
namespace MasterState

/-- The exact sum of the lengths of a tenant's live objects. -/
def liveBytes (s : MasterState) (tenant : TenantId) : Nat :=
  Table.total (fun _ object => tenantBytes tenant object) s.objects

/-- A record of the tenant counts its live objects exactly. -/
def ExactFor (tenant : TenantId) (s : MasterState) : Prop :=
  ∀ quota, s.quotas.lookup tenant = some quota → quota.usedDramBytes = s.liveBytes tenant

structure Accounted (s : MasterState) : Prop where
  keyed : s.Keyed
  exact : ∀ tenant quota, s.quotas.lookup tenant = some quota → quota.usedDramBytes = s.liveBytes tenant

/-- One call of `release_tenant_quota`: the state it finds and its arguments. -/
structure Release where
  found : MasterState
  tenant : TenantId
  bytes : Nat

/-- The saturating subtraction of this release stops at zero. -/
def Release.Clamps (release : Release) : Prop :=
  ∃ quota, release.found.quotas.lookup release.tenant = some quota ∧ quota.usedDramBytes < release.bytes

/-- The release made by `retire`. -/
def retireRelease (s : MasterState) (key : ObjectKey) (object : CacheObjectMeta) (status : ObjectStatus) :
    Release :=
  ⟨{ s with objects := s.objects.insert key { object with status := status } }, key.1,
    quotaReservedBytes object⟩

/-- The releases of the loop of `evict_candidate_keys`. -/
def evictReleases (tenant : TenantId) (target : Nat) : List CacheKey → Nat → MasterState → List Release
  | [], _, _ => []
  | key :: rest, reclaimed, s =>
    if reclaimed ≥ target then []
    else match s.objects.lookup (tenant, key) with
      | none => evictReleases tenant target rest reclaimed s
      | some object =>
        s.retireRelease (tenant, key) object .evicted ::
          evictReleases tenant target rest (saturatingAdd reclaimed (quotaReservedBytes object))
            (s.evictObject (tenant, key) object)

/-- Every release an operation makes, in order. -/
def releases (s : MasterState) : MasterOp → List Release
  | .putStart tenant key len replicaCount =>
    match s.objects.lookup (tenant, key), s.reserveTenantQuota tenant len with
    | none, .ok reserved =>
      match reserved.allocator.allocate len replicaCount with
      | (.error _, allocator) => [⟨{ reserved with allocator }, tenant, len⟩]
      | (.ok _, _) => []
    | _, _ => []
  | .putRevoke tenant key =>
    match s.objects.lookup (tenant, key) with
    | none => []
    | some object => [s.retireRelease (tenant, key) object .revoked]
  | .remove tenant key =>
    match s.objects.lookup (tenant, key) with
    | none => []
    | some object =>
      [⟨{ s with objects := s.objects.erase (tenant, key) }, tenant, quotaReservedBytes object⟩]
  | .evictForTenant tenant target nowMs order =>
    let (reclaimed, after) :=
      evictCandidateKeys tenant target (s.candidates tenant nowMs .normal order) 0 s
    evictReleases tenant target (s.candidates tenant nowMs .normal order) 0 s ++
      if reclaimed < target then
        evictReleases tenant (target - reclaimed) (s.candidates tenant nowMs .softPinned order) 0 after
      else []
  | _ => []

/-- A call to an operation, or a restart from a snapshot of the current state. -/
inductive LifeEvent where
  | op (op : MasterOp)
  | restore (objects : List (Entry ObjectKey CacheObjectMeta)) (quotas : List (Entry TenantId TenantQuota))

def LifeStep (s : MasterState) : LifeEvent → MasterState → Prop
  | .op op, s' => Step s op s'
  | .restore objects quotas, s' => s.Enumerates objects quotas ∧ s' = s.restored objects quotas

/-- Where a quota is set, the usage it recomputes fits a word. -/
def UsageFits (s : MasterState) : LifeEvent → Prop
  | .op (.setTenantQuota tenantId _ _) => ∀ tenant, TenantId.parse tenantId = .ok tenant →
    s.liveBytes tenant ≤ wordMax
  | _ => True

theorem new_accounted : new.Accounted where
  keyed := new_keyed
  exact tenant quota h := by simp [new] at h

theorem reserveTenantQuota_lookup {s reserved : MasterState} {tenant : TenantId} {bytes : Nat}
    (h : s.reserveTenantQuota tenant bytes = .ok reserved) (other : TenantId) :
    reserved.quotas.lookup other = (s.quotas.lookup other).map fun quota =>
      if other = tenant then { quota with usedDramBytes := quota.usedDramBytes + bytes } else quota := by
  obtain ⟨hn, rfl⟩ | ⟨quota, hq, _, _, rfl⟩ := reserveTenantQuota_cases h
  · rcases eq_or_ne other tenant with rfl | hne
    · simp [hn]
    · simp [hne]
  · rcases eq_or_ne other tenant with rfl | hne
    · simp [hq]
    · simp [hne]

theorem releaseTenantQuota_lookup (s : MasterState) (tenant : TenantId) (bytes : Nat) (other : TenantId) :
    (s.releaseTenantQuota tenant bytes).quotas.lookup other = (s.quotas.lookup other).map fun quota =>
      if other = tenant then quota.releaseDram bytes else quota := by
  unfold releaseTenantQuota
  split
  · rename_i hn
    rcases eq_or_ne other tenant with rfl | hne
    · simp [hn]
    · simp [hne]
  · rename_i quota hq
    rcases eq_or_ne other tenant with rfl | hne
    · simp [hq]
    · simp [hne]

/-- The bytes a stored object counts for each tenant are at most that tenant's live bytes. -/
theorem tenantBytes_le_liveBytes {s : MasterState} {key : ObjectKey} {object : CacheObjectMeta}
    (h : s.objects.lookup key = some object) (tenant : TenantId) :
    tenantBytes tenant object ≤ s.liveBytes tenant :=
  Table.weight_le_total (fun _ object => tenantBytes tenant object) h

theorem liveBytes_insert {s s' : MasterState} {key : ObjectKey} {object next : CacheObjectMeta}
    (h : s.objects.lookup key = some object) (hs : s'.objects = s.objects.insert key next)
    (tenant : TenantId) :
    s'.liveBytes tenant + tenantBytes tenant object = s.liveBytes tenant + tenantBytes tenant next := by
  simp only [liveBytes, hs]
  have held := Table.total_of_lookup (fun _ object => tenantBytes tenant object) h
  rw [Table.total_insert]
  omega

theorem liveBytes_insert_of_absent {s s' : MasterState} {key : ObjectKey} {next : CacheObjectMeta}
    (h : s.objects.lookup key = none) (hs : s'.objects = s.objects.insert key next) (tenant : TenantId) :
    s'.liveBytes tenant = tenantBytes tenant next + s.liveBytes tenant := by
  simp only [liveBytes, hs]
  exact Table.total_insert_of_absent _ next h

theorem liveBytes_erase {s s' : MasterState} {key : ObjectKey} {object : CacheObjectMeta}
    (h : s.objects.lookup key = some object) (hs : s'.objects = s.objects.erase key) (tenant : TenantId) :
    s.liveBytes tenant = tenantBytes tenant object + s'.liveBytes tenant := by
  simp only [liveBytes, hs]
  exact Table.total_of_lookup _ h

theorem tenantBytes_dead {object : CacheObjectMeta} {status : ObjectStatus} (h : status.live = false)
    (tenant : TenantId) : tenantBytes tenant { object with status := status } = 0 := by
  simp only [tenantBytes, quotaReservedBytes_dead h, ite_self]

/-- A record that gives back exactly what one of its live objects held stays exact. -/
private theorem released_exact {s : MasterState} (taken : MasterState) {tenant : TenantId} (keyed : s.Keyed)
    (h : s.ExactFor tenant) {key : ObjectKey} {object : CacheObjectMeta} (hl : s.objects.lookup key = some object)
    (hq : taken.quotas = s.quotas)
    (hb : s.liveBytes tenant = tenantBytes tenant object + taken.liveBytes tenant) (quota : TenantQuota)
    (hf : (taken.releaseTenantQuota key.1 (quotaReservedBytes object)).quotas.lookup tenant = some quota) :
    quota.usedDramBytes = taken.liveBytes tenant := by
  have own : object.tenantId = key.1 := congrArg Prod.fst (keyed _ _ hl)
  rw [releaseTenantQuota_lookup, hq] at hf
  obtain ⟨found, hq, rfl⟩ := Option.map_eq_some_iff.mp hf
  have used := h found hq
  rcases eq_or_ne tenant key.1 with rfl | hne
  · simp only [↓reduceIte, TenantQuota.releaseDram, tenantBytes, own] at hb ⊢
    omega
  · simp only [hne, ↓reduceIte, tenantBytes, own, hne.symm] at hb ⊢
    omega

theorem Change.exactFor {s s' : MasterState} (change : Change s s') (keyed : s.Keyed) {tenant : TenantId}
    (h : s.ExactFor tenant) : s'.ExactFor tenant := by
  cases change with
  | bookkeeping => exact h
  | @reserve reserved key len allocations after indexes hl hr =>
    intro quota hq
    rw [liveBytes_insert_of_absent hl rfl]
    rw [reserveTenantQuota_lookup hr] at hq
    obtain ⟨found, hf, rfl⟩ := Option.map_eq_some_iff.mp hq
    have used := h found hf
    rcases eq_or_ne tenant key.1 with rfl | hne
    · simp [tenantBytes, quotaReservedBytes, ObjectStatus.live, used, Nat.add_comm]
    · simp [tenantBytes, hne, hne.symm, used]
  | @commit key object hl hs =>
    intro quota hq
    have same : tenantBytes tenant { object with status := .committed } = tenantBytes tenant object := by
      rcases hs with hs | hs <;> simp [tenantBytes, quotaReservedBytes, ObjectStatus.live, hs]
    let committed : MasterState := { s with
      objects := s.objects.insert key { object with status := .committed } }
    have bytes : committed.liveBytes tenant + _ = _ := liveBytes_insert hl rfl tenant
    have used := h quota hq
    change quota.usedDramBytes = committed.liveBytes tenant
    omega
  | @retire key object status hl hd =>
    intro quota hq
    let marked : MasterState := { s with objects := s.objects.insert key { object with status := status } }
    have bytes : s.liveBytes tenant = tenantBytes tenant object + marked.liveBytes tenant := by
      have moved : marked.liveBytes tenant + _ = _ := liveBytes_insert hl rfl tenant
      rw [tenantBytes_dead hd] at moved
      omega
    have exact := released_exact marked keyed h hl rfl bytes quota hq
    rw [exact, liveBytes, liveBytes, retire_objects]
  | @remove key object hl =>
    intro quota hq
    have exact := released_exact { s with objects := s.objects.erase key } keyed h hl rfl
      (liveBytes_erase hl rfl tenant) quota hq
    rw [exact, liveBytes, liveBytes, releaseTenantQuota_objects]

theorem Change.accounted {s s' : MasterState} (change : Change s s') (h : s.Accounted) : s'.Accounted :=
  ⟨change.keyed h.keyed, fun tenant => change.exactFor h.keyed (h.exact tenant)⟩

theorem Changes.exactFor {s s' : MasterState} (changes : Changes s s') (keyed : s.Keyed) {tenant : TenantId}
    (h : s.ExactFor tenant) : s'.ExactFor tenant := by
  induction changes with
  | refl => exact h
  | tail before last ih => exact last.exactFor (Changes.keyed before keyed) ih

theorem Changes.accounted {s s' : MasterState} (changes : Changes s s') (h : s.Accounted) :
    s'.Accounted := by
  induction changes with
  | refl => exact h
  | tail _ last ih => exact last.accounted ih

/-- Setting a quota counts the tenant's live bytes anew, whatever was counted before. -/
theorem setTenantQuota_recounts {s : MasterState} {tenant : TenantId} {tenantId : String}
    (parsed : TenantId.parse tenantId = .ok tenant) (dramBytes ssdBytes : Nat) (fits : s.liveBytes tenant ≤ wordMax) :
    (s.setTenantQuota tenantId dramBytes ssdBytes).2.ExactFor tenant := by
  intro quota hq
  simp only [setTenantQuota, parsed, Finmap.lookup_insert, Option.some.injEq] at hq
  have total := Table.saturatingTotal_eq (fun _ object => tenantBytes tenant object) s.objects
  simp only [← hq, TenantQuota.withUsage, total, liveBytes, setTenantQuota, parsed] at fits ⊢
  exact Nat.min_eq_left fits

theorem setTenantQuota_exactFor {s : MasterState} {tenant : TenantId} (h : s.ExactFor tenant) (tenantId : String)
    (dramBytes ssdBytes : Nat) (fits : TenantId.parse tenantId = .ok tenant → s.liveBytes tenant ≤ wordMax) :
    (s.setTenantQuota tenantId dramBytes ssdBytes).2.ExactFor tenant := by
  cases parsed : TenantId.parse tenantId with
  | error err => simpa only [setTenantQuota, parsed] using h
  | ok named =>
    rcases eq_or_ne tenant named with rfl | hne
    · exact setTenantQuota_recounts parsed dramBytes ssdBytes (fits parsed)
    · intro quota hq
      simp only [setTenantQuota, parsed] at hq ⊢
      rw [Finmap.lookup_insert_of_ne _ hne] at hq
      exact h quota hq

theorem setTenantQuota_accounted {s : MasterState} (h : s.Accounted) (tenantId : String)
    (dramBytes ssdBytes : Nat)
    (fits : ∀ tenant, TenantId.parse tenantId = .ok tenant → s.liveBytes tenant ≤ wordMax) :
    (s.setTenantQuota tenantId dramBytes ssdBytes).2.Accounted where
  keyed := apply_keyed h.keyed (.setTenantQuota tenantId dramBytes ssdBytes)
  exact tenant := setTenantQuota_exactFor (h.exact tenant) tenantId dramBytes ssdBytes (fits tenant)

theorem restored_accounted {s : MasterState} (h : s.Accounted)
    {objects : List (Entry ObjectKey CacheObjectMeta)} {quotas : List (Entry TenantId TenantQuota)}
    (he : s.Enumerates objects quotas) : (s.restored objects quotas).Accounted := by
  rw [restored_eq h.keyed he]
  exact ⟨h.keyed, h.exact⟩

theorem LifeStep.accounted {s s' : MasterState} {event : LifeEvent} (h : s.Accounted)
    (fits : s.UsageFits event) (step : LifeStep s event s') : s'.Accounted := by
  cases event with
  | restore objects quotas =>
    obtain ⟨he, rfl⟩ := step
    exact restored_accounted h he
  | op op =>
    obtain ⟨_, rfl⟩ := step
    rcases apply_cases s op with ⟨tenantId, dramBytes, ssdBytes, rfl⟩ | ⟨nodeId, len, rfl⟩ | changes
    · exact setTenantQuota_accounted h tenantId dramBytes ssdBytes fits
    · exact ⟨h.keyed, h.exact⟩
    · exact changes.accounted h

theorem retireRelease_exact {s : MasterState} (h : s.Accounted) {key : ObjectKey} {object : CacheObjectMeta}
    (hl : s.objects.lookup key = some object) (status : ObjectStatus) :
    ¬ (s.retireRelease key object status).Clamps := by
  rintro ⟨quota, hq, short⟩
  have own : object.tenantId = key.1 := congrArg Prod.fst (h.keyed _ _ hl)
  have held := tenantBytes_le_liveBytes hl key.1
  have used := h.exact key.1 quota hq
  simp only [tenantBytes, own, ↓reduceIte] at held
  simp only [retireRelease] at short
  omega

private theorem evictReleases_exact (tenant : TenantId) (target : Nat) (keys : List CacheKey)
    (reclaimed : Nat) {s : MasterState} (h : s.Accounted) :
    ∀ release ∈ evictReleases tenant target keys reclaimed s, ¬ release.Clamps := by
  induction keys generalizing reclaimed s with
  | nil => simp [evictReleases]
  | cons key rest ih =>
    unfold evictReleases
    split
    · simp
    · split
      · exact ih reclaimed h
      · rename_i object hl
        have next : (s.evictObject (tenant, key) object).Accounted :=
          (Change.bookkeeping _ _ _ _).accounted ((Change.retire hl rfl).accounted h)
        intro release hr
        rcases List.mem_cons.mp hr with rfl | hr
        · exact retireRelease_exact h hl .evicted
        · exact ih _ next release hr

/-- Accounting that is exact leaves every release its full amount. -/
theorem releases_exact {s : MasterState} (h : s.Accounted) (op : MasterOp) :
    ∀ release ∈ s.releases op, ¬ release.Clamps := by
  cases op with
  | putStart tenant key len replicaCount =>
    simp only [releases]
    split
    · rename_i reserved _ hr
      split
      · rename_i allocator _
        simp only [List.mem_singleton, forall_eq]
        rintro ⟨quota, hq, short⟩
        rw [reserveTenantQuota_lookup hr] at hq
        obtain ⟨found, _, rfl⟩ := Option.map_eq_some_iff.mp hq
        simp only [↓reduceIte] at short
        omega
      · simp
    · simp
  | putRevoke tenant key =>
    simp only [releases]
    split
    · simp
    · rename_i object hl
      simpa using retireRelease_exact h hl .revoked
  | remove tenant key =>
    simp only [releases]
    split
    · simp
    · rename_i object hl
      simp only [List.mem_singleton, forall_eq]
      exact retireRelease_exact h hl .revoked
  | evictForTenant tenant target nowMs order =>
    have first := evictReleases_exact tenant target (s.candidates tenant nowMs .normal order) 0 h
    have between := (evictCandidateKeys_changes tenant target (s.candidates tenant nowMs .normal order) 0
      s).accounted h
    have second := evictReleases_exact tenant
      (target - (evictCandidateKeys tenant target (s.candidates tenant nowMs .normal order) 0 s).1)
      (s.candidates tenant nowMs .softPinned order) 0 between
    intro release hr
    simp only [releases, List.mem_append] at hr
    rcases hr with hr | hr
    · exact first release hr
    · split at hr
      · exact second release hr
      · simp at hr
  | _ => simp [releases]

theorem putStart_within_limit {s s' : MasterState} {tenant : TenantId} {key : CacheKey}
    {len replicaCount : Nat} {replicas : List ReplicaDescriptor}
    (h : s.putStart tenant key len replicaCount = (.ok replicas, s')) {quota : TenantQuota}
    (hq : s'.quotas.lookup tenant = some quota) : quota.usedDramBytes ≤ quota.dramBytes := by
  rcases putStart_cases s tenant key len replicaCount with
    ⟨err, he⟩ | ⟨reserved, _, _, _, _, hr, _, _, _, _, _, he⟩
  · rw [he] at h
    cases h
  · rw [he] at h
    cases h
    obtain ⟨hn, rfl⟩ | ⟨found, _, _, fits, rfl⟩ := reserveTenantQuota_cases hr
    · rw [hn] at hq
      cases hq
    · simp only [Finmap.lookup_insert, Option.some.injEq] at hq
      rw [← hq]
      exact fits

theorem life_accounted {trace : List LifeEvent} {s : MasterState}
    (run : Run (Guarded UsageFits LifeStep) new trace s) : s.Accounted :=
  run.invariant (P := fun _ s => s.Accounted) new_accounted
    fun _ h step => LifeStep.accounted h step.1 step.2

/-- After any life of a master, in any order of operations and restarts, every
quota record is exact, no release clamps, and a reservation stays within the limit. -/
theorem quota_accounting {trace : List LifeEvent} {s : MasterState}
    (run : Run (Guarded UsageFits LifeStep) new trace s) :
    (∀ tenant quota, s.quotas.lookup tenant = some quota → quota.usedDramBytes = s.liveBytes tenant) ∧
    (∀ op, ∀ release ∈ s.releases op, ¬ release.Clamps) ∧
    (∀ tenant key len replicaCount replicas s',
      s.putStart tenant key len replicaCount = (.ok replicas, s') →
      ∀ quota, s'.quotas.lookup tenant = some quota → quota.usedDramBytes ≤ quota.dramBytes) :=
  ⟨(life_accounted run).exact, releases_exact (life_accounted run),
    fun _ _ _ _ _ _ started _ hq => putStart_within_limit started hq⟩

private def reservedReply : Entry ObjectKey CacheObjectMeta :=
  ⟨(⟨"tenant-a"⟩, ⟨"key"⟩), ⟨⟨"tenant-a"⟩, ⟨"key"⟩, 4, .reserving, [⟨"store-0", 0, 4⟩], false, none⟩⟩

private def reservedMaster : MasterState :=
  (((new.setTenantQuota "tenant-a" 10 0).2.mountSegment "store-0" 16).putStart ⟨"tenant-a"⟩ ⟨"key"⟩ 4 1).2

private def restartedMaster : MasterState :=
  reservedMaster.restored [reservedReply] [⟨⟨"tenant-a"⟩, ⟨10, 0, 4, 0⟩⟩]

private theorem restartedMaster_run : Run (Guarded UsageFits LifeStep) new
    [.op (.setTenantQuota "tenant-a" 10 0), .op (.mountSegment "store-0" 16),
      .op (.putStart ⟨"tenant-a"⟩ ⟨"key"⟩ 4 1),
      .restore [reservedReply] [⟨⟨"tenant-a"⟩, ⟨10, 0, 4, 0⟩⟩]] restartedMaster :=
  (((Run.start.snoc ⟨fun _ _ => Nat.zero_le _, ⟨by decide, by decide⟩, rfl⟩).snoc
    ⟨trivial, by decide, rfl⟩).snoc ⟨trivial, by decide, rfl⟩).snoc
    ⟨trivial, ⟨by decide, by decide⟩, rfl⟩

/-- A reservation made before a restart is still counted after it. -/
theorem quota_accounting_after_restart :
    restartedMaster.quotas.lookup ⟨"tenant-a"⟩ = some ⟨10, 0, 4, 0⟩ ∧
    restartedMaster.liveBytes ⟨"tenant-a"⟩ = 4 ∧
    ∀ release ∈ restartedMaster.releases (.remove ⟨"tenant-a"⟩ ⟨"key"⟩), ¬ release.Clamps := by
  have accounted := quota_accounting restartedMaster_run
  have record : restartedMaster.quotas.lookup ⟨"tenant-a"⟩ = some ⟨10, 0, 4, 0⟩ := by decide
  exact ⟨record, (accounted.1 _ _ record).symm, accounted.2.1 _⟩

end MasterState
end Mooncache
