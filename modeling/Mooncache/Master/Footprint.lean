import Mooncache.Master.Effects
import Mooncache.Master.Retention
import Mathlib.Algebra.GroupWithZero.Nat

/-! The bytes a tenant's live objects take up in the segments, beside the DRAM limit of the
tenant. A quota is charged the length of an object once, whatever the number of its replicas. -/
namespace Mooncache
namespace MasterState
variable {s s' : MasterState} {tenant : TenantId}

/-- The lengths of all replicas of the tenant's live objects. -/
def dramFootprint (s : MasterState) (tenant : TenantId) : Nat :=
  Table.total (fun _ object =>
    if object.tenantId = tenant ∧ object.status.live then (object.replicas.map (·.len)).sum else 0) s.objects

/-- The limit is set before the first object of the tenant, and never lowered. -/
def LimitKept (tenant : TenantId) (s : MasterState) : MasterOp → Prop
  | .setTenantQuota tenantId dramBytes _ => tenantId = tenant.value →
    ∀ quota, s.quotas.lookup tenant = some quota → quota.dramBytes ≤ dramBytes
  | .putStart named key len replicaCount => named = tenant →
    (∃ replicas, (s.putStart named key len replicaCount).1 = .ok replicas) → (s.quotas.lookup tenant).isSome
  | _ => True

/-- A reservation of the tenant that succeeds asks for one replica. -/
def SingleCopy (tenant : TenantId) (s : MasterState) : MasterOp → Prop
  | .putStart named key len replicaCount => named = tenant →
    (∃ replicas, (s.putStart named key len replicaCount).1 = .ok replicas) → replicaCount = 1
  | _ => True

/-- Every replica is as long as its object. -/
def FullCopies (s : MasterState) : Prop :=
  ∀ key object, s.objects.lookup key = some object → ∀ replica ∈ object.replicas, replica.len = object.len

/-- Usage within the limit. -/
def WithinLimit (tenant : TenantId) (s : MasterState) : Prop :=
  ∀ quota, s.quotas.lookup tenant = some quota → quota.usedDramBytes ≤ quota.dramBytes ∧ quota.dramBytes ≤ wordMax

private theorem insert_fullCopies (h : s.FullCopies) {key : ObjectKey} {object : CacheObjectMeta}
    (full : ∀ replica ∈ object.replicas, replica.len = object.len)
    (objects : s'.objects = s.objects.insert key object) : s'.FullCopies := by
  intro other found lookup
  rw [objects] at lookup
  rcases eq_or_ne other key with rfl | hne
  · rw [Finmap.lookup_insert, Option.some.injEq] at lookup
    rw [← lookup]
    exact full
  · rw [Finmap.lookup_insert_of_ne _ hne] at lookup
    exact h other found lookup

theorem Change.fullCopies (change : Change s s') (h : s.FullCopies) : s'.FullCopies := by
  cases change with
  | bookkeeping => exact h
  | @reserve reserved key len allocations after indexes _ _ _ _ spec =>
    refine insert_fullCopies h (fun replica placed => ?_) rfl
    obtain ⟨allocation, taken, rfl⟩ := List.mem_map.mp placed
    obtain ⟨i, bound, rfl⟩ := List.getElem_of_mem taken
    obtain ⟨_, _, _, _, _, extent⟩ := spec.extent_at (List.getElem?_eq_getElem bound)
    rw [extent]
    rfl
  | commit found =>
    have full := h _ _ found
    exact insert_fullCopies h (by exact full) rfl
  | retire found =>
    have full := h _ _ found
    exact insert_fullCopies h (by exact full) (retire_objects _ _ _ _)
  | @remove key object found =>
    intro other left lookup
    rw [releaseTenantQuota_objects] at lookup
    rcases eq_or_ne other key with rfl | hne
    · simp at lookup
    · exact h other left (by simpa [hne] using lookup)

theorem Change.withinLimit (change : Change s s') (h : s.WithinLimit tenant) : s'.WithinLimit tenant := by
  have released (m : MasterState) (same : m.quotas = s.quotas) (named : TenantId) (bytes : Nat) :
      (m.releaseTenantQuota named bytes).WithinLimit tenant := by
    intro quota found
    rw [releaseTenantQuota_lookup, same] at found
    obtain ⟨old, before, rfl⟩ := Option.map_eq_some_iff.mp found
    obtain ⟨used, limit⟩ := h old before
    split
    · exact ⟨by simp only [TenantQuota.releaseDram]; omega, limit⟩
    · exact ⟨used, limit⟩
  cases change with
  | bookkeeping => exact h
  | @reserve reserved key len allocations after indexes _ reserve =>
    intro quota found
    rcases reserveTenantQuota_cases reserve with ⟨_, rfl⟩ | ⟨old, before, _, fits, rfl⟩
    · exact h quota found
    · rcases eq_or_ne tenant key.1 with rfl | hne
      · simp only [Finmap.lookup_insert, Option.some.injEq] at found
        rw [← found]
        exact ⟨fits, (h old before).2⟩
      · simp only [Finmap.lookup_insert_of_ne _ hne] at found
        exact h quota found
  | commit => exact h
  | @retire key object status =>
    exact released { s with objects := s.objects.insert key { object with status := status } } rfl _ _
  | @remove key => exact released { s with objects := s.objects.erase key } rfl _ _

/-- Which tenants have a record changes only where a quota is set. -/
theorem Change.recorded (change : Change s s') (tenant : TenantId) :
    (s'.quotas.lookup tenant).isSome = (s.quotas.lookup tenant).isSome := by
  have released (m : MasterState) (same : m.quotas = s.quotas) (named : TenantId) (bytes : Nat) :
      ((m.releaseTenantQuota named bytes).quotas.lookup tenant).isSome = (s.quotas.lookup tenant).isSome := by
    rw [releaseTenantQuota_lookup, same, Option.isSome_map]
  cases change with
  | bookkeeping | commit => rfl
  | reserve _ reserve => simp only [reserveTenantQuota_lookup reserve, Option.isSome_map]
  | @retire key object status =>
    exact released { s with objects := s.objects.insert key { object with status := status } } rfl _ _
  | @remove key => exact released { s with objects := s.objects.erase key } rfl _ _

/-- What the limit of a tenant keeps true. -/
structure LimitHolds (tenant : TenantId) (s : MasterState) : Prop where
  keyed : s.Keyed
  exact : s.ExactFor tenant
  within : s.WithinLimit tenant
  copies : s.FullCopies
  recorded : ∀ key object, s.objects.lookup (tenant, key) = some object → (s.quotas.lookup tenant).isSome
  single : ∀ key object, s.objects.lookup (tenant, key) = some object → object.replicas.length = 1

theorem new_limitHolds (tenant : TenantId) : new.LimitHolds tenant where
  keyed := new_keyed
  exact quota h := by simp [new] at h
  within quota h := by simp [new] at h
  copies key object h := by simp [new] at h
  recorded key object h := by simp [new] at h
  single key object h := by simp [new] at h

theorem Changes.limits (changes : Changes s s') (h : s.LimitHolds tenant) :
    s'.Keyed ∧ s'.ExactFor tenant ∧ s'.WithinLimit tenant ∧ s'.FullCopies ∧
      (s'.quotas.lookup tenant).isSome = (s.quotas.lookup tenant).isSome := by
  induction changes with
  | refl => exact ⟨h.keyed, h.exact, h.within, h.copies, rfl⟩
  | tail _ last ih =>
    obtain ⟨keyed, exact, within, copies, recorded⟩ := ih
    exact ⟨last.keyed keyed, last.exactFor keyed exact, last.withinLimit within, last.fullCopies copies,
      (last.recorded tenant).trans recorded⟩

/-- Operations that put no object under a key of the tenant. -/
private theorem LimitHolds.of_changes (h : s.LimitHolds tenant) (changes : Changes s s')
    (objects : ∀ key object, s'.objects.lookup (tenant, key) = some object →
      ∃ old, s.objects.lookup (tenant, key) = some old ∧ object.replicas = old.replicas) : s'.LimitHolds tenant := by
  obtain ⟨keyed, exact, within, copies, recorded⟩ := changes.limits h
  refine ⟨keyed, exact, within, copies, fun key object found => ?_, fun key object found => ?_⟩
  · obtain ⟨old, before, _⟩ := objects key object found
    rw [recorded]
    exact h.recorded key old before
  · obtain ⟨old, before, same⟩ := objects key object found
    rw [same]
    exact h.single key old before

/-- A tenant without a record has no object. -/
private theorem LimitHolds.liveBytes_of_unrecorded (h : s.LimitHolds tenant)
    (unrecorded : s.quotas.lookup tenant = none) : s.liveBytes tenant = 0 := by
  have empty : s.liveBytes tenant =
      Table.total (fun _ object => tenantBytes tenant object) (∅ : Table ObjectKey CacheObjectMeta) := by
    refine Table.total_congr fun key => ?_
    cases held : s.objects.lookup key with
    | none => rfl
    | some object =>
      have owner := congrArg Prod.fst (h.keyed key object held)
      have other : object.tenantId ≠ tenant := by
        rintro rfl
        have same : (object.tenantId, key.2) = key := Prod.ext owner rfl
        have recorded := h.recorded key.2 object (same ▸ held)
        rw [unrecorded] at recorded
        cases recorded
      simp [tenantBytes, other]
  exact empty.trans rfl

private theorem LimitHolds.liveBytes_le (h : s.LimitHolds tenant) {dramBytes ssdBytes : Nat}
    (kept : s.LimitKept tenant (.setTenantQuota tenant.value dramBytes ssdBytes)) : s.liveBytes tenant ≤ dramBytes := by
  cases found : s.quotas.lookup tenant with
  | some quota =>
    have used := h.exact quota found
    have fits := h.within quota found
    have raised := kept rfl quota found
    omega
  | none =>
    rw [h.liveBytes_of_unrecorded found]
    exact Nat.zero_le _

private theorem LimitHolds.setTenantQuota (h : s.LimitHolds tenant) {tenantId : String} {dramBytes ssdBytes : Nat}
    (word : dramBytes ≤ wordMax) (kept : s.LimitKept tenant (.setTenantQuota tenantId dramBytes ssdBytes)) :
    (s.setTenantQuota tenantId dramBytes ssdBytes).2.LimitHolds tenant := by
  rcases setTenantQuota_cases s tenantId dramBytes ssdBytes with ⟨_, he⟩ | he
  · rw [he]
    exact h
  by_cases mine : tenantId = tenant.value
  · subst mine
    have bytes := h.liveBytes_le kept
    have exact := setTenantQuota_exactFor h.exact tenant.value dramBytes ssdBytes fun _ => bytes.trans word
    rw [he] at exact ⊢
    refine ⟨h.keyed, exact, fun quota found => ?_, h.copies, fun _ _ _ => ?_, h.single⟩
    · have used : quota.usedDramBytes = s.liveBytes tenant := exact quota found
      simp only [Finmap.lookup_insert, Option.some.injEq] at found
      subst found
      exact ⟨used.trans_le bytes, word⟩
    · simp
  · have away : tenant ≠ ⟨tenantId⟩ := fun same => mine (congrArg TenantId.value same.symm)
    have same := Finmap.lookup_insert_of_ne s.quotas away (b := TenantQuota.withUsage dramBytes ssdBytes
      (Table.saturatingTotal (fun _ object => tenantBytes ⟨tenantId⟩ object) s.objects))
    rw [he]
    refine ⟨h.keyed, fun quota found => h.exact quota (same.symm.trans found),
      fun quota found => h.within quota (same.symm.trans found), h.copies, fun key object found => ?_, h.single⟩
    exact (congrArg Option.isSome same).trans (h.recorded key object found)

private theorem LimitHolds.putStart (h : s.LimitHolds tenant) {named : TenantId} {key : CacheKey}
    {len replicaCount : Nat}
    (changes : Changes s (s.putStart named key len replicaCount).2)
    (kept : s.LimitKept tenant (.putStart named key len replicaCount))
    (single : s.SingleCopy tenant (.putStart named key len replicaCount)) :
    (s.putStart named key len replicaCount).2.LimitHolds tenant := by
  rcases putStart_cases s named key len replicaCount with
    ⟨_, he⟩ | ⟨reserved, allocations, _, _, absent, _, _, _, _, count, spec, he⟩
  · rw [he]
    exact h
  by_cases mine : named = tenant
  · subst mine
    have started : ∃ replicas, (s.putStart named key len replicaCount).1 = .ok replicas := ⟨_, congrArg Prod.fst he⟩
    obtain ⟨keyed, exact, within, copies, recorded⟩ := changes.limits h
    refine ⟨keyed, exact, within, copies, fun _ _ _ => recorded.trans (kept rfl started), fun other object found => ?_⟩
    rw [he] at found
    rcases eq_or_ne other key with rfl | hne
    · simp only [Finmap.lookup_insert, Option.some.injEq] at found
      rw [← found, List.length_map, ← spec.extents.length_eq, count]
      exact single rfl started
    · have away : (named, other) ≠ (named, key) := fun same => hne (congrArg Prod.snd same)
      rw [Finmap.lookup_insert_of_ne _ away] at found
      exact h.single other object found
  · refine h.of_changes changes fun other object found => ?_
    have away : (tenant, other) ≠ (named, key) := fun same => mine (congrArg Prod.fst same).symm
    rw [he, Finmap.lookup_insert_of_ne _ away] at found
    exact ⟨object, found, rfl⟩

theorem LimitHolds.step {op : MasterOp} (h : s.LimitHolds tenant) (kept : s.LimitKept tenant op)
    (single : s.SingleCopy tenant op) (step : Step s op s') : s'.LimitHolds tenant := by
  obtain ⟨enabled, rfl⟩ := step
  rcases apply_cases s op with ⟨tenantId, dramBytes, ssdBytes, rfl⟩ | ⟨nodeId, len, rfl⟩ | changes
  · exact h.setTenantQuota enabled.1 kept
  · exact ⟨h.keyed, h.exact, h.within, h.copies, h.recorded, h.single⟩
  by_cases quiet : op.grows = false
  · refine h.of_changes changes fun key object found => ?_
    obtain ⟨old, before, same, _⟩ := (apply_retains s op quiet).objects _ object found
    exact ⟨old, before, same⟩
  cases op with
  | putStart named key len replicaCount => exact h.putStart changes kept single
  | mountSegment => exact ⟨h.keyed, h.exact, h.within, h.copies, h.recorded, h.single⟩
  | _ => exact absurd rfl quiet

/-- With one copy of each object the footprint is what the quota counts. -/
theorem LimitHolds.footprint (h : s.LimitHolds tenant) : s.dramFootprint tenant = s.liveBytes tenant := by
  rw [dramFootprint, liveBytes]
  refine Table.total_congr fun key => ?_
  cases found : s.objects.lookup key with
  | none => rfl
  | some object =>
    by_cases mine : object.tenantId = tenant
    · have owner : object.tenantId = key.1 := congrArg Prod.fst (h.keyed key object found)
      have same : (tenant, key.2) = key := Prod.ext (mine.symm.trans owner) rfl
      obtain ⟨replica, one⟩ := List.length_eq_one_iff.mp (h.single key.2 object (same ▸ found))
      have full := h.copies key object found replica (one ▸ List.mem_singleton_self replica)
      simp [mine, tenantBytes, quotaReservedBytes, one, full]
    · simp [mine, tenantBytes]

/-- While every reservation of a tenant asks for one replica, what its live objects take up in
the segments stays within its limit. -/
theorem footprint_within_limit {trace : List MasterOp}
    (run : Run (Guarded (fun s op => s.LimitKept tenant op ∧ s.SingleCopy tenant op) Step) new trace s)
    {quota : TenantQuota} (found : s.quotas.lookup tenant = some quota) :
    s.dramFootprint tenant ≤ quota.dramBytes := by
  have holds : s.LimitHolds tenant := run.invariant (P := fun _ s => s.LimitHolds tenant) (new_limitHolds tenant)
    fun _ before step => before.step step.1.1 step.1.2 step.2
  rw [holds.footprint, ← holds.exact quota found]
  exact (holds.within quota found).1

private def copied (replicaCount : Nat) : List MasterOp :=
  [.mountSegment "store-0" 16, .mountSegment "store-1" 16, .setTenantQuota "tenant-a" 4 0,
    .putStart ⟨"tenant-a"⟩ ⟨"key"⟩ 4 replicaCount]

/-- One copy of an object fills the limit. -/
theorem single_copy_within_limit : ((copied 1).foldl MasterOp.apply new).dramFootprint ⟨"tenant-a"⟩ = 4 ∧
    ((copied 1).foldl MasterOp.apply new).dramFootprint ⟨"tenant-a"⟩ ≤ 4 := by
  have run : Run (Guarded (fun s op => s.LimitKept ⟨"tenant-a"⟩ op ∧ s.SingleCopy ⟨"tenant-a"⟩ op) Step) new (copied 1)
      ((copied 1).foldl MasterOp.apply new) :=
    (((Run.start.snoc ⟨⟨trivial, trivial⟩, by decide, rfl⟩).snoc ⟨⟨trivial, trivial⟩, by decide, rfl⟩).snoc
      ⟨⟨fun _ _ found => (by cases found), trivial⟩, ⟨by decide, by decide⟩, rfl⟩).snoc
      ⟨⟨fun _ _ => by decide, fun _ _ => rfl⟩, by decide, rfl⟩
  exact ⟨by decide, footprint_within_limit run (show _ = some ⟨4, 0, 4, 0⟩ by decide)⟩

/-- Two copies are charged once. -/
theorem two_copies_exceed_limit :
    ¬ ∀ (tenant : TenantId) (trace : List MasterOp) (s : MasterState),
      Run (Guarded (fun s op => s.LimitKept tenant op) Step) new trace s →
      ∀ quota, s.quotas.lookup tenant = some quota → s.dramFootprint tenant ≤ quota.dramBytes := by
  intro bounded
  have run : Run (Guarded (fun s op => s.LimitKept ⟨"tenant-a"⟩ op) Step) new (copied 2)
      ((copied 2).foldl MasterOp.apply new) :=
    (((Run.start.snoc ⟨trivial, by decide, rfl⟩).snoc ⟨trivial, by decide, rfl⟩).snoc
      ⟨fun _ _ found => (by cases found), ⟨by decide, by decide⟩, rfl⟩).snoc ⟨fun _ _ => by decide, by decide, rfl⟩
  exact absurd (bounded _ _ _ run ⟨4, 0, 4, 0⟩ (by decide)) (by decide)

end MasterState
end Mooncache
