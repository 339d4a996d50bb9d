import Mooncache.Master.Eviction

/-! Eviction over the runs of a master: which leases it respects, and what it gives back to the quota. -/
namespace Mooncache

/-- The operation computes the tenant's usage anew. -/
def MasterOp.Recounts (tenant : TenantId) (op : MasterOp) : Prop :=
  ∃ tenantId dramBytes ssdBytes, op = .setTenantQuota tenantId dramBytes ssdBytes ∧ TenantId.parse tenantId = .ok tenant

namespace MasterState

/-- The tenant's usage was counted exactly when it was last counted: in the state the sequence
starts in, or by a `set_tenant_quota` whose sum fits a word. -/
inductive CountedFrom (init : MasterState) (tenant : TenantId) : List TimedOp → Prop
  | start : init.ExactFor tenant → CountedFrom init tenant []
  | recount {trace : List TimedOp} {timed : TimedOp} : timed.op.Recounts tenant →
      (replayFrom init trace).liveBytes tenant ≤ wordMax → CountedFrom init tenant (trace ++ [timed])
  | later {trace : List TimedOp} {timed : TimedOp} : CountedFrom init tenant trace → ¬ timed.op.Recounts tenant →
      CountedFrom init tenant (trace ++ [timed])

/-- No lease returned for the object that is still stored under the key is unexpired. -/
def Unleased (init : MasterState) (trace : List TimedOp) (key : ObjectKey) (nowMs : Nat) : Prop :=
  ∀ list, LeasedFrom init key list trace → list.lease.expiresAtMs ≤ nowMs

/-- An object of the tenant that may be evicted. -/
def Eligible (init : MasterState) (trace : List TimedOp) (s : MasterState) (tenant : TenantId) (nowMs : Nat)
    (key : ObjectKey) : Prop :=
  key.1 = tenant ∧ (∃ object, s.objects.lookup key = some object ∧ object.status = .committed ∧
    object.hardPinned = false) ∧ Unleased init trace key nowMs

/-- These keys are evicted: eligible ones only, soft-pinned ones last, and no more than reach the target. -/
structure EvictsExactly (candidate soft : ObjectKey → Prop) (tenant : TenantId) (target : Nat) (s : MasterState)
    (keys : List ObjectKey) (result : CacheResult Nat) (s' : MasterState) : Prop where
  nodup : keys.Nodup
  candidates : ∀ key ∈ keys, candidate key
  fallback : ∀ key ∈ keys, soft key → ∀ other, candidate other → ¬ soft other → other ∈ keys
  minimal : ∀ earlier last, keys = earlier ++ [last] → totalWeight s.lenAt earlier < target
  all : totalWeight s.lenAt keys < target → ∀ key, candidate key → key ∈ keys
  result : result = .ok (min (totalWeight s.lenAt keys) wordMax)
  changes : Evicted tenant s keys s'

/-! Leases. -/

/-- An object that is no longer written is kept by an operation, with a lease that lasts as long, or it is ended. -/
inductive KeptOrEnded (s s' : MasterState) (key : ObjectKey) (object : CacheObjectMeta) (nowMs : Nat) : Prop
  | kept : s'.objects.lookup key = some object → s'.leases.lookup key = s.leases.lookup key → KeptOrEnded s s' key object nowMs
  | granted {lease : Lease} : s'.objects.lookup key = some object → s'.leases.lookup key = some lease →
    lease.expiresAtMs = saturatingAdd nowMs defaultLeaseTtlMs → KeptOrEnded s s' key object nowMs
  | ended {dead : CacheObjectMeta} : s'.objects.lookup key = some dead → dead.status.live = false →
    KeptOrEnded s s' key object nowMs

section
variable {s : MasterState} {op : MasterOp} {key : ObjectKey} {object : CacheObjectMeta} {nowMs : Nat}

theorem kept_of_quiet (clock : op.ReadsClock nowMs) (found : s.objects.lookup key = some object)
    (quiet : (s.lifecycle op).eventsOf key = []) : KeptOrEnded s (op.apply s) key object nowMs := by
  have same := ((lifecycle_moves s op).lookup_of_quiet quiet).trans found
  rcases apply_leases s op key with ⟨unchanged, _⟩ | ⟨_, ended⟩ | ⟨readMs, list, hop, _, granted, ttl⟩
  · exact .kept same unchanged
  · exact absurd quiet ended
  · rw [hop] at clock
    cases clock
    exact .granted same granted ttl

/-- What an operation that does not remove it does to an object that is no longer written. -/
theorem apply_keptOrEnded (clock : op.ReadsClock nowMs) (enabled : op.Enabled s) (found : s.objects.lookup key = some object)
    (written : object.status = .committed ∨ object.status.live = false) (stays : (key, .removed) ∉ s.lifecycle op) :
    KeptOrEnded s (op.apply s) key object nowMs := by
  cases op with
  | setTenantQuota | mountSegment | getReplicaList => exact kept_of_quiet clock found rfl
  | putStart tenant cacheKey len replicaCount =>
    refine kept_of_quiet clock found ?_
    rcases putStart_cases s tenant cacheKey len replicaCount with ⟨err, he⟩ | ⟨_, _, _, _, absent, _, _, _, _, _, _, he⟩
    · simp [lifecycle, he]
    · simp only [lifecycle, he]
      refine LifecycleHistory.eventsOf_single_of_ne ?_ _
      rintro rfl
      cases absent.symm.trans found
  | putEnd tenant cacheKey =>
    refine kept_of_quiet clock found ?_
    rcases putEnd_cases s tenant cacheKey with ⟨err, he⟩ | ⟨writing, there, unfinished, he⟩
    · simp [lifecycle, he]
    · simp only [lifecycle, he]
      refine LifecycleHistory.eventsOf_single_of_ne ?_ _
      rintro rfl
      cases there.symm.trans found
      rcases unfinished with status | status <;> simp [status, ObjectStatus.live] at written
  | putRevoke tenant cacheKey =>
    rcases putRevoke_cases s tenant cacheKey with ⟨_, he⟩ | ⟨old, there, he⟩
    · exact kept_of_quiet clock found (by simp [lifecycle, he])
    · rcases eq_or_ne key (tenant, cacheKey) with rfl | away
      · have revoked : (MasterOp.apply s (.putRevoke tenant cacheKey)).objects.lookup (tenant, cacheKey) =
            some { old with status := .revoked } := by
          rw [MasterOp.apply, he, retire_objects, Finmap.lookup_insert]
        exact .ended revoked rfl
      · refine kept_of_quiet clock found ?_
        simp only [lifecycle, he]
        exact LifecycleHistory.eventsOf_single_of_ne away _
  | remove tenant cacheKey =>
    refine kept_of_quiet clock found ?_
    rcases remove_cases s tenant cacheKey with ⟨_, he⟩ | ⟨_, _, he, _⟩
    · simp [lifecycle, he]
    · simp only [lifecycle, he, List.mem_singleton, Prod.mk.injEq, and_true] at stays ⊢
      exact LifecycleHistory.eventsOf_single_of_ne stays _
  | evictForTenant tenant target readMs order =>
    have evicted : Evicted tenant s (s.evictedFor tenant target readMs order) _ :=
      (evictForTenant_evicted enabled.1 enabled.2).1
    have objects := evicted.objects key
    by_cases taken : key ∈ s.evictedFor tenant target readMs order
    · rw [if_pos taken, found] at objects
      exact .ended objects rfl
    · rw [if_neg taken, found] at objects
      exact .kept objects ((evicted.leases key).trans (if_neg taken))

end

/-- A lease handed out expires at most one lifetime from now; until it does, a committed object is tracked
for at least as long. -/
structure Tracked (key : ObjectKey) (list : ReplicaList) (s : ClockedMaster) : Prop where
  fresh : list.lease.expiresAtMs ≤ saturatingAdd s.clockMs defaultLeaseTtlMs
  tracked : ∃ object, s.master.objects.lookup key = some object ∧ (object.status.live = false ∨
    object.status = .committed ∧ (s.clockMs < list.lease.expiresAtMs → ∃ lease,
      s.master.leases.lookup key = some lease ∧ list.lease.expiresAtMs ≤ lease.expiresAtMs))

theorem Tracked.step {key : ObjectKey} {list : ReplicaList} {s s' : ClockedMaster} {timed : TimedOp}
    (h : Tracked key list s) (step : s.Step timed s') (stays : (key, .removed) ∉ s.master.lifecycle timed.op) :
    Tracked key list s' := by
  obtain ⟨⟨order, clock, enabled⟩, rfl⟩ := step
  have later : saturatingAdd s.clockMs defaultLeaseTtlMs ≤ saturatingAdd timed.nowMs defaultLeaseTtlMs := by
    simp only [saturatingAdd]
    omega
  refine ⟨h.fresh.trans later, ?_⟩
  obtain ⟨object, found, state⟩ := h.tracked
  have written : object.status = .committed ∨ object.status.live = false := state.symm.imp_left And.left
  cases apply_keptOrEnded clock enabled found written stays with
  | ended found dead => exact ⟨_, found, .inl dead⟩
  | kept found same =>
    refine ⟨object, found, state.imp_right (And.imp_right fun tracked active => ?_)⟩
    simp only [ClockedMaster.apply] at active ⊢
    rw [same]
    exact tracked (by omega)
  | granted found granted ttl =>
    refine ⟨object, found, state.imp_right (And.imp_right fun _ _ => ⟨_, granted, ?_⟩)⟩
    rw [ttl]
    exact h.fresh.trans later

section
variable {init : MasterState} {clockMs : Nat} {trace : List TimedOp} {s : ClockedMaster}

/-- Every lease handed out for an object that is still stored is tracked. -/
theorem run_tracked (run : Run ClockedMaster.Step ⟨init, clockMs⟩ trace s) {key : ObjectKey} {list : ReplicaList}
    (leased : LeasedFrom init key list trace) : Tracked key list s := by
  induction run with
  | start =>
    generalize none : ([] : List TimedOp) = empty at leased
    cases leased <;> simp at none
  | @snoc trace s s' timed run last ih =>
    generalize whole : trace ++ [timed] = all at leased
    cases leased with
    | @read before nowMs read =>
      obtain ⟨rfl, same⟩ := List.append_inj' whole rfl
      cases same
      rw [← timed_replayFrom run] at read
      obtain ⟨_, rfl⟩ := last
      obtain ⟨ttl, objects, leases⟩ := getReplicaList_grant read
      obtain ⟨object, found, committed, _⟩ := getReplicaList_replicas read
      refine ⟨ttl.le, object, ?_, .inr ⟨committed, fun _ => ⟨list.lease, ?_, le_rfl⟩⟩⟩
      · rw [ClockedMaster.apply, MasterOp.apply, objects, found]
      · rw [ClockedMaster.apply, MasterOp.apply, leases, Finmap.lookup_insert]
    | @later before other leased stays =>
      obtain ⟨rfl, same⟩ := List.append_inj' whole rfl
      cases same
      rw [← timed_replayFrom run] at stays
      exact (ih leased).step last stays

/-- The tracker knows of an unexpired lease exactly if one has been handed out. -/
theorem inactive_iff_unleased (unleased : init.leases = ∅) (run : Run ClockedMaster.Step ⟨init, clockMs⟩ trace s)
    {nowMs : Nat} (later : s.clockMs ≤ nowMs) {key : ObjectKey} {object : CacheObjectMeta}
    (found : s.master.objects.lookup key = some object) (committed : object.status = .committed) :
    hasActiveLease s.master.leases key nowMs = false ↔ Unleased init trace key nowMs := by
  constructor
  · intro inactive list leased
    obtain ⟨held, there, state⟩ := (run_tracked run leased).tracked
    cases there.symm.trans found
    have tracked := (state.resolve_left (by rw [committed]; exact nofun)).2
    by_contra active
    obtain ⟨lease, kept, bound⟩ := tracked (by omega)
    simp only [hasActiveLease, kept, decide_eq_false_iff_not] at inactive
    omega
  · intro expired
    cases tracked : s.master.leases.lookup key with
    | none => simp [hasActiveLease, tracked]
    | some lease =>
      obtain ⟨list, leased, rfl⟩ := run_sourcedFrom unleased run tracked
      simpa [hasActiveLease, tracked] using expired list leased

/-- The candidates are the eligible objects. -/
theorem eligible_iff (unleased : init.leases = ∅) (run : Run ClockedMaster.Step ⟨init, clockMs⟩ trace s)
    {nowMs : Nat} (later : s.clockMs ≤ nowMs) {tenant : TenantId} {key : ObjectKey} :
    Eligible init trace s.master tenant nowMs key ↔
      key.1 = tenant ∧ ∃ cls, s.master.keyClass nowMs key = some cls := by
  rw [Eligible, keyClass_isSome_iff]
  refine and_congr_right fun _ => and_congr_right ?_
  rintro ⟨object, found, committed, _⟩
  exact (inactive_iff_unleased unleased run later found committed).symm

end

/-! Quotas. -/

section
variable {init : MasterState} {clockMs : Nat} {trace : List TimedOp} {s : ClockedMaster} {tenant : TenantId}

theorem timed_keyed (keyed : init.Keyed) (run : Run ClockedMaster.Step ⟨init, clockMs⟩ trace s) : s.master.Keyed := by
  induction run with
  | start => exact keyed
  | snoc _ last ih =>
    obtain ⟨_, rfl⟩ := last
    exact apply_keyed ih _

/-- Other operations keep a count that is exact. -/
theorem apply_exactFor {s : MasterState} (keyed : s.Keyed) (h : s.ExactFor tenant) {op : MasterOp}
    (kept : ¬ op.Recounts tenant) : (op.apply s).ExactFor tenant := by
  rcases apply_cases s op with ⟨tenantId, dramBytes, ssdBytes, rfl⟩ | ⟨nodeId, len, rfl⟩ | changes
  · exact setTenantQuota_exactFor h tenantId dramBytes ssdBytes fun parsed => absurd ⟨_, _, _, rfl, parsed⟩ kept
  · exact h
  · exact changes.exactFor keyed h

theorem run_exactFor (keyed : init.Keyed) (run : Run ClockedMaster.Step ⟨init, clockMs⟩ trace s)
    (counted : CountedFrom init tenant trace) : s.master.ExactFor tenant := by
  induction run with
  | start =>
    generalize none : ([] : List TimedOp) = empty at counted
    cases counted with
    | start counts => exact counts
    | recount | later => simp at none
  | @snoc trace s s' timed run last ih =>
    obtain ⟨_, rfl⟩ := last
    generalize whole : trace ++ [timed] = all at counted
    cases counted with
    | start => simp at whole
    | recount recounts fits =>
      obtain ⟨rfl, same⟩ := List.append_inj' whole rfl
      cases same
      rw [← timed_replayFrom run] at fits
      obtain ⟨tenantId, dramBytes, ssdBytes, he, parsed⟩ := recounts
      rw [ClockedMaster.apply, he]
      exact setTenantQuota_recounts parsed dramBytes ssdBytes fits
    | later counted kept =>
      obtain ⟨rfl, same⟩ := List.append_inj' whole rfl
      cases same
      exact apply_exactFor (timed_keyed keyed run) (ih counted) kept

/-- Different live objects of the tenant take no more than all its live bytes. -/
theorem totalWeight_le_liveBytes {s : MasterState} (keyed : s.Keyed) {keys : List ObjectKey} (nodup : keys.Nodup)
    (live : ∀ key ∈ keys, key.1 = tenant ∧ ∃ object, s.objects.lookup key = some object ∧ object.status.live = true) :
    totalWeight s.lenAt keys ≤ s.liveBytes tenant := by
  have weights : totalWeight s.lenAt keys =
      (keys.map fun key => (s.objects.lookup key).elim 0 (tenantBytes tenant)).sum := by
    refine congrArg List.sum (List.map_congr_left fun key member => ?_)
    obtain ⟨own, object, found, alive⟩ := live key member
    have named : object.tenantId = tenant := (congrArg Prod.fst (keyed _ _ found)).trans own
    simp [lenAt, found, tenantBytes, quotaReservedBytes, alive, named]
  rw [weights]
  exact Table.sum_le_total (fun _ object => tenantBytes tenant object) s.objects nodup

end

section
variable {snapshot : MasterMetadataSnapshot} {clockMs : Nat} {trace : List TimedOp} {s : ClockedMaster}

/-- Eviction is exact: it takes eligible objects of the tenant only, soft-pinned ones last, stops once the target
is reached, and does the bookkeeping of what it has taken and nothing else. -/
theorem eviction_exact (run : Run ClockedMaster.Step ⟨fromMetadataSnapshot snapshot, clockMs⟩ trace s)
    {tenant : TenantId} {target nowMs : Nat} {order : List (Entry ObjectKey CacheObjectMeta)}
    (later : s.clockMs ≤ nowMs) (enabled : (MasterOp.evictForTenant tenant target nowMs order).Enabled s.master) :
    ∃ keys,
      EvictsExactly (Eligible (fromMetadataSnapshot snapshot) trace s.master tenant nowMs)
        (s.master.SoftPinned nowMs) tenant target s.master keys
        (s.master.evictForTenant tenant target nowMs order).1 (s.master.evictForTenant tenant target nowMs order).2 ∧
      (CountedFrom (fromMetadataSnapshot snapshot) tenant trace → ∀ quota,
        s.master.quotas.lookup tenant = some quota → ∃ after,
          (s.master.evictForTenant tenant target nowMs order).2.quotas.lookup tenant =
            some { quota with usedDramBytes := after } ∧
          after + totalWeight s.master.lenAt keys = quota.usedDramBytes) := by
  obtain ⟨word, enumerated⟩ := enabled
  have evicted := @evictForTenant_evicted s.master tenant nowMs order target word enumerated
  have nodup := @evictedFor_nodup s.master tenant nowMs order target enumerated
  have eligible {key : ObjectKey} : Eligible (fromMetadataSnapshot snapshot) trace s.master tenant nowMs key ↔
      key.1 = tenant ∧ ∃ cls, s.master.keyClass nowMs key = some cls := eligible_iff rfl run later
  refine ⟨_, ⟨nodup, ?_, ?_, ?_, ?_, evicted.2, evicted.1⟩, ?_⟩
  · exact fun key taken => eligible.mpr (evictedFor_class enumerated taken)
  · intro key taken soft other candidate free
    obtain ⟨_, cls, chosen⟩ := evictedFor_class enumerated taken
    cases (keyClass_softPinned chosen).mpr soft
    obtain ⟨rfl, cls', normal⟩ := eligible.mp candidate
    cases cls' with
    | normal => exact evictedFor_fallback enumerated taken chosen normal
    | softPinned => exact absurd ((keyClass_softPinned normal).mp rfl) free
  · exact fun earlier last split => reaching_minimal split
  · intro short key candidate
    obtain ⟨rfl, cls, chosen⟩ := eligible.mp candidate
    exact evictedFor_all enumerated short chosen
  · intro counted quota found
    have keyed := timed_keyed (fromMetadataSnapshot_keyed snapshot) run
    have used := run_exactFor (fromMetadataSnapshot_keyed snapshot) run counted quota found
    have bound : totalWeight s.master.lenAt (s.master.evictedFor tenant target nowMs order) ≤
        s.master.liveBytes tenant := by
      refine totalWeight_le_liveBytes keyed nodup fun key taken => ?_
      obtain ⟨own, cls, chosen⟩ := evictedFor_class enumerated taken
      obtain ⟨⟨object, there, committed, _⟩, _⟩ := keyClass_isSome_iff.mp ⟨cls, chosen⟩
      exact ⟨own, object, there, by rw [committed]; rfl⟩
    refine ⟨_, ?_, Nat.sub_add_cancel (used ▸ bound)⟩
    rw [evicted.1.quotas, found]
    simp [TenantQuota.releaseDram]

end

private def replyOf (key : String) (status : ObjectStatus) (hardPinned : Bool) (softPinnedUntilMs : Option Nat) :
    CacheObjectMeta :=
  ⟨⟨"tenant-a"⟩, ⟨key⟩, 4, status, [], hardPinned, softPinnedUntilMs⟩

private def pinnedReplies : MasterMetadataSnapshot :=
  ⟨[replyOf "plain" .committed false none, replyOf "soft" .committed false (some 100),
    replyOf "hard" .committed true none], [(⟨"tenant-a"⟩, ⟨20, 0, 12, 0⟩)], 0⟩

private def pinnedOrder : List (Entry ObjectKey CacheObjectMeta) :=
  pinnedReplies.objects.map fun object => ⟨(object.tenantId, object.cacheKey), object⟩

private def pinnedMaster : MasterState := fromMetadataSnapshot pinnedReplies

private theorem pinnedMaster_counted : pinnedMaster.ExactFor ⟨"tenant-a"⟩ := by
  have record : pinnedMaster.quotas.lookup ⟨"tenant-a"⟩ = some ⟨20, 0, 12, 0⟩ := by decide
  have live : pinnedMaster.liveBytes ⟨"tenant-a"⟩ = 12 := by decide
  intro quota found
  rw [live, ← Option.some.inj (record.symm.trans found)]

/-- Of a plain reply, one under a soft pin and one under a hard pin the first two are evicted. -/
theorem pinned_replies_evicted :
    (pinnedMaster.evictForTenant ⟨"tenant-a"⟩ 5 20 pinnedOrder).1 = .ok 8 ∧
    (pinnedMaster.evictForTenant ⟨"tenant-a"⟩ 5 20 pinnedOrder).2.quotas.lookup ⟨"tenant-a"⟩ = some ⟨20, 0, 4, 0⟩ := by
  have ready : Run ClockedMaster.Step ⟨pinnedMaster, 0⟩ [] _ := .start
  have enabled : (MasterOp.evictForTenant ⟨"tenant-a"⟩ 5 20 pinnedOrder).Enabled pinnedMaster := by decide
  have record : pinnedMaster.quotas.lookup ⟨"tenant-a"⟩ = some ⟨20, 0, 12, 0⟩ := by decide
  have reclaimed : (pinnedMaster.evictForTenant ⟨"tenant-a"⟩ 5 20 pinnedOrder).1 = .ok 8 := by decide
  obtain ⟨keys, evicts, lowered⟩ := eviction_exact ready (Nat.zero_le 20) enabled
  obtain ⟨after, found, left⟩ := lowered (.start pinnedMaster_counted) _ record
  have total := Except.ok.inj (evicts.result.symm.trans reclaimed)
  have bytes : after = 4 := by
    simp only [wordMax] at total left
    omega
  exact ⟨reclaimed, bytes ▸ found⟩

/-- Two objects of half a word each, a quota whose usage stops at the largest word, and one of them removed. -/
private def clampedUsage : List TimedOp :=
  [⟨.mountSegment "store-0" wordMax, 0⟩, ⟨.mountSegment "store-1" wordMax, 0⟩,
    ⟨.putStart ⟨"tenant-a"⟩ ⟨"first"⟩ 9223372036854775808 1, 0⟩, ⟨.putEnd ⟨"tenant-a"⟩ ⟨"first"⟩, 0⟩,
    ⟨.putStart ⟨"tenant-a"⟩ ⟨"second"⟩ 9223372036854775808 1, 0⟩, ⟨.putEnd ⟨"tenant-a"⟩ ⟨"second"⟩, 0⟩,
    ⟨.setTenantQuota "tenant-a" wordMax 0, 0⟩, ⟨.remove ⟨"tenant-a"⟩ ⟨"first"⟩, 0⟩]

private theorem clampedUsage_run :
    Run ClockedMaster.Step ⟨new, 0⟩ clampedUsage (clampedUsage.foldl ClockedMaster.apply ⟨new, 0⟩) :=
  Run.of_allowed (fun _ _ allowed => ⟨allowed, rfl⟩) ⟨⟨le_rfl, trivial, by decide⟩, ⟨le_rfl, trivial, by decide⟩,
    ⟨le_rfl, trivial, by decide⟩, ⟨le_rfl, trivial, trivial⟩, ⟨le_rfl, trivial, by decide⟩, ⟨le_rfl, trivial, trivial⟩,
    ⟨le_rfl, trivial, by decide⟩, ⟨le_rfl, trivial, trivial⟩, trivial⟩

private def secondOrder : List (Entry ObjectKey CacheObjectMeta) :=
  [⟨(⟨"tenant-a"⟩, ⟨"second"⟩),
    ⟨⟨"tenant-a"⟩, ⟨"second"⟩, 9223372036854775808, .committed, [⟨"store-1", 0, 9223372036854775808⟩], false, none⟩⟩]

/-- A restored master evicts an object under a lease of the master before it, and usage that was clamped when the
quota was set is not lowered by all that is evicted. -/
theorem eviction_forgets_leases_and_clamped_usage :
    (¬ ∀ clockMs trace s, Run ClockedMaster.Step ⟨new, clockMs⟩ trace s → ∀ objects quotas,
      s.master.Enumerates objects quotas → ∀ tenant target nowMs order, s.clockMs ≤ nowMs →
      (MasterOp.evictForTenant tenant target nowMs order).Enabled (s.master.restored objects quotas) →
      ∀ key list, Leased key list trace → nowMs < list.lease.expiresAtMs → ∀ object,
        ((s.master.restored objects quotas).evictForTenant tenant target nowMs order).2.objects.lookup key = some object →
        object.status ≠ .evicted) ∧
    ¬ ∀ clockMs trace s, Run ClockedMaster.Step ⟨new, clockMs⟩ trace s → ∀ tenant target nowMs order, s.clockMs ≤ nowMs →
      (MasterOp.evictForTenant tenant target nowMs order).Enabled s.master → s.master.liveBytes tenant ≤ wordMax →
      ∀ quota reclaimed after, s.master.quotas.lookup tenant = some quota →
        (s.master.evictForTenant tenant target nowMs order).1 = .ok reclaimed →
        (s.master.evictForTenant tenant target nowMs order).2.quotas.lookup tenant = some after →
        after.usedDramBytes + reclaimed = quota.usedDramBytes := by
  constructor
  · intro spares
    obtain ⟨list, leased, ttl⟩ := readReply_leased
    let restored := (replay readReply).restored readReplyOrder []
    let evicted : CacheObjectMeta := ⟨⟨"tenant-a"⟩, ⟨"key"⟩, 4, .evicted, [⟨"store-0", 0, 4⟩], false, none⟩
    have found : (restored.evictForTenant ⟨"tenant-a"⟩ 4 20 readReplyOrder).2.objects.lookup (⟨"tenant-a"⟩, ⟨"key"⟩) =
        some evicted := by decide
    exact spares _ _ _ readReply_run readReplyOrder [] ⟨by decide, by decide⟩ ⟨"tenant-a"⟩ 4 20 readReplyOrder
      (by decide) (by decide) _ list leased (by rw [ttl]; decide) evicted found rfl
  · intro lowers
    have lowered := lowers _ _ _ clampedUsage_run ⟨"tenant-a"⟩ 9223372036854775808 0 secondOrder (by decide) (by decide)
      (by decide) ⟨wordMax, 0, 9223372036854775807, 0⟩ 9223372036854775808 ⟨wordMax, 0, 0, 0⟩ (by decide) (by decide)
      (by decide)
    exact absurd lowered (by decide)

end MasterState
end Mooncache
