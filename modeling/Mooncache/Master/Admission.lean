import Mooncache.Master.Lifecycle
import Mooncache.Master.Retention

/-! When `put_start` succeeds: its own test in exact numbers, the keys whose object is
dead, and the bytes a run has handed out of each segment. -/
namespace Mooncache
namespace SegmentAllocator

theorem fittingIndexes_length (segments : List MountedSegment) (len : Nat) :
    (fittingIndexes segments len).length = segments.countP fun segment => segment.canFit len := by
  have counted (start : Nat) : ((segments.zipIdx start).filterMap fun pair =>
      if pair.1.canFit len then some pair.2 else none).length =
      segments.countP fun segment => segment.canFit len := by
    induction segments generalizing start with
    | nil => rfl
    | cons segment rest ih =>
      rw [List.zipIdx_cons, List.filterMap_cons, List.countP_cons]
      by_cases fit : segment.canFit len = true
      · simp only [fit, ↓reduceIte, List.length_cons, ih]
      · simp only [fit, Bool.false_eq_true, ↓reduceIte, ih, Nat.add_zero]
  exact counted 0

theorem allocate_ok_iff (allocator : SegmentAllocator) (len replicaCount : Nat) :
    (∃ allocations, (allocator.allocate len replicaCount).1 = .ok allocations) ↔
      0 < len ∧ 0 < replicaCount ∧
        replicaCount ≤ allocator.segments.countP fun segment => segment.canFit len := by
  rw [← fittingIndexes_length]
  rcases allocate_cases allocator len replicaCount with
    ⟨err, he, refused⟩ | ⟨positive, replicated, allocations, after, indexes, he, chosen, enough, _⟩
  · simp only [he, reduceCtorEq, exists_false, false_iff]
    simp only [segmentIndexes, List.length_take] at refused
    omega
  · rw [chosen, segmentIndexes, List.length_take] at enough
    simp only [he, Except.ok.injEq, exists_eq', true_iff]
    omega

end SegmentAllocator

namespace MasterState

/-- Limits and segment lengths are words. -/
structure Words (s : MasterState) : Prop where
  quotas : ∀ tenant quota, s.quotas.lookup tenant = some quota → quota.dramBytes ≤ wordMax
  segments : ∀ segment ∈ s.allocator.segments, segment.len ≤ wordMax

theorem new_words : new.Words where
  quotas tenant quota h := by simp [new] at h
  segments segment h := by simp [new] at h

private theorem reserveTenantQuota_words {s reserved : MasterState} {tenant : TenantId} {bytes : Nat}
    (h : s.Words) (reserve : s.reserveTenantQuota tenant bytes = .ok reserved) :
    ∀ other quota, reserved.quotas.lookup other = some quota → quota.dramBytes ≤ wordMax := by
  intro other quota found
  rcases reserveTenantQuota_cases reserve with ⟨_, rfl⟩ | ⟨record, present, _, _, rfl⟩
  · exact h.quotas other quota found
  · rcases eq_or_ne other tenant with rfl | hne
    · rw [Finmap.lookup_insert, Option.some.injEq] at found
      rw [← found]
      exact h.quotas other record present
    · rw [Finmap.lookup_insert_of_ne _ hne] at found
      exact h.quotas other quota found

theorem releaseTenantQuota_words {s : MasterState} (h : s.Words) (tenant : TenantId) (bytes : Nat) :
    (s.releaseTenantQuota tenant bytes).Words := by
  refine ⟨fun other quota found => ?_, by rw [releaseTenantQuota_allocator]; exact h.segments⟩
  unfold releaseTenantQuota at found
  split at found
  · exact h.quotas other quota found
  · rename_i record present
    rcases eq_or_ne other tenant with rfl | hne
    · rw [Finmap.lookup_insert, Option.some.injEq] at found
      rw [← found]
      exact h.quotas other record present
    · rw [Finmap.lookup_insert_of_ne _ hne] at found
      exact h.quotas other quota found

theorem Change.words {s s' : MasterState} (change : Change s s') (h : s.Words) : s'.Words := by
  cases change with
  | bookkeeping => exact ⟨h.quotas, h.segments⟩
  | reserve absent reserve _ _ spec =>
    have quotas := reserveTenantQuota_words h reserve
    refine ⟨quotas, fun segment member => ?_⟩
    obtain ⟨i, _, rfl⟩ := List.getElem_of_mem member
    obtain ⟨old, before, _, same, _⟩ := spec.after_cases (List.getElem?_eq_getElem ‹_›)
    rw [same]
    exact h.segments old (List.mem_of_getElem? before)
  | commit => exact ⟨h.quotas, h.segments⟩
  | @retire key object status =>
    have marked : ({ s with objects := s.objects.insert key { object with status := status } } : MasterState).Words :=
      ⟨h.quotas, h.segments⟩
    have released := releaseTenantQuota_words marked key.1 (quotaReservedBytes object)
    exact ⟨released.quotas, released.segments⟩
  | @remove key object =>
    have erased : ({ s with objects := s.objects.erase key } : MasterState).Words := ⟨h.quotas, h.segments⟩
    exact releaseTenantQuota_words erased key.1 (quotaReservedBytes object)

theorem Changes.words {s s' : MasterState} (changes : Changes s s') (h : s.Words) : s'.Words := by
  induction changes with
  | refl => exact h
  | tail _ last ih => exact last.words ih

theorem apply_words {s : MasterState} (h : s.Words) {op : MasterOp} (enabled : op.Enabled s) :
    (op.apply s).Words := by
  rcases apply_cases s op with ⟨tenantId, dramBytes, ssdBytes, rfl⟩ | ⟨nodeId, len, rfl⟩ | changes
  · simp only [MasterOp.apply, setTenantQuota]
    split
    · exact h
    · rename_i tenant _
      refine ⟨fun other quota found => ?_, h.segments⟩
      rcases eq_or_ne other tenant with rfl | hne
      · rw [Finmap.lookup_insert, Option.some.injEq] at found
        rw [← found]
        exact enabled.1
      · rw [Finmap.lookup_insert_of_ne _ hne] at found
        exact h.quotas other quota found
  · refine ⟨h.quotas, fun segment member => ?_⟩
    rcases List.mem_append.mp member with old | added
    · exact h.segments segment old
    · rw [List.mem_singleton.mp added]
      exact enabled
  · exact changes.words h

theorem run_words {trace : List MasterOp} {s : MasterState} (run : Run Step new trace s) : s.Words := by
  induction run with
  | start => exact new_words
  | snoc _ last ih =>
    obtain ⟨enabled, rfl⟩ := last
    exact apply_words ih enabled

/-- The tenant has no quota, or the bytes fit what is left of it. -/
def QuotaAdmits (s : MasterState) (tenant : TenantId) (len : Nat) : Prop :=
  ∀ quota, s.quotas.lookup tenant = some quota → quota.usedDramBytes + len ≤ quota.dramBytes

/-- A reservation of this size is possible, whatever its key holds. -/
structure Fits (s : MasterState) (tenant : TenantId) (len replicaCount : Nat) : Prop where
  positive : 0 < len
  replicated : 0 < replicaCount
  quota : s.QuotaAdmits tenant len
  room : replicaCount ≤ s.allocator.segments.countP fun segment => segment.nextOffset + len ≤ segment.len

/-- The object under the key is live. -/
def Live (s : MasterState) (key : ObjectKey) : Prop :=
  ∃ object, s.objects.lookup key = some object ∧ object.status.live = true

/-- The object under the key was revoked or evicted. -/
def Dead (s : MasterState) (key : ObjectKey) : Prop :=
  ∃ object, s.objects.lookup key = some object ∧ object.status.live = false

theorem reserveTenantQuota_ok_iff {s : MasterState} (words : s.Words) (tenant : TenantId) (len : Nat) :
    (∃ reserved, s.reserveTenantQuota tenant len = .ok reserved) ↔ s.QuotaAdmits tenant len := by
  constructor
  · rintro ⟨reserved, reserve⟩ quota found
    rcases reserveTenantQuota_cases reserve with ⟨absent, _⟩ | ⟨record, present, _, fits, _⟩
    · rw [found] at absent
      cases absent
    · cases found.symm.trans present
      exact fits
  · intro admits
    cases found : s.quotas.lookup tenant with
    | none => exact ⟨s, by simp only [reserveTenantQuota, found]⟩
    | some quota =>
      have fits := admits quota found
      have bound := words.quotas tenant quota found
      have taken : quota.reserveDram len = .ok { quota with usedDramBytes := quota.usedDramBytes + len } :=
        TenantQuota.reserveDram_eq_ok.mpr ⟨fits.trans bound, fits, rfl⟩
      exact ⟨_, by simp only [reserveTenantQuota, found, taken]; rfl⟩

/-- `put_start` succeeds exactly when its key holds no object at all and the reservation fits. -/
theorem putStart_ok_iff {s : MasterState} (words : s.Words) (tenant : TenantId) (key : CacheKey)
    (len replicaCount : Nat) :
    (∃ replicas, (s.putStart tenant key len replicaCount).1 = .ok replicas) ↔
      s.objects.lookup (tenant, key) = none ∧ s.Fits tenant len replicaCount := by
  have rooms : s.allocator.segments.countP (fun segment => segment.canFit len) =
      s.allocator.segments.countP fun segment => segment.nextOffset + len ≤ segment.len := by
    refine List.countP_congr fun segment member => ?_
    have bound := words.segments segment member
    rw [MountedSegment.canFit_iff, decide_eq_true_eq]
    omega
  constructor
  · rintro ⟨replicas, started⟩
    rcases putStart_cases s tenant key len replicaCount with
      ⟨err, he⟩ | ⟨reserved, allocations, after, indexes, absent, reserve, positive, replicated, chosen, enough, _, _⟩
    · rw [he] at started
      cases started
    · refine ⟨absent, positive, replicated, (reserveTenantQuota_ok_iff words tenant len).mp ⟨_, reserve⟩, ?_⟩
      rw [chosen, SegmentAllocator.segmentIndexes, List.length_take, SegmentAllocator.fittingIndexes_length,
        rooms] at enough
      omega
  · rintro ⟨absent, fits⟩
    obtain ⟨reserved, reserve⟩ := (reserveTenantQuota_ok_iff words tenant len).mpr fits.quota
    have same : reserved.allocator = s.allocator := by rw [reserveTenantQuota_frame reserve]
    obtain ⟨allocations, allocated⟩ := (s.allocator.allocate_ok_iff len replicaCount).mpr
      ⟨fits.positive, fits.replicated, by rw [rooms]; exact fits.room⟩
    rcases taken : s.allocator.allocate len replicaCount with ⟨result, allocator⟩
    rw [taken] at allocated
    cases allocated
    exact ⟨allocations.map replicaOf, by simp only [putStart, absent, reserve, same, taken]⟩

/-- `put_start` succeeds exactly on keys without a live object where the reservation
fits, unless the key holds a dead object: then it refuses a reservation that fits. -/
theorem putStart_admits_iff {trace : List MasterOp} {s : MasterState} (run : Run Step new trace s)
    (tenant : TenantId) (key : CacheKey) (len replicaCount : Nat) :
    ((∃ replicas, (s.putStart tenant key len replicaCount).1 = .ok replicas) ↔
        ¬ s.Live (tenant, key) ∧ s.Fits tenant len replicaCount) ↔
      ¬ (s.Dead (tenant, key) ∧ s.Fits tenant len replicaCount) := by
  rw [putStart_ok_iff (run_words run)]
  cases found : s.objects.lookup (tenant, key) with
  | none => simp [Live, Dead, found]
  | some object => cases live : object.status.live <;> simp [Live, Dead, found, live]

private def emptySegment : List MasterOp := [.mountSegment "store-0" 16]

private theorem emptySegment_run : Run Step new emptySegment (emptySegment.foldl MasterOp.apply new) :=
  Run.start.snoc ⟨by decide, rfl⟩

private theorem emptySegment_fits : (emptySegment.foldl MasterOp.apply new).Fits ⟨"tenant-a"⟩ 4 1 :=
  ⟨by decide, by decide, fun quota found => by simp [emptySegment, MasterOp.apply, mountSegment, new] at found,
    by decide⟩

/-- A first reservation that fits is admitted. -/
theorem putStart_admits_first :
    ∃ replicas, ((emptySegment.foldl MasterOp.apply new).putStart ⟨"tenant-a"⟩ ⟨"key"⟩ 4 1).1 = .ok replicas := by
  have nothing : (emptySegment.foldl MasterOp.apply new).objects.lookup (⟨"tenant-a"⟩, ⟨"key"⟩) = none := by decide
  refine ((putStart_admits_iff emptySegment_run ⟨"tenant-a"⟩ ⟨"key"⟩ 4 1).mpr ?_).mpr ⟨?_, emptySegment_fits⟩
  · rintro ⟨⟨object, found, _⟩, _⟩
    cases nothing.symm.trans found
  · rintro ⟨object, found, _⟩
    cases nothing.symm.trans found

private def revokedWrite : List MasterOp :=
  emptySegment ++ [.putStart ⟨"tenant-a"⟩ ⟨"key"⟩ 4 1, .putRevoke ⟨"tenant-a"⟩ ⟨"key"⟩]

private theorem revokedWrite_run : Run Step new revokedWrite (revokedWrite.foldl MasterOp.apply new) :=
  (emptySegment_run.snoc ⟨by decide, rfl⟩).snoc ⟨trivial, rfl⟩

/-- A key whose first write was revoked is refused a second one that fits. -/
theorem revoked_key_refused :
    ¬ ∀ trace s, Run Step new trace s → ∀ tenant key len replicaCount,
      ((∃ replicas, (s.putStart tenant key len replicaCount).1 = .ok replicas) ↔
        ¬ s.Live (tenant, key) ∧ s.Fits tenant len replicaCount) := by
  intro admits
  have dead : (revokedWrite.foldl MasterOp.apply new).objects.lookup (⟨"tenant-a"⟩, ⟨"key"⟩) =
      some ⟨⟨"tenant-a"⟩, ⟨"key"⟩, 4, .revoked, [⟨"store-0", 0, 4⟩], false, none⟩ := by decide
  have idle : ¬ (revokedWrite.foldl MasterOp.apply new).Live (⟨"tenant-a"⟩, ⟨"key"⟩) := by
    rintro ⟨object, found, live⟩
    cases dead.symm.trans found
    cases live
  have fits : (revokedWrite.foldl MasterOp.apply new).Fits ⟨"tenant-a"⟩ 4 1 := by
    refine ⟨by decide, by decide, fun quota found => ?_, by decide⟩
    have none : (revokedWrite.foldl MasterOp.apply new).quotas.lookup ⟨"tenant-a"⟩ = none := by decide
    cases none.symm.trans found
  obtain ⟨replicas, started⟩ :=
    (admits _ _ revokedWrite_run ⟨"tenant-a"⟩ ⟨"key"⟩ 4 1).mpr ⟨idle, fits⟩
  have refused : ((revokedWrite.foldl MasterOp.apply new).putStart ⟨"tenant-a"⟩ ⟨"key"⟩ 4 1).1 =
      .error (.conflict "object already exists") := by
    simp only [putStart, dead]
  cases refused.symm.trans started

/-- The bytes an operation takes out of the segment at a position. -/
def allotted (s : MasterState) (index : Nat) : MasterOp → Nat
  | .putStart tenant key len replicaCount =>
    match (s.putStart tenant key len replicaCount).1 with
    | .ok _ =>
      if index ∈ SegmentAllocator.segmentIndexes s.allocator.segments len replicaCount then len else 0
    | .error _ => 0
  | _ => 0

/-- The bytes a sequence of operations takes out of the segment at a position. Nothing is
subtracted for objects that are revoked, evicted or removed. -/
def handedOut (index : Nat) : MasterState → List MasterOp → Nat
  | _, [] => 0
  | s, op :: rest => s.allotted index op + handedOut index (op.apply s) rest

theorem handedOut_append (index : Nat) (s : MasterState) (first last : List MasterOp) :
    s.handedOut index (first ++ last) =
      s.handedOut index first + (first.foldl MasterOp.apply s).handedOut index last := by
  induction first generalizing s with
  | nil => simp [handedOut]
  | cons op rest ih => simp [handedOut, ih, Nat.add_assoc]

/-- The end of the last extent taken from the segment at a position. -/
def endOffset (s : MasterState) (index : Nat) : Nat :=
  (s.allocator.segments[index]?).elim 0 (·.nextOffset)

private theorem kept_endOffset (s : MasterState) {op : MasterOp} (index : Nat) (h : op.grows = false) :
    (op.apply s).endOffset index = s.endOffset index := by
  rw [endOffset, (apply_retains s op h).allocator, endOffset]

/-- An operation moves the end of a segment by exactly what it takes out of it. -/
theorem apply_endOffset (s : MasterState) (op : MasterOp) (index : Nat) :
    (op.apply s).endOffset index = s.endOffset index + s.allotted index op := by
  cases op with
  | putStart tenant key len replicaCount =>
    rcases putStart_cases s tenant key len replicaCount with
      ⟨err, he⟩ | ⟨reserved, allocations, after, indexes, _, _, _, _, chosen, _, spec, he⟩
    · simp only [MasterOp.apply, allotted, he, Nat.add_zero]
    · simp only [MasterOp.apply, allotted, he, ← chosen, endOffset, spec.segments]
      cases held : s.allocator.segments[index]? with
      | none =>
        have absent : index ∉ indexes := fun member => by
          obtain ⟨segment, found, _⟩ := spec.fits member
          cases held.symm.trans found
        simp [absent]
      | some segment =>
        by_cases member : index ∈ indexes
        · obtain ⟨found, hf, fit⟩ := spec.fits member
          cases held.symm.trans hf
          simp [member, MountedSegment.advance_nextOffset fit]
        · simp [member]
  | mountSegment nodeId len =>
    simp only [MasterOp.apply, mountSegment, SegmentAllocator.mountSegment, endOffset, allotted, Nat.add_zero]
    rcases lt_trichotomy index s.allocator.segments.length with lt | rfl | gt
    · rw [List.getElem?_append_left lt]
    · simp
    · rw [List.getElem?_eq_none (by simp; omega), List.getElem?_eq_none (by omega)]
  | setTenantQuota | putEnd | putRevoke | getReplicaList | remove | evictForTenant =>
    exact kept_endOffset s index (by rfl)

/-- A segment ends where everything a run ever took out of it ends. -/
theorem run_endOffset {trace : List MasterOp} {s : MasterState} (run : Run Step new trace s) (index : Nat) :
    s.endOffset index = new.handedOut index trace := by
  induction run with
  | start => rfl
  | snoc run last ih =>
    obtain ⟨_, rfl⟩ := last
    rw [handedOut_append, ← run_foldl run, ← ih, handedOut, handedOut, Nat.add_zero, apply_endOffset]

/-- A request for a new key of a tenant, in a state whose objects have all been revoked,
evicted or removed, that fits a whole segment and the tenant's quota. -/
structure Reclaimed (trace : List MasterOp) (s : MasterState) (tenant : TenantId) (key : CacheKey) (len : Nat) :
    Prop where
  idle : ∀ other, ¬ s.Live other
  unused : (new.history trace).eventsOf (tenant, key) = []
  positive : 0 < len
  mounted : ∃ segment ∈ s.allocator.segments, len ≤ segment.len
  quota : s.QuotaAdmits tenant len

/-- Such a request succeeds exactly when some segment has room for it beyond every extent
ever taken out of that segment, released or not. -/
theorem putStart_reclaims_iff {trace : List MasterOp} {s : MasterState} (run : Run Step new trace s)
    {tenant : TenantId} {key : CacheKey} {len : Nat} (reclaimed : Reclaimed trace s tenant key len) :
    (∃ replicas, (s.putStart tenant key len 1).1 = .ok replicas) ↔
      ∃ index segment, s.allocator.segments[index]? = some segment ∧
        new.handedOut index trace + len ≤ segment.len := by
  have absent : s.objects.lookup (tenant, key) = none := by
    have status := (run_follows run).status (tenant, key)
    rwa [LifecycleHistory.lastEvent, reclaimed.unused, List.getLast?_nil, Option.bind_none,
      Option.map_eq_none_iff] at status
  have ends (index : Nat) (segment : MountedSegment) (found : s.allocator.segments[index]? = some segment) :
      segment.nextOffset = new.handedOut index trace := by
    rw [← run_endOffset run, endOffset, found, Option.elim_some]
  rw [putStart_ok_iff (run_words run)]
  constructor
  · rintro ⟨_, fits⟩
    obtain ⟨segment, member, room⟩ := List.countP_pos_iff.mp fits.room
    obtain ⟨index, bound, rfl⟩ := List.getElem_of_mem member
    have found := List.getElem?_eq_getElem bound
    exact ⟨index, _, found, by rw [← ends index _ found]; simpa using room⟩
  · rintro ⟨index, segment, found, room⟩
    refine ⟨absent, reclaimed.positive, Nat.one_pos, reclaimed.quota, List.countP_pos_iff.mpr ?_⟩
    exact ⟨segment, List.mem_of_getElem? found, by rw [ends index segment found]; simpa using room⟩

private def removedWrite (len : Nat) : List MasterOp :=
  [.mountSegment "store-0" 16, .putStart ⟨"tenant-a"⟩ ⟨"key"⟩ len 1, .remove ⟨"tenant-a"⟩ ⟨"key"⟩]

private theorem removedWrite_run {len : Nat} (word : len ≤ wordMax) :
    Run Step new (removedWrite len) ((removedWrite len).foldl MasterOp.apply new) :=
  ((Run.start.snoc ⟨by decide, rfl⟩).snoc ⟨word, rfl⟩).snoc ⟨trivial, rfl⟩

private theorem removedWrite_reclaimed {len next : Nat}
    (empty : ((removedWrite len).foldl MasterOp.apply new).objects = ∅)
    (free : ((removedWrite len).foldl MasterOp.apply new).quotas = ∅)
    (mounted : ((removedWrite len).foldl MasterOp.apply new).allocator.segments.map (·.len) = [16])
    (unused : (new.history (removedWrite len)).eventsOf (⟨"tenant-a"⟩, ⟨"second"⟩) = [])
    (positive : 0 < next) (fits : next ≤ 16) :
    Reclaimed (removedWrite len) ((removedWrite len).foldl MasterOp.apply new) ⟨"tenant-a"⟩ ⟨"second"⟩ next where
  idle := by
    rintro other ⟨object, found, _⟩
    rw [empty, Finmap.lookup_empty] at found
    cases found
  unused := unused
  positive := positive
  mounted := by
    obtain ⟨segment, only, long⟩ := List.map_eq_singleton_iff.mp mounted
    exact ⟨segment, by rw [only]; exact List.mem_singleton_self segment, by omega⟩
  quota := by
    intro quota found
    rw [free, Finmap.lookup_empty] at found
    cases found

/-- Half a segment written and removed leaves the other half to the next key. -/
theorem half_reclaimed :
    ∃ replicas, (((removedWrite 8).foldl MasterOp.apply new).putStart ⟨"tenant-a"⟩ ⟨"second"⟩ 8 1).1 =
      .ok replicas :=
  (putStart_reclaims_iff (removedWrite_run (by decide))
    (removedWrite_reclaimed (by decide) (by decide) (by decide) (by decide) (by decide) (by decide))).mpr
      ⟨0, ⟨"store-0", 16, 8⟩, by decide, by decide⟩

/-- A whole segment written and removed is never handed out again. -/
theorem whole_segment_lost :
    ¬ ∀ trace s, Run Step new trace s → ∀ tenant key len, Reclaimed trace s tenant key len →
      ∃ replicas, (s.putStart tenant key len 1).1 = .ok replicas := by
  intro reclaims
  obtain ⟨replicas, started⟩ := reclaims _ _ (removedWrite_run (by decide)) ⟨"tenant-a"⟩ ⟨"second"⟩ 1
    (@removedWrite_reclaimed 16 1 (by decide) (by decide) (by decide) (by decide) (by decide) (by decide))
  have refused : (((removedWrite 16).foldl MasterOp.apply new).putStart ⟨"tenant-a"⟩ ⟨"second"⟩ 1 1).1 =
      .error (.conflict "insufficient mounted segment capacity") := by decide
  cases refused.symm.trans started

end MasterState
end Mooncache
