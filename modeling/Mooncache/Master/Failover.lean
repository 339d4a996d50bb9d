import Mooncache.Master.AddressSpace
import Mooncache.Master.Snapshot
import Mathlib.Data.Fintype.EquivFin

/-! Start-up of the next leader. The snapshot carries the objects but not the offsets
of the segments, so the segments it mounts are handed out from the start again. -/
namespace Mooncache
namespace MasterState

def mountAll (s : MasterState) (segments : List (String × Nat)) : MasterState :=
  segments.foldl (fun s segment => s.mountSegment segment.1 segment.2) s

/-- Restore the persisted snapshot, then mount the configured segments. -/
def failover (s : MasterState) (objects : List (Entry ObjectKey CacheObjectMeta))
    (quotas : List (Entry TenantId TenantQuota)) (segments : List (String × Nat)) : MasterState :=
  (s.restored objects quotas).mountAll segments

/-- The same node ids with the same lengths as `s` has mounted, in any order. -/
def Remounts (s : MasterState) (segments : List (String × Nat)) : Prop :=
  segments.Perm (s.allocator.segments.map fun segment => (segment.nodeId, segment.len))

inductive LeaderEvent where
  | op (op : MasterOp)
  | failover (objects : List (Entry ObjectKey CacheObjectMeta))
      (quotas : List (Entry TenantId TenantQuota)) (segments : List (String × Nat))

def LeaderStep (s : MasterState) : LeaderEvent → MasterState → Prop
  | .op op, s' => Step s op s'
  | .failover objects quotas segments, s' =>
    s.Enumerates objects quotas ∧ s.Remounts segments ∧ s' = s.failover objects quotas segments

/-- A leader mounts each node id once. -/
def MountsOnce (s : MasterState) : LeaderEvent → Prop
  | .op (.mountSegment nodeId _) => ∀ segment ∈ s.allocator.segments, segment.nodeId ≠ nodeId
  | _ => True

def Leader (s : MasterState) : Prop := ∃ trace, Run (Guarded MountsOnce LeaderStep) new trace s

/-- No reservation made after this failover touches a replica of a live object from before. -/
def FailoverExclusive (s : MasterState) (objects : List (Entry ObjectKey CacheObjectMeta))
    (quotas : List (Entry TenantId TenantQuota)) (segments : List (String × Nat)) : Prop :=
  ∀ trace s', Run Step (s.failover objects quotas segments) trace s' →
    ∀ tenant key len replicaCount replicas s'', len ≤ wordMax →
      s'.putStart tenant key len replicaCount = (.ok replicas, s'') →
      ∀ replica ∈ replicas, ∀ slot carried, s.Holds slot carried → ¬ replica.Overlaps carried

/-- Every live object has a replica, and every replica of one lies inside a segment
mounted for its node. -/
structure Backed (s : MasterState) : Prop where
  keyed : s.Keyed
  replicated : ∀ key object, s.objects.lookup key = some object → object.status.live = true →
    object.replicas ≠ []
  inside : ∀ slot replica, s.Holds slot replica → 0 < replica.len ∧ ∃ segment ∈ s.allocator.segments,
    segment.nodeId = replica.nodeId ∧ replica.offset + replica.len ≤ segment.len
  words : ∀ segment ∈ s.allocator.segments, segment.len ≤ wordMax

theorem new_backed : new.Backed where
  keyed := new_keyed
  replicated key object h := by simp [new] at h
  inside slot replica h := (new_holds h).elim
  words segment h := by simp [new] at h

private theorem Change.replicated {s s' : MasterState} (change : Change s s')
    (h : ∀ key object, s.objects.lookup key = some object → object.status.live = true →
      object.replicas ≠ []) (key : ObjectKey) (object : CacheObjectMeta)
    (hl : s'.objects.lookup key = some object) (alive : object.status.live = true) :
    object.replicas ≠ [] := by
  have inserted {own : ObjectKey} {next : CacheObjectMeta} (hs : s'.objects = s.objects.insert own next)
      (hn : next.status.live = true → next.replicas ≠ []) : object.replicas ≠ [] := by
    rw [hs] at hl
    rcases eq_or_ne key own with rfl | hne
    · rw [Finmap.lookup_insert, Option.some.injEq] at hl
      subst hl
      exact hn alive
    · rw [Finmap.lookup_insert_of_ne _ hne] at hl
      exact h key object hl alive
  cases change with
  | bookkeeping => exact h key object hl alive
  | @reserve _ _ _ allocations _ indexes _ _ _ hi spec =>
    refine inserted rfl fun _ => ?_
    have same := spec.extents.length_eq
    intro none
    rw [List.map_eq_nil_iff] at none
    rw [none] at same
    exact hi (List.length_eq_zero_iff.mp same)
  | @commit own found hf hs =>
    have live : found.status.live = true := by rcases hs with hs | hs <;> rw [hs] <;> rfl
    have replicas := h own found hf live
    exact inserted rfl fun _ => replicas
  | retire hf hd => exact inserted (retire_objects _ _ _ _) fun live => by simp [hd] at live
  | @remove own _ hf =>
    rw [releaseTenantQuota_objects] at hl
    rcases eq_or_ne key own with rfl | hne
    · simp at hl
    · exact h key object (by simpa [hne] using hl) alive

theorem Change.backed {s s' : MasterState} (change : Change s s') (h : s.Backed) : s'.Backed := by
  rcases change.placement with ⟨same, kept⟩ |
    ⟨key, len, after, indexes, allocations, hl, hlen, spec, alloc, held⟩
  · refine ⟨change.keyed h.keyed, change.replicated h.replicated, fun slot replica hh => ?_, ?_⟩
    · rw [same]
      exact h.inside slot replica (kept _ _ hh)
    · rw [same]
      exact h.words
  · refine ⟨change.keyed h.keyed, change.replicated h.replicated, fun slot replica hh => ?_,
      fun segment hs => ?_⟩
    · rw [alloc]
      rcases held slot replica hh with hh | ⟨_, index, segment, hi, hs, fit, rfl⟩
      · obtain ⟨positive, segment, hm, node, bound⟩ := h.inside slot replica hh
        obtain ⟨i, hi⟩ := List.mem_iff_getElem?.mp hm
        obtain ⟨next, hn, same, length, _⟩ := spec.after_at hi
        exact ⟨positive, next, List.mem_of_getElem? hn, same.trans node, by omega⟩
      · obtain ⟨next, hn, same, length, _⟩ := spec.after_at hs
        have room := (MountedSegment.canFit_iff.mp fit).2
        exact ⟨hlen, next, List.mem_of_getElem? hn, same, by simpa only [length] using room⟩
    · rw [alloc] at hs
      obtain ⟨i, hi⟩ := List.mem_iff_getElem?.mp hs
      obtain ⟨old, ho, _, length, _⟩ := spec.after_cases hi
      rw [length]
      exact h.words old (List.mem_of_getElem? ho)

theorem Changes.backed {s s' : MasterState} (changes : Changes s s') (h : s.Backed) : s'.Backed := by
  induction changes with
  | refl => exact h
  | tail _ last ih => exact last.backed ih

theorem mountSegment_backed {s : MasterState} (h : s.Backed) (nodeId : String) {len : Nat}
    (word : len ≤ wordMax) : (s.mountSegment nodeId len).Backed := by
  refine ⟨h.keyed, h.replicated, fun slot replica hh => ?_, fun segment hs => ?_⟩
  · obtain ⟨positive, segment, hm, rest⟩ := h.inside slot replica hh
    exact ⟨positive, segment, List.mem_append_left _ hm, rest⟩
  · rcases List.mem_append.mp hs with hs | hs
    · exact h.words segment hs
    · rw [List.mem_singleton.mp hs]
      exact word

theorem apply_backed {s : MasterState} (h : s.Backed) {op : MasterOp} (enabled : op.Enabled s) :
    (op.apply s).Backed := by
  rcases apply_cases s op with ⟨tenantId, dramBytes, ssdBytes, rfl⟩ | ⟨nodeId, len, rfl⟩ | changes
  · simp only [MasterOp.apply, setTenantQuota]
    split
    · exact h
    · exact ⟨h.keyed, h.replicated, h.inside, h.words⟩
  · exact mountSegment_backed h nodeId enabled
  · exact changes.backed h

theorem mountAll_eq (s : MasterState) (segments : List (String × Nat)) :
    s.mountAll segments = { s with
      allocator := ⟨s.allocator.segments ++ segments.map fun segment => ⟨segment.1, segment.2, 0⟩⟩ } := by
  induction segments generalizing s with
  | nil => simp [mountAll]
  | cons segment rest ih =>
    rw [mountAll, List.foldl_cons, ← mountAll, ih]
    simp [mountSegment, SegmentAllocator.mountSegment]

/-- After a failover the objects and quotas are there again and every segment is empty. -/
theorem failover_eq {s : MasterState} (h : s.Keyed) {objects : List (Entry ObjectKey CacheObjectMeta)}
    {quotas : List (Entry TenantId TenantQuota)} (he : s.Enumerates objects quotas)
    (segments : List (String × Nat)) :
    s.failover objects quotas segments = { new with
      objects := s.objects, quotas := s.quotas, evictionsTotal := s.evictionsTotal
      allocator := ⟨segments.map fun segment => ⟨segment.1, segment.2, 0⟩⟩ } := by
  rw [failover, mountAll_eq, restored_eq h he]
  rfl

theorem failover_backed {s : MasterState} (h : s.Backed) {objects : List (Entry ObjectKey CacheObjectMeta)}
    {quotas : List (Entry TenantId TenantQuota)} (he : s.Enumerates objects quotas)
    {segments : List (String × Nat)} (hm : s.Remounts segments) :
    (s.failover objects quotas segments).Backed := by
  rw [failover_eq h.keyed he]
  have mounted (segment : MountedSegment) (hs : segment ∈ s.allocator.segments) :
      (segment.nodeId, segment.len) ∈ segments :=
    hm.mem_iff.mpr (List.mem_map.mpr ⟨segment, hs, rfl⟩)
  refine ⟨h.keyed, h.replicated, fun slot replica hh => ?_, fun segment hs => ?_⟩
  · obtain ⟨positive, segment, hs, node, bound⟩ := h.inside slot replica hh
    exact ⟨positive, ⟨segment.nodeId, segment.len, 0⟩,
      List.mem_map.mpr ⟨_, mounted segment hs, rfl⟩, node, bound⟩
  · obtain ⟨pair, hp, rfl⟩ := List.mem_map.mp hs
    obtain ⟨old, ho, rfl⟩ := List.mem_map.mp (hm.mem_iff.mp hp)
    exact h.words old ho

theorem Leader.backed {s : MasterState} (leader : Leader s) : s.Backed := by
  obtain ⟨trace, run⟩ := leader
  refine run.invariant (P := fun _ (s : MasterState) => s.Backed) new_backed ?_
  rintro _ s (op | ⟨objects, quotas, segments⟩) s' _ h ⟨_, step⟩
  · obtain ⟨enabled, rfl⟩ := step
    exact apply_backed h enabled
  · obtain ⟨he, hm, rfl⟩ := step
    exact failover_backed h he hm

instance : Infinite TenantId :=
  Infinite.of_injective (fun n : Nat => (⟨String.ofList (List.replicate n 'a')⟩ : TenantId)) <| by
    intro m n h
    simpa using congrArg (fun tenant : TenantId => tenant.value.toList.length) h

/-- Some tenant has neither a quota record nor an object. -/
private theorem exists_unknown_tenant (s : MasterState) :
    ∃ tenant, s.quotas.lookup tenant = none ∧ ∀ key, s.objects.lookup (tenant, key) = none := by
  obtain ⟨tenant, hn⟩ := Infinite.exists_notMem_finset (s.quotas.keys ∪ s.objects.keys.image Prod.fst)
  simp only [Finset.mem_union, Finset.mem_image, not_or, not_exists, not_and] at hn
  refine ⟨tenant, Finmap.lookup_eq_none.mpr fun h => hn.1 (Finmap.mem_keys.mpr h), fun key => ?_⟩
  exact Finmap.lookup_eq_none.mpr fun h => hn.2 (tenant, key) (Finmap.mem_keys.mpr h) rfl

/-- A tenant without a quota that asks for a replica in every fitting segment gets them all. -/
private theorem putStart_everywhere {s : MasterState} {tenant : TenantId} {key : CacheKey}
    (hq : s.quotas.lookup tenant = none) (hl : s.objects.lookup (tenant, key) = none) {len index : Nat}
    {segment : MountedSegment} (hs : s.allocator.segments[index]? = some segment)
    (fit : segment.canFit len = true) (positive : 0 < len) :
    ∃ replicas s', s.putStart tenant key len
        (SegmentAllocator.fittingIndexes s.allocator.segments len).length = (.ok replicas, s') ∧
      ⟨segment.nodeId, segment.nextOffset, len⟩ ∈ replicas := by
  have chosen : index ∈ SegmentAllocator.fittingIndexes s.allocator.segments len :=
    SegmentAllocator.mem_fittingIndexes.mpr ⟨segment, hs, fit⟩
  have reserved : s.reserveTenantQuota tenant len = .ok s := by simp only [reserveTenantQuota, hq]
  have all : SegmentAllocator.segmentIndexes s.allocator.segments len
      (SegmentAllocator.fittingIndexes s.allocator.segments len).length =
      SegmentAllocator.fittingIndexes s.allocator.segments len := List.take_length
  rcases SegmentAllocator.allocate_cases s.allocator len
      (SegmentAllocator.fittingIndexes s.allocator.segments len).length with
    ⟨err, _, empty | none | short⟩ | ⟨_, _, allocations, after, indexes, he, hi, _, spec⟩
  · omega
  · exact absurd (List.length_eq_zero_iff.mp none) (List.ne_nil_of_mem chosen)
  · exact absurd (congrArg List.length all) short
  · refine ⟨_, _, by simp only [putStart, hl, reserved, he]; rfl, ?_⟩
    exact List.mem_map.mpr ⟨_, spec.extent_of ((hi.trans all).symm ▸ chosen) hs, rfl⟩

/-- A failover keeps extents exclusive exactly when it carries no live object over. -/
theorem failover_exclusive_iff {s : MasterState} (leader : Leader s)
    {objects : List (Entry ObjectKey CacheObjectMeta)} {quotas : List (Entry TenantId TenantQuota)}
    {segments : List (String × Nat)} (enumerated : s.Enumerates objects quotas)
    (remounted : s.Remounts segments) :
    s.FailoverExclusive objects quotas segments ↔
      ∀ key object, s.objects.lookup key = some object → object.status.live = false := by
  have backed := leader.backed
  constructor
  · intro exclusive key object hl
    by_contra alive
    rw [Bool.not_eq_false] at alive
    obtain ⟨carried, hc⟩ := List.exists_mem_of_ne_nil _ (backed.replicated key object hl alive)
    obtain ⟨i, hi⟩ := List.mem_iff_getElem?.mp hc
    have held : s.Holds (key, i) carried := ⟨object, hl, alive, hi⟩
    obtain ⟨positive, segment, hm, node, bound⟩ := backed.inside _ _ held
    have again : (⟨segment.nodeId, segment.len, 0⟩ : MountedSegment) ∈
        (s.failover objects quotas segments).allocator.segments := by
      rw [failover_eq backed.keyed enumerated]
      exact List.mem_map.mpr ⟨_, remounted.mem_iff.mpr (List.mem_map.mpr ⟨segment, hm, rfl⟩), rfl⟩
    obtain ⟨index, hs⟩ := List.mem_iff_getElem?.mp again
    obtain ⟨tenant, hq, unknown⟩ := exists_unknown_tenant (s.failover objects quotas segments)
    have word := backed.words segment hm
    have fit : MountedSegment.canFit ⟨segment.nodeId, segment.len, 0⟩ segment.len = true := by
      rw [MountedSegment.canFit_iff]
      simp only
      omega
    obtain ⟨replicas, s'', started, taken⟩ := putStart_everywhere hq (unknown key.2) hs fit (by omega)
    refine exclusive [] _ .start tenant key.2 segment.len _ replicas s'' word started _ taken
      (key, i) carried held ⟨node, ?_, ?_⟩
    · simp only
      omega
    · simp only
      omega
  · rintro dead trace s' _ tenant key len replicaCount replicas s'' _ _ replica _ slot carried
      ⟨object, hl, alive, _⟩
    rw [dead slot.1 object hl] at alive
    cases alive

private def mounted : MasterState := new.mountSegment "default" 1048576

private def committedReply : CacheObjectMeta :=
  ⟨⟨"tenant-a"⟩, ⟨"key"⟩, 4, .committed, [⟨"default", 0, 4⟩], false, none⟩

private def storing : MasterState :=
  ((mounted.putStart ⟨"tenant-a"⟩ ⟨"key"⟩ 4 1).2.putEnd ⟨"tenant-a"⟩ ⟨"key"⟩).2

private theorem storing_run : Run (Guarded MountsOnce LeaderStep) new
    [.op (.mountSegment "default" 1048576), .op (.putStart ⟨"tenant-a"⟩ ⟨"key"⟩ 4 1),
      .op (.putEnd ⟨"tenant-a"⟩ ⟨"key"⟩)] storing :=
  ((Run.start.snoc ⟨by simp [MountsOnce, new], by decide, rfl⟩).snoc ⟨trivial, by decide, rfl⟩).snoc
    ⟨trivial, trivial, rfl⟩

private def evicted : MasterState :=
  (storing.evictForTenant ⟨"tenant-a"⟩ 4 0 [⟨(⟨"tenant-a"⟩, ⟨"key"⟩), committedReply⟩]).2

/-- The reply is evicted, and a second reservation is revoked. -/
private def spent : MasterState :=
  ((evicted.putStart ⟨"tenant-b"⟩ ⟨"key"⟩ 4 1).2.putRevoke ⟨"tenant-b"⟩ ⟨"key"⟩).2

private theorem spent_leader : Leader spent := by
  have evicts : Guarded MountsOnce LeaderStep storing
      (.op (.evictForTenant ⟨"tenant-a"⟩ 4 0 [⟨(⟨"tenant-a"⟩, ⟨"key"⟩), committedReply⟩])) evicted :=
    ⟨trivial, ⟨by decide, by decide⟩, rfl⟩
  have reserves : Guarded MountsOnce LeaderStep evicted (.op (.putStart ⟨"tenant-b"⟩ ⟨"key"⟩ 4 1))
      (evicted.putStart ⟨"tenant-b"⟩ ⟨"key"⟩ 4 1).2 := ⟨trivial, by decide, rfl⟩
  have revokes : Guarded MountsOnce LeaderStep (evicted.putStart ⟨"tenant-b"⟩ ⟨"key"⟩ 4 1).2
      (.op (.putRevoke ⟨"tenant-b"⟩ ⟨"key"⟩)) spent := ⟨trivial, trivial, rfl⟩
  exact ⟨_, ((storing_run.snoc evicts).snoc reserves).snoc revokes⟩

private def evictedReply : CacheObjectMeta := { committedReply with status := .evicted }

private def revokedReply : CacheObjectMeta :=
  ⟨⟨"tenant-b"⟩, ⟨"key"⟩, 4, .revoked, [⟨"default", 4, 4⟩], false, none⟩

private theorem spent_objects : spent.objects =
    ((∅ : Table ObjectKey CacheObjectMeta).insert (⟨"tenant-a"⟩, ⟨"key"⟩) evictedReply).insert (⟨"tenant-b"⟩, ⟨"key"⟩)
      revokedReply := by
  decide

/-- A leader whose objects are evicted and revoked hands over an exclusive address space. -/
theorem failover_exclusive_after_eviction : spent.FailoverExclusive
    [⟨(⟨"tenant-a"⟩, ⟨"key"⟩), evictedReply⟩, ⟨(⟨"tenant-b"⟩, ⟨"key"⟩), revokedReply⟩] [] [("default", 1048576)] := by
  refine (failover_exclusive_iff spent_leader ⟨by decide, by decide⟩ (.refl _)).mpr fun key object found => ?_
  rw [spent_objects] at found
  rcases eq_or_ne key (⟨"tenant-b"⟩, ⟨"key"⟩) with rfl | hne
  · rw [Finmap.lookup_insert] at found
    cases found
    rfl
  · rw [Finmap.lookup_insert_of_ne _ hne] at found
    rcases eq_or_ne key (⟨"tenant-a"⟩, ⟨"key"⟩) with rfl | other
    · rw [Finmap.lookup_insert] at found
      cases found
      rfl
    · rw [Finmap.lookup_insert_of_ne _ other] at found
      cases found

/-- The next leader hands a committed reply's bytes to another tenant. -/
theorem failover_overlaps_committed_reply :
    ¬ ∀ s objects quotas segments, Leader s → s.Enumerates objects quotas → s.Remounts segments →
      s.FailoverExclusive objects quotas segments := by
  intro exclusive
  refine exclusive storing [⟨(⟨"tenant-a"⟩, ⟨"key"⟩), committedReply⟩] [] [("default", 1048576)]
    ⟨_, storing_run⟩ ⟨by decide, by decide⟩ (.refl _) [] _ .start ⟨"tenant-b"⟩ ⟨"key"⟩ 4 1
    [⟨"default", 0, 4⟩] _ (by decide) rfl ⟨"default", 0, 4⟩ (by simp) ((⟨"tenant-a"⟩, ⟨"key"⟩), 0)
    ⟨"default", 0, 4⟩ ⟨committedReply, by decide, rfl, rfl⟩ ⟨rfl, by decide, by decide⟩

end MasterState
end Mooncache
