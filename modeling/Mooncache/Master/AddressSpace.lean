import Mooncache.Master.Operations

/-! Which byte ranges of a store node the live objects hold. Replicas are addressed by
node while allocation goes by mounted segment, so exclusivity rests on the mounts. -/
namespace Mooncache

/-- Two replicas claim a common byte of one node. -/
def ReplicaDescriptor.Overlaps (replica other : ReplicaDescriptor) : Prop :=
  replica.nodeId = other.nodeId ∧ replica.offset < other.offset + other.len ∧
    other.offset < replica.offset + replica.len

theorem ReplicaDescriptor.Overlaps.symm {replica other : ReplicaDescriptor}
    (h : replica.Overlaps other) : other.Overlaps replica :=
  ⟨h.1.symm, h.2.2, h.2.1⟩

/-- An object and a position in its replica list. -/
abbrev ReplicaSlot := ObjectKey × Nat

namespace MasterState

/-- The slot belongs to a live object and names this replica. -/
def Holds (s : MasterState) (slot : ReplicaSlot) (replica : ReplicaDescriptor) : Prop :=
  ∃ object, s.objects.lookup slot.1 = some object ∧ object.status.live = true ∧
    object.replicas[slot.2]? = some replica

/-- Distinct replicas of live objects never overlap. -/
def NodeExclusive (s : MasterState) : Prop :=
  ∀ slot other replica another, s.Holds slot replica → s.Holds other another → slot ≠ other →
    ¬ replica.Overlaps another

theorem new_holds {slot : ReplicaSlot} {replica : ReplicaDescriptor} : ¬ new.Holds slot replica := by
  rintro ⟨object, hl, _⟩
  simp [new] at hl

private theorem holds_of_insert {s s' : MasterState} {key : ObjectKey} {object : CacheObjectMeta}
    {status : ObjectStatus} (hl : s.objects.lookup key = some object)
    (hs : s'.objects = s.objects.insert key { object with status := status })
    (live : status.live = true → object.status.live = true)
    {slot : ReplicaSlot} {replica : ReplicaDescriptor} (h : s'.Holds slot replica) :
    s.Holds slot replica := by
  obtain ⟨found, hf, alive, at_slot⟩ := h
  rw [hs] at hf
  rcases eq_or_ne slot.1 key with he | hne
  · rw [he, Finmap.lookup_insert, Option.some.injEq] at hf
    subst hf
    exact ⟨object, he ▸ hl, live alive, at_slot⟩
  · rw [Finmap.lookup_insert_of_ne _ hne] at hf
    exact ⟨found, hf, alive, at_slot⟩

/-- A change either takes no new replica and no new space, or places one new
object in the segments it chose. -/
theorem Change.placement {s s' : MasterState} (change : Change s s') :
    (s'.allocator = s.allocator ∧ ∀ slot replica, s'.Holds slot replica → s.Holds slot replica) ∨
    ∃ key len after indexes allocations, s.objects.lookup key = none ∧ 0 < len ∧
      SegmentAllocator.Allocated s.allocator.segments after len indexes allocations ∧
      s'.allocator = ⟨after⟩ ∧ ∀ slot replica, s'.Holds slot replica → s.Holds slot replica ∨
        (slot.1 = key ∧ ∃ index segment, indexes[slot.2]? = some index ∧
          s.allocator.segments[index]? = some segment ∧ segment.canFit len = true ∧
          replica = ⟨segment.nodeId, segment.nextOffset, len⟩) := by
  cases change with
  | bookkeeping => exact .inl ⟨rfl, fun _ _ h => h⟩
  | @reserve reserved key len allocations after indexes hl hr hlen hi spec =>
    refine .inr ⟨key, len, after, indexes, allocations, hl, hlen, spec, rfl, ?_⟩
    rintro ⟨other, i⟩ replica ⟨found, hf, alive, at_slot⟩
    rcases eq_or_ne other key with rfl | hne
    · simp only [Finmap.lookup_insert, Option.some.injEq] at hf
      subst hf
      obtain ⟨allocation, ha, rfl⟩ := by
        simpa only [List.getElem?_map, Option.map_eq_some_iff] using at_slot
      obtain ⟨index, segment, hi, hs, fit, rfl⟩ := spec.extent_at ha
      exact .inr ⟨rfl, index, segment, hi, hs, fit, rfl⟩
    · exact .inl ⟨found, by simpa [hne] using hf, alive, at_slot⟩
  | commit hl hs =>
    refine .inl ⟨rfl, fun slot replica h => holds_of_insert hl rfl (fun _ => ?_) h⟩
    rcases hs with hs | hs <;> rw [hs] <;> rfl
  | retire hl hd =>
    refine .inl ⟨retire_allocator _ _ _ _, fun slot replica h => ?_⟩
    exact holds_of_insert hl (retire_objects _ _ _ _) (fun alive => by simp [hd] at alive) h
  | @remove key object hl =>
    refine .inl ⟨releaseTenantQuota_allocator _ _ _, ?_⟩
    rintro slot replica ⟨found, hf, alive, at_slot⟩
    rw [releaseTenantQuota_objects] at hf
    rcases eq_or_ne slot.1 key with he | hne
    · rw [he, Finmap.lookup_erase] at hf
      cases hf
    · exact ⟨found, by simpa [hne] using hf, alive, at_slot⟩

/-- Each node has one segment with room at most, every live replica lies below the
next free offset of a segment of its node, and live replicas are exclusive. -/
structure Placed (s : MasterState) : Prop where
  nodes : ∀ (i j : Nat) (a b : MountedSegment), s.allocator.segments[i]? = some a → s.allocator.segments[j]? = some b → i ≠ j →
    a.nodeId = b.nodeId → a.len = 0 ∨ b.len = 0
  filled : ∀ (i : Nat) (a : MountedSegment), s.allocator.segments[i]? = some a → a.nextOffset ≤ a.len
  below : ∀ slot replica, s.Holds slot replica → ∃ (i : Nat) (a : MountedSegment), s.allocator.segments[i]? = some a ∧
    a.nodeId = replica.nodeId ∧ replica.offset + replica.len ≤ a.nextOffset
  exclusive : s.NodeExclusive

/-- The mount is empty, or no segment with room is mounted for its node yet. -/
def MountsFreshNode (s : MasterState) : MasterOp → Prop
  | .mountSegment nodeId len => len = 0 ∨
    ∀ segment ∈ s.allocator.segments, segment.nodeId = nodeId → segment.len = 0
  | _ => True

theorem new_placed : new.Placed where
  nodes i j a b ha := by simp [new] at ha
  filled i a ha := by simp [new] at ha
  below slot replica h := (new_holds h).elim
  exclusive slot other replica another h := (new_holds h).elim

/-- Space taken at the free end of a node's segment meets no live replica. -/
private theorem Placed.fresh_extent {s : MasterState} (h : s.Placed) {index len : Nat}
    {segment : MountedSegment} (hs : s.allocator.segments[index]? = some segment)
    (fit : segment.canFit len = true) (hlen : 0 < len) {slot : ReplicaSlot} {replica : ReplicaDescriptor}
    (held : s.Holds slot replica) :
    ¬ replica.Overlaps ⟨segment.nodeId, segment.nextOffset, len⟩ := by
  rintro ⟨node, before_end, after_start⟩
  obtain ⟨i, a, ha, own, bound⟩ := h.below slot replica held
  have room := (MountedSegment.canFit_iff.mp fit).2
  rcases eq_or_ne i index with rfl | hne
  · cases ha.symm.trans hs
    simp only at after_start
    omega
  · have top := h.filled i a ha
    rcases h.nodes i index a segment ha hs hne (own.trans node) with empty | empty
    · simp only at after_start
      omega
    · omega

theorem Change.placed {s s' : MasterState} (change : Change s s') (h : s.Placed) : s'.Placed := by
  rcases change.placement with ⟨same, kept⟩ |
    ⟨key, len, after, indexes, allocations, hl, hlen, spec, alloc, held⟩
  · refine ⟨?_, ?_, fun slot replica hh => ?_, fun slot other replica another hs ho => ?_⟩
    · rw [same]
      exact h.nodes
    · rw [same]
      exact h.filled
    · rw [same]
      exact h.below slot replica (kept _ _ hh)
    · exact h.exclusive slot other replica another (kept _ _ hs) (kept _ _ ho)
  · refine ⟨fun i j a b ha hb hij node => ?_, fun i a ha => ?_, fun slot replica hh => ?_,
      fun slot other replica another hs ho hne => ?_⟩
    · rw [alloc] at ha hb
      obtain ⟨oldA, ha, nodeA, lenA, _⟩ := spec.after_cases ha
      obtain ⟨oldB, hb, nodeB, lenB, _⟩ := spec.after_cases hb
      rw [lenA, lenB]
      exact h.nodes i j oldA oldB ha hb hij (nodeA.symm.trans (node.trans nodeB))
    · rw [alloc] at ha
      obtain ⟨old, ho, _, _, ⟨_, fit, rfl⟩ | ⟨_, rfl⟩⟩ := spec.after_cases ha
      · exact (MountedSegment.canFit_iff.mp fit).2
      · exact h.filled i _ ho
    · rw [alloc]
      rcases held slot replica hh with hh | ⟨_, index, segment, hi, hs, fit, rfl⟩
      · obtain ⟨i, old, ho, own, bound⟩ := h.below slot replica hh
        obtain ⟨next, hn, node, _, grown, _⟩ := spec.after_at ho
        exact ⟨i, next, hn, node.trans own, by omega⟩
      · obtain ⟨next, hn, node, _, _, taken⟩ := spec.after_at hs
        exact ⟨index, next, hn, node, by rw [taken (List.mem_of_getElem? hi)]⟩
    · rcases held slot replica hs with hs | ⟨hk, i, a, hi, ha, fit, rfl⟩
      · rcases held other another ho with ho | ⟨_, j, b, hj, hb, fit, rfl⟩
        · exact h.exclusive slot other replica another hs ho hne
        · exact h.fresh_extent hb fit hlen hs
      · rcases held other another ho with ho | ⟨hk', j, b, hj, hb, fit', rfl⟩
        · exact fun overlap => h.fresh_extent ha fit hlen ho overlap.symm
        · rintro ⟨node, _, _⟩
          have hij : i ≠ j := by
            rintro rfl
            have hlt := (List.getElem?_eq_some_iff.mp hi).1
            have positions := (List.getElem?_inj hlt spec.nodup).mp (hi.trans hj.symm)
            exact hne (Prod.ext (hk.trans hk'.symm) positions)
          have roomA := (MountedSegment.canFit_iff.mp fit).2
          have roomB := (MountedSegment.canFit_iff.mp fit').2
          rcases h.nodes i j a b ha hb hij node with empty | empty <;> omega

theorem Changes.placed {s s' : MasterState} (changes : Changes s s') (h : s.Placed) : s'.Placed := by
  induction changes with
  | refl => exact h
  | tail _ last ih => exact last.placed ih

theorem mountSegment_placed {s : MasterState} (h : s.Placed) {nodeId : String} {len : Nat}
    (fresh : s.MountsFreshNode (.mountSegment nodeId len)) : (s.mountSegment nodeId len).Placed := by
  have mounted (i : Nat) (a : MountedSegment)
      (ha : (s.mountSegment nodeId len).allocator.segments[i]? = some a) :
      s.allocator.segments[i]? = some a ∨ (i = s.allocator.segments.length ∧ a = ⟨nodeId, len, 0⟩) := by
    simp only [mountSegment, SegmentAllocator.mountSegment, List.getElem?_append] at ha
    split at ha
    · exact .inl ha
    · obtain ⟨hi, he⟩ := List.getElem?_eq_some_iff.mp ha
      simp only [List.length_singleton] at hi
      simp only [List.getElem_singleton] at he
      exact .inr ⟨by omega, he.symm⟩
  have apart (i : Nat) (a : MountedSegment) (ha : s.allocator.segments[i]? = some a)
      (node : a.nodeId = nodeId) : a.len = 0 ∨ len = 0 := by
    rcases fresh with empty | fresh
    · exact .inr empty
    · exact .inl (fresh a (List.mem_of_getElem? ha) node)
  refine ⟨fun i j a b ha hb hij node => ?_, fun i a ha => ?_, fun slot replica hh => ?_, h.exclusive⟩
  · rcases mounted i a ha with ha | ⟨hi, rfl⟩ <;> rcases mounted j b hb with hb | ⟨hj, rfl⟩
    · exact h.nodes i j a b ha hb hij node
    · exact apart i a ha node
    · exact (apart j b hb node.symm).symm
    · omega
  · rcases mounted i a ha with ha | ⟨_, rfl⟩
    · exact h.filled i a ha
    · exact Nat.zero_le _
  · obtain ⟨i, a, ha, own, bound⟩ := h.below slot replica hh
    have hlt := (List.getElem?_eq_some_iff.mp ha).1
    refine ⟨i, a, ?_, own, bound⟩
    simp only [mountSegment, SegmentAllocator.mountSegment, List.getElem?_append_left hlt, ha]

theorem Step.placed {s s' : MasterState} {op : MasterOp} (h : s.Placed) (fresh : s.MountsFreshNode op)
    (step : Step s op s') : s'.Placed := by
  obtain ⟨_, rfl⟩ := step
  rcases apply_cases s op with ⟨tenantId, dramBytes, ssdBytes, rfl⟩ | ⟨nodeId, len, rfl⟩ | changes
  · simp only [MasterOp.apply, setTenantQuota]
    split
    · exact h
    · exact ⟨h.nodes, h.filled, h.below, h.exclusive⟩
  · exact mountSegment_placed h fresh
  · exact changes.placed h

/-- Where no node is mounted twice, live replicas never overlap. -/
theorem node_exclusive_of_fresh_mounts {trace : List MasterOp} {s : MasterState}
    (run : Run (Guarded MountsFreshNode Step) new trace s) : s.NodeExclusive :=
  (run.invariant (P := fun _ (s : MasterState) => s.Placed) new_placed
    fun _ h step => Step.placed h step.1 step.2).exclusive

private def twoNodes : MasterState :=
  (((new.mountSegment "store-0" 16).mountSegment "store-1" 16).putStart ⟨"tenant-a"⟩ ⟨"key"⟩ 4 2).2

private theorem twoNodes_run : Run (Guarded MountsFreshNode Step) new [.mountSegment "store-0" 16,
    .mountSegment "store-1" 16, .putStart ⟨"tenant-a"⟩ ⟨"key"⟩ 4 2] twoNodes :=
  ((Run.start.snoc ⟨.inr (by decide), by decide, rfl⟩).snoc ⟨.inr (by decide), by decide, rfl⟩).snoc
    ⟨trivial, by decide, rfl⟩

/-- Two nodes, one object with a replica on each. -/
theorem node_exclusive_of_two_nodes :
    twoNodes.Holds ((⟨"tenant-a"⟩, ⟨"key"⟩), 1) ⟨"store-1", 0, 4⟩ ∧ twoNodes.NodeExclusive := by
  refine ⟨⟨⟨⟨"tenant-a"⟩, ⟨"key"⟩, 4, .reserving, [⟨"store-0", 0, 4⟩, ⟨"store-1", 0, 4⟩], false, none⟩,
    by decide, rfl, rfl⟩, node_exclusive_of_fresh_mounts twoNodes_run⟩

private def remounted : MasterState :=
  ((((new.mountSegment "store-0" 16).mountSegment "store-0" 16).putStart ⟨"tenant-a"⟩ ⟨"key"⟩ 16 1).2.putStart
    ⟨"tenant-b"⟩ ⟨"key"⟩ 16 1).2

private theorem remounted_run : Run Step new [.mountSegment "store-0" 16, .mountSegment "store-0" 16,
    .putStart ⟨"tenant-a"⟩ ⟨"key"⟩ 16 1, .putStart ⟨"tenant-b"⟩ ⟨"key"⟩ 16 1] remounted :=
  (((Run.start.snoc ⟨by decide, rfl⟩).snoc ⟨by decide, rfl⟩).snoc ⟨by decide, rfl⟩).snoc ⟨by decide, rfl⟩

/-- A node mounted twice hands the same bytes to two tenants. -/
theorem remounted_node_overlaps :
    ¬ ∀ trace s, Run Step new trace s → s.NodeExclusive := by
  intro exclusive
  refine exclusive _ _ remounted_run ((⟨"tenant-a"⟩, ⟨"key"⟩), 0) ((⟨"tenant-b"⟩, ⟨"key"⟩), 0)
    ⟨"store-0", 0, 16⟩ ⟨"store-0", 0, 16⟩ ?_ ?_ (by decide) ⟨rfl, by decide, by decide⟩
  · exact ⟨⟨⟨"tenant-a"⟩, ⟨"key"⟩, 16, .reserving, [⟨"store-0", 0, 16⟩], false, none⟩, by decide, rfl, rfl⟩
  · exact ⟨⟨⟨"tenant-b"⟩, ⟨"key"⟩, 16, .reserving, [⟨"store-0", 0, 16⟩], false, none⟩, by decide, rfl, rfl⟩

end MasterState
end Mooncache
