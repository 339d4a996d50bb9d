import Mooncache.Foundation.Runs
import Mooncache.Foundation.Tiling
import Mooncache.Master.Allocator

/-! The extents that a segment allocator returns over its life. Those of one mounted segment are
laid end to end; a segment is known by its position, as a node may mount several. -/
namespace Mooncache

/-- One call of the segment allocator with its result. -/
inductive AllocatorEvent where
  | mountSegment (nodeId : String) (len : Nat)
  | allocate (len replicaCount : Nat) (result : CacheResult (List SegmentAllocation))

def AllocatorEvent.mount : AllocatorEvent → Option (String × Nat)
  | mountSegment nodeId len => some (nodeId, len)
  | allocate .. => none

def AllocatorEvent.extents : AllocatorEvent → List SegmentAllocation
  | mountSegment .. => []
  | allocate _ _ (.ok allocations) => allocations
  | allocate _ _ (.error _) => []

/-- The node and the length of every segment mounted, in order. -/
def mounts (trace : List AllocatorEvent) : List (String × Nat) := trace.filterMap AllocatorEvent.mount

/-- All extents returned, in order. -/
def returned (trace : List AllocatorEvent) : List SegmentAllocation := trace.flatMap AllocatorEvent.extents

/-- The extents of a list that were taken from the segment at this position. -/
def placedAt (index : Nat) (placed : List (Nat × SegmentAllocation)) : List SegmentAllocation :=
  placed.filterMap fun (position, extent) => if position = index then some extent else none

/-- An allocator, and every extent it has returned with the position of its segment. -/
structure Placements where
  allocator : SegmentAllocator
  placed : List (Nat × SegmentAllocation)
  deriving DecidableEq, Repr

namespace SegmentAllocator

/-- The extents a call returns, each with the position it was taken from. -/
def placements (allocator : SegmentAllocator) (len replicaCount : Nat) : List (Nat × SegmentAllocation) :=
  match (allocator.allocate len replicaCount).1 with
  | .error _ => []
  | .ok allocations => (segmentIndexes allocator.segments len replicaCount).zip allocations

end SegmentAllocator

namespace Placements
open SegmentAllocator

def empty : Placements := ⟨⟨[]⟩, []⟩

inductive Step (s : Placements) : AllocatorEvent → Placements → Prop
  | mountSegment (nodeId : String) (len : Nat) :
      Step s (.mountSegment nodeId len) { s with allocator := s.allocator.mountSegment nodeId len }
  | allocate (len replicaCount : Nat) :
      Step s (.allocate len replicaCount (s.allocator.allocate len replicaCount).1)
        ⟨(s.allocator.allocate len replicaCount).2, s.placed ++ s.allocator.placements len replicaCount⟩

theorem placedAt_append (index : Nat) (placed more : List (Nat × SegmentAllocation)) :
    placedAt index (placed ++ more) = placedAt index placed ++ placedAt index more := List.filterMap_append

theorem placedAt_cons (index position : Nat) (extent : SegmentAllocation) (rest : List (Nat × SegmentAllocation)) :
    placedAt index ((position, extent) :: rest) =
      if position = index then extent :: placedAt index rest else placedAt index rest := by
  by_cases here : position = index <;> simp [placedAt, here]

theorem mem_placedAt {index : Nat} {placed : List (Nat × SegmentAllocation)} {extent : SegmentAllocation} :
    extent ∈ placedAt index placed ↔ (index, extent) ∈ placed := by
  simp only [placedAt, List.mem_filterMap]
  constructor
  · rintro ⟨⟨position, found⟩, member, same⟩
    by_cases here : position = index
    · simp only [here, ↓reduceIte, Option.some.injEq] at same
      rw [← here, ← same] at *
      exact member
    · simp [here] at same
  · exact fun member => ⟨_, member, if_pos rfl⟩

/-- A call returns one extent at the free end of each chosen segment, and none elsewhere. -/
theorem placedAt_zip {before after : List MountedSegment} {len : Nat} {indexes : List Nat}
    {allocations : List SegmentAllocation} (h : Allocated before after len indexes allocations) {index : Nat}
    {segment : MountedSegment} (found : before[index]? = some segment) :
    placedAt index (indexes.zip allocations) =
      if index ∈ indexes then [⟨segment.nodeId, segment.nextOffset, len⟩] else [] := by
  have nodup := h.nodup
  have extents := h.extents
  clear h
  induction extents with
  | nil => rfl
  | @cons position allocation rest _ head tail ih =>
    obtain ⟨chosen, there, _, rfl⟩ := head
    obtain ⟨fresh, nodup⟩ := List.nodup_cons.mp nodup
    rw [List.zip_cons_cons, placedAt_cons, ih nodup]
    by_cases here : position = index
    · subst here
      cases there.symm.trans found
      simp [fresh]
    · simp [here, Ne.symm here]

/-- A call keeps the node and the length of every segment. -/
theorem mounted_of_allocated {before after : List MountedSegment} {len : Nat} {indexes : List Nat}
    {allocations : List SegmentAllocation} (h : Allocated before after len indexes allocations) :
    after.map (fun segment => (segment.nodeId, segment.len)) =
      before.map fun segment => (segment.nodeId, segment.len) := by
  refine List.ext_getElem? fun index => ?_
  rw [List.getElem?_map, List.getElem?_map, h.segments, Option.map_map]
  refine congrArg (fun f => before[index]?.map f) (funext fun segment => ?_)
  by_cases chosen : index ∈ indexes <;> simp [chosen]

/-- The extents of every segment fill it up to its free end, which is within it. -/
structure Tiled (s : Placements) : Prop where
  known : ∀ index extent, (index, extent) ∈ s.placed → index < s.allocator.segments.length
  named : ∀ index segment, s.allocator.segments[index]? = some segment →
    ∀ extent ∈ placedAt index s.placed, extent.nodeId = segment.nodeId
  filled : ∀ index segment, s.allocator.segments[index]? = some segment →
    Tiles (·.offset) (·.len) 0 (placedAt index s.placed) segment.nextOffset
  inside : ∀ (index : Nat) (segment : MountedSegment), s.allocator.segments[index]? = some segment → segment.nextOffset ≤ segment.len

theorem empty_tiled : empty.Tiled where
  known index extent member := by simp [empty] at member
  named index segment found := by simp [empty] at found
  filled index segment found := by simp [empty] at found
  inside index segment found := by simp [empty] at found

private theorem Tiled.mount {s : Placements} (h : s.Tiled) (nodeId : String) (len : Nat) :
    Tiled { s with allocator := s.allocator.mountSegment nodeId len } := by
  have cases_at {index : Nat} {segment : MountedSegment}
      (found : (s.allocator.mountSegment nodeId len).segments[index]? = some segment) :
      s.allocator.segments[index]? = some segment ∨ (placedAt index s.placed = [] ∧ segment = ⟨nodeId, len, 0⟩) := by
    simp only [SegmentAllocator.mountSegment, List.getElem?_append] at found
    split at found
    · exact .inl found
    · rename_i past
      obtain ⟨_, rfl⟩ := List.getElem?_eq_some_iff.mp found
      refine .inr ⟨List.eq_nil_iff_forall_not_mem.mpr fun extent member => ?_, by simp⟩
      exact past (h.known index extent (mem_placedAt.mp member))
  refine ⟨fun index extent member => ?_, fun index segment found => ?_, fun index segment found => ?_,
    fun index segment found => ?_⟩
  · simp only [SegmentAllocator.mountSegment, List.length_append]
    exact Nat.lt_add_right _ (h.known index extent member)
  · rcases cases_at found with old | ⟨nothing, _⟩
    · exact h.named index segment old
    · simp [nothing]
  · rcases cases_at found with old | ⟨nothing, rfl⟩
    · exact h.filled index segment old
    · rw [nothing]
      exact rfl
  · rcases cases_at found with old | ⟨_, rfl⟩
    · exact h.inside index segment old
    · exact Nat.zero_le _

private theorem Tiled.allocated {s : Placements} (h : s.Tiled) {after : List MountedSegment} {len : Nat}
    {indexes : List Nat} {allocations : List SegmentAllocation}
    (chosen : Allocated s.allocator.segments after len indexes allocations) :
    Tiled ⟨⟨after⟩, s.placed ++ indexes.zip allocations⟩ := by
  have same : after.length = s.allocator.segments.length := by
    simpa only [List.length_map] using congrArg List.length (mounted_of_allocated chosen)
  refine ⟨fun index extent member => ?_, fun index segment found => ?_, fun index segment found => ?_,
    fun index segment found => ?_⟩
  · simp only [same]
    rcases List.mem_append.mp member with old | new
    · exact h.known index extent old
    · obtain ⟨segment, there, _⟩ := chosen.fits (List.of_mem_zip new).1
      exact (List.getElem?_eq_some_iff.mp there).1
  all_goals
    obtain ⟨old, there, node, length, ⟨member, fit, rfl⟩ | ⟨absent, rfl⟩⟩ := chosen.after_cases found
    all_goals have more := placedAt_zip chosen there
  · rw [placedAt_append, more, if_pos member]
    intro extent taken
    rcases List.mem_append.mp taken with earlier | new
    · exact h.named index old there extent earlier
    · cases List.mem_singleton.mp new
      rfl
  · rw [placedAt_append, more, if_neg absent, List.append_nil]
    exact h.named index segment there
  · rw [placedAt_append, more, if_pos member]
    exact (h.filled index old there).snoc rfl
  · rw [placedAt_append, more, if_neg absent, List.append_nil]
    exact h.filled index segment there
  · exact (MountedSegment.canFit_iff.mp fit).2
  · exact h.inside index segment there

theorem Tiled.step {s s' : Placements} {event : AllocatorEvent} (h : s.Tiled) (step : s.Step event s') : s'.Tiled := by
  cases step with
  | mountSegment nodeId len => exact h.mount nodeId len
  | allocate len replicaCount =>
    rcases allocate_cases s.allocator len replicaCount with
      ⟨err, refused, _⟩ | ⟨_, _, allocations, after, indexes, done, rfl, _, chosen⟩
    · rw [placements, refused, List.append_nil]
      exact h
    · rw [placements, done]
      exact h.allocated chosen

theorem run_tiled {trace : List AllocatorEvent} {s : Placements} (run : Run Step empty trace s) : s.Tiled :=
  run.invariant (P := fun _ s => s.Tiled) empty_tiled fun _ before step => before.step step

/-- The segments are those mounted, in order, and the extents those returned. -/
theorem run_accounts {trace : List AllocatorEvent} {s : Placements} (run : Run Step empty trace s) :
    s.allocator.segments.map (fun segment => (segment.nodeId, segment.len)) = mounts trace ∧
      s.placed.map Prod.snd = returned trace := by
  induction run with
  | start => exact ⟨rfl, rfl⟩
  | @snoc trace s s' event _ last ih =>
    obtain ⟨segments, extents⟩ := ih
    rw [mounts, List.filterMap_append, returned, List.flatMap_append, ← mounts, ← returned, ← segments, ← extents]
    cases last with
    | mountSegment nodeId len => simp [SegmentAllocator.mountSegment, AllocatorEvent.mount, AllocatorEvent.extents]
    | allocate len replicaCount =>
      rcases allocate_cases s.allocator len replicaCount with
        ⟨err, refused, _⟩ | ⟨_, _, allocations, after, indexes, done, rfl, _, chosen⟩
      · simp [placements, refused, AllocatorEvent.mount, AllocatorEvent.extents]
      · have all := List.map_snd_zip (Nat.le_of_eq chosen.extents.length_eq.symm)
        simp [placements, done, AllocatorEvent.mount, AllocatorEvent.extents, mounted_of_allocated chosen, all]

/-- A successful call takes one extent from each of as many different segments, and advances them
by a sum that fits the word. -/
theorem allocate_of_ok {allocator : SegmentAllocator} {len replicaCount : Nat} {allocations : List SegmentAllocation}
    (done : (allocator.allocate len replicaCount).1 = .ok allocations) :
    allocations.length = replicaCount ∧ (∀ extent ∈ allocations, extent.len = len) ∧
    ∃ indexes, indexes.length = replicaCount ∧ allocator.placements len replicaCount = indexes.zip allocations ∧
      Allocated allocator.segments (allocator.allocate len replicaCount).2.segments len indexes allocations ∧
      ∀ index ∈ indexes, ∃ segment, allocator.segments[index]? = some segment ∧
        segment.nextOffset + len ≤ wordMax ∧ saturatingAdd segment.nextOffset len = segment.nextOffset + len := by
  rcases allocate_cases allocator len replicaCount with
    ⟨err, refused, _⟩ | ⟨_, _, returns, after, indexes, same, rfl, count, chosen⟩
  · rw [refused] at done
    cases done
  · rw [same] at done
    cases done
    refine ⟨chosen.extents.length_eq ▸ count, fun extent member => ?_, _, count, ?_, ?_, fun index member => ?_⟩
    · obtain ⟨i, bound, rfl⟩ := List.getElem_of_mem member
      obtain ⟨_, _, _, _, _, he⟩ := chosen.extent_at (List.getElem?_eq_getElem bound)
      rw [he]
    · simp only [placements, same]
    · rw [same]
      exact chosen
    · obtain ⟨segment, there, fit⟩ := chosen.fits member
      have word := (MountedSegment.canFit_iff.mp fit).1
      exact ⟨segment, there, word, saturatingAdd_of_le word⟩

theorem allocate_of_error {allocator : SegmentAllocator} {len replicaCount : Nat} {err : CacheError}
    (failed : (allocator.allocate len replicaCount).1 = .error err) :
    (allocator.allocate len replicaCount).2 = allocator := by
  rcases allocate_cases allocator len replicaCount with ⟨_, refused, _⟩ | ⟨_, _, _, _, _, done, _⟩
  · rw [refused]
  · rw [done] at failed
    cases failed

/-- The extents of a run lie in the segments they were taken from, and those of one segment fill it
from its start to its free end, each byte once. -/
theorem exact_placements {trace : List AllocatorEvent} {s : Placements} (run : Run Step empty trace s) :
    s.allocator.segments.map (fun segment => (segment.nodeId, segment.len)) = mounts trace ∧
    s.placed.map Prod.snd = returned trace ∧
    (∀ index extent, (index, extent) ∈ s.placed → ∃ segment, s.allocator.segments[index]? = some segment ∧
      extent.nodeId = segment.nodeId ∧ extent.offset + extent.len ≤ segment.len) ∧
    (∀ (index : Nat) segment, s.allocator.segments[index]? = some segment →
      (placedAt index s.placed).Pairwise (fun extent later => extent.offset + extent.len ≤ later.offset) ∧
      ∀ byte, byte < segment.nextOffset ↔
        ∃ extent ∈ placedAt index s.placed, extent.offset ≤ byte ∧ byte < extent.offset + extent.len) ∧
    (∀ len replicaCount allocations, (s.allocator.allocate len replicaCount).1 = .ok allocations →
      allocations.length = replicaCount ∧ (∀ extent ∈ allocations, extent.len = len) ∧
      ∃ indexes, indexes.length = replicaCount ∧ s.allocator.placements len replicaCount = indexes.zip allocations ∧
        Allocated s.allocator.segments (s.allocator.allocate len replicaCount).2.segments len indexes allocations ∧
        ∀ index ∈ indexes, ∃ segment, s.allocator.segments[index]? = some segment ∧
          segment.nextOffset + len ≤ wordMax ∧ saturatingAdd segment.nextOffset len = segment.nextOffset + len) ∧
    ∀ len replicaCount err, (s.allocator.allocate len replicaCount).1 = .error err →
      (s.allocator.allocate len replicaCount).2 = s.allocator := by
  have tiled := run_tiled run
  obtain ⟨segments, extents⟩ := run_accounts run
  refine ⟨segments, extents, fun index extent member => ?_, fun index segment found => ?_,
    fun _ _ _ => allocate_of_ok, fun _ _ _ => allocate_of_error⟩
  · have found := List.getElem?_eq_getElem (tiled.known index extent member)
    have placed := mem_placedAt.mpr member
    have ends := ((tiled.filled index _ found).within extent placed).2
    exact ⟨_, found, tiled.named index _ found extent placed, Nat.le_trans ends (tiled.inside index _ found)⟩
  · have fills := tiled.filled index segment found
    refine ⟨fills.apart, fun byte => ?_⟩
    simpa using fills.covers byte

/-- Two segments of one node are filled on their own. -/
theorem two_mounts_of_one_node : ∃ trace s, Run Step empty trace s ∧ s.placed.map Prod.snd = returned trace ∧
    returned trace = [⟨"node-a", 0, 4⟩, ⟨"node-a", 0, 4⟩, ⟨"node-a", 4, 4⟩] ∧
    (s.allocator.allocate wordMax 1).2 = s.allocator := by
  let mounted : SegmentAllocator := (SegmentAllocator.mountSegment ⟨[]⟩ "node-a" 4).mountSegment "node-a" 8
  let first : Placements := ⟨(mounted.allocate 4 2).2, mounted.placements 4 2⟩
  let last : Placements := ⟨(first.allocator.allocate 4 1).2, first.placed ++ first.allocator.placements 4 1⟩
  have run : Run Step empty _ last :=
    (((Run.start.snoc (.mountSegment "node-a" 4)).snoc (.mountSegment "node-a" 8)).snoc (.allocate 4 2)).snoc
      (.allocate 4 1)
  obtain ⟨_, extents, _, _, _, kept⟩ := exact_placements run
  have refused : (last.allocator.allocate wordMax 1).1 =
      .error (.conflict "insufficient mounted segment capacity") := by decide
  exact ⟨_, last, run, extents, by decide, kept _ _ _ refused⟩

end Placements
end Mooncache
