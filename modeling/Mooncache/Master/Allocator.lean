import Mooncache.Common.Ids
import Mooncache.Foundation.Words
import Mathlib.Data.List.Forall2
import Mathlib.Data.List.Nodup

/-! First-fit bump allocation over the mounted segments. -/
namespace Mooncache

structure SegmentAllocation where
  nodeId : String
  offset : Nat
  len : Nat
  deriving DecidableEq, Repr

structure MountedSegment where
  nodeId : String
  len : Nat
  nextOffset : Nat
  deriving DecidableEq, Repr

namespace MountedSegment

def canFit (segment : MountedSegment) (objectLen : Nat) : Bool :=
  match checkedAdd segment.nextOffset objectLen with
  | some nextOffset => nextOffset ≤ segment.len
  | none => false

def advance (segment : MountedSegment) (len : Nat) : MountedSegment :=
  { segment with nextOffset := saturatingAdd segment.nextOffset len }

theorem canFit_iff {segment : MountedSegment} {len : Nat} :
    segment.canFit len = true ↔
      segment.nextOffset + len ≤ wordMax ∧ segment.nextOffset + len ≤ segment.len := by
  unfold canFit
  split
  · rename_i next h
    obtain ⟨rfl, hw⟩ := checkedAdd_eq_some.mp h
    simp [hw]
  · rename_i h
    simp only [checkedAdd, ite_eq_right_iff, reduceCtorEq, imp_false] at h
    simp [h]

@[simp] theorem advance_nodeId (segment : MountedSegment) (len : Nat) :
    (segment.advance len).nodeId = segment.nodeId := rfl

@[simp] theorem advance_len (segment : MountedSegment) (len : Nat) :
    (segment.advance len).len = segment.len := rfl

/-- A segment that fits the object never saturates when it is advanced. -/
theorem advance_nextOffset {segment : MountedSegment} {len : Nat} (h : segment.canFit len = true) :
    (segment.advance len).nextOffset = segment.nextOffset + len :=
  saturatingAdd_of_le (canFit_iff.mp h).1

end MountedSegment

structure SegmentAllocator where
  segments : List MountedSegment
  deriving DecidableEq, Repr

namespace SegmentAllocator

def mountSegment (allocator : SegmentAllocator) (nodeId : String) (len : Nat) : SegmentAllocator :=
  ⟨allocator.segments ++ [⟨nodeId, len, 0⟩]⟩

/-- The positions whose segment fits the object, in mount order. -/
def fittingIndexes (segments : List MountedSegment) (len : Nat) : List Nat :=
  segments.zipIdx.filterMap fun (segment, index) => if segment.canFit len then some index else none

def segmentIndexes (segments : List MountedSegment) (len replicaCount : Nat) : List Nat :=
  (fittingIndexes segments len).take replicaCount

/-- The loop that advances each chosen segment and records its old offset. -/
def takeExtents (len : Nat) : List Nat → List MountedSegment →
    List SegmentAllocation × List MountedSegment
  | [], segments => ([], segments)
  | index :: rest, segments =>
    match segments[index]? with
    -- indexing past the end would panic; `segmentIndexes` never yields such a position
    | none => ([], segments)
    | some segment =>
      let (allocations, after) := takeExtents len rest (segments.set index (segment.advance len))
      (⟨segment.nodeId, segment.nextOffset, len⟩ :: allocations, after)

def allocate (allocator : SegmentAllocator) (len replicaCount : Nat) :
    CacheResult (List SegmentAllocation) × SegmentAllocator :=
  if len = 0 then
    (.error (.conflict "object length must be greater than zero"), allocator)
  else if replicaCount = 0 then
    (.error (.conflict "replica count must be greater than zero"), allocator)
  else
    let indexes := segmentIndexes allocator.segments len replicaCount
    if indexes.length ≠ replicaCount then
      (.error (.conflict "insufficient mounted segment capacity"), allocator)
    else
      let (allocations, segments) := takeExtents len indexes allocator.segments
      (.ok allocations, ⟨segments⟩)

theorem mem_fittingIndexes {segments : List MountedSegment} {len index : Nat} :
    index ∈ fittingIndexes segments len ↔
      ∃ segment, segments[index]? = some segment ∧ segment.canFit len = true := by
  simp only [fittingIndexes, List.mem_filterMap]
  constructor
  · rintro ⟨⟨segment, i⟩, hz, hi⟩
    by_cases fit : segment.canFit len = true
    · simp only [fit, ↓reduceIte, Option.some.injEq] at hi
      subst hi
      exact ⟨segment, List.mem_zipIdx_iff_getElem?.mp hz, fit⟩
    · simp [fit] at hi
  · rintro ⟨segment, hs, fit⟩
    exact ⟨(segment, index), List.mem_zipIdx_iff_getElem?.mpr hs, by simp [fit]⟩

theorem fittingIndexes_nodup (segments : List MountedSegment) (len : Nat) :
    (fittingIndexes segments len).Nodup := by
  have sub : (fittingIndexes segments len).Sublist (segments.zipIdx.map Prod.snd) := by
    unfold fittingIndexes
    induction segments.zipIdx with
    | nil => simp
    | cons pair rest ih =>
      rw [List.filterMap_cons, List.map_cons]
      by_cases fit : pair.1.canFit len = true
      · simpa only [fit, ↓reduceIte] using ih.cons_cons pair.2
      · simpa only [fit, Bool.false_eq_true, ↓reduceIte] using ih.cons pair.2
  have positions : (segments.zipIdx.map Prod.snd).Nodup := by
    rw [List.zipIdx_map_snd]
    exact List.nodup_range'
  exact positions.sublist sub

/-- What a successful allocation does, segment by segment: the chosen positions
are different, each yields the extent at its old offset, and only they advance. -/
structure Allocated (before after : List MountedSegment) (len : Nat) (indexes : List Nat)
    (allocations : List SegmentAllocation) : Prop where
  nodup : indexes.Nodup
  extents : List.Forall₂ (fun index (allocation : SegmentAllocation) =>
    ∃ segment : MountedSegment, before[index]? = some segment ∧ segment.canFit len = true ∧
      allocation = ⟨segment.nodeId, segment.nextOffset, len⟩) indexes allocations
  segments : ∀ index, after[index]? =
    (before[index]?).map fun segment => if index ∈ indexes then segment.advance len else segment

private theorem takeExtents_allocated (len : Nat) (indexes : List Nat) (segments : List MountedSegment)
    (hn : indexes.Nodup)
    (hf : ∀ i ∈ indexes, ∃ segment, segments[i]? = some segment ∧ segment.canFit len = true) :
    Allocated segments (takeExtents len indexes segments).2 len indexes
      (takeExtents len indexes segments).1 := by
  induction indexes generalizing segments with
  | nil => exact ⟨hn, .nil, fun i => by simp [takeExtents]⟩
  | cons index rest ih =>
    obtain ⟨segment, hs, fit⟩ := hf index (by simp)
    obtain ⟨hi, hr⟩ := List.nodup_cons.mp hn
    have other (i : Nat) (hne : index ≠ i) :
        (segments.set index (segment.advance len))[i]? = segments[i]? :=
      List.getElem?_set_ne hne
    have rest_spec := ih (segments.set index (segment.advance len)) hr (fun i him => by
      rw [other i (fun he => hi (he ▸ him))]
      exact hf i (by simp [him]))
    simp only [takeExtents, hs]
    refine ⟨hn, .cons ⟨segment, hs, fit, rfl⟩ ?_, ?_⟩
    · refine List.Forall₂.imp ?_ ((List.forall₂_and_left rest _).mpr ⟨fun i him => him, rest_spec.extents⟩)
      rintro i allocation ⟨him, s, hget, hfit, he⟩
      rw [other i (fun he => hi (he ▸ him))] at hget
      exact ⟨s, hget, hfit, he⟩
    · intro i
      rw [rest_spec.segments]
      by_cases he : index = i
      · subst he
        have hlt := (List.getElem?_eq_some_iff.mp hs).1
        simp [List.getElem?_set_self hlt, hs, hi]
      · rw [other i he]
        simp [Ne.symm he]

namespace Allocated
variable {before after : List MountedSegment} {len : Nat} {indexes : List Nat}
  {allocations : List SegmentAllocation}

/-- The extent at a position comes from the segment chosen at that position. -/
theorem extent_at (h : Allocated before after len indexes allocations) {i : Nat}
    {allocation : SegmentAllocation} (ha : allocations[i]? = some allocation) :
    ∃ index segment, indexes[i]? = some index ∧ before[index]? = some segment ∧
      segment.canFit len = true ∧ allocation = ⟨segment.nodeId, segment.nextOffset, len⟩ := by
  obtain ⟨hi, rfl⟩ := List.getElem?_eq_some_iff.mp ha
  have same := h.extents.length_eq
  have chosen := h.extents.get (i := i) (by omega) hi
  obtain ⟨segment, hs, fit, he⟩ := chosen
  exact ⟨indexes[i], segment, List.getElem?_eq_getElem (by omega), hs, fit, he⟩

theorem fits (h : Allocated before after len indexes allocations) {index : Nat} (hi : index ∈ indexes) :
    ∃ segment, before[index]? = some segment ∧ segment.canFit len = true := by
  obtain ⟨i, hlt, rfl⟩ := List.getElem_of_mem hi
  have same := h.extents.length_eq
  obtain ⟨segment, hs, fit, _⟩ := h.extents.get (i := i) hlt (by omega)
  exact ⟨segment, hs, fit⟩

/-- Every chosen segment yields the extent at its free end. -/
theorem extent_of (h : Allocated before after len indexes allocations) {index : Nat}
    (hi : index ∈ indexes) {segment : MountedSegment} (hs : before[index]? = some segment) :
    ⟨segment.nodeId, segment.nextOffset, len⟩ ∈ allocations := by
  obtain ⟨i, hlt, rfl⟩ := List.getElem_of_mem hi
  have same := h.extents.length_eq
  obtain ⟨found, hf, _, he⟩ := h.extents.get (i := i) hlt (by omega)
  cases hs.symm.trans hf
  rw [← he]
  exact List.getElem_mem _

/-- A segment afterwards is the one before, advanced by the length if it was chosen. -/
theorem after_cases (h : Allocated before after len indexes allocations) {i : Nat}
    {segment : MountedSegment} (hs : after[i]? = some segment) :
    ∃ old, before[i]? = some old ∧ segment.nodeId = old.nodeId ∧ segment.len = old.len ∧
      ((i ∈ indexes ∧ old.canFit len = true ∧
          segment = { old with nextOffset := old.nextOffset + len }) ∨
        (i ∉ indexes ∧ segment = old)) := by
  rw [h.segments] at hs
  obtain ⟨old, ho, rfl⟩ := Option.map_eq_some_iff.mp hs
  by_cases hi : i ∈ indexes
  · obtain ⟨found, hf, fit⟩ := h.fits hi
    cases ho.symm.trans hf
    simp only [hi, ↓reduceIte]
    refine ⟨old, ho, rfl, rfl, .inl ⟨trivial, fit, ?_⟩⟩
    simp only [MountedSegment.advance, saturatingAdd_of_le (MountedSegment.canFit_iff.mp fit).1]
  · simp only [hi, ↓reduceIte]
    exact ⟨old, ho, rfl, rfl, .inr ⟨not_false, rfl⟩⟩

/-- A segment keeps its node and length, and never moves back. -/
theorem after_at (h : Allocated before after len indexes allocations) {i : Nat}
    {old : MountedSegment} (ho : before[i]? = some old) :
    ∃ segment, after[i]? = some segment ∧ segment.nodeId = old.nodeId ∧ segment.len = old.len ∧
      old.nextOffset ≤ segment.nextOffset ∧
      (i ∈ indexes → segment.nextOffset = old.nextOffset + len) := by
  have hs : after[i]? = some (if i ∈ indexes then old.advance len else old) := by
    rw [h.segments, ho, Option.map_some]
  obtain ⟨found, hf, _, _, ⟨hi, _, he⟩ | ⟨hi, he⟩⟩ := h.after_cases hs
  all_goals
    cases ho.symm.trans hf
    rw [he] at hs
    exact ⟨_, hs, rfl, rfl, by simp, by simp [hi]⟩

end Allocated

/-- Success says which positions were chosen; failure leaves the segments alone. -/
theorem allocate_cases (allocator : SegmentAllocator) (len replicaCount : Nat) :
    (∃ err, allocator.allocate len replicaCount = (.error err, allocator) ∧
      (len = 0 ∨ replicaCount = 0 ∨ (segmentIndexes allocator.segments len replicaCount).length ≠ replicaCount)) ∨
    (0 < len ∧ 0 < replicaCount ∧ ∃ allocations after indexes,
      allocator.allocate len replicaCount = (.ok allocations, ⟨after⟩) ∧
      indexes = segmentIndexes allocator.segments len replicaCount ∧
      indexes.length = replicaCount ∧
      Allocated allocator.segments after len indexes allocations) := by
  unfold allocate
  split
  · rename_i hlen
    exact .inl ⟨_, rfl, .inl hlen⟩
  · split
    · rename_i hcount
      exact .inl ⟨_, rfl, .inr (.inl hcount)⟩
    · rename_i hlen hcount
      by_cases hfull : (segmentIndexes allocator.segments len replicaCount).length ≠ replicaCount
      · exact .inl ⟨_, if_pos hfull, .inr (.inr hfull)⟩
      · simp only [if_neg hfull]
        refine .inr ⟨by omega, by omega, _, _, _, rfl, rfl, not_not.mp hfull, ?_⟩
        exact takeExtents_allocated len _ _
          ((fittingIndexes_nodup _ _).sublist (List.take_sublist _ _))
          (fun i hi => mem_fittingIndexes.mp (List.mem_of_mem_take hi))

end SegmentAllocator
end Mooncache
