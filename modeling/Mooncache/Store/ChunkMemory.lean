import Mooncache.Store.Memory
import Mooncache.Foundation.Runs
import Mathlib.Data.Set.Function

/-! The chunk store as a memory: what any sequence of calls leaves readable, with handles that
may overlap. -/
namespace Mooncache

/-- One call of the chunk store with its result. -/
inductive MemoryEvent where
  | allocate (len : Nat) (result : StoreResult ChunkHandle)
  | writeChunk (handle : ChunkHandle) (bytes : List UInt8) (result : StoreResult Unit)
  | writePreallocatedChunk (handle : ChunkHandle) (bytes : List UInt8) (result : StoreResult Unit)
  | readChunk (handle : ChunkHandle) (result : StoreResult (List UInt8))

/-- A write that succeeded: its handle and what it wrote. -/
def MemoryEvent.write : MemoryEvent → Option (ChunkHandle × List UInt8)
  | writeChunk handle bytes (.ok ()) | writePreallocatedChunk handle bytes (.ok ()) => some (handle, bytes)
  | _ => none

/-- The range that an event allocated. -/
def MemoryEvent.allocation : MemoryEvent → Option ChunkHandle
  | allocate _ (.ok handle) => some handle
  | _ => none

/-- The successful writes of a run, in order. -/
def written (trace : List MemoryEvent) : List (ChunkHandle × List UInt8) := trace.filterMap MemoryEvent.write

/-- The last write at an offset. -/
def lastAt {α : Type} (offset : Nat) (writes : List (ChunkHandle × α)) : Option (ChunkHandle × α) :=
  (writes.filter fun write => write.1.offset = offset).getLast?

/-- The ranges allocated or written in a run. -/
def ranges (trace : List MemoryEvent) : List ChunkHandle :=
  trace.filterMap MemoryEvent.allocation ++ (written trace).map Prod.fst

theorem lastAt_snoc {α : Type} (offset : Nat) (writes : List (ChunkHandle × α)) (write : ChunkHandle × α) :
    lastAt offset (writes ++ [write]) = if write.1.offset = offset then some write else lastAt offset writes := by
  rw [lastAt, List.filter_append]
  split <;> rename_i same
  · simp [same]
  · simp [lastAt, same]

theorem mem_of_lastAt {α : Type} {offset : Nat} {writes : List (ChunkHandle × α)} {write : ChunkHandle × α}
    (h : lastAt offset writes = some write) : write ∈ writes := (List.mem_filter.mp (List.mem_of_getLast? h)).1

theorem lastAt_map {α β : Type} (f : α → β) (offset : Nat) (writes : List (ChunkHandle × α)) :
    lastAt offset (writes.map (Prod.map id f)) = (lastAt offset writes).map (Prod.map id f) := by
  simp only [lastAt, List.filter_map, List.getLast?_map]
  rfl

theorem written_snoc (trace : List MemoryEvent) (event : MemoryEvent) :
    written (trace ++ [event]) = written trace ++ event.write.toList := by
  rw [written, List.filterMap_append]
  cases h : event.write <;> simp [written, h]

theorem mem_ranges_snoc {trace : List MemoryEvent} {event : MemoryEvent} {range : ChunkHandle} :
    range ∈ ranges (trace ++ [event]) ↔
      range ∈ ranges trace ∨ event.allocation = some range ∨ ∃ bytes, event.write = some (range, bytes) := by
  simp only [ranges, written_snoc, List.filterMap_append, List.map_append, List.mem_append]
  cases ha : event.allocation <;> cases hw : event.write <;> simp [ha] <;> grind

/-- SHA-256 of the chunks in the runs on fixed bytes. -/
def sampleDigests : List (List UInt8 × Vector UInt8 32) := [
    ([1, 2], #v[161, 40, 113, 254, 226, 16, 251, 134, 25, 41, 30, 174, 161, 148, 88, 28, 189, 37, 49, 228,
      178, 55, 89, 210, 37, 246, 128, 105, 35, 246, 50, 34]),
    ([3, 4], #v[12, 227, 148, 11, 235, 242, 178, 42, 93, 33, 8, 236, 240, 195, 104, 160, 84, 28, 126, 60, 69,
      112, 63, 133, 64, 146, 27, 78, 175, 200, 41, 71]),
    ([9, 9], #v[49, 96, 148, 38, 41, 115, 37, 189, 178, 140, 134, 171, 60, 238, 237, 74, 60, 67, 137, 102,
      115, 63, 214, 27, 138, 234, 0, 238, 139, 35, 183, 188]),
    ([2, 9], #v[75, 40, 113, 218, 52, 103, 15, 222, 36, 134, 4, 224, 241, 143, 211, 228, 247, 225, 230, 223,
      221, 184, 88, 117, 206, 72, 19, 166, 97, 41, 83, 187]),
    ([1, 1, 1, 1], #v[39, 236, 208, 165, 152, 231, 111, 138, 47, 210, 100, 212, 39, 223, 10, 17, 153, 3, 232, 234,
      227, 132, 228, 120, 144, 37, 65, 117, 111, 8, 157, 209]),
    ([1, 1, 9, 9], #v[233, 93, 171, 244, 205, 158, 20, 28, 28, 250, 249, 244, 221, 70, 166, 245, 77, 84, 194, 86,
      166, 49, 67, 107, 133, 185, 106, 185, 43, 195, 32, 217])]

@[reducible] def sampleDigest : Sha256 where
  sha256 bytes := (sampleDigests.lookup bytes).getD (Vector.replicate 32 0)

namespace MemoryStore
variable [Sha256] {store store' : MemoryStore} {capacity : Nat} {trace : List MemoryEvent}

inductive Step (store : MemoryStore) : MemoryEvent → MemoryStore → Prop
  | allocate (len : Nat) : Step store (.allocate len (store.allocate len).1) (store.allocate len).2
  | writeChunk (handle : ChunkHandle) (bytes : List UInt8) :
      Step store (.writeChunk handle bytes (store.writeChunk handle bytes).1) (store.writeChunk handle bytes).2
  | writePreallocatedChunk (handle : ChunkHandle) (bytes : List UInt8) :
      Step store (.writePreallocatedChunk handle bytes (store.writePreallocatedChunk handle bytes).1)
        (store.writePreallocatedChunk handle bytes).2
  | readChunk (handle : ChunkHandle) : Step store (.readChunk handle (store.readChunk handle)) store

/-- What was written in a run, and what the store can now read back. -/
def hashed (trace : List MemoryEvent) (store : MemoryStore) : Set (List UInt8) :=
  {bytes | ∃ handle, (handle, bytes) ∈ written trace ∨ store.readChunk handle = .ok bytes}

/-- There is space for a further chunk of this length. -/
def HasRoom (store : MemoryStore) (len : Nat) : Prop :=
  0 < len ∧ store.nextOffset + len ≤ wordMax ∧ store.nextOffset + len ≤ store.capacity

omit [Sha256] in
theorem allocate_cases (store : MemoryStore) (len : Nat) :
    (¬ store.HasRoom len ∧ ∃ err, store.allocate len = (.error err, store)) ∨
    (store.HasRoom len ∧ store.allocate len = (.ok ⟨store.nextOffset, len⟩, { store with
      allocations := store.allocations.insert store.nextOffset ⟨len, none⟩
      nextOffset := store.nextOffset + len })) := by
  unfold allocate
  by_cases empty : len = 0
  · exact .inl ⟨fun room => room.1.ne' empty, _, if_pos empty⟩
  rw [if_neg empty]
  by_cases word : store.nextOffset + len ≤ wordMax
  · simp only [checkedAdd, word, ↓reduceIte]
    by_cases full : store.nextOffset + len > store.arena.length
    · exact .inl ⟨fun room => absurd room.2.2 (Nat.not_le.mpr full), _, if_pos full⟩
    · exact .inr ⟨⟨by omega, word, Nat.not_lt.mp full⟩, if_neg full⟩
  · simp only [checkedAdd, word, ↓reduceIte]
    exact .inl ⟨fun room => word room.2.1, _, rfl⟩

/-- A write of a chunk is all or nothing, and does not move the end of the allocated space. -/
theorem writeChunk_cases (store : MemoryStore) (handle : ChunkHandle) (bytes : List UInt8) :
    (∃ err, store.writeChunk handle bytes = (.error err, store)) ∨
    (bytes.length = handle.len ∧ handle.offset + handle.len ≤ wordMax ∧
      handle.offset + handle.len ≤ store.capacity ∧
      (∃ checksum, store.allocations.lookup handle.offset = some ⟨handle.len, checksum⟩) ∧
      store.writeChunk handle bytes =
        (.ok (), { store.filled handle bytes with nextOffset := store.nextOffset })) := by
  unfold writeChunk
  cases valid : store.validateAllocatedHandle handle with
  | error err => exact .inl ⟨err, rfl⟩
  | ok chunk =>
    obtain ⟨found, same, word, room⟩ := validateAllocatedHandle_eq_ok.mp valid
    obtain ⟨len, checksum⟩ := chunk
    simp only at same
    subst same
    by_cases length : bytes.length = handle.len
    · refine .inr ⟨length, word, room, ⟨checksum, found⟩, ?_⟩
      simp only [length, ne_eq, not_true_eq_false, ↓reduceIte, filled]
    · exact .inl ⟨_, if_pos length⟩

/-- What relates a store to the calls made on it. -/
structure Holds (trace : List MemoryEvent) (store : MemoryStore) : Prop where
  chunks : ∀ offset chunk, store.allocations.lookup offset = some chunk →
    0 < chunk.len ∧ offset + chunk.len ≤ store.nextOffset
  latest : ∀ offset len checksum, store.allocations.lookup offset = some ⟨len, some checksum⟩ →
    ∃ bytes, lastAt offset (written trace) = some (⟨offset, len⟩, bytes) ∧ checksum = sha256 bytes
  below : ∀ range ∈ ranges trace, 0 < range.len ∧ range.offset + range.len ≤ store.nextOffset
  intact : ∀ before handle bytes after, written trace = before ++ (handle, bytes) :: after →
    (∀ write ∈ after, ¬ write.1.Overlaps handle) → store.readChunk handle = .ok bytes

theorem withCapacity_holds (capacity : Nat) : (withCapacity capacity).Holds [] where
  chunks offset chunk h := by simp [withCapacity] at h
  latest offset len checksum h := by simp [withCapacity] at h
  below range h := by simp [ranges, written] at h
  intact before handle bytes after h := by simp [written] at h

/-- An event that leaves the store as it is adds nothing to what relates them. -/
private theorem Holds.unchanged (h : store.Holds trace) {event : MemoryEvent} (quiet : event.write = none)
    (allocated : event.allocation = none) : store.Holds (trace ++ [event]) := by
  have same : written (trace ++ [event]) = written trace := by simp [written_snoc, quiet]
  refine ⟨h.chunks, ?_, fun range member => h.below range ?_, ?_⟩
  · rw [same]
    exact h.latest
  · simpa [mem_ranges_snoc, quiet, allocated] using member
  · rw [same]
    exact h.intact

/-- A range below the allocated space is apart from what is allocated next. -/
private theorem Holds.allocate (h : store.Holds trace) (len : Nat) :
    (store.allocate len).2.Holds (trace ++ [.allocate len (store.allocate len).1]) := by
  rcases allocate_cases store len with ⟨_, err, he⟩ | ⟨⟨positive, _⟩, he⟩
  · rw [he]
    exact h.unchanged rfl rfl
  rw [he]
  have same : written (trace ++ [.allocate len (.ok ⟨store.nextOffset, len⟩)]) = written trace := by
    simp [written_snoc, MemoryEvent.write]
  refine ⟨fun offset chunk found => ?_, fun offset length checksum found => ?_, fun range member => ?_, ?_⟩
  · rcases eq_or_ne offset store.nextOffset with rfl | hne
    · simp only [Finmap.lookup_insert, Option.some.injEq] at found
      subst found
      exact ⟨positive, le_rfl⟩
    · simp only [Finmap.lookup_insert_of_ne _ hne] at found
      obtain ⟨chunkLen, bound⟩ := h.chunks offset chunk found
      exact ⟨chunkLen, bound.trans (Nat.le_add_right _ _)⟩
  · rw [same]
    rcases eq_or_ne offset store.nextOffset with rfl | hne
    · simp [Finmap.lookup_insert] at found
    · simp only [Finmap.lookup_insert_of_ne _ hne] at found
      exact h.latest offset length checksum found
  · rcases mem_ranges_snoc.mp member with old | new | ⟨_, none⟩
    · obtain ⟨rangeLen, bound⟩ := h.below range old
      exact ⟨rangeLen, bound.trans (Nat.le_add_right _ _)⟩
    · cases new
      exact ⟨positive, le_rfl⟩
    · cases none
  · rw [same]
    intro before handle bytes after split apart
    have read := readChunk_eq_ok.mp (h.intact before handle bytes after split apart)
    obtain ⟨chunkLen, bound⟩ := h.chunks _ _ read.1
    have away : handle.offset ≠ store.nextOffset := by simp only at chunkLen bound; omega
    rw [readChunk_eq_ok]
    exact ⟨(Finmap.lookup_insert_of_ne _ away).trans read.1, read.2⟩

/-- A write that fits and moves the end of the allocated space no further than it must. -/
private theorem Holds.fill (h : store.Holds trace) {event : MemoryEvent} {handle : ChunkHandle} {bytes : List UInt8}
    (write : event.write = some (handle, bytes)) (allocated : event.allocation = none)
    (same : bytes.length = handle.len) (fits : store.Fits handle) :
    (store.filled handle bytes).Holds (trace ++ [event]) := by
  have writes : written (trace ++ [event]) = written trace ++ [(handle, bytes)] := by simp [written_snoc, write]
  refine ⟨fun offset chunk found => ?_, fun offset length checksum found => ?_, fun range member => ?_, ?_⟩
  · rcases eq_or_ne offset handle.offset with rfl | hne
    · simp only [filled, Finmap.lookup_insert, Option.some.injEq] at found
      subst found
      exact ⟨fits.1, Nat.le_max_right _ _⟩
    · simp only [filled, Finmap.lookup_insert_of_ne _ hne] at found
      obtain ⟨chunkLen, bound⟩ := h.chunks offset chunk found
      exact ⟨chunkLen, bound.trans (Nat.le_max_left _ _)⟩
  · rw [writes, lastAt_snoc]
    rcases eq_or_ne offset handle.offset with rfl | hne
    · simp only [filled, Finmap.lookup_insert, Option.some.injEq, ChunkMeta.mk.injEq] at found
      obtain ⟨rfl, rfl⟩ := found
      exact ⟨bytes, if_pos rfl, rfl⟩
    · simp only [filled, Finmap.lookup_insert_of_ne _ hne] at found
      rw [if_neg hne.symm]
      exact h.latest offset length checksum found
  · rcases mem_ranges_snoc.mp member with old | new | ⟨_, new⟩
    · obtain ⟨rangeLen, bound⟩ := h.below range old
      exact ⟨rangeLen, bound.trans (Nat.le_max_left _ _)⟩
    · rw [allocated] at new
      cases new
    · rw [write] at new
      cases new
      exact ⟨fits.1, Nat.le_max_right _ _⟩
  · rw [writes]
    intro before target content after split apart
    rcases List.eq_nil_or_concat after with rfl | ⟨rest, last, rfl⟩
    · obtain ⟨_, final⟩ := List.append_inj' split rfl
      cases final
      exact readChunk_filled same fits
    · rw [List.concat_eq_append, ← List.cons_append, ← List.append_assoc] at split
      obtain ⟨earlier, final⟩ := List.append_inj' split rfl
      cases final
      have read := h.intact before target content rest earlier fun write member => apart write (by simp [member])
      have positive := (h.chunks _ _ (readChunk_eq_ok.mp read).1).1
      exact readChunk_filled_of_disjoint same fits positive (apart (handle, bytes) (by simp)) read

theorem Holds.step {event : MemoryEvent} (h : store.Holds trace) (step : store.Step event store') :
    store'.Holds (trace ++ [event]) := by
  cases step with
  | allocate len => exact h.allocate len
  | readChunk handle => exact h.unchanged rfl rfl
  | writeChunk handle bytes =>
    rcases writeChunk_cases store handle bytes with ⟨err, he⟩ | ⟨same, word, room, ⟨checksum, found⟩, he⟩
    · rw [he]
      exact h.unchanged rfl rfl
    · obtain ⟨positive, bound⟩ := h.chunks _ _ found
      have reached : { store.filled handle bytes with nextOffset := store.nextOffset } = store.filled handle bytes := by
        simp only [filled, Nat.max_eq_left bound]
      rw [he, reached]
      exact h.fill rfl rfl same ⟨positive, word, room⟩
  | writePreallocatedChunk handle bytes =>
    rcases writePreallocatedChunk_cases store handle bytes with ⟨err, he⟩ | ⟨same, fits, he⟩
    · rw [he]
      exact h.unchanged rfl rfl
    · rw [he]
      exact h.fill rfl rfl same fits

theorem run_holds (run : Run Step (withCapacity capacity) trace store) : store.Holds trace :=
  run.invariant (P := fun trace store => store.Holds trace) (withCapacity_holds capacity) fun _ before step =>
    before.step step

/-- A read returns what the last write at its offset wrote, a chunk that no later write touches
reads back, and an allocation is apart from all ranges before it. -/
theorem faithful_memory (run : Run Step (withCapacity capacity) trace store)
    (free : Set.InjOn sha256 (store.hashed trace)) :
    (∀ handle bytes, store.readChunk handle = .ok bytes →
      lastAt handle.offset (written trace) = some (handle, bytes)) ∧
    (∀ before handle bytes after, written trace = before ++ (handle, bytes) :: after →
      (∀ write ∈ after, ¬ write.1.Overlaps handle) → store.readChunk handle = .ok bytes) ∧
    ∀ len handle, (store.allocate len).1 = .ok handle → ∀ range ∈ ranges trace, ¬ handle.Overlaps range := by
  have holds := run_holds run
  refine ⟨fun handle bytes read => ?_, holds.intact, fun len handle allocated range member => ?_⟩
  · obtain ⟨content, last, digest⟩ := holds.latest _ _ _ (readChunk_eq_ok.mp read).1
    rw [last, free ⟨handle, .inr read⟩ ⟨handle, .inl (mem_of_lastAt last)⟩ digest]
  · rcases allocate_cases store len with ⟨_, err, he⟩ | ⟨_, he⟩
    · rw [he] at allocated
      cases allocated
    · rw [he] at allocated
      cases allocated
      obtain ⟨_, bound⟩ := holds.below range member
      rintro ⟨starts, _⟩
      simp only at starts
      omega

private def overwriting : List MemoryEvent :=
  [.allocate 4 (.ok ⟨0, 4⟩), .writeChunk ⟨0, 4⟩ [1, 1, 1, 1] (.ok ()),
    .writePreallocatedChunk ⟨2, 2⟩ [9, 9] (.ok ())]

omit [Sha256] in
/-- A chunk written inside another one is what is left of the two. -/
theorem inner_chunk_reads_back :
    let _ := sampleDigest
    ∃ store, Run Step (withCapacity 8) overwriting store ∧ store.readChunk ⟨2, 2⟩ = .ok [9, 9] ∧
      store.readChunk ⟨0, 4⟩ = .error (.checksumMismatch 0) ∧ ¬ ChunkHandle.Overlaps ⟨4, 4⟩ ⟨2, 2⟩ := by
  let _ := sampleDigest
  let first := (withCapacity 8).allocate 4
  let second := first.2.writeChunk ⟨0, 4⟩ [1, 1, 1, 1]
  let third := second.2.writePreallocatedChunk ⟨2, 2⟩ [9, 9]
  have run : Run Step (withCapacity 8) overwriting third.2 :=
    ((Run.start.snoc (.allocate 4)).snoc (.writeChunk ⟨0, 4⟩ [1, 1, 1, 1])).snoc (.writePreallocatedChunk ⟨2, 2⟩ [9, 9])
  have inner : third.2.readChunk ⟨2, 2⟩ = .ok [9, 9] := by decide
  have outer : third.2.readChunk ⟨0, 4⟩ = .error (.checksumMismatch 0) := by decide
  have known : third.2.hashed overwriting ⊆ {[1, 1, 1, 1], [9, 9]} := by
    rintro bytes ⟨⟨offset, len⟩, wrote | read⟩
    · simp only [written, overwriting, List.filterMap, MemoryEvent.write, List.mem_cons, Prod.mk.injEq,
        List.not_mem_nil, or_false] at wrote
      exact wrote.imp And.right And.right
    · obtain ⟨content, last, _⟩ := (run_holds run).latest _ _ _ (readChunk_eq_ok.mp read).1
      have wrote := mem_of_lastAt last
      simp only [written, overwriting, List.filterMap, MemoryEvent.write, List.mem_cons, Prod.mk.injEq,
        List.not_mem_nil, or_false] at wrote
      rcases wrote with ⟨same, _⟩ | ⟨same, _⟩
      · rw [same, outer] at read
        cases read
      · rw [same, inner] at read
        cases read
        exact .inr rfl
  have free : Set.InjOn sha256 (third.2.hashed overwriting) := by
    refine Set.InjOn.mono known fun first member second other digest => ?_
    rcases member with rfl | rfl <;> rcases other with rfl | rfl
    · rfl
    · exact absurd digest (by decide)
    · exact absurd digest (by decide)
    · rfl
  obtain ⟨_, complete, apart⟩ := faithful_memory run free
  exact ⟨third.2, run, complete [(⟨0, 4⟩, [1, 1, 1, 1])] ⟨2, 2⟩ [9, 9] [] rfl (by simp), outer,
    apart 4 ⟨4, 4⟩ (by decide) ⟨2, 2⟩ (by decide)⟩

end MemoryStore
end Mooncache
