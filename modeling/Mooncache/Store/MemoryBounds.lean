import Mooncache.Store.ChunkMemory

/-! The bounds of the chunk store. Its calls are taken here with every slice and every sum they
make: none leaves the arena or the word type, and a call that fails has done nothing. -/
namespace Mooncache

/-- `bytes.get(start..stop)`: nothing where the range is not within the bytes. -/
def getRange (bytes : List UInt8) (start stop : Nat) : Option (List UInt8) :=
  if start ≤ stop ∧ stop ≤ bytes.length then some (slice bytes start (stop - start)) else none

/-- `destination.copy_from_slice(source)`, which panics unless both are of one length. -/
def copyFromSlice (destination source : List UInt8) : Option (List UInt8) :=
  if source.length = destination.length then some source else none

/-- `u64::try_from(value).unwrap_or(u64::MAX)`. -/
def usizeToU64 (value : Nat) : Nat := if value ≤ wordMax then value else wordMax

structure StoreCapacitySnapshot where
  dramBytesUsed : Nat
  dramBytesCapacity : Nat
  ssdBytesUsed : Nat
  ssdBytesCapacity : Nat
  deriving DecidableEq, Repr

theorem getRange_of_le {bytes : List UInt8} {offset len : Nat} (room : offset + len ≤ bytes.length) :
    getRange bytes offset (offset + len) = some (slice bytes offset len) := by
  rw [getRange, if_pos ⟨Nat.le_add_right _ _, room⟩, Nat.add_sub_cancel_left]

theorem copyFromSlice_slice {bytes source : List UInt8} {offset : Nat} (room : offset + source.length ≤ bytes.length) :
    copyFromSlice (slice bytes offset source.length) source = some source := by
  have same : source.length = (slice bytes offset source.length).length := by
    rw [slice, List.length_take, List.length_drop]
    omega
  rw [copyFromSlice, if_pos same]

namespace MemoryStore

def capacitySnapshot (store : MemoryStore) : StoreCapacitySnapshot where
  dramBytesUsed := usizeToU64 store.nextOffset
  dramBytesCapacity := usizeToU64 store.arena.length
  ssdBytesUsed := 0
  ssdBytesCapacity := 0

variable [Sha256]

/-- `write_chunk` with its slices; nothing where it panics. -/
def writeChunkSteps (store : MemoryStore) (handle : ChunkHandle) (bytes : List UInt8) :
    Option (StoreResult Unit × MemoryStore) :=
  match store.validateAllocatedHandle handle with
  | .error err => some (.error err, store)
  | .ok _ =>
    if bytes.length ≠ handle.len then some (.error (.lengthMismatch handle.len bytes.length), store)
    else match chunkEnd handle with
      | .error err => some (.error err, store)
      | .ok chunkEnd =>
        match getRange store.arena handle.offset chunkEnd with
        | none => some (.error (invalidHandle handle), store)
        | some destination =>
          match copyFromSlice destination bytes with
          | none => none
          | some copied =>
            let written := { store with arena := splice store.arena handle.offset copied }
            match written.allocations.lookup handle.offset with
            | none => some (.ok (), written)
            | some chunk => some (.ok (), { written with
                allocations := written.allocations.insert handle.offset { chunk with checksum := some (sha256 bytes) } })

/-- `write_preallocated_chunk`, which has replaced the chunk's metadata before it can fail again. -/
def writePreallocatedChunkSteps (store : MemoryStore) (handle : ChunkHandle) (bytes : List UInt8) :
    Option (StoreResult Unit × MemoryStore) :=
  match store.validatePreallocatedHandle handle bytes.length with
  | .error err => some (.error err, store)
  | .ok () =>
    let allocated := { store with allocations := store.allocations.insert handle.offset ⟨handle.len, none⟩ }
    match chunkEnd handle with
    | .error err => some (.error err, allocated)
    | .ok chunkEnd =>
      { allocated with nextOffset := max allocated.nextOffset chunkEnd }.writeChunkSteps handle bytes

/-- `read_chunk` with its slice. -/
def readChunkSteps (store : MemoryStore) (handle : ChunkHandle) : StoreResult (List UInt8) :=
  match store.validateAllocatedHandle handle with
  | .error err => .error err
  | .ok chunk =>
    match chunk.checksum with
    | none => .error .unwrittenChunk
    | some expectedChecksum =>
      match chunkEnd handle with
      | .error err => .error err
      | .ok chunkEnd =>
        match getRange store.arena handle.offset chunkEnd with
        | none => .error (invalidHandle handle)
        | some bytes =>
          if sha256 bytes ≠ expectedChecksum then .error (.checksumMismatch handle.offset) else .ok bytes

variable {store : MemoryStore} {capacity : Nat} {trace : List MemoryEvent}

omit [Sha256] in
/-- A validated handle ends within the word type and within the arena. -/
theorem slice_of_validated {handle : ChunkHandle} {chunk : ChunkMeta}
    (valid : store.validateAllocatedHandle handle = .ok chunk) :
    chunkEnd handle = .ok (handle.offset + handle.len) ∧
      getRange store.arena handle.offset (handle.offset + handle.len) =
        some (slice store.arena handle.offset handle.len) := by
  obtain ⟨_, _, word, room⟩ := validateAllocatedHandle_eq_ok.mp valid
  exact ⟨chunkEnd_eq_ok word, getRange_of_le room⟩

/-- A write never panics, and takes its slice within the arena. -/
theorem writeChunkSteps_eq (store : MemoryStore) (handle : ChunkHandle) (bytes : List UInt8) :
    store.writeChunkSteps handle bytes = some (store.writeChunk handle bytes) := by
  unfold writeChunkSteps writeChunk
  cases valid : store.validateAllocatedHandle handle with
  | error err => rfl
  | ok chunk =>
    obtain ⟨found, _, _, room⟩ := validateAllocatedHandle_eq_ok.mp valid
    obtain ⟨stops, within⟩ := slice_of_validated valid
    by_cases same : bytes.length = handle.len
    · have copied : copyFromSlice (slice store.arena handle.offset handle.len) bytes = some bytes := by
        rw [← same] at room ⊢
        exact copyFromSlice_slice room
      simp only [same, ne_eq, not_true_eq_false, ↓reduceIte, stops, within, copied, found]
    · simp only [ne_eq, same, not_false_eq_true, ↓reduceIte]

theorem writePreallocatedChunkSteps_eq (store : MemoryStore) (handle : ChunkHandle) (bytes : List UInt8) :
    store.writePreallocatedChunkSteps handle bytes = some (store.writePreallocatedChunk handle bytes) := by
  unfold writePreallocatedChunkSteps writePreallocatedChunk
  cases store.validatePreallocatedHandle handle bytes.length with
  | error err => rfl
  | ok _ =>
    cases chunkEnd handle with
    | error err => rfl
    | ok chunkEnd => exact writeChunkSteps_eq _ handle bytes

theorem readChunkSteps_eq (store : MemoryStore) (handle : ChunkHandle) :
    store.readChunkSteps handle = store.readChunk handle := by
  unfold readChunkSteps readChunk
  cases valid : store.validateAllocatedHandle handle with
  | error err => rfl
  | ok chunk =>
    obtain ⟨stops, within⟩ := slice_of_validated valid
    obtain ⟨len, checksum⟩ := chunk
    cases checksum with
    | none => rfl
    | some expected => simp only [stops, within]

/-- The end of the allocated space is a word, and within an arena of this capacity. -/
structure InBounds (capacity : Nat) (store : MemoryStore) : Prop where
  arena : store.capacity = capacity
  within : store.nextOffset ≤ capacity
  word : store.nextOffset ≤ wordMax

omit [Sha256] in
theorem withCapacity_inBounds (capacity : Nat) : (withCapacity capacity).InBounds capacity where
  arena := List.length_replicate
  within := Nat.zero_le _
  word := Nat.zero_le _

theorem InBounds.filled (h : store.InBounds capacity) {handle : ChunkHandle} {bytes : List UInt8}
    (same : bytes.length = handle.len) (fits : store.Fits handle) : (store.filled handle bytes).InBounds capacity where
  arena := (filled_capacity same fits).trans h.arena
  within := Nat.max_le.mpr ⟨h.within, h.arena ▸ fits.2.2⟩
  word := Nat.max_le.mpr ⟨h.word, fits.2.1⟩

theorem run_inBounds (run : Run Step (withCapacity capacity) trace store) : store.InBounds capacity := by
  induction run with
  | start => exact withCapacity_inBounds capacity
  | @snoc trace store next event run last ih =>
    cases last with
    | readChunk handle => exact ih
    | allocate len =>
      rcases allocate_cases store len with ⟨_, err, he⟩ | ⟨⟨_, word, room⟩, he⟩
      · exact he ▸ ih
      · exact he ▸ ⟨ih.arena, ih.arena ▸ room, word⟩
    | writeChunk handle bytes =>
      rcases writeChunk_cases store handle bytes with ⟨err, he⟩ | ⟨same, word, room, ⟨checksum, found⟩, he⟩
      · exact he ▸ ih
      · have positive := ((run_holds run).chunks _ _ found).1
        exact he ▸ ⟨(ih.filled same ⟨positive, word, room⟩).arena, ih.within, ih.word⟩
    | writePreallocatedChunk handle bytes =>
      rcases writePreallocatedChunk_cases store handle bytes with ⟨err, he⟩ | ⟨same, fits, he⟩
      · exact he ▸ ih
      · exact he ▸ ih.filled same fits

omit [Sha256] in
/-- What is available and what the snapshot calls used make up the capacity: neither figure is saturated. -/
theorem InBounds.accounted (h : store.InBounds capacity) :
    store.availableCapacity + store.capacitySnapshot.dramBytesUsed = capacity := by
  have used : store.capacitySnapshot.dramBytesUsed = store.nextOffset := if_pos h.word
  have total : store.arena.length = capacity := h.arena
  rw [used, availableCapacity, total]
  exact Nat.sub_add_cancel h.within

omit [Sha256] in
theorem allocate_of_error {len : Nat} {err : StoreError} (failed : (store.allocate len).1 = .error err) :
    (store.allocate len).2 = store := by
  rcases allocate_cases store len with ⟨_, _, he⟩ | ⟨_, he⟩
  · rw [he]
  · rw [he] at failed
    cases failed

theorem writeChunk_of_error {handle : ChunkHandle} {bytes : List UInt8} {err : StoreError}
    (failed : (store.writeChunk handle bytes).1 = .error err) : (store.writeChunk handle bytes).2 = store := by
  rcases writeChunk_cases store handle bytes with ⟨_, he⟩ | ⟨_, _, _, _, he⟩
  · rw [he]
  · rw [he] at failed
    cases failed

theorem writePreallocatedChunk_of_error {handle : ChunkHandle} {bytes : List UInt8} {err : StoreError}
    (failed : (store.writePreallocatedChunk handle bytes).1 = .error err) :
    (store.writePreallocatedChunk handle bytes).2 = store := by
  rcases writePreallocatedChunk_cases store handle bytes with ⟨_, he⟩ | ⟨_, _, he⟩
  · rw [he]
  · rw [he] at failed
    cases failed

/-- Every store that is reached keeps its chunks below the end of the allocated space and that end
within the arena; its calls neither panic nor leave the arena, and one that fails has changed nothing. -/
theorem bounded_memory (run : Run Step (withCapacity capacity) trace store) :
    (∀ offset chunk, store.allocations.lookup offset = some chunk →
      0 < chunk.len ∧ offset + chunk.len ≤ store.nextOffset) ∧
    store.nextOffset ≤ capacity ∧ store.capacity = capacity ∧
    store.availableCapacity + store.capacitySnapshot.dramBytesUsed = capacity ∧
    (∀ handle chunk, store.validateAllocatedHandle handle = .ok chunk →
      chunkEnd handle = .ok (handle.offset + handle.len) ∧
        (getRange store.arena handle.offset (handle.offset + handle.len)).isSome) ∧
    (∀ handle bytes, store.writeChunkSteps handle bytes = some (store.writeChunk handle bytes) ∧
      store.writePreallocatedChunkSteps handle bytes = some (store.writePreallocatedChunk handle bytes) ∧
      store.readChunkSteps handle = store.readChunk handle) ∧
    (∀ len err, (store.allocate len).1 = .error err → (store.allocate len).2 = store) ∧
    (∀ handle bytes err, (store.writeChunk handle bytes).1 = .error err →
      (store.writeChunk handle bytes).2 = store) ∧
    (∀ handle bytes err, (store.writePreallocatedChunk handle bytes).1 = .error err →
      (store.writePreallocatedChunk handle bytes).2 = store) ∧
    ∀ handle bytes, store.validatePreallocatedHandle handle bytes.length = .ok () →
      (store.writePreallocatedChunk handle bytes).1 = .ok () := by
  have bounds := run_inBounds run
  refine ⟨(run_holds run).chunks, bounds.within, bounds.arena, bounds.accounted, ?_, ?_, fun _ _ => allocate_of_error,
    fun _ _ _ => writeChunk_of_error, fun _ _ _ => writePreallocatedChunk_of_error, ?_⟩
  · intro handle chunk valid
    obtain ⟨stops, within⟩ := slice_of_validated valid
    exact ⟨stops, within ▸ rfl⟩
  · exact fun handle bytes => ⟨writeChunkSteps_eq _ _ _, writePreallocatedChunkSteps_eq _ _ _, readChunkSteps_eq _ _⟩
  · intro handle bytes valid
    obtain ⟨same, fits⟩ := validatePreallocatedHandle_eq_ok.mp valid
    rw [writePreallocatedChunk_of_fits same fits]

omit [Sha256] in
/-- A handle at the end of the word type is refused, and nothing has happened to the chunk before it. -/
theorem last_offset_refused :
    let _ := sampleDigest
    ∃ trace store, Run Step (withCapacity 8) trace store ∧
      store.availableCapacity + store.capacitySnapshot.dramBytesUsed = 8 ∧ store.capacitySnapshot.dramBytesUsed = 2 ∧
      store.writePreallocatedChunk ⟨wordMax, 1⟩ [1] = (.error (.invalidHandle wordMax 1), store) := by
  let _ := sampleDigest
  let store := ((withCapacity 8).writePreallocatedChunk ⟨0, 2⟩ [1, 2]).2
  have run : Run Step (withCapacity 8) _ store := Run.start.snoc (.writePreallocatedChunk ⟨0, 2⟩ [1, 2])
  obtain ⟨_, _, _, accounted, _, _, _, _, kept, _⟩ := bounded_memory run
  have refused : (store.writePreallocatedChunk ⟨wordMax, 1⟩ [1]).1 = .error (.invalidHandle wordMax 1) := by decide
  exact ⟨_, store, run, accounted, by decide, Prod.ext refused (kept _ _ _ refused)⟩

end MemoryStore
end Mooncache
