import Mooncache.Common.Digest
import Mooncache.Foundation.Slices
import Mooncache.Foundation.Table
import Mooncache.Master.Object

/-! The in-memory chunk store: an arena of bytes and a table of chunks by offset. -/
namespace Mooncache

inductive StoreError where
  | emptyChunk
  | insufficientCapacity (requested available : Nat)
  | invalidHandle (offset len : Nat)
  | lengthMismatch (expected actual : Nat)
  | unwrittenChunk
  | checksumMismatch (offset : Nat)
  deriving DecidableEq, Repr

/-- The error's display text. -/
def StoreError.text : StoreError → String
  | .emptyChunk => "chunk length must be greater than zero"
  | .insufficientCapacity requested available =>
    s!"insufficient DRAM capacity: requested {requested} bytes, available {available} bytes"
  | .invalidHandle offset len => s!"invalid chunk handle: offset {offset}, len {len}"
  | .lengthMismatch expected actual =>
    s!"chunk write length mismatch: expected {expected} bytes, got {actual} bytes"
  | .unwrittenChunk => "chunk has not been written"
  | .checksumMismatch offset => s!"checksum mismatch for chunk at offset {offset}"

abbrev StoreResult := Except StoreError

abbrev ChunkChecksum := Vector UInt8 32

structure ChunkHandle where
  offset : Nat
  len : Nat
  deriving DecidableEq, Repr

/-- `usize` is as wide as `u64`, so the conversions of `from_replica` do not fail. -/
def ChunkHandle.fromReplica (replica : ReplicaDescriptor) : ChunkHandle :=
  ⟨replica.offset, replica.len⟩

/-- Two handles share a byte. -/
def ChunkHandle.Overlaps (handle other : ChunkHandle) : Prop :=
  handle.offset < other.offset + other.len ∧ other.offset < handle.offset + handle.len

instance (handle other : ChunkHandle) : Decidable (handle.Overlaps other) :=
  inferInstanceAs (Decidable (_ ∧ _))

def invalidHandle (handle : ChunkHandle) : StoreError := .invalidHandle handle.offset handle.len

def chunkEnd (handle : ChunkHandle) : StoreResult Nat :=
  match checkedAdd handle.offset handle.len with
  | some chunkEnd => .ok chunkEnd
  | none => .error (invalidHandle handle)

structure ChunkMeta where
  len : Nat
  checksum : Option ChunkChecksum
  deriving DecidableEq

structure MemoryStore where
  arena : List UInt8
  nextOffset : Nat
  allocations : Table Nat ChunkMeta
  deriving DecidableEq

namespace MemoryStore

def withCapacity (capacity : Nat) : MemoryStore := ⟨List.replicate capacity 0, 0, ∅⟩

def capacity (store : MemoryStore) : Nat := store.arena.length

def availableCapacity (store : MemoryStore) : Nat := store.arena.length - store.nextOffset

def allocate (store : MemoryStore) (len : Nat) : StoreResult ChunkHandle × MemoryStore :=
  if len = 0 then (.error .emptyChunk, store)
  else match checkedAdd store.nextOffset len with
    | none => (.error (.insufficientCapacity len store.availableCapacity), store)
    | some chunkEnd =>
      if chunkEnd > store.arena.length then
        (.error (.insufficientCapacity len store.availableCapacity), store)
      else (.ok ⟨store.nextOffset, len⟩, { store with
        allocations := store.allocations.insert store.nextOffset ⟨len, none⟩
        nextOffset := chunkEnd })

def validateAllocatedHandle (store : MemoryStore) (handle : ChunkHandle) : StoreResult ChunkMeta :=
  match store.allocations.lookup handle.offset with
  | none => .error (invalidHandle handle)
  | some chunk =>
    if chunk.len ≠ handle.len then .error (invalidHandle handle)
    else do
      let chunkEnd ← chunkEnd handle
      if chunkEnd > store.arena.length then .error (invalidHandle handle) else .ok chunk

def validatePreallocatedHandle (store : MemoryStore) (handle : ChunkHandle) (writeLen : Nat) :
    StoreResult Unit :=
  if handle.len = 0 then .error .emptyChunk
  else if writeLen ≠ handle.len then .error (.lengthMismatch handle.len writeLen)
  else do
    let chunkEnd ← chunkEnd handle
    if chunkEnd > store.arena.length then
      .error (.insufficientCapacity handle.len (store.arena.length - handle.offset))
    else .ok ()

variable [Sha256]

def writeChunk (store : MemoryStore) (handle : ChunkHandle) (bytes : List UInt8) :
    StoreResult Unit × MemoryStore :=
  match store.validateAllocatedHandle handle with
  | .error err => (.error err, store)
  | .ok chunk =>
    if bytes.length ≠ handle.len then (.error (.lengthMismatch handle.len bytes.length), store)
    else (.ok (), { store with
      arena := splice store.arena handle.offset bytes
      allocations := store.allocations.insert handle.offset { chunk with checksum := some (sha256 bytes) } })

def writePreallocatedChunk (store : MemoryStore) (handle : ChunkHandle) (bytes : List UInt8) :
    StoreResult Unit × MemoryStore :=
  match store.validatePreallocatedHandle handle bytes.length with
  | .error err => (.error err, store)
  | .ok () =>
    let allocated := { store with allocations := store.allocations.insert handle.offset ⟨handle.len, none⟩ }
    match chunkEnd handle with
    | .error err => (.error err, allocated)
    | .ok chunkEnd =>
      { allocated with nextOffset := max allocated.nextOffset chunkEnd }.writeChunk handle bytes

def readChunk (store : MemoryStore) (handle : ChunkHandle) : StoreResult (List UInt8) :=
  match store.validateAllocatedHandle handle with
  | .error err => .error err
  | .ok chunk =>
    match chunk.checksum with
    | none => .error .unwrittenChunk
    | some expectedChecksum =>
      let bytes := slice store.arena handle.offset handle.len
      if sha256 bytes ≠ expectedChecksum then .error (.checksumMismatch handle.offset) else .ok bytes

/-- The store after a successful write of a preallocated chunk. -/
def filled (store : MemoryStore) (handle : ChunkHandle) (bytes : List UInt8) : MemoryStore where
  arena := splice store.arena handle.offset bytes
  nextOffset := max store.nextOffset (handle.offset + handle.len)
  allocations := store.allocations.insert handle.offset ⟨handle.len, some (sha256 bytes)⟩

/-- The handle is not empty and lies inside the arena. -/
def Fits (store : MemoryStore) (handle : ChunkHandle) : Prop :=
  0 < handle.len ∧ handle.offset + handle.len ≤ wordMax ∧ handle.offset + handle.len ≤ store.capacity

instance (store : MemoryStore) (handle : ChunkHandle) : Decidable (store.Fits handle) :=
  inferInstanceAs (Decidable (_ ∧ _))

omit [Sha256] in
theorem chunkEnd_eq_ok {handle : ChunkHandle} (h : handle.offset + handle.len ≤ wordMax) :
    chunkEnd handle = .ok (handle.offset + handle.len) := by
  simp only [chunkEnd, checkedAdd, h, ↓reduceIte]

omit [Sha256] in
theorem validateAllocatedHandle_eq_ok {store : MemoryStore} {handle : ChunkHandle} {chunk : ChunkMeta} :
    store.validateAllocatedHandle handle = .ok chunk ↔
      store.allocations.lookup handle.offset = some chunk ∧ chunk.len = handle.len ∧
        handle.offset + handle.len ≤ wordMax ∧ handle.offset + handle.len ≤ store.capacity := by
  unfold validateAllocatedHandle
  cases hl : store.allocations.lookup handle.offset with
  | none => simp
  | some found =>
    by_cases same : found.len = handle.len
    · by_cases word : handle.offset + handle.len ≤ wordMax
      · by_cases room : handle.offset + handle.len ≤ store.arena.length
        · have inside : ¬ store.arena.length < handle.offset + handle.len := by omega
          simp only [same, chunkEnd_eq_ok word, capacity, word, room, inside, bind, Except.bind, ne_eq,
            not_true_eq_false, ↓reduceIte, Except.ok.injEq, Option.some.injEq, and_true]
          constructor
          · rintro rfl
            exact ⟨rfl, same⟩
          · exact fun h => h.1
        · have outside : store.arena.length < handle.offset + handle.len := by omega
          simp [same, chunkEnd_eq_ok word, capacity, room, outside, bind, Except.bind]
      · simp [same, chunkEnd, checkedAdd, word, bind, Except.bind]
    · simp only [ne_eq, same, not_false_eq_true, ↓reduceIte, reduceCtorEq, Option.some.injEq, false_iff,
        not_and]
      rintro rfl
      exact fun h => absurd h same

omit [Sha256] in
theorem validatePreallocatedHandle_eq_ok {store : MemoryStore} {handle : ChunkHandle} {writeLen : Nat} :
    store.validatePreallocatedHandle handle writeLen = .ok () ↔
      writeLen = handle.len ∧ store.Fits handle := by
  unfold validatePreallocatedHandle Fits capacity
  by_cases empty : handle.len = 0
  · simp [empty]
  · by_cases same : writeLen = handle.len
    · by_cases word : handle.offset + handle.len ≤ wordMax
      · by_cases room : store.arena.length < handle.offset + handle.len
        · have outside : ¬ handle.offset + handle.len ≤ store.arena.length := by omega
          simp [empty, same, chunkEnd_eq_ok word, room, outside, bind, Except.bind]
        · have inside : handle.offset + handle.len ≤ store.arena.length := by omega
          simp [empty, same, chunkEnd_eq_ok word, room, inside, word, bind, Except.bind]
          omega
      · simp [empty, same, chunkEnd, checkedAdd, word, bind, Except.bind]
    · simp [empty, same]

theorem writePreallocatedChunk_of_fits {store : MemoryStore} {handle : ChunkHandle} {bytes : List UInt8}
    (same : bytes.length = handle.len) (fits : store.Fits handle) :
    store.writePreallocatedChunk handle bytes = (.ok (), store.filled handle bytes) := by
  let allocated : MemoryStore :=
    ⟨store.arena, max store.nextOffset (handle.offset + handle.len),
      store.allocations.insert handle.offset ⟨handle.len, none⟩⟩
  have valid : allocated.validateAllocatedHandle handle = .ok ⟨handle.len, none⟩ :=
    validateAllocatedHandle_eq_ok.mpr ⟨Finmap.lookup_insert _, rfl, fits.2.1, fits.2.2⟩
  have written : allocated.writeChunk handle bytes = (.ok (), store.filled handle bytes) := by
    simp only [writeChunk, valid, same, ne_eq, not_true_eq_false, ↓reduceIte, allocated,
      Finmap.insert_insert, filled]
  simp only [writePreallocatedChunk, validatePreallocatedHandle_eq_ok.mpr ⟨same, fits⟩,
    chunkEnd_eq_ok fits.2.1]
  exact written

/-- A preallocated write is all or nothing: it fails and changes nothing, or the
handle fits and the bytes and their checksum are in place. -/
theorem writePreallocatedChunk_cases (store : MemoryStore) (handle : ChunkHandle) (bytes : List UInt8) :
    (∃ err, store.writePreallocatedChunk handle bytes = (.error err, store)) ∨
    (bytes.length = handle.len ∧ store.Fits handle ∧
      store.writePreallocatedChunk handle bytes = (.ok (), store.filled handle bytes)) := by
  cases hv : store.validatePreallocatedHandle handle bytes.length with
  | error err => exact .inl ⟨err, by simp only [writePreallocatedChunk, hv]⟩
  | ok done =>
    obtain ⟨same, fits⟩ := validatePreallocatedHandle_eq_ok.mp hv
    exact .inr ⟨same, fits, writePreallocatedChunk_of_fits same fits⟩

/-- What a successful read has found. -/
theorem readChunk_eq_ok {store : MemoryStore} {handle : ChunkHandle} {bytes : List UInt8} :
    store.readChunk handle = .ok bytes ↔
      store.allocations.lookup handle.offset = some ⟨handle.len, some (sha256 bytes)⟩ ∧
        handle.offset + handle.len ≤ wordMax ∧ handle.offset + handle.len ≤ store.capacity ∧
        slice store.arena handle.offset handle.len = bytes := by
  unfold readChunk
  cases hv : store.validateAllocatedHandle handle with
  | error err =>
    simp only [reduceCtorEq, false_iff]
    rintro ⟨hl, word, room, _⟩
    have valid := validateAllocatedHandle_eq_ok.mpr ⟨hl, rfl, word, room⟩
    rw [hv] at valid
    cases valid
  | ok chunk =>
    obtain ⟨hl, same, word, room⟩ := validateAllocatedHandle_eq_ok.mp hv
    obtain ⟨len, checksum⟩ := chunk
    simp only at same
    subst same
    cases checksum with
    | none => simp [hl]
    | some expected =>
      simp only [hl, word, room, true_and, Option.some.injEq, ChunkMeta.mk.injEq]
      split
      · rename_i differs
        simp only [reduceCtorEq, false_iff, not_and]
        rintro rfl rfl
        exact differs rfl
      · rename_i agrees
        simp only [Except.ok.injEq]
        constructor
        · rintro rfl
          exact ⟨(not_not.mp agrees).symm, rfl⟩
        · exact fun h => h.2

@[simp] theorem filled_capacity {store : MemoryStore} {handle : ChunkHandle} {bytes : List UInt8}
    (same : bytes.length = handle.len) (fits : store.Fits handle) :
    (store.filled handle bytes).capacity = store.capacity :=
  length_splice (same ▸ fits.2.2)

/-- What was just written reads back. -/
theorem readChunk_filled {store : MemoryStore} {handle : ChunkHandle} {bytes : List UInt8}
    (same : bytes.length = handle.len) (fits : store.Fits handle) :
    (store.filled handle bytes).readChunk handle = .ok bytes := by
  rw [readChunk_eq_ok, filled_capacity same fits]
  refine ⟨Finmap.lookup_insert _, fits.2.1, fits.2.2, ?_⟩
  rw [← same]
  exact slice_splice_same (same ▸ fits.2.2)

/-- A write elsewhere leaves a chunk readable. -/
theorem readChunk_filled_of_disjoint {store : MemoryStore} {handle other : ChunkHandle}
    {bytes found : List UInt8} (same : bytes.length = handle.len) (fits : store.Fits handle)
    (positive : 0 < other.len) (apart : ¬ handle.Overlaps other) (h : store.readChunk other = .ok found) :
    (store.filled handle bytes).readChunk other = .ok found := by
  have filledFits := fits.1
  rw [readChunk_eq_ok] at h ⊢
  rw [filled_capacity same fits]
  obtain ⟨hl, word, room, read⟩ := h
  have apart : other.offset + other.len ≤ handle.offset ∨ handle.offset + bytes.length ≤ other.offset := by
    simp only [ChunkHandle.Overlaps] at apart
    omega
  have away : other.offset ≠ handle.offset := by omega
  refine ⟨?_, word, room, ?_⟩
  · rw [filled, Finmap.lookup_insert_of_ne _ away]
    exact hl
  · rw [← read]
    exact slice_splice_of_disjoint (same ▸ fits.2.2) apart

end MemoryStore
end Mooncache
