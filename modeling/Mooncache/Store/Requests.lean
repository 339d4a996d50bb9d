import Mooncache.Store.ChunkMemory
import Mooncache.Store.Node

/-! What each request leaves of the node's state: after an error, and after a read. -/
namespace Mooncache

section
variable [Sha256]

/-- A write that changes nothing finds its bytes in place. -/
theorem MemoryStore.filled_eq_self_iff {store : MemoryStore} {handle : ChunkHandle} {bytes : List UInt8}
    (same : bytes.length = handle.len) (fits : store.Fits handle) :
    store.filled handle bytes = store ↔
      store.readChunk handle = .ok bytes ∧ handle.offset + handle.len ≤ store.nextOffset := by
  constructor
  · intro unchanged
    constructor
    · rw [← unchanged]
      exact readChunk_filled same fits
    · rw [← unchanged]
      exact Nat.le_max_right _ _
  · rintro ⟨read, reached⟩
    obtain ⟨found, _, _, held⟩ := readChunk_eq_ok.mp read
    have arena : splice store.arena handle.offset bytes = store.arena := held ▸ splice_slice fits.2.2
    simp only [filled, arena, Nat.max_eq_left reached, Table.insert_lookup found]

/-- What a write does to another chunk that could be read. -/
theorem MemoryStore.readChunk_filled_iff {store : MemoryStore} {handle other : ChunkHandle} {data bytes : List UInt8}
    (length : data.length = handle.len) (fits : store.Fits handle) (hne : other ≠ handle)
    (read : store.readChunk other = .ok bytes) :
    (store.filled handle data).readChunk other = .ok bytes ↔ other.offset ≠ handle.offset ∧
      ∀ i, other.offset ≤ i → i < other.offset + other.len → handle.offset ≤ i → i < handle.offset + handle.len →
        data[i - handle.offset]? = store.arena[i]? := by
  obtain ⟨found, word, room, held⟩ := MemoryStore.readChunk_eq_ok.mp read
  rw [MemoryStore.readChunk_eq_ok, MemoryStore.filled_capacity length fits]
  have stretch : slice (splice store.arena handle.offset data) other.offset other.len =
      slice store.arena other.offset other.len ↔ ∀ i, other.offset ≤ i → i < other.offset + other.len →
        handle.offset ≤ i → i < handle.offset + data.length → data[i - handle.offset]? = store.arena[i]? :=
    slice_splice_eq_iff (length ▸ fits.2.2)
  rw [length] at stretch
  rw [← stretch, held]
  rcases eq_or_ne other.offset handle.offset with same | away
  · have replaced : (store.filled handle data).allocations.lookup other.offset =
        some ⟨handle.len, some (sha256 data)⟩ := same ▸ Finmap.lookup_insert _
    refine ⟨fun kept => ?_, fun kept => absurd same kept.1⟩
    have lengths := kept.1
    rw [replaced, Option.some.injEq, ChunkMeta.mk.injEq] at lengths
    obtain ⟨offset, len⟩ := other
    obtain ⟨start, width⟩ := handle
    simp only at same lengths
    exact absurd (by rw [same, lengths.1]) hne
  · have kept : (store.filled handle data).allocations.lookup other.offset = some ⟨other.len, some (sha256 bytes)⟩ :=
      (Finmap.lookup_insert_of_ne _ away).trans found
    exact ⟨fun h => ⟨away, h.2.2.2⟩, fun h => ⟨kept, word, room, h.2⟩⟩

end

namespace StoreNodeState
open Program (exec)
variable [Sha256] [ChaCha20Poly1305] {s : StoreNodeState} {env : NodeEnv} {handle : ChunkHandle}
  {tenantId cacheKey : Option String}

omit [ChaCha20Poly1305] in
theorem allocateAndWrite_cases (s : StoreNodeState) (len : Nat) (data : List UInt8) :
    (¬ s.dram.HasRoom len ∧ ∃ err, s.allocateAndWrite len data = (.error err, s)) ∨
    (s.dram.HasRoom len ∧ data.length ≠ len ∧ s.allocateAndWrite len data =
      (.error (.lengthMismatch len data.length), { s with dram := (s.dram.allocate len).2 })) ∨
    (data.length = len ∧ ∃ handle s', s.allocateAndWrite len data = (.ok handle, s')) := by
  rcases MemoryStore.allocate_cases s.dram len with ⟨full, err, he⟩ | ⟨room, he⟩
  · exact .inl ⟨full, err, by simp only [allocateAndWrite, he]⟩
  · have placed : s.dram.allocate len = (.ok ⟨s.dram.nextOffset, len⟩, (s.dram.allocate len).2) := by rw [he]
    have valid : (s.dram.allocate len).2.validateAllocatedHandle ⟨s.dram.nextOffset, len⟩ = .ok ⟨len, none⟩ := by
      refine MemoryStore.validateAllocatedHandle_eq_ok.mpr ?_
      rw [he]
      exact ⟨Finmap.lookup_insert _, rfl, room.2.1, room.2.2⟩
    by_cases length : data.length = len
    · refine .inr (.inr ⟨length, ⟨s.dram.nextOffset, len⟩, ?_⟩)
      unfold allocateAndWrite
      rw [placed]
      simp only [MemoryStore.writeChunk, valid, length, ne_eq, not_true_eq_false, ↓reduceIte]
      exact ⟨_, rfl⟩
    · refine .inr (.inl ⟨room, length, ?_⟩)
      unfold allocateAndWrite
      rw [placed]
      simp only [MemoryStore.writeChunk, valid, ne_eq, length, not_false_eq_true, ↓reduceIte]

/-- The read puts `data` from the SSD tier into DRAM. -/
structure Promotes (s : StoreNodeState) (env : NodeEnv) (handle : ChunkHandle) (tenantId cacheKey : Option String)
    (data : List UInt8) : Prop where
  missing : ∃ err, s.dram.readChunk handle = .error err ∧ StoreNode.missingInDram err = true
  stored : ∃ ssd tenant key, s.ssd = some ssd ∧ tenantId = some tenant ∧ cacheKey = some key ∧
    ssd.readObject s.files env.readFault tenant key = .ok data
  length : data.length = handle.len
  fits : s.dram.Fits handle

theorem Promotes.stored_in {data : List UInt8} {ssd : SsdStore} {tenant key : String}
    (promotes : s.Promotes env handle (some tenant) (some key) data) (tier : s.ssd = some ssd) :
    ssd.readObject s.files env.readFault tenant key = .ok data := by
  obtain ⟨_, _, _, same, named, keyed, stored⟩ := promotes.stored
  rw [tier] at same
  cases same
  cases named
  cases keyed
  exact stored

theorem Promotes.unique {data other : List UInt8} (promotes : s.Promotes env handle tenantId cacheKey data)
    (also : s.Promotes env handle tenantId cacheKey other) : data = other := by
  obtain ⟨ssd, tenant, key, tier, rfl, rfl, stored⟩ := promotes.stored
  exact Except.ok.inj (stored.symm.trans (also.stored_in tier))

/-- A read is answered by DRAM, or by the SSD tier through DRAM, or fails and changes nothing. -/
inductive Reads (s : StoreNodeState) (env : NodeEnv) (handle : ChunkHandle) (tenantId cacheKey : Option String) :
    Except StoreNodeError ReadChunkResponse → StoreNodeState → Prop
  | dram {data : List UInt8} : s.dram.readChunk handle = .ok data →
      Reads s env handle tenantId cacheKey (.ok ⟨handle.offset, handle.len, "dram", data⟩) s
  | ssd {data : List UInt8} : s.Promotes env handle tenantId cacheKey data →
      Reads s env handle tenantId cacheKey (.ok ⟨handle.offset, handle.len, "ssd", data⟩)
        { s with dram := s.dram.filled handle data }
  | failed (err : StoreNodeError) : (∀ data, s.dram.readChunk handle ≠ .ok data) →
      (∀ data, ¬ s.Promotes env handle tenantId cacheKey data) → Reads s env handle tenantId cacheKey (.error err) s

/-- The write goes to an SSD tier, under an identity. -/
def Tiered (s : StoreNodeState) (tenantId cacheKey : Option String) (ssd : SsdStore) (tenant key : String) : Prop :=
  s.ssd = some ssd ∧ tenantId = some tenant ∧ cacheKey = some key

/-- A write of a preallocated chunk is refused, stops at DRAM, or goes on to the SSD tier and then
to the sizes recorded for it. -/
inductive Writes (s : StoreNodeState) (env : NodeEnv) (handle : ChunkHandle) (bytes : List UInt8)
    (tenantId cacheKey : Option String) : Except StoreNodeError Unit → StoreNodeState → Prop
  | refused (err : StoreError) : ¬ (bytes.length = handle.len ∧ s.dram.Fits handle) →
      Writes s env handle bytes tenantId cacheKey (.error (.store err)) s
  | dram : bytes.length = handle.len → s.dram.Fits handle →
      (∀ ssd tenant key, ¬ s.Tiered tenantId cacheKey ssd tenant key) →
      Writes s env handle bytes tenantId cacheKey (.ok ()) { s with dram := s.dram.filled handle bytes }
  | unpersisted {ssd : SsdStore} {tenant key : String} {err : SsdError} {left : Files} :
      bytes.length = handle.len → s.dram.Fits handle → s.Tiered tenantId cacheKey ssd tenant key →
      ssd.persistObject s.files env.persist tenant key bytes = (.error err, left) →
      Writes s env handle bytes tenantId cacheKey (.error (.ssd err))
        { s with dram := s.dram.filled handle bytes, files := left }
  | persisted {ssd : SsdStore} {tenant key : String} {left : Files} :
      bytes.length = handle.len → s.dram.Fits handle → s.Tiered tenantId cacheKey ssd tenant key →
      ssd.persistObject s.files env.persist tenant key bytes = (.ok (), left) →
      Writes s env handle bytes tenantId cacheKey (.ok ())
        { s with
          dram := s.dram.filled handle bytes
          files := left
          ssdObjects := s.ssdObjects.insert (tenant, key) bytes.length }

theorem readChunk_reads (s : StoreNodeState) (env : NodeEnv) (handle : ChunkHandle) (tenantId cacheKey : Option String) :
    s.Reads env handle tenantId cacheKey (exec (serve env) s (StoreNode.readChunk s.ssd handle tenantId cacheKey)).1
      (exec (serve env) s (StoreNode.readChunk s.ssd handle tenantId cacheKey)).2 := by
  unfold StoreNode.readChunk
  rw [Program.exec_perform]
  cases read : s.dram.readChunk handle with
  | ok data =>
    simp only [serve, read, Program.exec_pure]
    exact .dram read
  | error err =>
    have unread (data : List UInt8) : s.dram.readChunk handle ≠ .ok data := by simp [read]
    simp only [serve, read]
    by_cases tiered : StoreNode.missingInDram err && StoreNode.canPromoteFromSsd s.ssd tenantId cacheKey
    · have both := tiered
      simp only [StoreNode.canPromoteFromSsd, Bool.and_eq_true, Option.isSome_iff_exists] at both
      obtain ⟨missing, ⟨⟨ssd, tier⟩, tenant, rfl⟩, key, rfl⟩ := both
      rw [if_pos tiered]
      simp only [tier, Program.exec_perform, serve, SsdStore.promoteToDram]
      cases loaded : ssd.readObject s.files env.readFault tenant key with
      | error failure =>
        refine .failed (.ssd failure) unread fun data promotes => ?_
        cases loaded.symm.trans (promotes.stored_in tier)
      | ok data =>
        simp only [Program.exec_perform, serve]
        rcases MemoryStore.writePreallocatedChunk_cases s.dram handle data with ⟨failure, he⟩ | ⟨length, fits, he⟩
        · simp only [he, Program.exec_pure]
          refine .failed (.store failure) unread fun other promotes => ?_
          cases loaded.symm.trans (promotes.stored_in tier)
          rw [MemoryStore.writePreallocatedChunk_of_fits promotes.length promotes.fits] at he
          cases he
        · simp only [he, Program.exec_pure]
          exact .ssd ⟨⟨err, read, missing⟩, ⟨ssd, tenant, key, tier, rfl, rfl, loaded⟩, length, fits⟩
    · rw [if_neg tiered]
      refine .failed (.store err) unread fun data promotes => tiered ?_
      obtain ⟨⟨found, same, missing⟩, ⟨ssd, tenant, key, tier, rfl, rfl, _⟩, _, _⟩ := promotes
      rw [read, Except.error.injEq] at same
      simp [same, missing, StoreNode.canPromoteFromSsd, tier]

theorem writePreallocated_writes (s : StoreNodeState) (env : NodeEnv) (handle : ChunkHandle) (bytes : List UInt8)
    (tenantId cacheKey : Option String) :
    s.Writes env handle bytes tenantId cacheKey
      (exec (serve env) s (StoreNode.writePreallocated s.ssd handle bytes tenantId cacheKey)).1
      (exec (serve env) s (StoreNode.writePreallocated s.ssd handle bytes tenantId cacheKey)).2 := by
  unfold StoreNode.writePreallocated
  rw [Program.exec_perform]
  by_cases possible : bytes.length = handle.len ∧ s.dram.Fits handle
  · obtain ⟨length, fits⟩ := possible
    simp only [serve, MemoryStore.writePreallocatedChunk_of_fits length fits]
    split
    · rename_i ssd tenant key tier
      simp only [Program.exec_perform, serve]
      cases stored : ssd.persistObject s.files env.persist tenant key bytes with
      | mk result left =>
        cases result with
        | error err => exact .unpersisted length fits ⟨tier, rfl, rfl⟩ stored
        | ok => exact .persisted length fits ⟨tier, rfl, rfl⟩ stored
    · rename_i bare
      exact .dram length fits fun ssd tenant key tiered => bare ssd tenant key tiered.1 tiered.2.1 tiered.2.2
  · rcases MemoryStore.writePreallocatedChunk_cases s.dram handle bytes with ⟨err, he⟩ | ⟨length, fits, _⟩
    · simp only [serve, he, Program.exec_pure]
      exact .refused err possible
    · exact absurd ⟨length, fits⟩ possible

/-- The request fails after it has changed DRAM: a chunk is allocated for bytes of another length,
or an object reaches DRAM, where its bytes are not yet in place, and does not reach the SSD tier. -/
def Spills (s : StoreNodeState) (env : NodeEnv) : NodeRequest → Prop
  | .allocateAndWrite len data => s.dram.HasRoom len ∧ data.length ≠ len
  | .writePreallocated handle bytes tenantId cacheKey =>
    (bytes.length = handle.len ∧ s.dram.Fits handle) ∧
      ¬ (s.dram.readChunk handle = .ok bytes ∧ handle.offset + handle.len ≤ s.dram.nextOffset) ∧
      ∃ ssd tenant key, s.Tiered tenantId cacheKey ssd tenant key ∧
        ¬ ssd.Persists s.files env.persist tenant key bytes
  | .readChunk _ _ _ => False

private theorem allocateAndWrite_spills_iff (len : Nat) (data : List UInt8) :
    ((∃ err, (s.request env (.allocateAndWrite len data)).1 = .error err) →
      (s.request env (.allocateAndWrite len data)).2.dram = s.dram ∧
        (s.request env (.allocateAndWrite len data)).2.ssdObjects = s.ssdObjects) ↔
      ¬ s.Spills env (.allocateAndWrite len data) := by
  have result : s.request env (.allocateAndWrite len data) =
      ((s.allocateAndWrite len data).1.mapError StoreNodeError.store |>.map NodeResponse.allocated,
        (s.allocateAndWrite len data).2) := rfl
  rw [result, Spills]
  rcases allocateAndWrite_cases s len data with ⟨full, err, he⟩ | ⟨room, length, he⟩ | ⟨length, handle, s', he⟩
  · simp [he, full]
  · have grown : (s.dram.allocate len).2 ≠ s.dram := by
      rcases MemoryStore.allocate_cases s.dram len with ⟨full, _⟩ | ⟨_, placed⟩
      · exact absurd room full
      · intro same
        have watermark := congrArg MemoryStore.nextOffset same
        rw [placed] at watermark
        have positive := room.1
        simp only at watermark
        omega
    simp [he, room, length, grown, Except.mapError, Except.map]
  · simp [he, length, Except.mapError, Except.map]

private theorem writePreallocated_spills_iff (handle : ChunkHandle) (bytes : List UInt8)
    (tenantId cacheKey : Option String) :
    ((∃ err, (s.request env (.writePreallocated handle bytes tenantId cacheKey)).1 = .error err) →
      (s.request env (.writePreallocated handle bytes tenantId cacheKey)).2.dram = s.dram ∧
        (s.request env (.writePreallocated handle bytes tenantId cacheKey)).2.ssdObjects = s.ssdObjects) ↔
      ¬ s.Spills env (.writePreallocated handle bytes tenantId cacheKey) := by
  have writes := writePreallocated_writes s env handle bytes tenantId cacheKey
  have result : s.request env (.writePreallocated handle bytes tenantId cacheKey) =
      ((exec (serve env) s (StoreNode.writePreallocated s.ssd handle bytes tenantId cacheKey)).1.map fun () =>
        NodeResponse.written,
        (exec (serve env) s (StoreNode.writePreallocated s.ssd handle bytes tenantId cacheKey)).2) := rfl
  rw [result, Spills]
  generalize exec (serve env) s (StoreNode.writePreallocated s.ssd handle bytes tenantId cacheKey) = outcome at writes ⊢
  obtain ⟨answer, s'⟩ := outcome
  simp only at writes ⊢
  cases writes with
  | refused err impossible => simp [impossible]
  | dram length fits bare =>
    refine ⟨fun _ spills => ?_, fun _ ⟨_, failed⟩ => by cases failed⟩
    obtain ⟨_, _, ssd, tenant, key, tiered, _⟩ := spills
    exact bare ssd tenant key tiered
  | @unpersisted ssd tenant key err left length fits tiered failed =>
    have lost : ¬ ssd.Persists s.files env.persist tenant key bytes := fun persists => by
      rw [← SsdStore.persistObject_ok_iff, failed] at persists
      cases persists
    rw [← MemoryStore.filled_eq_self_iff length fits]
    constructor
    · rintro unchanged ⟨_, changed, _⟩
      exact changed (unchanged ⟨_, rfl⟩).1
    · intro quiet _
      refine ⟨by_contra fun changed => quiet ⟨⟨length, fits⟩, changed, ssd, tenant, key, tiered, lost⟩, rfl⟩
  | @persisted ssd tenant key left length fits tiered stored =>
    refine ⟨fun _ spills => ?_, fun _ ⟨_, failed⟩ => by cases failed⟩
    obtain ⟨_, _, _, _, _, ⟨tier, named, keyed⟩, lost⟩ := spills
    obtain ⟨rfl, rfl, rfl⟩ : _ ∧ _ ∧ _ := ⟨Option.some.inj (tier.symm.trans tiered.1),
      Option.some.inj (named.symm.trans tiered.2.1), Option.some.inj (keyed.symm.trans tiered.2.2)⟩
    exact lost (SsdStore.persistObject_ok_iff.mp (congrArg Prod.fst stored))

/-- A request that fails leaves DRAM and the recorded sizes as they were, but for the requests
that fail after a change. -/
theorem failed_request_unchanged_iff (s : StoreNodeState) (env : NodeEnv) (request : NodeRequest) :
    ((∃ err, (s.request env request).1 = .error err) →
      (s.request env request).2.dram = s.dram ∧ (s.request env request).2.ssdObjects = s.ssdObjects) ↔
      ¬ s.Spills env request := by
  cases request with
  | allocateAndWrite len data => exact allocateAndWrite_spills_iff len data
  | writePreallocated handle bytes tenantId cacheKey => exact writePreallocated_spills_iff handle bytes tenantId cacheKey
  | readChunk handle tenantId cacheKey =>
    have reads := readChunk_reads s env handle tenantId cacheKey
    have result : s.request env (.readChunk handle tenantId cacheKey) =
        ((exec (serve env) s (StoreNode.readChunk s.ssd handle tenantId cacheKey)).1.map NodeResponse.read,
          (exec (serve env) s (StoreNode.readChunk s.ssd handle tenantId cacheKey)).2) := rfl
    rw [result, Spills]
    generalize exec (serve env) s (StoreNode.readChunk s.ssd handle tenantId cacheKey) = outcome at reads ⊢
    obtain ⟨answer, s'⟩ := outcome
    simp only at reads ⊢
    cases reads with
    | dram | ssd => simp [Except.map]
    | failed => simp

omit [Sha256] [ChaCha20Poly1305] in
/-- Four bytes are allocated for one. -/
theorem mismatched_write_allocates :
    ¬ ∀ [Sha256] [ChaCha20Poly1305] (s : StoreNodeState) (env : NodeEnv) (request : NodeRequest),
      (∃ err, (s.request env request).1 = .error err) →
        (s.request env request).2.dram = s.dram ∧ (s.request env request).2.ssdObjects = s.ssdObjects := by
  intro unchanged
  let _ := sampleDigest
  let _ := sampleCipher
  have same := (unchanged (memoryOnly 8) (.healthy 0) (.allocateAndWrite 4 [1]) ⟨.store (.lengthMismatch 4 1), rfl⟩).1
  have watermark : (4 : Nat) = 0 := congrArg MemoryStore.nextOffset same
  omega

/-- The promoted bytes are already in place wherever another readable chunk has them. -/
def Harmless (s : StoreNodeState) (env : NodeEnv) (handle : ChunkHandle) (tenantId cacheKey : Option String) : Prop :=
  ∀ data, s.Promotes env handle tenantId cacheKey data → ∀ other bytes, other ≠ handle →
    s.dram.readChunk other = .ok bytes → other.offset ≠ handle.offset ∧
      ∀ i, other.offset ≤ i → i < other.offset + other.len → handle.offset ≤ i → i < handle.offset + handle.len →
        data[i - handle.offset]? = s.dram.arena[i]?

/-- A read leaves every other chunk readable as it was, but for the promotions that overwrite one. -/
theorem read_keeps_others_iff (s : StoreNodeState) (env : NodeEnv) (handle : ChunkHandle)
    (tenantId cacheKey : Option String) :
    (∀ other bytes, other ≠ handle → s.dram.readChunk other = .ok bytes →
      (s.request env (.readChunk handle tenantId cacheKey)).2.dram.readChunk other = .ok bytes) ↔
      s.Harmless env handle tenantId cacheKey := by
  have reads := readChunk_reads s env handle tenantId cacheKey
  have state : (s.request env (.readChunk handle tenantId cacheKey)).2 =
      (exec (serve env) s (StoreNode.readChunk s.ssd handle tenantId cacheKey)).2 := rfl
  rw [state]
  generalize exec (serve env) s (StoreNode.readChunk s.ssd handle tenantId cacheKey) = outcome at reads ⊢
  obtain ⟨answer, s'⟩ := outcome
  simp only at reads ⊢
  cases reads with
  | dram read =>
    refine ⟨fun _ data promotes => ?_, fun _ _ _ _ found => found⟩
    obtain ⟨err, missing, _⟩ := promotes.missing
    rw [read] at missing
    cases missing
  | failed _ _ quiet => exact ⟨fun _ data promotes => absurd promotes (quiet data), fun _ _ _ _ found => found⟩
  | @ssd data promotes =>
    constructor
    · intro kept other promoted target bytes hne found
      cases promotes.unique promoted
      exact (MemoryStore.readChunk_filled_iff promotes.length promotes.fits hne found).mp (kept target bytes hne found)
    · intro harmless other bytes hne found
      exact (MemoryStore.readChunk_filled_iff promotes.length promotes.fits hne found).mpr
        (harmless data promotes other bytes hne found)

/-- An object on SSD and a chunk in DRAM, inside the handle under which the object is asked for. -/
private def crossed : StoreNodeState where
  dram := (MemoryStore.withCapacity 8).filled ⟨1, 2⟩ [9, 9]
  ssd := some sampleSsd
  ssdObjects := ∅
  ssdBytesCapacity := 0
  files := (∅ : Files).insert ⟨true, ["ssd", "tenant-a", "key.mcobj"]⟩
    (fileMagic ++ List.replicate 12 0 ++
      [213, 86, 53, 84, 134, 57, 218, 234, 52, 101, 138, 207, 134, 117, 56, 43, 148, 239])

omit [Sha256] [ChaCha20Poly1305] in
/-- A promotion over a part of another chunk. -/
theorem promotion_damages_chunk :
    ¬ ∀ [Sha256] [ChaCha20Poly1305] (s : StoreNodeState) (env : NodeEnv) (handle : ChunkHandle)
      (tenantId cacheKey : Option String) (other : ChunkHandle) (bytes : List UInt8), other ≠ handle →
      s.dram.readChunk other = .ok bytes →
      (s.request env (.readChunk handle tenantId cacheKey)).2.dram.readChunk other = .ok bytes := by
  intro kept
  let _ := sampleDigest
  let _ := sampleCipher
  have damaged :
      (crossed.request (.healthy 0) (.readChunk ⟨0, 2⟩ (some "tenant-a") (some "key"))).2.dram.readChunk ⟨1, 2⟩ =
      .error (.checksumMismatch 1) := by decide
  have read := kept crossed (.healthy 0) ⟨0, 2⟩ (some "tenant-a") (some "key") ⟨1, 2⟩ [9, 9] (by decide) (by decide)
  rw [damaged] at read
  cases read

end StoreNodeState
end Mooncache
