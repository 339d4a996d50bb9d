import Mooncache.Store.Requests

/-! A node that has lost its DRAM, beside the node that has not: what the two return for the
objects that were written. -/
namespace Mooncache
open Program (exec)

/-- An identity and the handle at which it is written. -/
structure StoredObject where
  handle : ChunkHandle
  tenantId : String
  cacheKey : String
  deriving DecidableEq

structure ObjectWrite where
  object : StoredObject
  bytes : List UInt8

/-- Every identity has one handle, and the handles of two identities are disjoint. -/
def Placed (writes : List ObjectWrite) : Prop :=
  ∀ first ∈ writes, ∀ second ∈ writes, first.object ≠ second.object →
    (first.object.tenantId, first.object.cacheKey) ≠ (second.object.tenantId, second.object.cacheKey) ∧
      ¬ first.object.handle.Overlaps second.object.handle

/-- What was last written for the object. -/
def payload (writes : List ObjectWrite) (object : StoredObject) : List UInt8 :=
  ((writes.filter (·.object = object)).getLast?.map ObjectWrite.bytes).getD []

theorem payload_snoc (writes : List ObjectWrite) (write : ObjectWrite) (object : StoredObject) :
    payload (writes ++ [write]) object = if write.object = object then write.bytes else payload writes object := by
  rw [payload, List.filter_append]
  split <;> rename_i same
  · simp [same]
  · simp [payload, same]

theorem Placed.init {writes : List ObjectWrite} {last : ObjectWrite} (h : Placed (writes ++ [last])) : Placed writes :=
  fun first member second other => h first (List.mem_append_left _ member) second (List.mem_append_left _ other)

/-- Offsets of two objects differ. -/
theorem Placed.offset_ne {writes : List ObjectWrite} (placed : Placed writes) {first second : ObjectWrite}
    (member : first ∈ writes) (other : second ∈ writes) (hne : first.object ≠ second.object)
    (positive : 0 < first.object.handle.len) (filled : 0 < second.object.handle.len) :
    first.object.handle.offset ≠ second.object.handle.offset := by
  intro same
  refine (placed first member second other hne).2 ⟨?_, ?_⟩ <;> omega

/-- A later write leaves what was written for another object, which lies elsewhere. -/
theorem Placed.earlier {writes : List ObjectWrite} {write earlier : ObjectWrite} (placed : Placed (writes ++ [write]))
    (member : earlier ∈ writes ++ [write]) (hne : earlier.object ≠ write.object) :
    earlier ∈ writes ∧ payload (writes ++ [write]) earlier.object = payload writes earlier.object ∧
      (earlier.object.tenantId, earlier.object.cacheKey) ≠ (write.object.tenantId, write.object.cacheKey) ∧
      ¬ write.object.handle.Overlaps earlier.object.handle := by
  have old : earlier ∈ writes := (List.mem_append.mp member).resolve_right fun last =>
    hne (congrArg ObjectWrite.object (List.mem_singleton.mp last))
  have apart := placed earlier member write (by simp) hne
  exact ⟨old, by rw [payload_snoc, if_neg hne.symm], apart.1, (placed write (by simp) earlier member hne.symm).2⟩

namespace StoreNodeState
variable [Sha256] [ChaCha20Poly1305] {ssd : SsdStore} {start hot cold s s' : StoreNodeState} {writes : List ObjectWrite}
  {write : ObjectWrite} {object : StoredObject}

/-- A write that succeeds. -/
def WriteStep (s : StoreNodeState) (write : ObjectWrite) (s' : StoreNodeState) : Prop :=
  ∃ env, exec (serve env) s (StoreNode.writePreallocated s.ssd write.object.handle write.bytes
    (some write.object.tenantId) (some write.object.cacheKey)) = (.ok (), s')

/-- Reads one after the other, over a file system that loses no file. -/
def readAll (s : StoreNodeState) : List StoredObject → List (Except StoreNodeError ReadChunkResponse)
  | [] => []
  | object :: rest =>
    let (result, s') := exec (serve (.healthy 0)) s
      (StoreNode.readChunk s.ssd object.handle (some object.tenantId) (some object.cacheKey))
    result :: readAll s' rest

omit [Sha256] [ChaCha20Poly1305] in
/-- The answer to a read of the object, by the tier that gives it. -/
def answer (writes : List ObjectWrite) (object : StoredObject) (dram : Bool) : Except StoreNodeError ReadChunkResponse :=
  .ok ⟨object.handle.offset, object.handle.len, if dram then "dram" else "ssd", payload writes object⟩

/-- The SSD tier holds every object that was written, and each fits its handle. -/
structure OnSsd (ssd : SsdStore) (writes : List ObjectWrite) (s : StoreNodeState) : Prop where
  tier : s.ssd = some ssd
  files : ∀ write ∈ writes, ssd.readObject s.files none write.object.tenantId write.object.cacheKey =
    .ok (payload writes write.object)
  length : ∀ write ∈ writes, (payload writes write.object).length = write.object.handle.len
  fits : ∀ write ∈ writes, s.dram.Fits write.object.handle

/-- DRAM holds the objects read so far, and nothing where another one would be. -/
structure Warm (ssd : SsdStore) (writes : List ObjectWrite) (promoted : List StoredObject) (s : StoreNodeState) : Prop
    extends s.OnSsd ssd writes where
  warm : ∀ write ∈ writes, write.object ∈ promoted →
    s.dram.readChunk write.object.handle = .ok (payload writes write.object)
  cold : ∀ write ∈ writes, write.object ∉ promoted → s.dram.allocations.lookup write.object.handle.offset = none

/-- Both tiers hold every object. -/
structure Stores (ssd : SsdStore) (writes : List ObjectWrite) (s : StoreNodeState) : Prop
    extends s.OnSsd ssd writes where
  hot : ∀ write ∈ writes, s.dram.readChunk write.object.handle = .ok (payload writes write.object)

theorem Stores.step (h : s.Stores ssd writes) (decrypts : SsdStore.Decrypts) (placed : Placed (writes ++ [write]))
    (step : s.WriteStep write s') : s'.Stores ssd (writes ++ [write]) := by
  obtain ⟨env, ran⟩ := step
  have written := writePreallocated_writes s env write.object.handle write.bytes (some write.object.tenantId)
    (some write.object.cacheKey)
  rw [ran] at written
  cases written with
  | dram _ _ bare => exact absurd ⟨h.tier, rfl, rfl⟩ (bare ssd write.object.tenantId write.object.cacheKey)
  | @persisted _ _ _ left length fits tiered persisted =>
    obtain ⟨same, named, keyed⟩ := tiered
    cases named
    cases keyed
    cases same.symm.trans h.tier
    have own {same : ObjectWrite} (here : same.object = write.object) :
        payload (writes ++ [write]) same.object = write.bytes := by rw [payload_snoc, if_pos here.symm]
    refine ⟨⟨h.tier, fun earlier member => ?_, fun earlier member => ?_, fun earlier member => ?_⟩,
      fun earlier member => ?_⟩
    all_goals rcases eq_or_ne earlier.object write.object with here | hne
    · rw [own here, here]
      exact SsdStore.readObject_persist decrypts persisted
    · obtain ⟨old, kept, away, _⟩ := placed.earlier member hne
      have same := SsdStore.readObject_persist_of_ne ssd s.files env.persist write.bytes none away
      rw [persisted] at same
      rw [kept, ← h.files earlier old]
      exact same
    · rw [own here, here]
      exact length
    · obtain ⟨old, kept, _⟩ := placed.earlier member hne
      rw [kept]
      exact h.length earlier old
    · rw [here]
      exact ⟨fits.1, fits.2.1, (MemoryStore.filled_capacity length fits).symm ▸ fits.2.2⟩
    · obtain ⟨old, _⟩ := placed.earlier member hne
      have before := h.fits earlier old
      exact ⟨before.1, before.2.1, (MemoryStore.filled_capacity length fits).symm ▸ before.2.2⟩
    · rw [own here, here]
      exact MemoryStore.readChunk_filled length fits
    · obtain ⟨old, kept, _, apart⟩ := placed.earlier member hne
      rw [kept]
      exact MemoryStore.readChunk_filled_of_disjoint length fits (h.fits earlier old).1 apart (h.hot earlier old)

theorem Stores.run (decrypts : SsdStore.Decrypts) (tier : start.ssd = some ssd) (placed : Placed writes)
    (run : Run WriteStep start writes hot) : hot.Stores ssd writes := by
  induction run with
  | start => exact ⟨⟨tier, by simp, by simp, by simp⟩, by simp⟩
  | snoc _ last ih => exact (ih placed.init).step decrypts placed last

/-- A read of an object that DRAM has. -/
theorem Warm.read_warm {promoted : List StoredObject} (h : s.Warm ssd writes promoted) (env : NodeEnv)
    (member : write ∈ writes) (here : write.object ∈ promoted) :
    exec (serve env) s (StoreNode.readChunk s.ssd write.object.handle (some write.object.tenantId)
      (some write.object.cacheKey)) = (answer writes write.object true, s) := by
  have reads := readChunk_reads s env write.object.handle (some write.object.tenantId) (some write.object.cacheKey)
  generalize exec (serve env) s _ = outcome at reads ⊢
  obtain ⟨result, s'⟩ := outcome
  cases reads with
  | dram found =>
    cases found.symm.trans (h.warm write member here)
    rfl
  | ssd promotes =>
    obtain ⟨err, missing, _⟩ := promotes.missing
    cases missing.symm.trans (h.warm write member here)
  | failed _ unread => exact absurd (h.warm write member here) (unread _)

/-- A read of an object that DRAM has lost. -/
theorem Warm.read_cold {promoted : List StoredObject} (h : s.Warm ssd writes promoted) (placed : Placed writes)
    {env : NodeEnv} (healthy : env.readFault = none) (member : write ∈ writes) (away : write.object ∉ promoted) :
    ∃ s', exec (serve env) s (StoreNode.readChunk s.ssd write.object.handle (some write.object.tenantId)
      (some write.object.cacheKey)) = (answer writes write.object false, s') ∧
      s'.Warm ssd writes (promoted ++ [write.object]) := by
  have missing : s.dram.readChunk write.object.handle = .error (invalidHandle write.object.handle) := by
    simp only [MemoryStore.readChunk, MemoryStore.validateAllocatedHandle, h.cold write member away]
  have stored : ssd.readObject s.files env.readFault write.object.tenantId write.object.cacheKey =
      .ok (payload writes write.object) := healthy ▸ h.files write member
  have promotes : s.Promotes env write.object.handle (some write.object.tenantId) (some write.object.cacheKey)
      (payload writes write.object) :=
    ⟨⟨_, missing, rfl⟩, ⟨ssd, _, _, h.tier, rfl, rfl, stored⟩, h.length write member, h.fits write member⟩
  have reads := readChunk_reads s env write.object.handle (some write.object.tenantId) (some write.object.cacheKey)
  generalize exec (serve env) s _ = outcome at reads ⊢
  obtain ⟨result, s'⟩ := outcome
  cases reads with
  | dram found => cases missing.symm.trans found
  | failed _ _ quiet => exact absurd promotes (quiet _)
  | ssd promoted' =>
    cases promotes.unique promoted'
    have length := promotes.length
    have fits := promotes.fits
    refine ⟨_, rfl, ⟨h.tier, h.files, h.length, fun other stays => ?_⟩, fun other stays known => ?_,
      fun other stays unknown => ?_⟩
    · have before := h.fits other stays
      exact ⟨before.1, before.2.1, (MemoryStore.filled_capacity length fits).symm ▸ before.2.2⟩
    · rcases eq_or_ne other.object write.object with here | hne
      · rw [here]
        exact MemoryStore.readChunk_filled length fits
      · have old : other.object ∈ promoted := (List.mem_append.mp known).resolve_right (by simpa using hne)
        have apart := (placed write member other stays hne.symm).2
        exact MemoryStore.readChunk_filled_of_disjoint length fits (h.fits other stays).1 apart (h.warm other stays old)
    · have hne : other.object ≠ write.object := fun here => unknown (by simp [here])
      have offsets := placed.offset_ne stays member hne (h.fits other stays).1 (h.fits write member).1
      have before := h.cold other stays fun old => unknown (List.mem_append_left _ old)
      exact (Finmap.lookup_insert_of_ne _ offsets).trans before

/-- The first read of an object that DRAM has lost promotes it, and DRAM gives every later one. -/
theorem Warm.readAll {promoted : List StoredObject} (h : s.Warm ssd writes promoted) (placed : Placed writes)
    {reads : List StoredObject} (known : ∀ object ∈ reads, ∃ write ∈ writes, write.object = object) :
    s.readAll reads = reads.mapIdx fun i object =>
      answer writes object (decide (object ∈ promoted ∨ object ∈ reads.take i)) := by
  induction reads generalizing s promoted with
  | nil => rfl
  | cons object rest ih =>
    obtain ⟨write, member, rfl⟩ := known object List.mem_cons_self
    have later : ∀ object ∈ rest, ∃ write ∈ writes, write.object = object :=
      fun object member => known object (List.mem_cons_of_mem _ member)
    rw [StoreNodeState.readAll, List.mapIdx_cons]
    by_cases here : write.object ∈ promoted
    · rw [h.read_warm (.healthy 0) member here]
      simp only [here, List.take_zero, List.not_mem_nil, or_false, decide_true, List.cons.injEq, true_and]
      rw [ih h later]
      refine congrArg (rest.mapIdx ·) (funext fun i => funext fun other => ?_)
      refine congrArg (answer writes other) (decide_eq_decide.mpr ?_)
      rw [List.take_succ_cons, List.mem_cons]
      exact ⟨Or.imp_right .inr, fun h => h.elim .inl (Or.imp_left fun same => same ▸ here)⟩
    · obtain ⟨s', ran, warm⟩ := h.read_cold placed (show (NodeEnv.healthy 0).readFault = none from rfl) member here
      rw [ran]
      simp only [here, List.take_zero, List.not_mem_nil, or_false, decide_false, List.cons.injEq, true_and]
      rw [ih warm later]
      refine congrArg (rest.mapIdx ·) (funext fun i => funext fun other => ?_)
      refine congrArg (answer writes other) (decide_eq_decide.mpr ?_)
      rw [List.take_succ_cons, List.mem_cons, List.mem_append, List.mem_singleton, or_assoc]

theorem Stores.readAll (h : s.Stores ssd writes) {reads : List StoredObject}
    (known : ∀ object ∈ reads, ∃ write ∈ writes, write.object = object) :
    s.readAll reads = reads.map fun object => answer writes object true := by
  have warm : s.Warm ssd writes (writes.map ObjectWrite.object) :=
    ⟨h.toOnSsd, fun write member _ => h.hot write member,
      fun write member away => absurd (List.mem_map_of_mem member) away⟩
  induction reads with
  | nil => rfl
  | cons object rest ih =>
    obtain ⟨write, member, rfl⟩ := known object List.mem_cons_self
    rw [StoreNodeState.readAll, warm.read_warm (.healthy 0) member (List.mem_map_of_mem member)]
    simp only [List.map_cons]
    rw [ih fun object member => known object (List.mem_cons_of_mem _ member)]

/-- A node that restarts over its files answers every read of a written object as the node before
it would have, the first time from the SSD tier and then from DRAM. -/
theorem restart_transparent (decrypts : SsdStore.Decrypts) (tier : start.ssd = some ssd) (placed : Placed writes)
    (run : Run WriteStep start writes hot) {ssdBytesCapacity : Nat}
    (restart : withSsd hot.dram.capacity ssd.root ssdBytesCapacity ssd.cipher hot.files none = .ok cold)
    {reads : List StoredObject} (known : ∀ object ∈ reads, ∃ write ∈ writes, write.object = object) :
    hot.readAll reads = (reads.map fun object => answer writes object true) ∧
      cold.readAll reads = reads.mapIdx fun i object => answer writes object (decide (object ∈ reads.take i)) := by
  have stores := Stores.run decrypts tier placed run
  have warm : cold.Warm ssd writes [] := by
    unfold withSsd SsdStore.newWithKey at restart
    by_cases key : ssd.cipher.length = 32
    · simp only [key, ↓reduceIte, Except.ok.injEq] at restart
      subst restart
      refine ⟨⟨rfl, stores.files, stores.length, fun write member => ?_⟩, by simp, fun _ _ _ => rfl⟩
      have fits := stores.fits write member
      exact ⟨fits.1, fits.2.1, by simpa [MemoryStore.capacity, MemoryStore.withCapacity] using fits.2.2⟩
    · simp only [key, ↓reduceIte, reduceCtorEq] at restart
  refine ⟨stores.readAll known, ?_⟩
  have answers := warm.readAll placed known
  simpa using answers

private def twoWrites : List ObjectWrite :=
  [⟨⟨⟨0, 2⟩, "tenant-a", "key"⟩, [1, 2]⟩, ⟨⟨⟨4, 2⟩, "tenant-b", "key"⟩, [3, 4]⟩]

omit [Sha256] [ChaCha20Poly1305] in
/-- Two objects are read after a restart, the first of them twice. -/
theorem two_objects_restart :
    let _ := sampleDigest
    let _ := sampleCipher
    ∃ hot cold : StoreNodeState, Run WriteStep ⟨.withCapacity 8, some sampleSsd, ∅, 0, ∅⟩ twoWrites hot ∧
      withSsd hot.dram.capacity sampleSsd.root 0 sampleSsd.cipher hot.files none = .ok cold ∧
      cold.readAll [⟨⟨0, 2⟩, "tenant-a", "key"⟩, ⟨⟨4, 2⟩, "tenant-b", "key"⟩, ⟨⟨0, 2⟩, "tenant-a", "key"⟩] =
        [.ok ⟨0, 2, "ssd", [1, 2]⟩, .ok ⟨4, 2, "ssd", [3, 4]⟩, .ok ⟨0, 2, "dram", [1, 2]⟩] := by
  let _ := sampleDigest
  let _ := sampleCipher
  let start : StoreNodeState := ⟨.withCapacity 8, some sampleSsd, ∅, 0, ∅⟩
  let middle := (exec (serve (.healthy 0)) start
    (StoreNode.writePreallocated (some sampleSsd) ⟨0, 2⟩ [1, 2] (some "tenant-a") (some "key"))).2
  let hot := (exec (serve (.healthy 1)) middle
    (StoreNode.writePreallocated (some sampleSsd) ⟨4, 2⟩ [3, 4] (some "tenant-b") (some "key"))).2
  have first : start.WriteStep ⟨⟨⟨0, 2⟩, "tenant-a", "key"⟩, [1, 2]⟩ middle := ⟨.healthy 0, rfl⟩
  have second : middle.WriteStep ⟨⟨⟨4, 2⟩, "tenant-b", "key"⟩, [3, 4]⟩ hot := ⟨.healthy 1, rfl⟩
  have run : Run WriteStep start twoWrites hot := (Run.start.snoc first).snoc second
  have placed : Placed twoWrites := by simp [Placed, twoWrites, ChunkHandle.Overlaps]
  have restart : withSsd hot.dram.capacity sampleSsd.root 0 sampleSsd.cipher hot.files none =
      .ok ⟨.withCapacity hot.dram.capacity, some sampleSsd, ∅, 0, hot.files⟩ := rfl
  have tier : start.ssd = some sampleSsd := rfl
  have known : ∀ object ∈ [(⟨⟨0, 2⟩, "tenant-a", "key"⟩ : StoredObject), ⟨⟨4, 2⟩, "tenant-b", "key"⟩,
      ⟨⟨0, 2⟩, "tenant-a", "key"⟩], ∃ write ∈ twoWrites, write.object = object := by simp [twoWrites]
  have answers := (restart_transparent sampleCipher_decrypts tier placed run restart known).2
  exact ⟨hot, _, run, restart, answers.trans rfl⟩

end StoreNodeState
end Mooncache
