import Mooncache.Store.Requests

/-! Whose bytes a read returns, over every run of writes and reads on one store node. -/
namespace Mooncache
open Program (exec)

/-- A write or a read under an identity, with its result. -/
inductive NodeAccess where
  | write (handle : ChunkHandle) (bytes : List UInt8) (tenantId cacheKey : String) (result : Except StoreNodeError Unit)
  | read (handle : ChunkHandle) (tenantId cacheKey : String) (result : Except StoreNodeError ReadChunkResponse)

/-- Bytes that were put in DRAM under an identity. -/
structure Fill where
  bytes : List UInt8
  tenantId : String
  cacheKey : String

/-- What an access put in DRAM: a write that DRAM took, or an object that a read promoted. -/
def NodeAccess.fill : NodeAccess → Option (ChunkHandle × Fill)
  | write handle bytes tenantId cacheKey (.ok ()) | write handle bytes tenantId cacheKey (.error (.ssd _)) =>
    some (handle, ⟨bytes, tenantId, cacheKey⟩)
  | read handle tenantId cacheKey (.ok response) =>
    if response.tier = "ssd" then some (handle, ⟨response.data, tenantId, cacheKey⟩) else none
  | _ => none

def fills (served : List NodeAccess) : List (ChunkHandle × Fill) := served.filterMap NodeAccess.fill

/-- A write among the accesses carried the identity and the bytes. -/
def WrittenFor (served : List NodeAccess) (tenantId cacheKey : String) (bytes : List UInt8) : Prop :=
  ∃ handle result, .write handle bytes tenantId cacheKey result ∈ served

/-- Every read that succeeds returns what an earlier write carried under the same identity. -/
def ReadsOwn (served : List NodeAccess) : Prop :=
  ∀ before handle tenantId cacheKey response after,
    served = before ++ .read handle tenantId cacheKey (.ok response) :: after →
    WrittenFor before tenantId cacheKey response.data

/-- A node with the accesses it has served. -/
structure ServedNode where
  node : StoreNodeState
  served : List NodeAccess

theorem fills_snoc (served : List NodeAccess) (access : NodeAccess) :
    fills (served ++ [access]) = fills served ++ access.fill.toList := by
  rw [fills, List.filterMap_append]
  cases h : access.fill <;> simp [fills, h]

theorem WrittenFor.snoc {served : List NodeAccess} {tenantId cacheKey : String} {bytes : List UInt8}
    (h : WrittenFor served tenantId cacheKey bytes) (access : NodeAccess) :
    WrittenFor (served ++ [access]) tenantId cacheKey bytes := by
  obtain ⟨handle, result, member⟩ := h
  exact ⟨handle, result, List.mem_append_left _ member⟩

/-- A run that does not end in a successful read adds nothing to be isolated. -/
theorem ReadsOwn.snoc {served : List NodeAccess} {access : NodeAccess} (h : ReadsOwn served)
    (last : ∀ handle tenantId cacheKey response, access = .read handle tenantId cacheKey (.ok response) →
      WrittenFor served tenantId cacheKey response.data) : ReadsOwn (served ++ [access]) := by
  intro before handle tenantId cacheKey response after split
  rcases List.eq_nil_or_concat after with rfl | ⟨rest, final, rfl⟩
  · obtain ⟨rfl, same⟩ := List.append_inj' split rfl
    exact last handle tenantId cacheKey response (List.cons.inj same).1
  · rw [List.concat_eq_append, ← List.cons_append, ← List.append_assoc] at split
    obtain ⟨earlier, _⟩ := List.append_inj' split rfl
    exact h before handle tenantId cacheKey response rest earlier

namespace ServedNode
variable [Sha256] [ChaCha20Poly1305] {s s' : ServedNode} {capacity : Nat} {access : NodeAccess}

/-- An empty node over an empty root. -/
def start (capacity : Nat) (ssd : Option SsdStore) (ssdBytesCapacity : Nat) : ServedNode :=
  ⟨⟨.withCapacity capacity, ssd, ∅, ssdBytesCapacity, ∅⟩, []⟩

inductive Step (s : ServedNode) : NodeAccess → ServedNode → Prop
  | write (env : NodeEnv) {handle : ChunkHandle} {bytes : List UInt8} {tenantId cacheKey : String}
      {result : Except StoreNodeError Unit} {node : StoreNodeState} :
      exec (StoreNodeState.serve env) s.node
        (StoreNode.writePreallocated s.node.ssd handle bytes (some tenantId) (some cacheKey)) = (result, node) →
      Step s (.write handle bytes tenantId cacheKey result)
        ⟨node, s.served ++ [.write handle bytes tenantId cacheKey result]⟩
  | read (env : NodeEnv) {handle : ChunkHandle} {tenantId cacheKey : String}
      {result : Except StoreNodeError ReadChunkResponse} {node : StoreNodeState} :
      exec (StoreNodeState.serve env) s.node
        (StoreNode.readChunk s.node.ssd handle (some tenantId) (some cacheKey)) = (result, node) →
      Step s (.read handle tenantId cacheKey result) ⟨node, s.served ++ [.read handle tenantId cacheKey result]⟩

/-- A read that DRAM answers names the identity under which the chunk was last put there. -/
def OwnChunk (s : ServedNode) : NodeAccess → Prop
  | .read handle tenantId cacheKey _ => ∀ data, s.node.dram.readChunk handle = .ok data →
      ∃ bytes, lastAt handle.offset (fills s.served) = some (handle, ⟨bytes, tenantId, cacheKey⟩)
  | .write _ _ _ _ _ => True

omit [Sha256] [ChaCha20Poly1305] in
/-- The bytes put in DRAM, and the bytes that were read. -/
def digested (served : List NodeAccess) : Set (List UInt8) :=
  {bytes | (∃ fill ∈ fills served, fill.2.bytes = bytes) ∨
    ∃ handle tenantId cacheKey response, .read handle tenantId cacheKey (.ok response) ∈ served ∧ response.data = bytes}

/-- DRAM is what the fills made of it, and what is in it or on SSD came with a write. -/
structure Traced (capacity : Nat) (s : ServedNode) : Prop where
  dram : ∃ trace, Run MemoryStore.Step (.withCapacity capacity) trace s.node.dram ∧
    written trace = (fills s.served).map (Prod.map id Fill.bytes)
  filled : ∀ fill ∈ fills s.served, WrittenFor s.served fill.2.tenantId fill.2.cacheKey fill.2.bytes
  objects : ∀ ssd fault tenantId cacheKey data, s.node.ssd = some ssd →
    ssd.readObject s.node.files fault tenantId cacheKey = .ok data → WrittenFor s.served tenantId cacheKey data

theorem start_traced (capacity : Nat) (ssd : Option SsdStore) (ssdBytesCapacity : Nat) :
    (start capacity ssd ssdBytesCapacity).Traced capacity where
  dram := ⟨[], .start, rfl⟩
  filled fill member := by simp [start, fills] at member
  objects ssd fault tenantId cacheKey data _ stored := by
    have stored := SsdStore.readObject_eq_ok stored
    unfold SsdStore.readObject at stored
    cases named : ssd.objectPath tenantId cacheKey <;> simp [named, start] at stored

/-- An access that fills a chunk is one write of the chunk store, any other access is none. -/
private theorem Traced.dram_snoc (h : s.Traced capacity) {dram : MemoryStore}
    (effect : (access.fill = none ∧ dram = s.node.dram) ∨ ∃ handle fill, access.fill = some (handle, fill) ∧
      fill.bytes.length = handle.len ∧ s.node.dram.Fits handle ∧ dram = s.node.dram.filled handle fill.bytes) :
    ∃ trace, Run MemoryStore.Step (.withCapacity capacity) trace dram ∧
      written trace = (fills (s.served ++ [access])).map (Prod.map id Fill.bytes) := by
  obtain ⟨trace, run, same⟩ := h.dram
  rcases effect with ⟨quiet, rfl⟩ | ⟨handle, fill, put, length, fits, rfl⟩
  · exact ⟨trace, run, by simp [fills_snoc, quiet, same]⟩
  · have wrote := MemoryStore.writePreallocatedChunk_of_fits length fits
    have step : s.node.dram.Step _ _ := .writePreallocatedChunk handle fill.bytes
    rw [wrote] at step
    exact ⟨_, run.snoc step, by simp [written_snoc, fills_snoc, put, same, MemoryEvent.write]⟩

private theorem Traced.filled_snoc (h : s.Traced capacity)
    (own : ∀ fill, access.fill = some fill →
      WrittenFor (s.served ++ [access]) fill.2.tenantId fill.2.cacheKey fill.2.bytes) :
    ∀ fill ∈ fills (s.served ++ [access]),
      WrittenFor (s.served ++ [access]) fill.2.tenantId fill.2.cacheKey fill.2.bytes := by
  intro fill member
  rw [fills_snoc, List.mem_append, Option.mem_toList] at member
  rcases member with old | new
  · exact (h.filled fill old).snoc access
  · exact own fill new

theorem Traced.write (h : s.Traced capacity) (decrypts : SsdStore.Decrypts) {env : NodeEnv} {handle : ChunkHandle}
    {bytes : List UInt8} {tenantId cacheKey : String} {result : Except StoreNodeError Unit} {node : StoreNodeState}
    (writes : s.node.Writes env handle bytes (some tenantId) (some cacheKey) result node) :
    Traced capacity ⟨node, s.served ++ [.write handle bytes tenantId cacheKey result]⟩ := by
  have wrote : WrittenFor (s.served ++ [.write handle bytes tenantId cacheKey result]) tenantId cacheKey bytes :=
    ⟨handle, result, by simp⟩
  refine ⟨h.dram_snoc ?_, h.filled_snoc fun fill put => ?_, ?_⟩
  · cases writes with
    | refused => exact .inl ⟨rfl, rfl⟩
    | dram length fits | unpersisted length fits | persisted length fits =>
      exact .inr ⟨handle, ⟨bytes, tenantId, cacheKey⟩, rfl, length, fits, rfl⟩
  · cases writes with
    | refused => cases put
    | dram | unpersisted | persisted =>
      cases put
      exact wrote
  · intro ssd fault tenant key data tier stored
    cases writes with
    | refused | dram => exact (h.objects ssd fault tenant key data tier stored).snoc _
    | unpersisted _ _ tiered failed =>
      obtain ⟨same, named, keyed⟩ := tiered
      cases same.symm.trans tier
      rw [SsdStore.readObject_of_failed failed] at stored
      exact (h.objects ssd fault tenant key data tier stored).snoc _
    | @persisted _ _ _ left _ _ tiered persisted =>
      obtain ⟨same, named, keyed⟩ := tiered
      cases same.symm.trans tier
      cases named
      cases keyed
      by_cases own : (tenant, key) = (tenantId, cacheKey)
      · cases own
        cases (SsdStore.readObject_eq_ok stored).symm.trans (SsdStore.readObject_persist decrypts persisted)
        exact wrote
      · have kept := SsdStore.readObject_persist_of_ne ssd s.node.files env.persist bytes fault own
        rw [persisted] at kept
        exact (h.objects ssd fault tenant key data tier (kept.symm.trans stored)).snoc _

theorem Traced.read (h : s.Traced capacity) {env : NodeEnv} {handle : ChunkHandle} {tenantId cacheKey : String}
    {result : Except StoreNodeError ReadChunkResponse} {node : StoreNodeState}
    (reads : s.node.Reads env handle (some tenantId) (some cacheKey) result node) :
    Traced capacity ⟨node, s.served ++ [.read handle tenantId cacheKey result]⟩ := by
  refine ⟨h.dram_snoc ?_, h.filled_snoc fun fill put => ?_, ?_⟩
  · cases reads with
    | dram | failed => exact .inl ⟨rfl, rfl⟩
    | @ssd data promotes =>
      exact .inr ⟨handle, ⟨data, tenantId, cacheKey⟩, rfl, promotes.length, promotes.fits, rfl⟩
  · cases reads with
    | dram | failed => cases put
    | @ssd data promotes =>
      cases put
      obtain ⟨ssd, tenant, key, tier, named, keyed, stored⟩ := promotes.stored
      cases named
      cases keyed
      exact (h.objects ssd env.readFault tenantId cacheKey data tier stored).snoc _
  · intro ssd fault tenant key data tier stored
    cases reads <;> exact (h.objects ssd fault tenant key data tier stored).snoc _

theorem Traced.step (h : s.Traced capacity) (decrypts : SsdStore.Decrypts) (step : Step s access s') :
    s'.Traced capacity := by
  cases step with
  | @write env handle bytes tenantId cacheKey result node ran =>
    have writes := StoreNodeState.writePreallocated_writes s.node env handle bytes (some tenantId) (some cacheKey)
    rw [ran] at writes
    exact h.write decrypts writes
  | @read env handle tenantId cacheKey result node ran =>
    have reads := StoreNodeState.readChunk_reads s.node env handle (some tenantId) (some cacheKey)
    rw [ran] at reads
    exact h.read reads

/-- What DRAM returns is what was last put at the handle. -/
theorem Traced.sound (h : s.Traced capacity) {handle : ChunkHandle} {data : List UInt8} {fill : Fill}
    (read : s.node.dram.readChunk handle = .ok data)
    (last : lastAt handle.offset (fills s.served) = some (handle, fill))
    (free : sha256 data = sha256 fill.bytes → data = fill.bytes) : data = fill.bytes := by
  obtain ⟨trace, run, same⟩ := h.dram
  obtain ⟨content, latest, digest⟩ := (MemoryStore.run_holds run).latest _ _ _ (MemoryStore.readChunk_eq_ok.mp read).1
  rw [same, lastAt_map, last] at latest
  cases latest
  exact free digest

omit [Sha256] [ChaCha20Poly1305] in
theorem digested_mono (served : List NodeAccess) (access : NodeAccess) :
    digested served ⊆ digested (served ++ [access]) := by
  rintro bytes (⟨fill, member, rfl⟩ | ⟨handle, tenantId, cacheKey, response, member, rfl⟩)
  · exact .inl ⟨fill, by simp [fills_snoc, member], rfl⟩
  · exact .inr ⟨handle, tenantId, cacheKey, response, List.mem_append_left _ member, rfl⟩

/-- While reads that DRAM answers name the identity of the chunk they find, every read returns
what an earlier write carried under its identity. -/
theorem reads_isolated (decrypts : SsdStore.Decrypts) {ssd : Option SsdStore} {ssdBytesCapacity : Nat}
    {trace : List NodeAccess} (run : Run (Guarded OwnChunk Step) (start capacity ssd ssdBytesCapacity) trace s)
    (free : Set.InjOn sha256 (digested s.served)) : ReadsOwn s.served := by
  have holds : s.Traced capacity ∧ (Set.InjOn sha256 (digested s.served) → ReadsOwn s.served) := by
    refine run.invariant (P := fun _ s => s.Traced capacity ∧ (Set.InjOn sha256 (digested s.served) → ReadsOwn s.served))
      ⟨start_traced _ _ _, fun _ before _ _ _ _ _ split => by simp [start] at split⟩ ?_
    intro trace s access s' _ ⟨traced, isolated⟩ ⟨own, step⟩
    refine ⟨traced.step decrypts step, fun free => ?_⟩
    cases step with
    | write => exact (isolated (free.mono (digested_mono _ _))).snoc fun _ _ _ _ same => by cases same
    | @read env handle tenantId cacheKey result node ran =>
      refine (isolated (free.mono (digested_mono _ _))).snoc ?_
      intro _ _ _ response same
      cases same
      have reads := StoreNodeState.readChunk_reads s.node env handle (some tenantId) (some cacheKey)
      rw [ran] at reads
      cases reads with
      | @dram data found =>
        obtain ⟨bytes, last⟩ := own data found
        have member := mem_of_lastAt last
        have same : data = bytes := traced.sound found last fun digest =>
          free (.inr ⟨handle, tenantId, cacheKey, _, List.mem_append_right _ List.mem_cons_self, rfl⟩)
            (digested_mono _ _ (.inl ⟨_, member, rfl⟩)) digest
        exact same ▸ traced.filled _ member
      | @ssd data promotes =>
        obtain ⟨ssd, tenant, key, tier, named, keyed, stored⟩ := promotes.stored
        cases named
        cases keyed
        exact traced.objects ssd env.readFault tenantId cacheKey data tier stored
  exact holds.2 free

private def readBack (tenantId : String) : List NodeAccess :=
  [.write ⟨0, 2⟩ [1, 2] "tenant-a" "key" (.ok ()), .read ⟨0, 2⟩ tenantId "key" (.ok ⟨0, 2, "dram", [1, 2]⟩)]

omit [Sha256] [ChaCha20Poly1305] in
/-- Whoever asks for the chunk, DRAM answers. -/
private theorem readBack_runs (tenantId : String) :
    let _ := sampleDigest
    let _ := sampleCipher
    ∃ written s, Step (start 8 (some sampleSsd) 0) (.write ⟨0, 2⟩ [1, 2] "tenant-a" "key" (.ok ())) written ∧
      Step written (.read ⟨0, 2⟩ tenantId "key" (.ok ⟨0, 2, "dram", [1, 2]⟩)) s ∧ s.served = readBack tenantId ∧
      written.served = [.write ⟨0, 2⟩ [1, 2] "tenant-a" "key" (.ok ())] := by
  let _ := sampleDigest
  let _ := sampleCipher
  exact ⟨_, _, .write (.healthy 0) rfl, .read (.healthy 0) rfl, rfl, rfl⟩

omit [Sha256] [ChaCha20Poly1305] in
private theorem digested_readBack (tenantId : String) : (digested (readBack tenantId)).Subsingleton := by
  have only (bytes : List UInt8) (member : bytes ∈ digested (readBack tenantId)) : bytes = [1, 2] := by
    rcases member with ⟨fill, put, rfl⟩ | ⟨_, _, _, response, answered, rfl⟩
    · simp [readBack, fills, NodeAccess.fill] at put
      rw [put]
    · simp [readBack] at answered
      rw [answered.2.2.2]
  exact fun bytes member other also => (only bytes member).trans (only other also).symm

omit [Sha256] [ChaCha20Poly1305] in
/-- A write read back under its own identity. -/
theorem own_chunk_read_back :
    let _ := sampleDigest
    let _ := sampleCipher
    ∃ s, Run (Guarded OwnChunk Step) (start 8 (some sampleSsd) 0) (readBack "tenant-a") s ∧
      s.served = readBack "tenant-a" ∧ ReadsOwn s.served := by
  let _ := sampleDigest
  let _ := sampleCipher
  obtain ⟨written, s, write, read, served, before⟩ := readBack_runs "tenant-a"
  have own : OwnChunk written (.read ⟨0, 2⟩ "tenant-a" "key" (.ok ⟨0, 2, "dram", [1, 2]⟩)) := fun _ _ =>
    ⟨[1, 2], by rw [before]; rfl⟩
  have first : Guarded OwnChunk Step (start 8 (some sampleSsd) 0) _ written := ⟨by exact trivial, write⟩
  have run := (Run.start.snoc first).snoc (show Guarded OwnChunk Step written _ s from ⟨own, read⟩)
  exact ⟨s, run, served, reads_isolated sampleCipher_decrypts run (served ▸ (digested_readBack _).injOn _)⟩

omit [Sha256] [ChaCha20Poly1305] in
/-- The bytes of one tenant returned to another, which has written none. -/
theorem other_tenant_reads_chunk :
    ¬ ∀ [Sha256] [ChaCha20Poly1305] (capacity : Nat) (ssd : Option SsdStore) (ssdBytesCapacity : Nat)
      (trace : List NodeAccess) (s : ServedNode), SsdStore.Decrypts →
      Run Step (start capacity ssd ssdBytesCapacity) trace s → Set.InjOn sha256 (digested s.served) →
      ReadsOwn s.served := by
  intro isolated
  let _ := sampleDigest
  let _ := sampleCipher
  obtain ⟨written, s, write, read, served, _⟩ := readBack_runs "tenant-b"
  have leaked := isolated 8 (some sampleSsd) 0 _ s sampleCipher_decrypts ((Run.start.snoc write).snoc read)
    (served ▸ (digested_readBack _).injOn _)
  obtain ⟨_, _, member⟩ := leaked [_] ⟨0, 2⟩ "tenant-b" "key" ⟨0, 2, "dram", [1, 2]⟩ [] served
  simp at member

end ServedNode
end Mooncache
