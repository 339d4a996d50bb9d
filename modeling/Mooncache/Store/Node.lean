import Mooncache.Foundation.Program
import Mooncache.Store.Memory
import Mooncache.Store.Ssd

/-! The store node: chunks in DRAM, objects on SSD, and the sizes it has recorded for them. Every
effect of a request on one of the three is a call. -/
namespace Mooncache

inductive StoreNodeError where
  | store (err : StoreError)
  | ssd (err : SsdError)
  deriving DecidableEq

structure ReadChunkResponse where
  offset : Nat
  len : Nat
  tier : String
  data : List UInt8
  deriving DecidableEq

/-- The SSD files are kept here beside the fields of the source: they outlive the node. -/
structure StoreNodeState where
  dram : MemoryStore
  ssd : Option SsdStore
  ssdObjects : Table (String × String) Nat
  ssdBytesCapacity : Nat
  files : Files

inductive NodeCall where
  | allocateAndWrite (len : Nat) (data : List UInt8)
  | writePreallocatedChunk (handle : ChunkHandle) (bytes : List UInt8)
  | readChunk (handle : ChunkHandle)
  | persistObject (ssd : SsdStore) (tenantId cacheKey : String) (bytes : List UInt8)
  | promoteToDram (ssd : SsdStore) (tenantId cacheKey : String)
  | recordSsdObject (tenantId cacheKey : String) (len : Nat)

abbrev NodeCall.Reply : NodeCall → Type
  | allocateAndWrite _ _ => StoreResult ChunkHandle
  | writePreallocatedChunk _ _ => StoreResult Unit
  | readChunk _ => StoreResult (List UInt8)
  | persistObject _ _ _ _ => SsdResult Unit
  | promoteToDram _ _ _ => SsdResult (List UInt8)
  | recordSsdObject _ _ _ => Unit

abbrev NodeProgram := Program NodeCall NodeCall.Reply

abbrev NodeEvent := Event NodeCall NodeCall.Reply

/-- What the file system and the random generator do during a request. -/
structure NodeEnv where
  persist : PersistEnv
  readFault : Option String

/-- No call to the file system fails; the random bytes are all the same. -/
def NodeEnv.healthy (byte : UInt8) : NodeEnv :=
  ⟨⟨Vector.replicate 12 byte, Vector.replicate 8 byte, none, none⟩, none⟩

namespace StoreNode
open Program (perform)

def canPromoteFromSsd (ssd : Option SsdStore) (tenantId cacheKey : Option String) : Bool :=
  ssd.isSome && tenantId.isSome && cacheKey.isSome

def allocateAndWrite (len : Nat) (data : List UInt8) : NodeProgram (StoreResult ChunkHandle) :=
  perform (NodeCall.allocateAndWrite len data)

def writePreallocated (ssd : Option SsdStore) (handle : ChunkHandle) (bytes : List UInt8)
    (tenantId cacheKey : Option String) : NodeProgram (Except StoreNodeError Unit) := do
  match ← perform (NodeCall.writePreallocatedChunk handle bytes) with
  | .error err => return .error (.store err)
  | .ok () =>
    match ssd, tenantId, cacheKey with
    | some ssd, some tenantId, some cacheKey =>
      match ← perform (NodeCall.persistObject ssd tenantId cacheKey bytes) with
      | .error err => return .error (.ssd err)
      | .ok () =>
        let () ← perform (NodeCall.recordSsdObject tenantId cacheKey bytes.length)
        return .ok ()
    | _, _, _ => return .ok ()

/-- The two errors for which the object may be on SSD. -/
def missingInDram : StoreError → Bool
  | .invalidHandle _ _ | .unwrittenChunk => true
  | _ => false

def readChunk (ssd : Option SsdStore) (handle : ChunkHandle) (tenantId cacheKey : Option String) :
    NodeProgram (Except StoreNodeError ReadChunkResponse) := do
  match ← perform (NodeCall.readChunk handle) with
  | .ok data => return .ok ⟨handle.offset, handle.len, "dram", data⟩
  | .error err =>
    if missingInDram err && canPromoteFromSsd ssd tenantId cacheKey then
      match ssd, tenantId, cacheKey with
      | some ssd, some tenantId, some cacheKey =>
        match ← perform (NodeCall.promoteToDram ssd tenantId cacheKey) with
        | .error err => return .error (.ssd err)
        | .ok data =>
          match ← perform (NodeCall.writePreallocatedChunk handle data) with
          | .error err => return .error (.store err)
          | .ok () => return .ok ⟨handle.offset, handle.len, "ssd", data⟩
      | _, _, _ => return .error (.store err)
    else return .error (.store err)

end StoreNode

namespace StoreNodeState

def memoryOnly (dramCapacity : Nat) : StoreNodeState := ⟨.withCapacity dramCapacity, none, ∅, 0, ∅⟩

/-- A node over the files that are there. -/
def withSsd (dramCapacity : Nat) (ssdRoot : PathBuf) (ssdBytesCapacity : Nat) (ssdKey : List UInt8)
    (files : Files) (fault : Option String) : SsdResult StoreNodeState :=
  match SsdStore.newWithKey ssdRoot ssdKey fault with
  | .error err => .error err
  | .ok ssd => .ok ⟨.withCapacity dramCapacity, some ssd, ∅, ssdBytesCapacity, files⟩

def recordSsdObject (s : StoreNodeState) (tenantId cacheKey : String) (len : Nat) : StoreNodeState :=
  { s with ssdObjects := s.ssdObjects.insert (tenantId, cacheKey) len }

def ssdBytesUsed (s : StoreNodeState) : Nat := Table.saturatingTotal (fun _ len => len) s.ssdObjects

variable [Sha256]

/-- Both steps under one lock of the DRAM store. -/
def allocateAndWrite (s : StoreNodeState) (len : Nat) (data : List UInt8) :
    StoreResult ChunkHandle × StoreNodeState :=
  match s.dram.allocate len with
  | (.error err, dram) => (.error err, { s with dram := dram })
  | (.ok handle, dram) =>
    match dram.writeChunk handle data with
    | (.error err, dram) => (.error err, { s with dram := dram })
    | (.ok (), dram) => (.ok handle, { s with dram := dram })

variable [ChaCha20Poly1305]

def serve (env : NodeEnv) (s : StoreNodeState) : (call : NodeCall) → call.Reply × StoreNodeState
  | .allocateAndWrite len data => s.allocateAndWrite len data
  | .writePreallocatedChunk handle bytes =>
    ((s.dram.writePreallocatedChunk handle bytes).1,
      { s with dram := (s.dram.writePreallocatedChunk handle bytes).2 })
  | .readChunk handle => (s.dram.readChunk handle, s)
  | .persistObject ssd tenantId cacheKey bytes =>
    ((ssd.persistObject s.files env.persist tenantId cacheKey bytes).1,
      { s with files := (ssd.persistObject s.files env.persist tenantId cacheKey bytes).2 })
  | .promoteToDram ssd tenantId cacheKey => (ssd.promoteToDram s.files env.readFault tenantId cacheKey, s)
  | .recordSsdObject tenantId cacheKey len => ((), s.recordSsdObject tenantId cacheKey len)

end StoreNodeState

/-- A request with its arguments. -/
inductive NodeRequest where
  | allocateAndWrite (len : Nat) (data : List UInt8)
  | writePreallocated (handle : ChunkHandle) (bytes : List UInt8) (tenantId cacheKey : Option String)
  | readChunk (handle : ChunkHandle) (tenantId cacheKey : Option String)

inductive NodeResponse where
  | allocated (handle : ChunkHandle)
  | written
  | read (response : ReadChunkResponse)

namespace StoreNodeState
variable [Sha256] [ChaCha20Poly1305]

/-- One request alone. -/
def request (env : NodeEnv) (s : StoreNodeState) : NodeRequest → Except StoreNodeError NodeResponse × StoreNodeState
  | .allocateAndWrite len data =>
    let (result, s') := Program.exec (serve env) s (StoreNode.allocateAndWrite len data)
    (result.mapError .store |>.map .allocated, s')
  | .writePreallocated handle bytes tenantId cacheKey =>
    let (result, s') := Program.exec (serve env) s (StoreNode.writePreallocated s.ssd handle bytes tenantId cacheKey)
    (result.map fun () => .written, s')
  | .readChunk handle tenantId cacheKey =>
    let (result, s') := Program.exec (serve env) s (StoreNode.readChunk s.ssd handle tenantId cacheKey)
    (result.map .read, s')

end StoreNodeState
end Mooncache
